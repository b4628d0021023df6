import VoiceCall.Decoding.Pool

namespace VoiceCall.Proofs.Decoding.Workers

open VoiceCall.Decoding

variable {τ σ : Type} {n : Nat} {p p' : Pool τ}

def isLeave : Job τ → Bool
  | .task _ => false
  | .leave => true

/-- Workers that were told to leave and are still on the list. -/
def owed (p : Pool τ) : Nat :=
  p.queue.countP isLeave + p.workers.countP Pool.isGone

/-- Orders that can be worked off when so many workers were told to leave: one is waited for only
after it was told, and nobody is left to wait for when the queue is emptied or all is done. -/
def Settles : Nat → List Order → Prop
  | owed, [] => owed = 0
  | owed, .dismiss :: orders => Settles (owed + 1) orders
  | owed, .release :: orders => 0 < owed ∧ Settles (owed - 1) orders
  | owed, .discard :: orders => owed = 0 ∧ Settles 0 orders

/-- A pool that will have so many workers once its orders are worked off. -/
structure Sound (n : Nat) (p : Pool τ) : Prop where
  ids : (p.workers.map Worker.id).Nodup
  fresh : ∀ w ∈ p.workers, w.id < p.nextId
  room : 0 < p.capacity
  orders : Settles (owed p) p.orders
  count : p.workers.length = n + p.orders.count .release

theorem Settles.count {owed : Nat} {orders : List Order} (h : Settles owed orders) :
    owed + orders.count .dismiss = orders.count .release := by
  induction orders generalizing owed with
  | nil => exact h
  | cons order orders ih =>
      cases order with
      | dismiss =>
          have hrest : owed + 1 + _ = _ := ih h
          simp only [List.count_cons_self,
            List.count_cons_of_ne (by decide : Order.dismiss ≠ .release)]
          omega
      | release =>
          have hrest := ih h.2
          have howed := h.1
          simp only [List.count_cons_self,
            List.count_cons_of_ne (by decide : Order.release ≠ .dismiss)]
          omega
      | discard =>
          have hrest := ih h.2
          have howed := h.1
          simp only [List.count_cons_of_ne (by decide : Order.discard ≠ .dismiss),
            List.count_cons_of_ne (by decide : Order.discard ≠ .release)]
          omega

theorem ids_ne {before behind : List (Worker τ)} {w : Worker τ}
    (h : ((before ++ w :: behind).map Worker.id).Nodup) :
    (∀ v ∈ before, v.id ≠ w.id) ∧ ∀ v ∈ behind, v.id ≠ w.id := by
  rw [List.map_append, List.map_cons, List.nodup_append] at h
  obtain ⟨-, hbehind, hapart⟩ := h
  constructor
  · intro v hmem
    exact hapart v.id (List.mem_map_of_mem hmem) w.id List.mem_cons_self
  · intro v hmem heq
    exact (List.nodup_cons.mp hbehind).1 (heq ▸ List.mem_map_of_mem hmem)

theorem setPhase_append {id : Nat} {phase : Phase τ} {before behind : List (Worker τ)}
    (hids : (p.workers.map Worker.id).Nodup)
    (hworkers : p.workers = before ++ ⟨id, phase⟩ :: behind) (other : Phase τ) :
    p.setPhase id other = before ++ ⟨id, other⟩ :: behind := by
  rw [hworkers] at hids
  obtain ⟨hbefore, hbehind⟩ := ids_ne hids
  have hkeep {workers : List (Worker τ)} (hne : ∀ v ∈ workers, v.id ≠ id) :
      (workers.map fun v => if v.id = id then { v with phase := other } else v) = workers :=
    (List.map_congr_left fun v hmem => if_neg (hne v hmem)).trans (List.map_id' workers)
  rw [Pool.setPhase, hworkers, List.map_append, List.map_cons, hkeep hbefore, hkeep hbehind,
    if_pos rfl]

theorem exists_of_phaseOf {id : Nat} {phase : Phase τ} (hids : (p.workers.map Worker.id).Nodup)
    (h : p.phaseOf id = some phase) :
    ∃ before behind, p.workers = before ++ ⟨id, phase⟩ :: behind ∧
      ∀ other, p.setPhase id other = before ++ ⟨id, other⟩ :: behind := by
  obtain ⟨w, hfind, rfl⟩ := Option.map_eq_some_iff.mp h
  obtain ⟨hid, before, behind, hworkers, -⟩ := List.find?_eq_some_iff_append.mp hfind
  obtain rfl : w.id = id := by simpa using hid
  exact ⟨before, behind, hworkers, setPhase_append hids hworkers⟩

theorem phaseOf_of_mem {w : Worker τ} (hids : (p.workers.map Worker.id).Nodup)
    (hmem : w ∈ p.workers) : p.phaseOf w.id = some w.phase := by
  obtain ⟨before, behind, hworkers⟩ := List.append_of_mem hmem
  rw [hworkers] at hids
  have hbefore : before.find? (fun v => v.id = w.id) = none :=
    List.find?_eq_none.mpr fun v hv => by simpa using (ids_ne hids).1 v hv
  rw [Pool.phaseOf, hworkers, List.find?_append, hbefore, Option.none_or, List.find?_cons_of_pos]
  · rfl
  · simp

theorem filter_append {before behind : List (Worker τ)} {w : Worker τ}
    (hids : (p.workers.map Worker.id).Nodup) (hworkers : p.workers = before ++ w :: behind) :
    p.workers.filter (·.id ≠ w.id) = before ++ behind := by
  rw [hworkers] at hids
  obtain ⟨hbefore, hbehind⟩ := ids_ne hids
  rw [hworkers, List.filter_append, List.filter_cons_of_neg (by simp),
    List.filter_eq_self.mpr fun v hmem => by simpa using hbefore v hmem,
    List.filter_eq_self.mpr fun v hmem => by simpa using hbehind v hmem]

theorem phaseOf_append {id : Nat} {phase : Phase τ} {before behind : List (Worker τ)}
    (hids : (p.workers.map Worker.id).Nodup)
    (hworkers : p.workers = before ++ ⟨id, phase⟩ :: behind) : p.phaseOf id = some phase :=
  phaseOf_of_mem (w := ⟨id, phase⟩) hids (hworkers ▸ List.mem_append_right _ List.mem_cons_self)

theorem take?_append {id : Nat} {job : Job τ} {queue : List (Job τ)}
    {before behind : List (Worker τ)} (hids : (p.workers.map Worker.id).Nodup)
    (hqueue : p.queue = job :: queue) (hworkers : p.workers = before ++ ⟨id, .idle⟩ :: behind) :
    p.take? id = some { p with
      queue := queue
      workers := before ++ ⟨id, Pool.Phase.ofJob job⟩ :: behind } := by
  rw [Pool.take?, phaseOf_append hids hworkers, hqueue]
  dsimp only
  rw [setPhase_append hids hworkers]

theorem finish?_append {id : Nat} {t : τ} {before behind : List (Worker τ)}
    (hids : (p.workers.map Worker.id).Nodup)
    (hworkers : p.workers = before ++ ⟨id, .busy t⟩ :: behind) :
    p.finish? id = some ({ p with
      workers := before ++ ⟨id, .idle⟩ :: behind
      processed := p.processed + 1 }, t) := by
  rw [Pool.finish?, phaseOf_append hids hworkers]
  dsimp only
  rw [setPhase_append hids hworkers]

/-- What a step does: a worker begins or finishes a task or takes its leave, and the owner tells
somebody to leave, strikes off somebody who has left, or drops a job until there are none. -/
inductive Stepped (p : Pool τ) : Pool.Step → Pool τ → Option τ → Prop where
  | began {id : Nat} {t : τ} {queue : List (Job τ)} {before behind : List (Worker τ)} :
      p.queue = .task t :: queue → p.workers = before ++ ⟨id, .idle⟩ :: behind →
        Stepped p (.take id)
          { p with queue := queue, workers := before ++ ⟨id, .busy t⟩ :: behind } none
  | left {id : Nat} {queue : List (Job τ)} {before behind : List (Worker τ)} :
      p.queue = .leave :: queue → p.workers = before ++ ⟨id, .idle⟩ :: behind →
        Stepped p (.take id)
          { p with queue := queue, workers := before ++ ⟨id, .gone⟩ :: behind } none
  | finished {id : Nat} {t : τ} {before behind : List (Worker τ)} :
      p.workers = before ++ ⟨id, .busy t⟩ :: behind →
        Stepped p (.finish id)
          { p with
            workers := before ++ ⟨id, .idle⟩ :: behind
            processed := p.processed + 1 } (some t)
  | dismissed {orders : List Order} : p.orders = .dismiss :: orders →
      Stepped p .order { p with queue := p.queue ++ [.leave], orders := orders } none
  | released {orders : List Order} {id : Nat} {before behind : List (Worker τ)} :
      p.orders = .release :: orders → p.workers = before ++ ⟨id, .gone⟩ :: behind →
        Stepped p .order { p with workers := before ++ behind, orders := orders } none
  | dropped {orders : List Order} {job : Job τ} {queue : List (Job τ)} :
      p.orders = .discard :: orders → p.queue = job :: queue →
        Stepped p .order { p with queue := queue } none
  | emptied {orders : List Order} : p.orders = .discard :: orders → p.queue = [] →
      Stepped p .order { p with orders := orders } none

theorem stepped_take {id : Nat} (hids : (p.workers.map Worker.id).Nodup)
    (hstep : p.take? id = some p') : Stepped p (.take id) p' none := by
  unfold Pool.take? at hstep
  split at hstep
  · rename_i job queue hphase hqueue
    obtain ⟨before, behind, hworkers, hset⟩ := exists_of_phaseOf hids hphase
    cases hstep
    rw [hset]
    cases job with
    | task t => exact .began hqueue hworkers
    | leave => exact .left hqueue hworkers
  · cases hstep

theorem stepped_finish {id : Nat} {t : τ} (hids : (p.workers.map Worker.id).Nodup)
    (hstep : p.finish? id = some (p', t)) : Stepped p (.finish id) p' (some t) := by
  unfold Pool.finish? at hstep
  split at hstep
  · rename_i done hphase
    obtain ⟨before, behind, hworkers, hset⟩ := exists_of_phaseOf hids hphase
    cases hstep
    rw [hset]
    exact .finished hworkers
  · cases hstep

theorem stepped_order (hids : (p.workers.map Worker.id).Nodup) (hstep : p.order? = some p') :
    Stepped p .order p' none := by
  unfold Pool.order? at hstep
  split at hstep
  · cases hstep
  · rename_i orders horders
    split at hstep
    · cases hstep
      exact .dismissed horders
    · cases hstep
  · rename_i orders horders
    split at hstep
    · rename_i w hfind
      cases hstep
      obtain ⟨hgone, before, behind, hworkers, -⟩ := List.find?_eq_some_iff_append.mp hfind
      rw [filter_append hids hworkers]
      rcases w with ⟨id, _ | _ | _⟩
      · cases hgone
      · cases hgone
      · exact .released horders hworkers
    · cases hstep
  · rename_i orders horders
    split at hstep
    · rename_i hqueue
      cases hstep
      exact .emptied horders hqueue
    · rename_i job queue hqueue
      cases hstep
      exact .dropped horders hqueue

theorem stepped_of_step? {step : Pool.Step} {done : Option τ}
    (hids : (p.workers.map Worker.id).Nodup) (hstep : p.step? step = some (p', done)) :
    Stepped p step p' done := by
  cases step with
  | take id =>
      obtain ⟨_, htake, ⟨⟩⟩ := Option.map_eq_some_iff.mp hstep
      exact stepped_take hids htake
  | finish id =>
      obtain ⟨⟨_, _⟩, hfinish, ⟨⟩⟩ := Option.map_eq_some_iff.mp hstep
      exact stepped_finish hids hfinish
  | order =>
      obtain ⟨_, horder, ⟨⟩⟩ := Option.map_eq_some_iff.mp hstep
      exact stepped_order hids horder

theorem sound_setPhase {id : Nat} {phase other : Phase τ} {before behind : List (Worker τ)}
    {queue : List (Job τ)} (h : Sound n p) (hworkers : p.workers = before ++ ⟨id, phase⟩ :: behind)
    (howed : queue.countP isLeave + (before ++ ⟨id, other⟩ :: behind).countP Pool.isGone = owed p)
    (processed : Nat) :
    Sound n { p with
      queue := queue
      workers := before ++ ⟨id, other⟩ :: behind
      processed := processed } := by
  obtain ⟨hids, hfresh, hroom, horders, hcount⟩ := h
  rw [hworkers] at hids hfresh hcount
  refine ⟨?_, ?_, hroom, ?_, ?_⟩
  · simpa using hids
  · intro w hmem
    rcases List.mem_append.mp hmem with hmem | hmem
    · exact hfresh w (List.mem_append_left _ hmem)
    · rcases List.mem_cons.mp hmem with rfl | hmem
      · exact hfresh ⟨id, phase⟩ (by simp)
      · exact hfresh w (by simp [hmem])
  · change Settles (_ + _) _
    rwa [howed]
  · simpa using hcount

theorem sound_dismiss {orders : List Order} (h : Sound n p)
    (horders : p.orders = .dismiss :: orders) :
    Sound n { p with queue := p.queue ++ [.leave], orders := orders } := by
  refine ⟨h.ids, h.fresh, h.room, ?_, ?_⟩
  · have howed : owed { p with queue := p.queue ++ [.leave], orders := orders } = owed p + 1 := by
      simp [owed, isLeave]
      omega
    have hsettles := h.orders
    rw [horders] at hsettles
    rw [howed]
    exact hsettles
  · have hcount := h.count
    rw [horders] at hcount
    simpa using hcount

theorem sound_release {orders : List Order} {before behind : List (Worker τ)} {w : Worker τ}
    (h : Sound n p) (horders : p.orders = .release :: orders)
    (hworkers : p.workers = before ++ w :: behind) (hgone : Pool.isGone w) :
    Sound n { p with workers := before ++ behind, orders := orders } := by
  obtain ⟨hids, hfresh, hroom, hsettles, hcount⟩ := h
  rw [hworkers] at hids hfresh hcount
  rw [horders] at hsettles hcount
  have hkept : (before ++ behind).Sublist (before ++ w :: behind) :=
    (List.Sublist.refl before).append (List.sublist_cons_self w behind)
  refine ⟨hids.sublist (hkept.map Worker.id), fun v hmem => hfresh v (hkept.subset hmem), hroom, ?_,
    ?_⟩
  · have howed : owed { p with workers := before ++ behind, orders := orders } = owed p - 1 := by
      simp [owed, hworkers, hgone]
      omega
    rw [howed]
    exact hsettles.2
  · simp only [List.length_append, List.length_cons, List.count_cons_self] at hcount ⊢
    omega

theorem sound_discard {orders : List Order} {job : Job τ} {queue : List (Job τ)} (h : Sound n p)
    (horders : p.orders = .discard :: orders) (hqueue : p.queue = job :: queue) :
    Sound n { p with queue := queue } := by
  obtain ⟨hids, hfresh, hroom, hsettles, hcount⟩ := h
  rw [horders] at hsettles
  refine ⟨hids, hfresh, hroom, ?_, hcount⟩
  have howed := hsettles.1
  have hnone : owed { p with queue := queue } = 0 := by
    simp only [owed, hqueue, List.countP_cons] at howed ⊢
    omega
  change Settles (owed { p with queue := queue }) p.orders
  rw [hnone, horders]
  exact ⟨rfl, hsettles.2⟩

theorem sound_discarded {orders : List Order} (h : Sound n p)
    (horders : p.orders = .discard :: orders) : Sound n { p with orders := orders } := by
  obtain ⟨hids, hfresh, hroom, hsettles, hcount⟩ := h
  rw [horders] at hsettles hcount
  refine ⟨hids, hfresh, hroom, ?_, by simpa using hcount⟩
  change Settles (owed p) orders
  rw [hsettles.1]
  exact hsettles.2

/-- Every step keeps what the pool is brought to and brings the pool closer to rest. -/
theorem sound_step {step : Pool.Step} {done : Option τ} (h : Sound n p)
    (hstep : p.step? step = some (p', done)) : Sound n p' ∧ p'.effort < p.effort := by
  cases stepped_of_step? h.ids hstep with
  | began hqueue hworkers =>
      refine ⟨sound_setPhase h hworkers ?_ p.processed, ?_⟩
      · simp [owed, hqueue, hworkers, isLeave, Pool.isGone]
      · simp [Pool.effort, hqueue, hworkers, Pool.isBusy, List.countP_cons]
        omega
  | left hqueue hworkers =>
      refine ⟨sound_setPhase h hworkers ?_ p.processed, ?_⟩
      · simp [owed, hqueue, hworkers, isLeave, Pool.isGone, List.countP_cons]
        omega
      · simp [Pool.effort, hqueue, hworkers, Pool.isBusy]
  | finished hworkers =>
      refine ⟨sound_setPhase h hworkers ?_ (p.processed + 1), ?_⟩
      · simp [owed, hworkers, Pool.isGone]
      · simp [Pool.effort, hworkers, Pool.isBusy, List.countP_cons]
  | dismissed horders =>
      refine ⟨sound_dismiss h horders, ?_⟩
      simp [Pool.effort, horders]
      omega
  | released horders hworkers =>
      refine ⟨sound_release h horders hworkers rfl, ?_⟩
      simp [Pool.effort, horders, hworkers, List.countP_cons]
      omega
  | dropped horders hqueue =>
      refine ⟨sound_discard h horders hqueue, ?_⟩
      simp [Pool.effort, hqueue]
  | emptied horders hqueue =>
      refine ⟨sound_discarded h horders, ?_⟩
      simp [Pool.effort, horders]

theorem length_eq_countP (workers : List (Worker τ)) :
    workers.length =
      workers.countP Pool.isIdle + workers.countP Pool.isBusy + workers.countP Pool.isGone := by
  induction workers with
  | nil => rfl
  | cons w workers ih =>
      rcases w with ⟨id, phase⟩
      cases phase <;> simp [Pool.isIdle, Pool.isBusy, Pool.isGone, List.countP_cons] <;> omega

/-- Workers that are not on their way out are as many as are to stay and to be told yet. -/
theorem staying (h : Sound n p) :
    p.workers.countP Pool.isIdle + p.workers.countP Pool.isBusy =
      n + p.queue.countP isLeave + p.orders.count .dismiss := by
  have hlength := length_eq_countP p.workers
  have hcount := h.count
  have hsettles := h.orders.count
  simp only [owed] at hsettles
  omega

theorem isSome_step {step : Pool.Step} (h : Sound n p) (henabled : p.enabled? = some step) :
    (p.step? step).isSome := by
  unfold Pool.enabled? at henabled
  split at henabled
  · rename_i w hfind
    cases henabled
    have hphase := phaseOf_of_mem h.ids (List.mem_of_find?_eq_some hfind)
    have hbusy := List.find?_some hfind
    rcases w with ⟨id, _ | t | _⟩
    · cases hbusy
    · simp [Pool.step?, Pool.finish?, hphase]
    · cases hbusy
  · split at henabled
    · rename_i w job queue hfind hqueue
      cases henabled
      have hphase := phaseOf_of_mem h.ids (List.mem_of_find?_eq_some hfind)
      have hidle := List.find?_some hfind
      rcases w with ⟨id, _ | _ | _⟩
      · simp [Pool.step?, Pool.take?, hphase, hqueue]
      · cases hidle
      · cases hidle
    · split at henabled
      · rename_i horder
        cases henabled
        simpa [Pool.step?] using horder
      · cases henabled

theorem isSome_order (h : Sound n p) (horders : p.orders ≠ [])
    (hbusy : p.workers.countP Pool.isBusy = 0)
    (hstuck : p.queue = [] ∨ p.workers.countP Pool.isIdle = 0) : p.order?.isSome := by
  have hstaying := staying h
  have hsettles := h.orders
  unfold Pool.order?
  split
  · rename_i hnil
    exact absurd hnil horders
  · rename_i orders hdismiss
    have hempty : p.queue = [] := by
      refine hstuck.resolve_right fun hzero => ?_
      rw [hdismiss, List.count_cons_self] at hstaying
      omega
    rw [if_pos (by rw [hempty]; exact h.room)]
    rfl
  · rename_i orders hrelease
    rw [hrelease] at hsettles
    have hgone : 0 < p.workers.countP Pool.isGone := by
      have howed := hsettles.1
      rcases hstuck with hempty | hzero
      · simpa [owed, hempty] using howed
      · simp only [owed] at howed
        omega
    obtain ⟨w, hmem, hw⟩ := List.countP_pos_iff.mp hgone
    cases hfind : p.workers.find? Pool.isGone with
    | none => exact absurd hw (List.find?_eq_none.mp hfind w hmem)
    | some v => rfl
  · split <;> rfl

/-- Something can move as long as there are orders: whoever holds them up has work. -/
theorem exists_enabled (h : Sound n p) (horders : p.orders ≠ []) :
    ∃ step, p.enabled? = some step := by
  unfold Pool.enabled?
  split
  · exact ⟨_, rfl⟩
  · rename_i hbusy
    have hnone : p.workers.countP Pool.isBusy = 0 :=
      List.countP_eq_zero.mpr (List.find?_eq_none.mp hbusy)
    split
    · exact ⟨_, rfl⟩
    · rename_i hidle
      have hstuck : p.queue = [] ∨ p.workers.countP Pool.isIdle = 0 := by
        cases hqueue : p.queue with
        | nil => exact .inl rfl
        | cons job queue =>
            refine .inr (List.countP_eq_zero.mpr fun w hmem hw => ?_)
            cases hfind : p.workers.find? Pool.isIdle with
            | none => exact List.find?_eq_none.mp hfind w hmem hw
            | some v => exact hidle v job queue hfind hqueue
      rw [if_pos (isSome_order h horders hnone hstuck)]
      exact ⟨_, rfl⟩

theorem orders_eq_nil_of_stuck (h : Sound n p) (hstuck : p.enabled?.bind p.step? = none) :
    p.orders = [] := by
  refine Decidable.byContradiction fun horders => ?_
  obtain ⟨step, henabled⟩ := exists_enabled h horders
  have hstep := isSome_step h henabled
  rw [henabled, Option.bind_some] at hstuck
  rw [hstuck] at hstep
  cases hstep

/-- The owner's orders keep somebody moving, whoever of those that can move is chosen. -/
def Restless (next : Pool τ → Option Pool.Step) : Prop :=
  ∀ {n : Nat} {p : Pool τ}, Sound n p → (next p).bind p.step? = none → p.orders = []

theorem restless_urgent : Restless (Pool.urgent? : Pool τ → Option Pool.Step) := by
  intro n p h hstuck
  unfold Pool.urgent? at hstuck
  split at hstuck
  · rename_i hnone
    exact List.isEmpty_iff.mp hnone
  · exact orders_eq_nil_of_stuck h hstuck

section
variable {next : Pool τ → Option Pool.Step} {effect : τ → σ → σ}

/-- What every step keeps is kept by all of them. -/
theorem runFor_invariant {P : Pool τ → σ → Prop}
    (hmoved : ∀ {p p' : Pool τ} {step s}, p.step? step = some (p', none) → P p s → P p' s)
    (hdone : ∀ {p p' : Pool τ} {step t s}, p.step? step = some (p', some t) → P p s →
      P p' (effect t s))
    (fuel : Nat) {s : σ} (h : P p s) :
    P (Pool.runFor next effect fuel p s).1 (Pool.runFor next effect fuel p s).2 := by
  induction fuel generalizing p s with
  | zero => exact h
  | succ fuel ih =>
      rw [Pool.runFor]
      split
      · exact h
      · rename_i hstep
        obtain ⟨step, -, hstep⟩ := Option.bind_eq_some_iff.mp hstep
        exact ih (hmoved hstep h)
      · rename_i hstep
        obtain ⟨step, -, hstep⟩ := Option.bind_eq_some_iff.mp hstep
        exact ih (hdone hstep h)

theorem sound_runFor (fuel : Nat) (h : Sound n p) (s : σ) :
    Sound n (Pool.runFor next effect fuel p s).1 :=
  runFor_invariant (P := fun p _ => Sound n p) (fun hstep h => (sound_step h hstep).1)
    (fun hstep h => (sound_step h hstep).1) fuel h

theorem orders_runFor (hnext : Restless next) {fuel : Nat} (h : Sound n p)
    (hfuel : p.effort ≤ fuel) (s : σ) :
    (Pool.runFor next effect fuel p s).1.orders = [] := by
  induction fuel generalizing p s with
  | zero =>
      -- no effort is left, and every step would take some
      refine hnext h (Option.eq_none_iff_forall_ne_some.mpr ?_)
      rintro ⟨p', done⟩ hstep
      obtain ⟨step, -, hstep⟩ := Option.bind_eq_some_iff.mp hstep
      have heffort := (sound_step h hstep).2
      omega
  | succ fuel ih =>
      rw [Pool.runFor]
      split
      · rename_i hstuck
        exact hnext h hstuck
      all_goals
        rename_i hstep
        obtain ⟨step, -, hstep⟩ := Option.bind_eq_some_iff.mp hstep
        obtain ⟨hsound, heffort⟩ := sound_step h hstep
        exact ih hsound (by omega) _

end

/-- A pool with nothing left to do for its owner, and so many workers. -/
structure Rests (n : Nat) (p : Pool τ) : Prop where
  sound : Sound n p
  orders : p.orders = []

theorem Rests.workerCount (h : Rests n p) : p.workerCount = n := by
  have hcount := h.sound.count
  rwa [h.orders] at hcount

/-- Nobody was told to leave and is still there. -/
theorem Rests.owed (h : Rests n p) :
    p.queue.countP isLeave = 0 ∧ p.workers.countP Pool.isGone = 0 := by
  have howed := h.sound.orders
  rw [h.orders, Settles, Workers.owed] at howed
  exact Nat.add_eq_zero_iff.mp howed

theorem Rests.leave_not_mem (h : Rests n p) : .leave ∉ p.queue :=
  fun hleave => List.countP_eq_zero.mp h.owed.1 _ hleave rfl

theorem rests_settle (effect : τ → σ → σ) (h : Sound n p) (s : σ) :
    Rests n (p.settle effect s).1 :=
  ⟨sound_runFor p.effort h s, orders_runFor orders_eq_nil_of_stuck h (Nat.le_refl _) s⟩

theorem rests_obey (effect : τ → σ → σ) (h : Sound n p) (s : σ) : Rests n (p.obey effect s).1 :=
  ⟨sound_runFor p.effort h s, orders_runFor restless_urgent h (Nat.le_refl _) s⟩

/-- The step that a worker takes; it is none of the owner's. -/
theorem exists_worker_step {place : Nat} {step : Pool.Step} (h : p.stepAt? place = some step) :
    ∃ id, step = .take id ∨ step = .finish id := by
  unfold Pool.stepAt? at h
  split at h
  · cases h
    exact ⟨_, .inl rfl⟩
  · cases h
    exact ⟨_, .inr rfl⟩
  · cases h

theorem rests_stepAt {place : Nat} {done : Option τ} (h : Rests n p)
    (hstep : (p.stepAt? place).bind p.step? = some (p', done)) : Rests n p' := by
  obtain ⟨step, hat, hstep⟩ := Option.bind_eq_some_iff.mp hstep
  refine ⟨(sound_step h.sound hstep).1, ?_⟩
  obtain ⟨id, rfl | rfl⟩ := exists_worker_step hat
  · obtain ⟨_, htake, ⟨⟩⟩ := Option.map_eq_some_iff.mp hstep
    unfold Pool.take? at htake
    split at htake
    · cases htake
      exact h.orders
    · cases htake
  · obtain ⟨⟨_, _⟩, hfinish, ⟨⟩⟩ := Option.map_eq_some_iff.mp hstep
    unfold Pool.finish? at hfinish
    split at hfinish
    · cases hfinish
      exact h.orders
    · cases hfinish

theorem rests_create (maxWorkers capacity : Nat) :
    Rests 0 (Pool.create maxWorkers capacity : Pool τ) where
  sound := ⟨List.nodup_nil, nofun, Nat.lt_of_lt_of_le Nat.one_pos (Nat.le_max_right _ _), rfl, rfl⟩
  orders := rfl

theorem submit_cases (p : Pool τ) (t : τ) :
    p.submit t = ({ p with queue := p.queue ++ [.task t] }, true) ∨
      p.submit t = ({ p with refused := p.refused + 1 }, false) := by
  rw [Pool.submit]
  split
  · exact .inl rfl
  · exact .inr rfl

theorem sound_submit (h : Sound n p) (t : τ) : Sound n (p.submit t).1 := by
  obtain ⟨hids, hfresh, hroom, hsettles, hcount⟩ := h
  rcases submit_cases p t with hsubmit | hsubmit
  · rw [hsubmit]
    refine ⟨hids, hfresh, hroom, ?_, hcount⟩
    have howed : owed { p with queue := p.queue ++ [.task t] } = owed p := by
      simp [owed, isLeave]
    change Settles (owed { p with queue := p.queue ++ [.task t] }) p.orders
    rwa [howed]
  · rw [hsubmit]
    exact ⟨hids, hfresh, hroom, hsettles, hcount⟩

theorem rests_submit (h : Rests n p) (t : τ) : Rests n (p.submit t).1 := by
  refine ⟨sound_submit h.sound t, ?_⟩
  rcases submit_cases p t with hsubmit | hsubmit
  · rw [hsubmit]
    exact h.orders
  · rw [hsubmit]
    exact h.orders

theorem rests_addWorker (h : Rests n p) (hroom : n < p.maxWorkers) :
    Rests (n + 1) p.addWorker.1 ∧ p.addWorker.1.maxWorkers = p.maxWorkers := by
  have hcount : p.workers.length = n := h.workerCount
  obtain ⟨⟨hids, hfresh, hpositive, hsettles, -⟩, horders⟩ := h
  rw [Pool.addWorker, if_pos (hcount ▸ hroom)]
  refine ⟨⟨⟨?_, ?_, hpositive, ?_, ?_⟩, horders⟩, rfl⟩
  · rw [List.map_append, List.nodup_append]
    refine ⟨hids, by simp, ?_⟩
    intro id hid other hother
    obtain ⟨w, hmem, rfl⟩ := List.mem_map.mp hid
    obtain rfl := List.mem_singleton.mp hother
    exact Nat.ne_of_lt (hfresh w hmem)
  · intro w hmem
    rcases List.mem_append.mp hmem with hmem | hmem
    · exact Nat.lt_succ_of_lt (hfresh w hmem)
    · obtain rfl := List.mem_singleton.mp hmem
      exact Nat.lt_succ_self _
  · have howed : owed { p with
        workers := p.workers ++ [⟨p.nextId, .idle⟩]
        nextId := p.nextId + 1 } = owed p := by
      simp [owed, Pool.isGone]
    rwa [howed]
  · simp [horders, hcount]

theorem rests_addWorkers (h : Rests n p) {count : Nat} (hroom : n + count ≤ p.maxWorkers) :
    Rests (n + count) (p.addWorkers count) := by
  induction count generalizing n p with
  | zero => exact h
  | succ count ih =>
      obtain ⟨hadded, hmost⟩ := rests_addWorker h (by omega)
      rw [Pool.addWorkers, Nat.add_comm count 1, ← Nat.add_assoc]
      exact ih hadded (by omega)

/-- New orders for a pool at rest. -/
theorem sound_orders {k : Nat} {orders : List Order} (h : Rests n p) (hsettles : Settles 0 orders)
    (hcount : n = k + orders.count .release) : Sound k { p with orders := p.orders ++ orders } := by
  have howed : owed p = 0 := by
    have hnone := h.sound.orders
    rwa [h.orders] at hnone
  refine ⟨h.sound.ids, h.sound.fresh, h.sound.room, ?_, ?_⟩
  · change Settles (owed p) (p.orders ++ orders)
    rwa [howed, h.orders, List.nil_append]
  · rw [h.orders, List.nil_append, ← hcount]
    exact h.workerCount

theorem settles_dismiss_release (count : Nat) :
    Settles 0 (List.replicate count [Order.dismiss, .release]).flatten := by
  induction count with
  | zero => rfl
  | succ count ih => exact ⟨Nat.one_pos, ih⟩

theorem count_dismiss_release (count : Nat) :
    (List.replicate count [Order.dismiss, .release]).flatten.count .release = count := by
  induction count with
  | zero => rfl
  | succ count ih =>
      rw [List.replicate_succ, List.flatten_cons, List.count_append, ih]
      exact Nat.add_comm 1 count

theorem settles_dismiss_append {owed : Nat} (count : Nat) {orders : List Order}
    (h : Settles (owed + count) orders) :
    Settles owed (List.replicate count .dismiss ++ orders) := by
  induction count generalizing owed with
  | zero => exact h
  | succ count ih => exact @ih (owed + 1) (by rwa [Nat.add_assoc, Nat.add_comm 1])

theorem settles_release_append (count : Nat) {orders : List Order} (h : Settles 0 orders) :
    Settles count (List.replicate count .release ++ orders) := by
  induction count with
  | zero => exact h
  | succ count ih => exact ⟨Nat.succ_pos count, ih⟩

theorem sound_resize (h : Rests n p) (target : Nat) :
    Sound (min target p.maxWorkers) (p.resize target) := by
  have hcount : p.workers.length = n := h.workerCount
  rw [Pool.resize, hcount]
  generalize htarget : min target p.maxWorkers = size
  have hmost : size ≤ p.maxWorkers := by omega
  split
  · have hsize : n + (size - n) = size := by omega
    have hadded := rests_addWorkers h (hsize ▸ hmost)
    rw [hsize] at hadded
    exact hadded.sound
  · refine sound_orders h (settles_dismiss_release _) ?_
    rw [count_dismiss_release]
    omega

theorem sound_removeWorker (h : Rests n p) : Sound (n - 1) p.removeWorker := by
  have hcount : p.workers.length = n := h.workerCount
  rw [Pool.removeWorker]
  split
  · rename_i hnobody
    obtain rfl : n = 0 := by
      rw [← hcount, List.isEmpty_iff.mp hnobody]
      rfl
    exact h.sound
  · rename_i hsomebody
    have hpositive : 0 < p.workers.length :=
      List.length_pos_iff.mpr fun hnone => hsomebody (List.isEmpty_iff.mpr hnone)
    refine sound_orders h ⟨Nat.one_pos, rfl⟩ ?_
    change n = n - 1 + 1
    omega

theorem sound_clear (h : Rests n p) : Sound 0 p.clear := by
  have hcount : p.workers.length = n := h.workerCount
  rw [Pool.clear, hcount]
  refine sound_orders h ?_ ?_
  · have hdiscard : Settles 0 [.discard] := ⟨rfl, rfl⟩
    rw [List.append_assoc]
    refine settles_dismiss_append n ?_
    rw [Nat.zero_add]
    exact settles_release_append n hdiscard
  · simp [List.count_replicate]

/-- How many workers a pool may have, and how many jobs may wait. -/
def limits (p : Pool τ) : Nat × Nat :=
  (p.maxWorkers, p.capacity)

theorem limits_step {step : Pool.Step} {done : Option τ}
    (hstep : p.step? step = some (p', done)) : limits p' = limits p := by
  cases step with
  | take id =>
      obtain ⟨_, htake, ⟨⟩⟩ := Option.map_eq_some_iff.mp hstep
      unfold Pool.take? at htake
      split at htake
      · cases htake
        rfl
      · cases htake
  | finish id =>
      obtain ⟨⟨_, _⟩, hfinish, ⟨⟩⟩ := Option.map_eq_some_iff.mp hstep
      unfold Pool.finish? at hfinish
      split at hfinish
      · cases hfinish
        rfl
      · cases hfinish
  | order =>
      obtain ⟨_, horder, ⟨⟩⟩ := Option.map_eq_some_iff.mp hstep
      unfold Pool.order? at horder
      repeat' split at horder
      all_goals cases horder
      all_goals rfl

theorem limits_runFor {next : Pool τ → Option Pool.Step} {effect : τ → σ → σ} (fuel : Nat)
    (p : Pool τ) (s : σ) : limits (Pool.runFor next effect fuel p s).1 = limits p :=
  runFor_invariant (P := fun p' _ => limits p' = limits p)
    (fun hstep h => (limits_step hstep).trans h) (fun hstep h => (limits_step hstep).trans h) fuel
    rfl

theorem limits_resize (p : Pool τ) (target : Nat) : limits (p.resize target) = limits p := by
  have hadd (count : Nat) (p : Pool τ) : limits (p.addWorkers count) = limits p := by
    induction count generalizing p with
    | zero => rfl
    | succ count ih =>
        rw [Pool.addWorkers, ih, Pool.addWorker]
        split <;> rfl
  rw [Pool.resize]
  split
  · exact hadd _ p
  · rfl

theorem limits_submit (p : Pool τ) (t : τ) : limits (p.submit t).1 = limits p := by
  rw [Pool.submit]
  split <;> rfl

/-- What no task changes is as it was before. -/
theorem effect_runFor {α : Type} {next : Pool τ → Option Pool.Step} {effect : τ → σ → σ}
    (f : σ → α) (heffect : ∀ t s, f (effect t s) = f s) (fuel : Nat) (p : Pool τ) (s : σ) :
    f (Pool.runFor next effect fuel p s).2 = f s :=
  runFor_invariant (P := fun _ s' => f s' = f s) (fun _ h => h)
    (fun _ h => (heffect _ _).trans h) fuel rfl

end VoiceCall.Proofs.Decoding.Workers
