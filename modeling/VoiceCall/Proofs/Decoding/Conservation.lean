import Mathlib.Data.List.Nodup
import VoiceCall.Proofs.Decoding.Workers

namespace VoiceCall.Proofs.Decoding.Conservation

open VoiceCall.Decoding
open VoiceCall.Proofs.Decoding.Workers

variable {τ : Type}

/-- What the owner of a pool can ask for. -/
inductive Request where
  | addWorker
  | removeWorker
  | resize (target : Nat)
  | clear

def Request.begin (p : Pool τ) : Request → Pool τ
  | addWorker => p.addWorker.1
  | removeWorker => p.removeWorker
  | resize target => p.resize target
  | clear => p.clear

inductive Move (τ : Type) where
  | submit (t : τ)
  | step (step : Pool.Step)
  | ask (request : Request)

/-- A pool and what became of its tasks and its workers. Each task is numbered by how many had been
submitted before it. -/
structure Workshop (τ : Type) where
  pool : Pool (Nat × τ)
  accepted : List (Nat × τ)
  refused : List (Nat × τ)
  finished : List (Nat × τ)
  discarded : List (Nat × τ)
  /-- How many orders to leave were put into the queue. -/
  dismissed : Nat
  /-- The workers that took one. -/
  retired : List Nat

def dropped (p : Pool τ) : Pool.Step → List τ
  | .order =>
    match p.orders, p.queue with
    | .discard :: _, .task t :: _ => [t]
    | _, _ => []
  | _ => []

def dismissals (p : Pool τ) : Pool.Step → Nat
  | .order =>
    match p.orders with
    | .dismiss :: _ => 1
    | _ => 0
  | _ => 0

def leaver (p : Pool τ) : Pool.Step → List Nat
  | .take id =>
    match p.queue with
    | .leave :: _ => [id]
    | _ => []
  | _ => []

namespace Workshop

def start (maxWorkers capacity : Nat) : Workshop τ :=
  ⟨.create maxWorkers capacity, [], [], [], [], 0, []⟩

def submitted (w : Workshop τ) : Nat :=
  w.accepted.length + w.refused.length

/-- The owner asks for nothing before it has got what it asked for; a step that cannot be taken
changes nothing. -/
def move (w : Workshop τ) : Move τ → Workshop τ
  | .submit t =>
    match w.pool.submit (w.submitted, t) with
    | (pool, true) => { w with pool := pool, accepted := w.accepted ++ [(w.submitted, t)] }
    | (pool, false) => { w with pool := pool, refused := w.refused ++ [(w.submitted, t)] }
  | .step step =>
    match w.pool.step? step with
    | none => w
    | some (pool, done) =>
      { w with
        pool := pool
        finished := w.finished ++ done.toList
        discarded := w.discarded ++ dropped w.pool step
        dismissed := w.dismissed + dismissals w.pool step
        retired := w.retired ++ leaver w.pool step }
  | .ask request =>
    if w.pool.orders.isEmpty then { w with pool := request.begin w.pool } else w

def run (w : Workshop τ) (moves : List (Move τ)) : Workshop τ :=
  moves.foldl move w

end Workshop

def task? : Job τ → Option τ
  | .task t => some t
  | .leave => none

def work? (w : Worker τ) : Option τ :=
  match w.phase with
  | .busy t => some t
  | _ => none

/-- The tasks in the queue. -/
def waiting (queue : List (Job τ)) : List τ :=
  queue.filterMap task?

/-- The tasks in the queue that stand behind an order to leave. -/
def behind : List (Job τ) → List τ
  | [] => []
  | .task _ :: queue => behind queue
  | .leave :: queue => waiting queue

/-- The tasks in the hands of workers. -/
def running (workers : List (Worker τ)) : List τ :=
  workers.filterMap work?

/-- The workers that have not left. -/
def live (workers : List (Worker τ)) : List Nat :=
  (workers.filter (!Pool.isGone ·)).map Worker.id

section

variable {id : Nat} {t : τ} {queue queue' : List (Job τ)} {workers workers' : List (Worker τ)}

@[simp]
theorem waiting_nil : waiting ([] : List (Job τ)) = [] := rfl

@[simp]
theorem waiting_append : waiting (queue ++ queue') = waiting queue ++ waiting queue' :=
  List.filterMap_append

@[simp]
theorem waiting_task : waiting (.task t :: queue) = t :: waiting queue := rfl

@[simp]
theorem waiting_leave : waiting (.leave :: queue) = waiting queue := rfl

@[simp]
theorem running_nil : running ([] : List (Worker τ)) = [] := rfl

@[simp]
theorem running_append : running (workers ++ workers') = running workers ++ running workers' :=
  List.filterMap_append

@[simp]
theorem running_idle : running (⟨id, .idle⟩ :: workers) = running workers := rfl

@[simp]
theorem running_busy : running (⟨id, .busy t⟩ :: workers) = t :: running workers := rfl

@[simp]
theorem running_gone : running (⟨id, .gone⟩ :: workers) = running workers := rfl

@[simp]
theorem live_append : live (workers ++ workers') = live workers ++ live workers' := by
  rw [live, List.filter_append, List.map_append, ← live, ← live]

@[simp]
theorem live_idle : live (⟨id, .idle⟩ :: workers) = id :: live workers := rfl

@[simp]
theorem live_busy : live (⟨id, .busy t⟩ :: workers) = id :: live workers := rfl

@[simp]
theorem live_gone : live (⟨id, .gone⟩ :: workers) = live workers := rfl

end

/-- The books of a workshop are right. -/
structure Accounted (w : Workshop τ) : Prop where
  sound : ∃ n, Sound n w.pool
  numbers : ((w.accepted ++ w.refused).map Prod.fst).Perm (List.range w.submitted)
  places :
    (waiting w.pool.queue ++ running w.pool.workers ++ w.finished ++ w.discarded).Perm w.accepted
  processed : w.pool.processed = w.finished.length
  refusals : w.pool.refused = w.refused.length
  dismissals : w.dismissed = w.pool.queue.countP isLeave + w.retired.length
  staff : (w.retired ++ live w.pool.workers).Perm (List.range w.pool.nextId)

variable {w : Workshop τ}

theorem accounted_start (maxWorkers capacity : Nat) :
    Accounted (Workshop.start maxWorkers capacity : Workshop τ) where
  sound := ⟨0, (rests_create maxWorkers capacity).sound⟩
  numbers := .nil
  places := .nil
  processed := rfl
  refusals := rfl
  dismissals := rfl
  staff := .nil

theorem Accounted.numbered (h : Accounted w) (t : τ) {accepted refused : List (Nat × τ)}
    (hnew : (accepted ++ refused).Perm (w.accepted ++ w.refused ++ [(w.submitted, t)])) :
    ((accepted ++ refused).map Prod.fst).Perm (List.range (accepted.length + refused.length)) := by
  have hlength : accepted.length + refused.length = w.submitted + 1 := by
    rw [← List.length_append, hnew.length_eq, List.length_append, List.length_append,
      List.length_singleton, Workshop.submitted]
  rw [hlength, List.range_succ]
  refine (hnew.map Prod.fst).trans ?_
  rw [List.map_append]
  exact h.numbers.append_right _

theorem accounted_submit (h : Accounted w) (t : τ) : Accounted (w.move (.submit t)) := by
  classical
  obtain ⟨n, hsound⟩ := h.sound
  have hkept := sound_submit hsound (w.submitted, t)
  rcases submit_cases w.pool (w.submitted, t) with hsubmit | hsubmit
  · rw [hsubmit] at hkept
    rw [Workshop.move, hsubmit]
    dsimp only
    refine ⟨⟨n, hkept⟩, h.numbered t ?_, ?_, h.processed, h.refusals, ?_, h.staff⟩
    · rw [List.append_assoc, List.append_assoc]
      exact List.perm_append_comm.append_left _
    · refine List.perm_iff_count.mpr fun task => ?_
      have hcount := h.places.count_eq task
      simp only [waiting_append, waiting_task, waiting_nil, List.count_append] at hcount ⊢
      omega
    · simpa [isLeave] using h.dismissals
  · rw [hsubmit] at hkept
    rw [Workshop.move, hsubmit]
    dsimp only
    refine ⟨⟨n, hkept⟩, h.numbered t ?_, h.places, h.processed, ?_, h.dismissals, h.staff⟩
    · rw [List.append_assoc]
    · simpa using h.refusals

theorem accounted_step (h : Accounted w) (step : Pool.Step) : Accounted (w.move (.step step)) := by
  classical
  rw [Workshop.move]
  split
  · exact h
  · rename_i pool done hstep
    obtain ⟨⟨n, hsound⟩, hnumbers, hplaces, hprocessed, hrefusals, hdismissals, hstaff⟩ := h
    have hkept := (sound_step hsound hstep).1
    have hsettles := hsound.orders
    cases stepped_of_step? hsound.ids hstep with
    | began hqueue hworkers =>
        refine ⟨⟨n, hkept⟩, hnumbers, ?_, ?_, hrefusals, ?_, ?_⟩
        · refine List.perm_iff_count.mpr fun task => ?_
          have hcount := hplaces.count_eq task
          simp [hqueue, hworkers, dropped, List.count_cons] at hcount ⊢
          omega
        · simpa using hprocessed
        · simpa [hqueue, dismissals, leaver, isLeave] using hdismissals
        · simpa [hqueue, hworkers, leaver] using hstaff
    | left hqueue hworkers =>
        refine ⟨⟨n, hkept⟩, hnumbers, ?_, ?_, hrefusals, ?_, ?_⟩
        · simpa [hqueue, hworkers, dropped] using hplaces
        · simpa using hprocessed
        · simp [hqueue, dismissals, leaver, isLeave, List.countP_cons] at hdismissals ⊢
          omega
        · refine List.perm_iff_count.mpr fun task => ?_
          have hcount := hstaff.count_eq task
          simp [hqueue, hworkers, leaver, List.count_cons] at hcount ⊢
          omega
    | finished hworkers =>
        refine ⟨⟨n, hkept⟩, hnumbers, ?_, ?_, hrefusals, ?_, ?_⟩
        · refine List.perm_iff_count.mpr fun task => ?_
          have hcount := hplaces.count_eq task
          simp [hworkers, dropped, List.count_cons] at hcount ⊢
          omega
        · simpa using hprocessed
        · simpa [dismissals, leaver] using hdismissals
        · simpa [hworkers, leaver] using hstaff
    | dismissed horders =>
        refine ⟨⟨n, hkept⟩, hnumbers, ?_, ?_, hrefusals, ?_, ?_⟩
        · simpa [horders, dropped] using hplaces
        · simpa using hprocessed
        · simp [horders, dismissals, leaver, isLeave] at hdismissals ⊢
          omega
        · simpa [leaver] using hstaff
    | released horders hworkers =>
        refine ⟨⟨n, hkept⟩, hnumbers, ?_, ?_, hrefusals, ?_, ?_⟩
        · simpa [horders, hworkers, dropped] using hplaces
        · simpa using hprocessed
        · simpa [horders, dismissals, leaver] using hdismissals
        · simpa [hworkers, leaver] using hstaff
    | dropped horders hqueue =>
        rw [horders] at hsettles
        have hnone := hsettles.1
        rename_i job queue
        cases job with
        | leave => simp [owed, hqueue, isLeave] at hnone
        | task t =>
          refine ⟨⟨n, hkept⟩, hnumbers, ?_, ?_, hrefusals, ?_, ?_⟩
          · refine List.perm_iff_count.mpr fun task => ?_
            have hcount := hplaces.count_eq task
            simp [horders, hqueue, dropped, List.count_cons] at hcount ⊢
            omega
          · simpa using hprocessed
          · simpa [horders, hqueue, dismissals, leaver, isLeave] using hdismissals
          · simpa [leaver] using hstaff
    | emptied horders hqueue =>
        refine ⟨⟨n, hkept⟩, hnumbers, ?_, ?_, hrefusals, ?_, ?_⟩
        · simpa [horders, hqueue, dropped] using hplaces
        · simpa using hprocessed
        · simpa [horders, dismissals, leaver] using hdismissals
        · simpa [leaver] using hstaff

theorem accounted_orders {orders : List Order} {n : Nat} (h : Accounted w)
    (hsound : Sound n { w.pool with orders := orders }) :
    Accounted { w with pool := { w.pool with orders := orders } } :=
  ⟨⟨n, hsound⟩, h.numbers, h.places, h.processed, h.refusals, h.dismissals, h.staff⟩

theorem accounted_addWorker (h : Accounted w) (horders : w.pool.orders = []) :
    Accounted { w with pool := w.pool.addWorker.1 } ∧ w.pool.addWorker.1.orders = [] := by
  obtain ⟨n, hsound⟩ := h.sound
  have hrests : Rests n w.pool := ⟨hsound, horders⟩
  have hcount : w.pool.workers.length = n := hrests.workerCount
  by_cases hroom : w.pool.workers.length < w.pool.maxWorkers
  · have hadded := (rests_addWorker hrests (hcount ▸ hroom)).1
    rw [Pool.addWorker, if_pos hroom] at hadded ⊢
    refine ⟨⟨⟨n + 1, hadded.sound⟩, h.numbers, ?_, h.processed, h.refusals, h.dismissals, ?_⟩,
      horders⟩
    · simpa using h.places
    · rw [live_append, ← List.append_assoc, List.range_succ]
      exact h.staff.append_right [w.pool.nextId]
  · rw [Pool.addWorker, if_neg hroom]
    exact ⟨h, horders⟩

theorem accounted_addWorkers (h : Accounted w) (horders : w.pool.orders = []) (count : Nat) :
    Accounted { w with pool := w.pool.addWorkers count } := by
  induction count generalizing w with
  | zero => exact h
  | succ count ih =>
      obtain ⟨hadded, horders⟩ := accounted_addWorker h horders
      exact ih hadded horders

theorem accounted_ask (h : Accounted w) (request : Request) :
    Accounted (w.move (.ask request)) := by
  rw [Workshop.move]
  split
  · rename_i hfree
    have horders := List.isEmpty_iff.mp hfree
    obtain ⟨n, hsound⟩ := h.sound
    have hrests : Rests n w.pool := ⟨hsound, horders⟩
    cases request with
    | addWorker => exact (accounted_addWorker h horders).1
    | removeWorker =>
        have hremoved := sound_removeWorker hrests
        rw [Pool.removeWorker] at hremoved
        rw [Request.begin, Pool.removeWorker]
        split
        · exact h
        · rename_i hsomebody
          rw [if_neg hsomebody] at hremoved
          exact accounted_orders h hremoved
    | resize target =>
        have hresized := sound_resize hrests target
        rw [Pool.resize] at hresized
        rw [Request.begin, Pool.resize]
        split
        · exact accounted_addWorkers h horders _
        · rename_i hlarge
          rw [if_neg hlarge] at hresized
          exact accounted_orders h hresized
    | clear => exact accounted_orders h (sound_clear hrests)
  · exact h

theorem accounted_move (h : Accounted w) (move : Move τ) : Accounted (w.move move) := by
  cases move with
  | submit t => exact accounted_submit h t
  | step step => exact accounted_step h step
  | ask request => exact accounted_ask h request

theorem accounted_run (h : Accounted w) (moves : List (Move τ)) : Accounted (w.run moves) := by
  induction moves generalizing w with
  | nil => exact h
  | cons move moves ih => exact ih (accounted_move h move)

theorem Accounted.nodup (h : Accounted w) : (w.accepted ++ w.refused).Nodup :=
  List.Nodup.of_map Prod.fst (h.numbers.nodup_iff.mpr List.nodup_range)

theorem Accounted.number_lt (h : Accounted w) {t : Nat × τ} (hmem : t ∈ w.accepted) :
    t.1 < w.submitted :=
  List.mem_range.mp (h.numbers.mem_iff.mp (List.mem_map_of_mem (List.mem_append_left _ hmem)))

theorem live_length (workers : List (Worker τ)) :
    (live workers).length = workers.countP Pool.isIdle + workers.countP Pool.isBusy := by
  induction workers with
  | nil => rfl
  | cons w workers ih =>
      rcases w with ⟨id, _ | _ | _⟩
      all_goals
        simp [Pool.isIdle, Pool.isBusy, List.countP_cons, ih]
        try omega

theorem live_eq_nil {p : Pool τ} (h : Sound 0 p) (howed : owed p = 0)
    (hdismiss : p.orders.count .dismiss = 0) : live p.workers = [] := by
  have hlength := live_length p.workers
  have hstaying := staying h
  rw [owed] at howed
  exact List.eq_nil_of_length_eq_zero (by omega)

theorem running_eq_nil {workers : List (Worker τ)} (h : live workers = []) :
    running workers = [] := by
  induction workers with
  | nil => rfl
  | cons w workers ih =>
      rcases w with ⟨id, _ | _ | _⟩
      · cases h
      · cases h
      · exact ih h

theorem mem_waiting_of_behind {t : τ} {queue : List (Job τ)} (h : t ∈ behind queue) :
    t ∈ waiting queue := by
  induction queue with
  | nil => cases h
  | cons job queue ih =>
      cases job with
      | task other => exact List.mem_cons_of_mem other (ih h)
      | leave => exact h

theorem mem_behind_append {t : τ} {queue queue' : List (Job τ)} (h : t ∈ behind (queue ++ queue')) :
    t ∈ behind queue ∨ t ∈ waiting queue' := by
  induction queue with
  | nil => exact .inr (mem_waiting_of_behind h)
  | cons job queue ih =>
      cases job with
      | task other => exact ih h
      | leave => exact List.mem_append.mp (waiting_append ▸ h)

theorem behind_eq_nil {queue : List (Job τ)} (h : queue.countP isLeave = 0) :
    behind queue = [] := by
  induction queue with
  | nil => rfl
  | cons job queue ih =>
      cases job with
      | task other => exact ih (by simpa [isLeave] using h)
      | leave => simp [isLeave] at h

/-- A pool on its way to being cleared while one of its tasks is to be run: as long as the task
waits there is no order to leave before it, and somebody is there to run it. -/
structure Clearing (task : Nat × τ) (w : Workshop τ) : Prop where
  sound : Sound 0 w.pool
  placed : task ∈ waiting w.pool.queue ∨ task ∈ running w.pool.workers ∨ task ∈ w.finished
  ahead : task ∉ behind w.pool.queue
  staffed : task ∈ waiting w.pool.queue → live w.pool.workers ≠ []
  last : .discard ∉ w.pool.orders.dropLast
  known : task.1 < w.submitted

variable {task : Nat × τ}

theorem Clearing.finished (h : Clearing task w) (hnobody : live w.pool.workers = []) :
    task ∈ w.finished := by
  rcases h.placed with hwaits | hruns | hfinished
  · exact absurd hnobody (h.staffed hwaits)
  · rw [running_eq_nil hnobody] at hruns
    cases hruns
  · exact hfinished

theorem Clearing.cleared (h : Clearing task w) (horders : w.pool.orders = []) :
    task ∈ w.finished := by
  have howed := h.sound.orders
  rw [horders] at howed
  exact h.finished (live_eq_nil h.sound howed (by rw [horders]; rfl))

theorem clearing_submit (h : Clearing task w) (t : τ) : Clearing task (w.move (.submit t)) := by
  have hkept := sound_submit h.sound (w.submitted, t)
  have hknown := h.known
  rcases submit_cases w.pool (w.submitted, t) with hsubmit | hsubmit
  · have hother : task ∉ waiting [.task (w.submitted, t)] := by
      intro hmem
      rw [List.mem_singleton.mp hmem] at hknown
      exact Nat.lt_irrefl _ hknown
    rw [hsubmit] at hkept
    rw [Workshop.move, hsubmit]
    refine ⟨hkept, ?_, ?_, ?_, h.last, ?_⟩
    · rcases h.placed with hwaits | hplaced
      · exact .inl (waiting_append ▸ List.mem_append_left _ hwaits)
      · exact .inr hplaced
    · intro hbehind
      rcases mem_behind_append hbehind with hbehind | hnew
      · exact h.ahead hbehind
      · exact hother hnew
    · intro hwaits
      rw [waiting_append] at hwaits
      rcases List.mem_append.mp hwaits with hwaits | hnew
      · exact h.staffed hwaits
      · exact absurd hnew hother
    · simp only [Workshop.submitted, List.length_append] at hknown ⊢
      omega
  · rw [hsubmit] at hkept
    rw [Workshop.move, hsubmit]
    refine ⟨hkept, h.placed, h.ahead, h.staffed, h.last, ?_⟩
    simp only [Workshop.submitted, List.length_append] at hknown ⊢
    omega

theorem not_mem_dropLast {order : Order} {orders : List Order}
    (h : .discard ∉ (order :: orders).dropLast) : .discard ∉ orders.dropLast := by
  cases orders with
  | nil => exact List.not_mem_nil
  | cons next orders =>
      rw [List.dropLast_cons_cons] at h
      exact fun hmem => h (List.mem_cons_of_mem _ hmem)

theorem eq_nil_of_discard {orders : List Order} (h : .discard ∉ (.discard :: orders).dropLast) :
    orders = [] := by
  cases orders with
  | nil => rfl
  | cons next orders => exact absurd List.mem_cons_self h

theorem clearing_step (h : Clearing task w) (step : Pool.Step) :
    Clearing task (w.move (.step step)) := by
  rw [Workshop.move]
  split
  · exact h
  · rename_i pool done hstep
    have hkept := (sound_step h.sound hstep).1
    have hfinished := h.finished
    obtain ⟨hsound, hplaced, hahead, hstaffed, hlast, hknown⟩ := h
    cases stepped_of_step? hsound.ids hstep with
    | began hqueue hworkers =>
        rw [hqueue] at hplaced hahead
        rw [hworkers] at hplaced
        refine ⟨hkept, ?_, hahead, ?_, hlast, hknown⟩
        · simp at hplaced ⊢
          tauto
        · intro _
          simp
    | left hqueue hworkers =>
        -- the task does not wait behind the order to leave that was taken
        rw [hqueue] at hplaced hahead
        rw [hworkers] at hplaced
        refine ⟨hkept, ?_, ?_, ?_, hlast, hknown⟩
        · simpa using hplaced
        · intro hbehind
          exact hahead (mem_waiting_of_behind hbehind)
        · intro hwaits
          exact absurd hwaits hahead
    | finished hworkers =>
        rw [hworkers] at hplaced
        refine ⟨hkept, ?_, hahead, ?_, hlast, hknown⟩
        · simp at hplaced ⊢
          tauto
        · intro _
          simp
    | dismissed horders =>
        rw [horders] at hlast
        refine ⟨hkept, ?_, ?_, ?_, not_mem_dropLast hlast, hknown⟩
        · simpa using hplaced
        · intro hbehind
          rcases mem_behind_append hbehind with hbehind | hnone
          · exact hahead hbehind
          · cases hnone
        · simpa using hstaffed
    | released horders hworkers =>
        rw [horders] at hlast
        rw [hworkers] at hplaced hstaffed
        refine ⟨hkept, ?_, hahead, ?_, not_mem_dropLast hlast, hknown⟩
        · simpa using hplaced
        · simpa using hstaffed
    | dropped horders hqueue =>
        have hnobody : live w.pool.workers = [] := by
          have hsettles := hsound.orders
          rw [horders] at hsettles hlast
          refine live_eq_nil hsound hsettles.1 ?_
          rw [horders, eq_nil_of_discard hlast]
          rfl
        have hgone : task ∉ waiting w.pool.queue := fun hwaits => hstaffed hwaits hnobody
        rename_i job queue
        have htail : task ∉ waiting queue := by
          intro hwaits
          rw [hqueue] at hgone
          cases job with
          | task other => exact hgone (List.mem_cons_of_mem other hwaits)
          | leave => exact hgone hwaits
        refine ⟨hkept, ?_, ?_, ?_, hlast, hknown⟩
        · exact .inr (.inr (List.mem_append_left _ (hfinished hnobody)))
        · intro hbehind
          exact htail (mem_waiting_of_behind hbehind)
        · intro hwaits
          exact absurd hwaits htail
    | emptied horders hqueue =>
        rw [horders] at hlast
        refine ⟨hkept, ?_, hahead, hstaffed, not_mem_dropLast hlast, hknown⟩
        simpa using hplaced

theorem clearing_move (h : Clearing task w) (move : Move τ) :
    Clearing task (w.move move) ∨ task ∈ (w.move move).finished := by
  cases move with
  | submit t => exact .inl (clearing_submit h t)
  | step step => exact .inl (clearing_step h step)
  | ask request =>
      rw [Workshop.move]
      split
      · rename_i hfree
        exact .inr (h.cleared (List.isEmpty_iff.mp hfree))
      · exact .inl h

theorem finished_move (w : Workshop τ) (move : Move τ) :
    w.finished <+: (w.move move).finished := by
  cases move with
  | submit t =>
      rw [Workshop.move]
      split <;> exact List.prefix_rfl
  | step step =>
      rw [Workshop.move]
      split
      · exact List.prefix_rfl
      · exact List.prefix_append _ _
  | ask request =>
      rw [Workshop.move]
      split <;> exact List.prefix_rfl

theorem clearing_run (moves : List (Move τ)) (h : Clearing task w ∨ task ∈ w.finished) :
    Clearing task (w.run moves) ∨ task ∈ (w.run moves).finished := by
  induction moves generalizing w with
  | nil => exact h
  | cons move moves ih =>
      refine ih ?_
      rcases h with h | h
      · exact clearing_move h move
      · exact .inr ((finished_move w move).subset h)

/-- Whoever waits and is to be told to leave is told after what waits already. -/
theorem clearing_ask (h : Accounted w) (horders : w.pool.orders = [])
    (hworkers : 0 < w.pool.workerCount) (haccepted : task ∈ w.accepted)
    (hkept : task ∉ w.discarded) : Clearing task (w.move (.ask .clear)) := by
  obtain ⟨n, hsound⟩ := h.sound
  have howed := (⟨hsound, horders⟩ : Rests n w.pool).owed
  have hmove : w.move (.ask .clear) = { w with pool := w.pool.clear } := by
    rw [Workshop.move, horders]
    rfl
  rw [hmove]
  refine ⟨sound_clear ⟨hsound, horders⟩, ?_, ?_, ?_, ?_, h.number_lt haccepted⟩
  · have hplaces := h.places.mem_iff.mpr haccepted
    simp only [List.mem_append] at hplaces
    tauto
  · change task ∉ behind w.pool.queue
    rw [behind_eq_nil (by omega)]
    exact List.not_mem_nil
  · intro _ hnobody
    have hlength : 0 = _ := (congrArg List.length hnobody).symm.trans (live_length w.pool.workers)
    have hall := length_eq_countP w.pool.workers
    rw [Pool.workerCount] at hworkers
    omega
  · rw [Pool.clear, horders, List.nil_append, List.dropLast_concat]
    simp [List.mem_replicate]

theorem Accounted.rested (h : Accounted w) (horders : w.pool.orders = []) :
    w.pool.workerCount = (live w.pool.workers).length ∧ .leave ∉ w.pool.queue := by
  obtain ⟨n, hsound⟩ := h.sound
  have hrests : Rests n w.pool := ⟨hsound, horders⟩
  have hgone := hrests.owed.2
  have hall := length_eq_countP w.pool.workers
  refine ⟨?_, hrests.leave_not_mem⟩
  rw [Pool.workerCount, live_length]
  omega

/-- Whatever moves, and in whatever order: each task that was accepted is in one place, a task that
was refused is in none, each order to leave that was taken sent one worker home, a pool whose owner
waits for nothing has no other workers and no such order, and a pool with workers is cleared only
once all has been run that was accepted, and not yet dropped, before. -/
theorem tasks_conserved (maxWorkers capacity : Nat) (moves : List (Move τ)) :
    let w := (Workshop.start maxWorkers capacity).run moves
    let places :=
      waiting w.pool.queue ++ running w.pool.workers ++ w.finished ++ w.discarded
    (w.accepted ++ w.refused).Nodup ∧ places.Perm w.accepted ∧ (∀ t ∈ w.refused, t ∉ places) ∧
      w.pool.processed = w.finished.length ∧ w.pool.refused = w.refused.length ∧
      w.dismissed = w.pool.queue.countP isLeave + w.retired.length ∧
      (w.retired ++ live w.pool.workers).Perm (List.range w.pool.nextId) ∧
      (w.pool.orders = [] →
        w.pool.workerCount = (live w.pool.workers).length ∧ .leave ∉ w.pool.queue) ∧
      (w.pool.orders = [] → 0 < w.pool.workerCount → ∀ later : List (Move τ),
        let cleared := (w.move (.ask .clear)).run later
        cleared.pool.orders = [] → ∀ t ∈ w.accepted, t ∉ w.discarded → t ∈ cleared.finished) := by
  intro w places
  have h : Accounted w := accounted_run (accounted_start maxWorkers capacity) moves
  refine ⟨h.nodup, h.places, ?_, h.processed, h.refusals, h.dismissals, h.staff, h.rested, ?_⟩
  · intro t hrefused hplaced
    have haccepted := h.places.mem_iff.mp hplaced
    exact List.disjoint_of_nodup_append h.nodup haccepted hrefused
  · intro horders hworkers later cleared hcleared t haccepted hkept
    rcases clearing_run later (.inl (clearing_ask h horders hworkers haccepted hkept)) with
      hclearing | hfinished
    · exact hclearing.cleared hcleared
    · exact hfinished

theorem tasks_conserved_cleared :
    let w := (Workshop.start 1 2).run [.ask .addWorker, .submit (), .submit (), .submit ()]
    let cleared := (w.move (.ask .clear)).run
      [.step (.take 0), .step (.finish 0), .step .order, .step (.take 0), .step (.finish 0),
        .step (.take 0), .step .order, .step .order]
    w.pool.orders = [] ∧ 0 < w.pool.workerCount ∧ cleared.pool.orders = [] ∧
      w.accepted = [(0, ()), (1, ())] ∧ ∀ t ∈ w.accepted, t ∈ cleared.finished := by
  refine ⟨rfl, by decide, rfl, rfl, ?_⟩
  intro t haccepted
  obtain ⟨-, -, -, -, -, -, -, -, hcleared⟩ :=
    tasks_conserved 1 2 [.ask .addWorker, .submit (), .submit (), .submit ()]
  exact hcleared rfl (by decide) _ rfl t haccepted List.not_mem_nil

/-- What was dropped while there was nobody to run it is not run before a later clearing ends. -/
theorem not_run_after_dropped :
    let w := (Workshop.start 1 4).run
      [.submit (), .ask .clear, .step .order, .step .order, .ask .addWorker]
    let cleared := (w.move (.ask .clear)).run
      [.step .order, .step (.take 0), .step .order, .step .order]
    w.pool.orders = [] ∧ 0 < w.pool.workerCount ∧ cleared.pool.orders = [] ∧
      (0, ()) ∈ w.accepted ∧ (0, ()) ∉ cleared.finished := by
  decide

end VoiceCall.Proofs.Decoding.Conservation
