import Mathlib.Data.List.InsertIdx
import VoiceCall.Proofs.Decoding.Workers

/-!
Pools that do the same under other names: their workers have other numbers, and every task of the
one has a counterpart in the other. Whenever the one can move, the other can move alike, and they
still do the same.
-/

namespace VoiceCall.Proofs.Decoding.Renaming

open VoiceCall.Decoding
open VoiceCall.Proofs.Decoding.Workers

variable {τ υ σ ρ : Type} {n m : Nat} {f : τ → υ} {p : Pool τ} {q : Pool υ}

def renameJob (f : τ → υ) : Job τ → Job υ
  | .task t => .task (f t)
  | .leave => .leave

def renamePhase (f : τ → υ) : Phase τ → Phase υ
  | .idle => .idle
  | .busy t => .busy (f t)
  | .gone => .gone

theorem renamePhase_ofJob (f : τ → υ) (job : Job τ) :
    renamePhase f (Pool.Phase.ofJob job) = Pool.Phase.ofJob (renameJob f job) := by
  cases job <;> rfl

def phasesOf (workers : List (Worker τ)) : List (Phase τ) :=
  workers.map Worker.phase

structure Renamed (f : τ → υ) (p : Pool τ) (q : Pool υ) : Prop where
  queue : q.queue = p.queue.map (renameJob f)
  phases : phasesOf q.workers = (phasesOf p.workers).map (renamePhase f)
  orders : q.orders = p.orders
  limits : limits q = limits p

theorem Renamed.size (h : Renamed f p q) : q.workers.length = p.workers.length := by
  simpa [phasesOf] using congrArg List.length h.phases

theorem Renamed.queued (h : Renamed f p q) : q.queue.length = p.queue.length := by
  rw [h.queue, List.length_map]

theorem Renamed.maxWorkers (h : Renamed f p q) : q.maxWorkers = p.maxWorkers :=
  congrArg Prod.fst h.limits

theorem Renamed.room (h : Renamed f p q) :
    q.queue.length < q.capacity ↔ p.queue.length < p.capacity := by
  have hcapacity : q.capacity = p.capacity := congrArg Prod.snd h.limits
  rw [h.queued, hcapacity]

theorem exists_split {workers : List (Worker τ)} {place : Nat} {w : Worker τ}
    (h : workers[place]? = some w) :
    ∃ before behind, workers = before ++ w :: behind ∧ before.length = place := by
  obtain ⟨hplace, rfl⟩ := List.getElem?_eq_some_iff.mp h
  refine ⟨workers.take place, workers.drop (place + 1), ?_,
    List.length_take_of_le (Nat.le_of_lt hplace)⟩
  rw [← List.drop_eq_getElem_cons, List.take_append_drop]

section
variable {place id : Nat} {phase : Phase τ}

theorem phaseOf_of_place (hids : (p.workers.map Worker.id).Nodup)
    (hworker : p.workers[place]? = some ⟨id, phase⟩) : p.phaseOf id = some phase := by
  obtain ⟨before, behind, hworkers, -⟩ := exists_split hworker
  exact phaseOf_append hids hworkers

theorem phases_setPhase (hids : (p.workers.map Worker.id).Nodup)
    (hworker : p.workers[place]? = some ⟨id, phase⟩) (other : Phase τ) :
    phasesOf (p.setPhase id other) = (phasesOf p.workers).set place other := by
  obtain ⟨before, behind, hworkers, rfl⟩ := exists_split hworker
  rw [setPhase_append hids hworkers, hworkers]
  simp [phasesOf]

theorem phases_filter {w : Worker τ} (hids : (p.workers.map Worker.id).Nodup)
    (hworker : p.workers[place]? = some w) :
    phasesOf (p.workers.filter (·.id ≠ w.id)) = (phasesOf p.workers).eraseIdx place := by
  obtain ⟨before, behind, hworkers, rfl⟩ := exists_split hworker
  rw [filter_append hids hworkers, hworkers]
  simp [phasesOf, List.eraseIdx_append_of_length_le]

theorem stepAt_of_isBusy {w : Worker τ} (hworker : p.workers[place]? = some w)
    (hbusy : Pool.isBusy w) : p.stepAt? place = some (.finish w.id) := by
  rcases w with ⟨id, _ | t | _⟩
  · cases hbusy
  · rw [Pool.stepAt?, hworker]
  · cases hbusy

theorem stepAt_of_isIdle {w : Worker τ} (hworker : p.workers[place]? = some w)
    (hidle : Pool.isIdle w) : p.stepAt? place = some (.take w.id) := by
  rcases w with ⟨id, _ | t | _⟩
  · rw [Pool.stepAt?, hworker]
  · cases hidle
  · cases hidle

end

/-- What a step makes of both pools, and the task that it finished. -/
def Moved (f : τ → υ) (moved : Pool τ × Option τ) (moved' : Pool υ × Option υ) : Prop :=
  Renamed f moved.1 moved'.1 ∧ moved'.2 = moved.2.map f

section
variable (h : Renamed f p q) (hids : (p.workers.map Worker.id).Nodup)
  (hids' : (q.workers.map Worker.id).Nodup)

include h hids hids'

theorem Renamed.take {place id id' : Nat} (hworker : p.workers[place]? = some ⟨id, .idle⟩)
    (hworker' : q.workers[place]? = some ⟨id', .idle⟩) :
    Option.Rel (Moved f) (p.step? (.take id)) (q.step? (.take id')) := by
  rw [Pool.step?, Pool.step?, Pool.take?, Pool.take?, phaseOf_of_place hids hworker,
    phaseOf_of_place hids' hworker', h.queue]
  cases p.queue with
  | nil => exact .none
  | cons job queue =>
      refine .some ⟨{ h with queue := rfl, phases := ?_ }, rfl⟩
      dsimp only
      rw [phases_setPhase hids hworker, phases_setPhase hids' hworker', h.phases, List.map_set,
        renamePhase_ofJob]

theorem Renamed.finish {place id id' : Nat} {t : τ}
    (hworker : p.workers[place]? = some ⟨id, .busy t⟩)
    (hworker' : q.workers[place]? = some ⟨id', .busy (f t)⟩) :
    Option.Rel (Moved f) (p.step? (.finish id)) (q.step? (.finish id')) := by
  rw [Pool.step?, Pool.step?, Pool.finish?, Pool.finish?, phaseOf_of_place hids hworker,
    phaseOf_of_place hids' hworker']
  refine .some ⟨{ h with phases := ?_ }, rfl⟩
  dsimp only
  rw [phases_setPhase hids hworker, phases_setPhase hids' hworker', h.phases, List.map_set]
  rfl

/-- The workers at one place go the same step further. -/
theorem Renamed.stepAt (place : Nat) :
    Option.Rel (Moved f) ((p.stepAt? place).bind p.step?) ((q.stepAt? place).bind q.step?) := by
  have hplace := congrArg (·[place]?) h.phases
  simp only [phasesOf, List.getElem?_map] at hplace
  cases hworker : p.workers[place]? with
  | none =>
      rw [hworker] at hplace
      rw [Pool.stepAt?, Pool.stepAt?, hworker, Option.map_eq_none_iff.mp hplace]
      exact .none
  | some w =>
      rw [hworker] at hplace
      obtain ⟨⟨id', phase'⟩, hworker', rfl⟩ := Option.map_eq_some_iff.mp hplace
      rw [Pool.stepAt?, Pool.stepAt?, hworker, hworker']
      rcases w with ⟨id, _ | t | _⟩
      · exact h.take hids hids' hworker hworker'
      · exact h.finish hids hids' hworker hworker'
      · exact .none

end

theorem Renamed.submit (h : Renamed f p q) (t : τ) :
    Renamed f (p.submit t).1 (q.submit (f t)).1 ∧ (q.submit (f t)).2 = (p.submit t).2 := by
  by_cases hroom : p.queue.length < p.capacity
  · rw [Pool.submit, Pool.submit, if_pos hroom, if_pos (h.room.mpr hroom)]
    refine ⟨{ h with queue := ?_ }, rfl⟩
    dsimp only
    rw [h.queue, List.map_append]
    rfl
  · rw [Pool.submit, Pool.submit, if_neg hroom, if_neg (mt h.room.mp hroom)]
    exact ⟨{ h with }, rfl⟩

theorem Renamed.addWorkers (h : Renamed f p q) (count : Nat) :
    Renamed f (p.addWorkers count) (q.addWorkers count) := by
  induction count generalizing p q with
  | zero => exact h
  | succ count ih =>
      refine ih ?_
      by_cases hroom : p.workers.length < p.maxWorkers
      · have hroom' : q.workers.length < q.maxWorkers := by rwa [h.size, h.maxWorkers]
        rw [Pool.addWorker, Pool.addWorker, if_pos hroom, if_pos hroom']
        refine { h with phases := ?_ }
        have hphases := h.phases
        simp only [phasesOf, List.map_append] at hphases ⊢
        rw [hphases]
        rfl
      · have hroom' : ¬ q.workers.length < q.maxWorkers := by rwa [h.size, h.maxWorkers]
        rw [Pool.addWorker, Pool.addWorker, if_neg hroom, if_neg hroom']
        exact h

theorem Renamed.resize (h : Renamed f p q) (target : Nat) :
    Renamed f (p.resize target) (q.resize target) := by
  by_cases hgrow : p.workers.length < min target p.maxWorkers
  · have hgrow' : q.workers.length < min target q.maxWorkers := by rwa [h.size, h.maxWorkers]
    rw [Pool.resize, Pool.resize, if_pos hgrow, if_pos hgrow', h.size, h.maxWorkers]
    exact h.addWorkers _
  · have hgrow' : ¬ q.workers.length < min target q.maxWorkers := by rwa [h.size, h.maxWorkers]
    rw [Pool.resize, Pool.resize, if_neg hgrow, if_neg hgrow']
    refine { h with orders := ?_ }
    dsimp only
    rw [h.size, h.maxWorkers, h.orders]

theorem Renamed.clear (h : Renamed f p q) : Renamed f p.clear q.clear := by
  refine { h with orders := ?_ }
  unfold Pool.clear
  dsimp only
  rw [h.size, h.orders]

theorem isGone_renamed (w : Worker τ) (w' : Worker υ) (h : w'.phase = renamePhase f w.phase) :
    Pool.isGone w' = Pool.isGone w := by
  rw [Pool.isGone, Pool.isGone, h]
  cases w.phase <;> rfl

theorem isBusy_renamed (w : Worker τ) (w' : Worker υ) (h : w'.phase = renamePhase f w.phase) :
    Pool.isBusy w' = Pool.isBusy w := by
  rw [Pool.isBusy, Pool.isBusy, h]
  cases w.phase <;> rfl

theorem isIdle_renamed (w : Worker τ) (w' : Worker υ) (h : w'.phase = renamePhase f w.phase) :
    Pool.isIdle w' = Pool.isIdle w := by
  rw [Pool.isIdle, Pool.isIdle, h]
  cases w.phase <;> rfl

section
variable {test : Worker τ → Bool} {test' : Worker υ → Bool}
  (htest : ∀ w w', w'.phase = renamePhase f w.phase → test' w' = test w)
  {workers : List (Worker τ)} {workers' : List (Worker υ)}
  (hphases : phasesOf workers' = (phasesOf workers).map (renamePhase f))

include htest hphases

/-- The first workers that pass a test are at one place, if the test is the same for both pools. -/
theorem find?_renamed :
    Option.Rel (fun w w' => ∃ place : Nat, workers[place]? = some w ∧ workers'[place]? = some w')
      (workers.find? test) (workers'.find? test') := by
  induction workers generalizing workers' with
  | nil =>
      obtain rfl : workers' = [] := List.map_eq_nil_iff.mp hphases
      exact .none
  | cons w workers ih =>
      obtain ⟨w', workers', rfl, hphase, hrest⟩ := List.map_eq_cons_iff.mp hphases
      rw [List.find?_cons, List.find?_cons, htest w w' hphase]
      split
      · exact .some ⟨0, rfl, rfl⟩
      · have hfound := ih hrest
        generalize workers.find? test = found at hfound ⊢
        generalize workers'.find? test' = found' at hfound ⊢
        cases hfound with
        | none => exact .none
        | some hplace =>
            obtain ⟨place, hworker, hworker'⟩ := hplace
            exact .some ⟨place + 1, hworker, hworker'⟩

theorem countP_renamed : workers'.countP test' = workers.countP test := by
  induction workers generalizing workers' with
  | nil =>
      obtain rfl : workers' = [] := List.map_eq_nil_iff.mp hphases
      rfl
  | cons w workers ih =>
      obtain ⟨w', workers', rfl, hphase, hrest⟩ := List.map_eq_cons_iff.mp hphases
      rw [List.countP_cons, List.countP_cons, htest w w' hphase, ih hrest]

end

section
variable (h : Renamed f p q) (hids : (p.workers.map Worker.id).Nodup)
  (hids' : (q.workers.map Worker.id).Nodup)

include h hids hids'

theorem Renamed.order : Option.Rel (Renamed f) p.order? q.order? := by
  unfold Pool.order?
  rw [h.orders]
  rcases p.orders with _ | ⟨_ | _ | _, orders⟩
  · exact .none
  · by_cases hroom : p.queue.length < p.capacity
    · dsimp only
      rw [if_pos hroom, if_pos (h.room.mpr hroom)]
      refine .some { h with queue := ?_, orders := rfl }
      dsimp only
      rw [h.queue, List.map_append]
      rfl
    · dsimp only
      rw [if_neg hroom, if_neg (mt h.room.mp hroom)]
      exact .none
  · have hfound := find?_renamed isGone_renamed h.phases
    dsimp only
    generalize p.workers.find? Pool.isGone = found at hfound ⊢
    generalize q.workers.find? Pool.isGone = found' at hfound ⊢
    cases hfound with
    | none => exact .none
    | some hplace =>
        obtain ⟨place, hworker, hworker'⟩ := hplace
        refine .some { h with phases := ?_, orders := rfl }
        dsimp only
        rw [phases_filter hids hworker, phases_filter hids' hworker', h.phases, List.eraseIdx_map]
  · dsimp only
    rw [h.queue]
    cases p.queue with
    | nil => exact .some { h with queue := rfl, orders := rfl }
    | cons job queue => exact .some { h with queue := rfl, orders := rfl }

/-- Whoever moves first in the one pool moves first in the other. -/
theorem Renamed.next :
    Option.Rel (Moved f) (p.enabled?.bind p.step?) (q.enabled?.bind q.step?) := by
  have hbusy := find?_renamed isBusy_renamed h.phases
  have hidle := find?_renamed isIdle_renamed h.phases
  have horder : Option.Rel (Moved f) ((if p.order?.isSome then some .order else none).bind p.step?)
      ((if q.order?.isSome then some .order else none).bind q.step?) := by
    have hmoved := h.order hids hids'
    cases hp : p.order? <;> cases hq : q.order? <;> rw [hp, hq] at hmoved <;> cases hmoved
    · exact .none
    · rename_i hrenamed
      simp only [Option.isSome_some, if_true, Option.bind_some, Pool.step?, hp, hq, Option.map_some]
      exact .some ⟨hrenamed, rfl⟩
  unfold Pool.enabled?
  cases hfind : p.workers.find? Pool.isBusy <;> cases hfind' : q.workers.find? Pool.isBusy <;>
    rw [hfind, hfind'] at hbusy <;> cases hbusy
  · cases hrest : p.workers.find? Pool.isIdle <;> cases hrest' : q.workers.find? Pool.isIdle <;>
      rw [hrest, hrest'] at hidle <;> cases hidle
    · exact horder
    · rename_i hplace
      obtain ⟨place, hworker, hworker'⟩ := hplace
      have hmoved := h.stepAt hids hids' place
      rw [stepAt_of_isIdle hworker (List.find?_some hrest),
        stepAt_of_isIdle hworker' (List.find?_some hrest')] at hmoved
      rw [h.queue]
      cases p.queue with
      | nil => exact horder
      | cons job queue => exact hmoved
  · rename_i hplace
    obtain ⟨place, hworker, hworker'⟩ := hplace
    have hmoved := h.stepAt hids hids' place
    rwa [stepAt_of_isBusy hworker (List.find?_some hfind),
      stepAt_of_isBusy hworker' (List.find?_some hfind')] at hmoved

theorem Renamed.urgent :
    Option.Rel (Moved f) (p.urgent?.bind p.step?) (q.urgent?.bind q.step?) := by
  unfold Pool.urgent?
  rw [h.orders]
  split
  · exact .none
  · exact h.next hids hids'

end

theorem Renamed.effort (h : Renamed f p q) : q.effort = p.effort := by
  rw [Pool.effort, Pool.effort, h.queued, countP_renamed isBusy_renamed h.phases, h.orders]

/-- Both pools work off their orders alike, and what becomes of a state in the one becomes of its
counterpart in the other. -/
theorem Renamed.obey (h : Renamed f p q) (hsound : Sound n p) (hsound' : Sound m q)
    {effect : τ → σ → σ} {effect' : υ → ρ → ρ} {g : σ → ρ}
    (heffect : ∀ t s, effect' (f t) (g s) = g (effect t s)) (s : σ) :
    Renamed f (p.obey effect s).1 (q.obey effect' (g s)).1 ∧
      (q.obey effect' (g s)).2 = g (p.obey effect s).2 := by
  rw [Pool.obey, Pool.obey, h.effort]
  generalize p.effort = fuel
  induction fuel generalizing p q s with
  | zero => exact ⟨h, rfl⟩
  | succ fuel ih =>
      have hmoved := h.urgent hsound.ids hsound'.ids
      rw [Pool.runFor, Pool.runFor]
      cases hstep : p.urgent?.bind p.step? <;> cases hstep' : q.urgent?.bind q.step? <;>
        rw [hstep, hstep'] at hmoved <;> cases hmoved
      · exact ⟨h, rfl⟩
      · rename_i moved moved' hmoved
        rcases moved with ⟨p', done⟩
        rcases moved' with ⟨q', done'⟩
        obtain ⟨hrenamed, hdone⟩ := hmoved
        dsimp only at hrenamed hdone
        obtain ⟨step, -, hstep⟩ := Option.bind_eq_some_iff.mp hstep
        obtain ⟨step', -, hstep'⟩ := Option.bind_eq_some_iff.mp hstep'
        have hnext := ih hrenamed (sound_step hsound hstep).1 (sound_step hsound' hstep').1
        subst hdone
        cases done with
        | none => exact hnext s
        | some t =>
            dsimp only [Option.map_some]
            rw [heffect]
            exact hnext (effect t s)

end VoiceCall.Proofs.Decoding.Renaming
