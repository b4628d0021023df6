import VoiceCall.Proofs.Decoding.Conservation
import VoiceCall.Proofs.Decoding.Settling

namespace VoiceCall.Proofs.Decoding.Succession

open VoiceCall.Decoding
open VoiceCall.Proofs.Decoding.Conservation (waiting running)
open VoiceCall.Proofs.Decoding.Settling
open VoiceCall.Proofs.Decoding.Workers

variable {τ σ : Type}

inductive Move (τ : Type) where
  | submit (t : τ)
  | step (step : Pool.Step)

/-- A pool, the state that its worker works on, and the tasks that it has accepted. -/
structure Shift (τ σ : Type) where
  pool : Pool τ
  state : σ
  accepted : List τ

/-- What one task after the other makes of a state. -/
def worked (effect : τ → σ → σ) (tasks : List τ) (s : σ) : σ :=
  tasks.foldl (fun s t => effect t s) s

/-- The state changes when a task is finished; a step that cannot be taken changes nothing. -/
def Shift.move (effect : τ → σ → σ) (w : Shift τ σ) : Move τ → Shift τ σ
  | .submit t =>
    match w.pool.submit t with
    | (pool, true) => { w with pool := pool, accepted := w.accepted ++ [t] }
    | (pool, false) => { w with pool := pool }
  | .step step =>
    match w.pool.step? step with
    | none => w
    | some (pool, done) => { w with pool := pool, state := worked effect done.toList w.state }

def Shift.run (effect : τ → σ → σ) (w : Shift τ σ) (moves : List (Move τ)) : Shift τ σ :=
  moves.foldl (Shift.move effect) w

/-- A pool with one worker, which has run the accepted tasks up to some point, one after the other:
the state is what they made of the first one. -/
structure InTurn (effect : τ → σ → σ) (processed : Nat) (first : σ) (accepted : List τ)
    (p : Pool τ) (s : σ) : Prop where
  rests : Rests 1 p
  progress : ∃ finished, accepted = finished ++ running p.workers ++ waiting p.queue ∧
    p.processed = processed + finished.length ∧ s = worked effect finished first

variable {effect : τ → σ → σ} {processed : Nat} {first s : σ} {accepted : List τ} {p p' : Pool τ}

theorem eq_nil_of_rests {before behind : List (Worker τ)} {w : Worker τ} (h : Rests 1 p)
    (hworkers : p.workers = before ++ w :: behind) : before = [] ∧ behind = [] := by
  have hcount : p.workers.length = 1 := h.workerCount
  rw [hworkers, List.length_append, List.length_cons] at hcount
  exact ⟨List.eq_nil_of_length_eq_zero (by omega), List.eq_nil_of_length_eq_zero (by omega)⟩

theorem inTurn_submit (h : InTurn effect processed first accepted p s) (t : τ) :
    InTurn effect processed first (if (p.submit t).2 then accepted ++ [t] else accepted)
      (p.submit t).1 s := by
  have hrests := rests_submit h.rests t
  obtain ⟨finished, haccepted, hprogress⟩ := h.progress
  rcases submit_cases p t with hsubmit | hsubmit
  · rw [hsubmit] at hrests ⊢
    refine ⟨hrests, finished, ?_, hprogress⟩
    rw [if_pos rfl, haccepted, Conservation.waiting_append, List.append_assoc _ (waiting p.queue)]
    rfl
  · rw [hsubmit] at hrests ⊢
    exact ⟨hrests, finished, haccepted, hprogress⟩

theorem inTurn_step {step : Pool.Step} {done : Option τ}
    (h : InTurn effect processed first accepted p s) (hstep : p.step? step = some (p', done)) :
    InTurn effect processed first accepted p' (worked effect done.toList s) := by
  have hsound := (sound_step h.rests.sound hstep).1
  have hnone := h.rests.orders
  obtain ⟨finished, haccepted, hprocessed, rfl⟩ := h.progress
  cases stepped_of_step? h.rests.sound.ids hstep with
  | began hqueue hworkers =>
      obtain ⟨rfl, rfl⟩ := eq_nil_of_rests h.rests hworkers
      refine ⟨⟨hsound, hnone⟩, finished, ?_, hprocessed, rfl⟩
      rw [haccepted, hqueue, hworkers]
      simp
  | left hqueue hworkers =>
      refine absurd ?_ h.rests.leave_not_mem
      rw [hqueue]
      exact List.mem_cons_self
  | @finished id t before behind hworkers =>
      obtain ⟨rfl, rfl⟩ := eq_nil_of_rests h.rests hworkers
      refine ⟨⟨hsound, hnone⟩, finished ++ [t], ?_, ?_, ?_⟩
      · rw [haccepted, hworkers]
        simp
      · rw [List.length_append, List.length_singleton, ← Nat.add_assoc, ← hprocessed]
      · rw [worked, worked, worked, List.foldl_append]
        rfl
  | dismissed horders => exact absurd (hnone.symm.trans horders) nofun
  | released horders hworkers => exact absurd (hnone.symm.trans horders) nofun
  | dropped horders hqueue => exact absurd (hnone.symm.trans horders) nofun
  | emptied horders hqueue => exact absurd (hnone.symm.trans horders) nofun

theorem inTurn_run {w : Shift τ σ} (moves : List (Move τ))
    (h : InTurn effect processed first w.accepted w.pool w.state) :
    InTurn effect processed first (w.run effect moves).accepted (w.run effect moves).pool
      (w.run effect moves).state := by
  induction moves generalizing w with
  | nil => exact h
  | cons move moves ih =>
      refine ih ?_
      cases move with
      | submit t =>
          have hsubmitted := inTurn_submit h t
          rw [Shift.move]
          split
          all_goals
            rename_i hsubmit
            rw [hsubmit] at hsubmitted
            exact hsubmitted
      | step step =>
          rw [Shift.move]
          split
          · exact h
          · rename_i hstep
            exact inTurn_step h hstep

/-- Where nothing moves, no task is left. -/
theorem effort_of_stuck {n : Nat} (h : Rests n p) (hworkers : 0 < n)
    (hstuck : p.enabled?.bind p.step? = none) : p.effort = 0 := by
  have hdisabled : p.enabled? = none := by
    cases henabled : p.enabled? with
    | none => rfl
    | some step =>
        have hstep := isSome_step h.sound henabled
        rw [henabled, Option.bind_some] at hstuck
        rw [hstuck] at hstep
        cases hstep
  have hstaying := staying h.sound
  unfold Pool.enabled? at hdisabled
  split at hdisabled
  · cases hdisabled
  · rename_i hnobody
    have hbusy : p.workers.countP Pool.isBusy = 0 :=
      List.countP_eq_zero.mpr (List.find?_eq_none.mp hnobody)
    have hidle : 0 < p.workers.countP Pool.isIdle := by omega
    obtain ⟨w, hmem, hw⟩ := List.countP_pos_iff.mp hidle
    have hqueue : p.queue = [] := by
      split at hdisabled
      · cases hdisabled
      · rename_i hother
        cases hfind : p.workers.find? Pool.isIdle with
        | none => exact absurd hw (List.find?_eq_none.mp hfind w hmem)
        | some v =>
            cases hqueue : p.queue with
            | nil => rfl
            | cons job queue => exact absurd hqueue (hother v job queue hfind)
    rw [Pool.effort, hqueue, hbusy, h.orders]
    rfl

theorem inTurn_runFor {fuel : Nat} (h : InTurn effect processed first accepted p s)
    (hfuel : p.effort ≤ fuel) :
    InTurn effect processed first accepted (Pool.runFor Pool.enabled? effect fuel p s).1
        (Pool.runFor Pool.enabled? effect fuel p s).2 ∧
      (Pool.runFor Pool.enabled? effect fuel p s).1.effort = 0 := by
  induction fuel generalizing p s with
  | zero => exact ⟨h, Nat.le_zero.mp hfuel⟩
  | succ fuel ih =>
      rw [Pool.runFor]
      split
      · rename_i hstuck
        exact ⟨h, effort_of_stuck h.rests Nat.one_pos hstuck⟩
      all_goals
        rename_i hstep
        obtain ⟨step, -, hstep⟩ := Option.bind_eq_some_iff.mp hstep
        have heffort := (sound_step h.rests.sound hstep).2
        exact ih (inTurn_step h hstep) (by omega)

theorem running_of_nobody {workers : List (Worker τ)} (h : workers.countP Pool.isBusy = 0) :
    running workers = [] := by
  rw [running, List.filterMap_eq_nil_iff]
  rintro ⟨id, phase⟩ hmem
  have hidle := List.countP_eq_zero.mp h _ hmem
  cases phase with
  | busy t => exact absurd rfl hidle
  | idle => rfl
  | gone => rfl

/-- At rest all accepted tasks have been run, in their order. -/
theorem settle_inTurn (h : InTurn effect processed first accepted p s) :
    (p.settle effect s).1.processed = processed + accepted.length ∧
      (p.settle effect s).2 = worked effect accepted first := by
  obtain ⟨⟨-, finished, haccepted, hprocessed, hstate⟩, heffort⟩ :=
    inTurn_runFor h (Nat.le_refl p.effort)
  rw [← Pool.settle] at haccepted hprocessed hstate heffort
  rw [Pool.effort] at heffort
  have hqueue : (p.settle effect s).1.queue = [] := List.eq_nil_of_length_eq_zero (by omega)
  rw [hqueue, running_of_nobody (by omega)] at haccepted
  obtain rfl : accepted = finished := by simpa using haccepted
  exact ⟨hprocessed, hstate⟩

theorem inTurn_start (effect : τ → σ → σ) (h : Quiet 1 p) (s : σ) :
    InTurn effect p.processed s [] p s := by
  refine ⟨h.rests, [], ?_, rfl, rfl⟩
  have hnobody : p.workers.countP Pool.isBusy = 0 :=
    List.countP_eq_zero.mpr (List.find?_eq_none.mp h.find?_isBusy)
  rw [running_of_nobody hnobody, h.queue]
  rfl

/-- Whatever was submitted and done before, at rest the accepted tasks have been run in turn. -/
theorem settle_run (effect : τ → σ → σ) (h : Quiet 1 p) (s : σ) (moves : List (Move τ)) :
    let w := Shift.run effect ⟨p, s, []⟩ moves
    (w.pool.settle effect w.state).1.processed = p.processed + w.accepted.length ∧
      (w.pool.settle effect w.state).2 = worked effect w.accepted s :=
  settle_inTurn (inTurn_run (w := ⟨p, s, []⟩) moves (inTurn_start effect h s))

/-- Any list of tasks can be brought through a quiet pool with a worker. -/
theorem exists_accepted {n : Nat} (h : Quiet n p) (hworkers : 0 < n) (tasks : List τ) :
    ∃ moves : List (Move τ), ∀ (effect : τ → σ → σ) (s : σ) (accepted : List τ),
      (Shift.run effect ⟨p, s, accepted⟩ moves).accepted = accepted ++ tasks := by
  induction tasks generalizing p with
  | nil => exact ⟨[], fun effect s accepted => (List.append_nil accepted).symm⟩
  | cons t tasks ih =>
      obtain ⟨id, queued, began, hsubmit, -, -, htaken, -, hfinished⟩ := h.exists_steps hworkers t
      obtain ⟨moves, hrest⟩ := ih (h.counted (p.processed + 1))
      refine ⟨.submit t :: .step (.take id) :: .step (.finish id) :: moves,
        fun effect s accepted => ?_⟩
      simp only [Shift.run, List.foldl_cons, Shift.move, hsubmit, htaken, hfinished]
      rw [← Shift.run, hrest, List.append_assoc, List.singleton_append]

end VoiceCall.Proofs.Decoding.Succession
