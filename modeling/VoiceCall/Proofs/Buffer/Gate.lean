import VoiceCall.Proofs.Buffer.History

namespace VoiceCall.Proofs.Buffer.Gate

open VoiceCall.Buffer
open VoiceCall.Proofs.Buffer.History

variable (l : Latency)

/-- The last write lies further back than a buffer waits. -/
def Overdue (calls : List Call) (now : Nat) : Prop :=
  ∃ written, lastWrite calls = some written ∧ l.patience < now - written

/-- The wait is over: enough is queued, or the last write is overdue. -/
def Over (calls : List Call) (now : Nat) : Prop :=
  Audio.samplesOfMillis l.desired ≤ (after l calls).length ∨ Overdue l calls now

/-- A read at this clock finds audio, and the wait for it is over. -/
def Due (calls : List Call) (now : Nat) : Prop :=
  (after l calls).isEmpty = false ∧ Over l calls now

/-- The wait begins anew with the latest call. -/
def Rearmed : List Call → Prop
  | [] => True
  | .write _ _ :: _ => False
  | .read _ _ :: earlier => (after l earlier).isEmpty
  | .clear :: _ => True

/-- Some read among the recent calls was due. -/
def Waited (recent before : List Call) : Prop :=
  ∃ rest count now early, recent = rest ++ .read count now :: early ∧ Due l (early ++ before) now

/-- The next read gets what it asks for. -/
def Filled (calls : List Call) (count now : Nat) : Prop :=
  ((after l calls).read count now).1.isSome

/-- Every read that is filled has been waited for, by itself or by an earlier read, since each
moment at which the wait began. -/
def Gated (history : List Call) : Prop :=
  ∀ later count now between before,
    history = later ++ .read count now :: (between ++ before) → Rearmed l before →
      Filled l (between ++ before) count now → Waited l (.read count now :: between) before

/-- How the gate stands: shut, left open by a read on an empty queue, or opened by a read that was
due. -/
inductive Standing where
  | shut
  | ajar
  | passed
deriving DecidableEq

instance (calls : List Call) (now : Nat) : Decidable (Overdue l calls now) :=
  decidable_of_iff ((lastWrite calls).any fun written => l.patience < now - written) (by
    cases h : lastWrite calls <;> simp [Overdue, h])

instance (calls : List Call) (now : Nat) : Decidable (Over l calls now) :=
  inferInstanceAs (Decidable (_ ∨ _))

instance (calls : List Call) (now : Nat) : Decidable (Due l calls now) :=
  inferInstanceAs (Decidable (_ ∧ _))

def standing : List Call → Standing
  | [] => .shut
  | .write _ _ :: earlier => standing earlier
  | .read _ now :: earlier =>
    match (after l earlier).isEmpty, decide (Over l earlier now) with
    | true, true => .ajar
    | true, false => .shut
    | false, true => .passed
    | false, false => standing earlier
  | .clear :: _ => .shut

/-- The next read is filled too soon: it takes audio that is not due through a gate that stands
ajar, or it asks an empty queue for nothing when the wait is over. -/
def Leaks (calls : List Call) (count now : Nat) : Prop :=
  if (after l calls).isEmpty then
    Over l calls now ∧ count = 0 ∧ standing l calls ≠ .passed
  else
    count ≤ (after l calls).length ∧ ¬ Over l calls now ∧ standing l calls = .ajar

theorem stalled_after (calls : List Call) (now : Nat) :
    (after l calls).stalled now = true ↔ Overdue l calls now := by
  unfold Jitter.stalled Overdue
  rw [lastWrite_after, (fixed_after l calls).2]
  cases lastWrite calls <;> simp

theorem released_after (calls : List Call) (now : Nat) :
    (after l calls).released now = true ↔
      (after l calls).gathering = false ∧ (after l calls).isEmpty = false ∨ Over l calls now := by
  have hstalled := stalled_after l calls now
  have hdesired := (fixed_after l calls).1
  simp only [Jitter.released, Bool.or_eq_true, Bool.not_eq_true', Bool.or_eq_false_iff,
    decide_eq_true_eq, hstalled, hdesired, or_assoc]
  rfl

theorem gathering_after_eq_false_iff (calls : List Call) :
    (after l calls).gathering = false ↔ standing l calls ≠ .shut := by
  induction calls with
  | nil => simp [after, Jitter.create, standing]
  | cons call earlier ih =>
      cases call with
      | write samples now => simpa [after, Call.apply, standing] using ih
      | read count now =>
          simp only [after, Call.apply, Jitter.gathering_read, Bool.not_eq_false',
            released_after, ih, standing]
          by_cases hover : Over l earlier now
          · cases (after l earlier).isEmpty <;> simp [hover]
          · cases (after l earlier).isEmpty <;> simp [hover]
      | clear => simp [after, Call.apply, Jitter.clear, standing]

theorem filled_iff (calls : List Call) (count now : Nat) :
    Filled l calls count now ↔
      (standing l calls ≠ .shut ∧ (after l calls).isEmpty = false ∨ Over l calls now) ∧
        count ≤ (after l calls).length := by
  rw [Filled, Jitter.isSome_read, Bool.and_eq_true, released_after,
    gathering_after_eq_false_iff, decide_eq_true_eq]

theorem not_waited_nil (before : List Call) : ¬ Waited l [] before := by
  rintro ⟨rest, count, now, early, heq, -⟩
  simp at heq

theorem waited_cons (call : Call) (recent before : List Call) :
    Waited l (call :: recent) before ↔
      (∃ count now, call = .read count now ∧ Due l (recent ++ before) now) ∨
        Waited l recent before := by
  constructor
  · rintro ⟨rest, count, now, early, heq, hdue⟩
    rcases List.cons_eq_append_iff.mp heq with ⟨-, hread⟩ | ⟨rest, -, hrecent⟩
    · obtain ⟨rfl, rfl⟩ := List.cons.inj hread
      exact .inl ⟨count, now, rfl, hdue⟩
    · exact .inr ⟨rest, count, now, early, hrecent, hdue⟩
  · rintro (⟨count, now, rfl, hdue⟩ | ⟨rest, count, now, early, rfl, hdue⟩)
    · exact ⟨[], count, now, recent, rfl, hdue⟩
    · exact ⟨call :: rest, count, now, early, rfl, hdue⟩

/-- Audio has been waited for since each moment at which the wait began. -/
def Earned (calls : List Call) : Prop :=
  ∀ recent before, calls = recent ++ before → Rearmed l before → Waited l recent before

theorem not_earned_of_rearmed (calls : List Call) (h : Rearmed l calls) : ¬ Earned l calls :=
  fun hearned => not_waited_nil l calls (hearned [] calls rfl h)

theorem earned_cons {call : Call} {calls : List Call} (h : ¬ Rearmed l (call :: calls)) :
    Earned l (call :: calls) ↔
      (∃ count now, call = .read count now ∧ Due l calls now) ∨ Earned l calls := by
  constructor
  · intro hearned
    by_cases hdue : ∃ count now, call = .read count now ∧ Due l calls now
    · exact .inl hdue
    · right
      intro recent before heq hrearmed
      subst heq
      have hwaited := hearned (call :: recent) before rfl hrearmed
      exact ((waited_cons l call recent before).mp hwaited).resolve_left hdue
  · intro hor recent before heq hrearmed
    cases recent with
    | nil =>
        obtain rfl : call :: calls = before := heq
        exact absurd hrearmed h
    | cons first recent =>
        obtain ⟨rfl, rfl⟩ := List.cons.inj heq
        rw [waited_cons]
        exact hor.imp_right fun hearned => hearned recent before rfl hrearmed

theorem standing_eq_passed_iff (calls : List Call) :
    standing l calls = .passed ↔ Earned l calls := by
  induction calls with
  | nil => simp [standing, not_earned_of_rearmed l [] trivial]
  | cons call earlier ih =>
      cases call with
      | write samples now =>
          rw [earned_cons l (by simp [Rearmed])]
          simpa [standing] using ih
      | read count now =>
          cases hempty : (after l earlier).isEmpty with
          | true =>
              -- The wait begins anew here, so nothing that came before counts.
              have hnot := not_earned_of_rearmed l (.read count now :: earlier) hempty
              by_cases hover : Over l earlier now <;> simp [standing, hempty, hover, hnot]
          | false =>
              rw [earned_cons l (by simp [Rearmed, hempty])]
              by_cases hover : Over l earlier now
              · refine iff_of_true ?_ (.inl ⟨count, now, rfl, hempty, hover⟩)
                simp [standing, hempty, hover]
              · simp [standing, hempty, hover, Due, ih]
      | clear => simp [standing, not_earned_of_rearmed l (.clear :: earlier) trivial]

theorem waited_read_iff (calls : List Call) (count now : Nat) :
    (∀ between before, calls = between ++ before → Rearmed l before →
        Waited l (.read count now :: between) before) ↔
      Due l calls now ∨ Earned l calls := by
  constructor
  · intro hall
    by_cases hdue : Due l calls now
    · exact .inl hdue
    · right
      intro recent before heq hrearmed
      have h := hall recent before heq hrearmed
      rw [waited_cons, ← heq] at h
      rcases h with ⟨_, _, hread, hdue'⟩ | h
      · cases hread
        exact absurd hdue' hdue
      · exact h
  · intro hor between before heq hrearmed
    rw [waited_cons, ← heq]
    rcases hor with hdue | hearned
    · exact .inl ⟨count, now, rfl, hdue⟩
    · exact .inr (hearned between before heq hrearmed)

theorem leaks_iff (calls : List Call) (count now : Nat) :
    Leaks l calls count now ↔
      Filled l calls count now ∧ ¬ (Due l calls now ∨ standing l calls = .passed) := by
  rw [filled_iff]
  unfold Leaks Due
  cases hempty : (after l calls).isEmpty with
  | true =>
      have hlength : (after l calls).length = 0 := by
        simpa [Jitter.isEmpty, SampleQueue.isEmpty, Jitter.length, SampleQueue.length] using hempty
      simp [hlength, and_assoc]
  | false =>
      by_cases hover : Over l calls now
      · simp [hover]
      · cases hstanding : standing l calls <;> simp [hover]

/-- One read keeps the gate unless it leaks. -/
theorem waited_of_filled_iff (calls : List Call) (count now : Nat) :
    (∀ between before, calls = between ++ before → Rearmed l before →
        Filled l calls count now → Waited l (.read count now :: between) before) ↔
      ¬ Leaks l calls count now := by
  rw [leaks_iff, not_and, Classical.not_not, standing_eq_passed_iff, ← waited_read_iff]
  constructor
  · intro hall hfilled between before heq hrearmed
    exact hall between before heq hrearmed hfilled
  · intro hall between before heq hrearmed hfilled
    exact hall hfilled between before heq hrearmed

/-- From creation, from a clear and from a read on an empty queue on, audio has to be waited for.
Nobody is given audio without that wait exactly when no read leaks, that is, slips through a gate
that a late read on an empty queue has left ajar, or asks an empty queue for nothing. -/
theorem gated_iff (history : List Call) :
    Gated l history ↔
      ∀ later count now calls, history = later ++ .read count now :: calls →
        ¬ Leaks l calls count now := by
  constructor
  · intro hgated later count now calls heq
    rw [← waited_of_filled_iff]
    intro between before hcalls hrearmed hfilled
    subst hcalls
    exact hgated later count now between before heq hrearmed hfilled
  · intro hleaks later count now between before heq hrearmed hfilled
    have h := (waited_of_filled_iff l (between ++ before) count now).mpr
      (hleaks later count now (between ++ before) heq)
    exact h between before rfl hrearmed hfilled

/-- One sample is written, read late, and asked for again; the next sample is then read at once,
although 3840 are desired. -/
theorem not_gated_late_drain :
    ¬ Gated ⟨40, 200, 1⟩ [.read 1 203, .write [Sample.zero] 203, .read 1 202, .read 1 201,
      .write [Sample.zero] 0] := by
  intro hgated
  have hwaited := hgated [] 1 203 [.write [Sample.zero] 203]
    [.read 1 202, .read 1 201, .write [Sample.zero] 0] rfl (by rfl) (by rfl)
  rw [waited_cons, waited_cons] at hwaited
  rcases hwaited with ⟨_, _, hread, hdue⟩ | ⟨_, _, hread, -⟩ | hnil
  · cases hread
    revert hdue
    decide
  · cases hread
  · exact not_waited_nil _ _ hnil

end VoiceCall.Proofs.Buffer.Gate
