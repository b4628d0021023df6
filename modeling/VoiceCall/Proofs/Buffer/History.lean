import VoiceCall.Buffer.Jitter

namespace VoiceCall.Proofs.Buffer.History

open VoiceCall.Buffer

/-- What a buffer is asked for, and when. -/
inductive Call where
  | write (samples : List Sample) (now : Nat)
  | read (count now : Nat)
  | clear

def Call.apply (b : Jitter) : Call → Jitter
  | write samples now => (b.write samples now).1
  | read count now => (b.read count now).2
  | clear => b.clear

/-- The latencies of a buffer in milliseconds, and the ticks of its clocks in one of them. -/
structure Latency where
  desired : UInt32
  most : UInt32
  resolution : Nat

variable (l : Latency)

/-- The longest time in ticks that a buffer waits for more audio. -/
def Latency.patience : Nat :=
  max l.desired.toNat l.most.toNat * l.resolution

/-- The buffer after a history. Histories list the latest call first. -/
def after : List Call → Jitter
  | [] => .create l.desired l.most l.resolution
  | call :: earlier => call.apply (after earlier)

/-- The clock of the last write, which a later clear does not undo. -/
def lastWrite : List Call → Option Nat
  | [] => none
  | .write _ now :: _ => some now
  | .read _ _ :: earlier => lastWrite earlier
  | .clear :: earlier => lastWrite earlier

theorem toNat_max (a b : UInt32) : (max a b).toNat = max a.toNat b.toNat := by
  change (if a ≤ b then b else a).toNat = _
  by_cases h : a ≤ b
  · rw [if_pos h, Nat.max_eq_right (UInt32.le_iff_toNat_le.mp h)]
  · have hlt : b.toNat ≤ a.toNat := by
      have := mt UInt32.le_iff_toNat_le.mpr h
      omega
    rw [if_neg h, Nat.max_eq_left hlt]

theorem fixed_after (calls : List Call) :
    (after l calls).desired = Audio.samplesOfMillis l.desired ∧
      (after l calls).patience = l.patience := by
  induction calls with
  | nil =>
      refine ⟨rfl, ?_⟩
      simp [after, Jitter.create, Latency.patience, toNat_max, Nat.max_comm]
  | cons call earlier ih =>
      cases call with
      | write samples now => exact ih
      | read count now =>
          obtain ⟨queue, gathering, heq⟩ := (after l earlier).exists_read_eq count now
          simp only [after, Call.apply, heq]
          exact ih
      | clear => exact ih

theorem lastWrite_after (calls : List Call) :
    (after l calls).lastWrite = lastWrite calls := by
  induction calls with
  | nil => rfl
  | cons call earlier ih =>
      cases call with
      | write samples now => rfl
      | read count now =>
          obtain ⟨queue, gathering, heq⟩ := (after l earlier).exists_read_eq count now
          simp only [after, Call.apply, heq]
          exact ih
      | clear => exact ih

end VoiceCall.Proofs.Buffer.History
