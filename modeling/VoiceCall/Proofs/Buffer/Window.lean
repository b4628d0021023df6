import Mathlib.Algebra.Order.Ring.Nat
import Mathlib.Algebra.Order.Sub.Basic
import Mathlib.Algebra.Ring.Parity
import Mathlib.Order.Bounds.Defs
import VoiceCall.Proofs.Buffer.History

namespace VoiceCall.Proofs.Buffer.Window

open VoiceCall.Buffer
open VoiceCall.Proofs.Buffer.History

variable (l : Latency)

/-- The most samples that a buffer queues. -/
def bound : Nat :=
  max 1 (Audio.samplesOfMillis (max l.desired l.most))

/-- All samples that were written since the last clear. -/
def written : List Call → List Sample
  | [] => []
  | .write samples _ :: earlier => written earlier ++ samples
  | .read _ _ :: earlier => written earlier
  | .clear :: _ => []

/-- How many of the written samples have left the queue. -/
def position : List Call → Nat
  | [] => 0
  | .write samples _ :: earlier =>
    max (position earlier) ((written earlier ++ samples).length - bound l)
  | .read count now :: earlier =>
    if ((after l earlier).read count now).1.isSome then position earlier + count
    else position earlier
  | .clear :: _ => 0

/-- What a block holds after a buffer was asked to fill it. -/
def fill (b : Jitter) (block : List Sample) (now : Nat) : List Sample :=
  (b.read block.length now).1.getD block

/-- A call that moves whole pairs of samples, a left one and a right one. -/
def Paired : Call → Prop
  | .write samples _ => Even samples.length
  | .read count _ => Even count
  | .clear => True

theorem queue_read_cases (b : Jitter) (count now : Nat) :
    (count ≤ b.length ∧ (b.read count now).1 = some (b.queue.samples.take count) ∧
        (b.read count now).2.queue = { b.queue with samples := b.queue.samples.drop count }) ∨
      (b.read count now).1 = none ∧ (b.read count now).2.queue = b.queue := by
  rw [Jitter.read]
  split
  · rw [SampleQueue.pop]
    by_cases hshort : b.queue.length < count
    · right
      rw [if_pos hshort]
      exact ⟨rfl, rfl⟩
    · left
      rw [if_neg hshort]
      exact ⟨Nat.le_of_not_lt hshort, rfl, rfl⟩
  · exact .inr ⟨rfl, rfl⟩

/-- What is pushed onto a window of one list leaves a window of the longer list. -/
theorem push_window {q : SampleQueue} {before : List Sample} {k : Nat}
    (hsamples : q.samples = before.drop k) (hk : k ≤ before.length) (input : List Sample) :
    (q.push input).1.samples =
      (before ++ input).drop (max k ((before ++ input).length - q.capacity)) := by
  have hlength : q.length = before.length - k := by
    rw [SampleQueue.length, hsamples, List.length_drop]
  simp only [SampleQueue.push, hlength, hsamples, List.length_drop, List.length_append,
    List.drop_drop, List.drop_append]
  by_cases hfits : input.length ≤ q.capacity
  · have hall : input.length - q.capacity = 0 := by omega
    have hkept : max k (before.length + input.length - q.capacity) - before.length = 0 := by omega
    rw [hall, hkept, List.drop_zero]
    congr 2
    omega
  · -- nothing that had been queued fits in beside so much input
    have hnone : before.length ≤ max k (before.length + input.length - q.capacity) := by omega
    rw [List.drop_eq_nil_of_le (by omega), List.drop_eq_nil_of_le hnone]
    congr 2
    omega

theorem dropped_push {q : SampleQueue} {before : List Sample} {k : Nat}
    (hsamples : q.samples = before.drop k) (hk : k ≤ before.length) (input : List Sample) :
    (q.push input).2 =
      ((before.take (max k ((before ++ input).length - q.capacity))).drop k).length := by
  have hlength : q.length = before.length - k := by
    rw [SampleQueue.length, hsamples, List.length_drop]
  simp only [SampleQueue.push, hlength, List.length_drop, List.length_take, List.length_append]
  omega

theorem toNat_bound :
    bound l = max 1 (max l.desired.toNat l.most.toNat * Audio.samplesPerMilli) := by
  rw [bound, Audio.samplesOfMillis, toNat_max]

theorem capacity_after (calls : List Call) : (after l calls).queue.capacity = bound l := by
  induction calls with
  | nil =>
      change max (Audio.samplesOfMillis (max l.most l.desired)) 1 = bound l
      rw [toNat_bound, Audio.samplesOfMillis, toNat_max, Nat.max_comm l.most.toNat, Nat.max_comm]
  | cons call earlier ih =>
      cases call with
      | write samples now => exact ih
      | read count now =>
          rw [after, Call.apply]
          rcases queue_read_cases (after l earlier) count now with ⟨-, -, hqueue⟩ | ⟨-, hqueue⟩
          · rw [hqueue]
            exact ih
          · rw [hqueue]
            exact ih
      | clear => exact ih

/-- The queue is the window from the position on, and the position is within what was written. -/
theorem window_after (calls : List Call) :
    (after l calls).queue.samples = (written calls).drop (position l calls) ∧
      position l calls ≤ (written calls).length := by
  induction calls with
  | nil => exact ⟨rfl, Nat.le_refl 0⟩
  | cons call earlier ih =>
      obtain ⟨hsamples, hposition⟩ := ih
      cases call with
      | write samples now =>
          have hpush := push_window hsamples hposition samples
          rw [capacity_after] at hpush
          refine ⟨hpush, ?_⟩
          simp only [position, written, List.length_append]
          omega
      | read count now =>
          rw [after, Call.apply, position, written]
          rcases queue_read_cases (after l earlier) count now with
            ⟨henough, hread, hqueue⟩ | ⟨hread, hqueue⟩
          · rw [Jitter.length, SampleQueue.length, hsamples, List.length_drop] at henough
            rw [hread, hqueue, if_pos Option.isSome_some, hsamples]
            exact ⟨List.drop_drop, by omega⟩
          · rw [hread, hqueue]
            exact ⟨hsamples, hposition⟩
      | clear => exact ⟨rfl, Nat.le_refl 0⟩

theorem length_after_le (calls : List Call) : (after l calls).length ≤ bound l := by
  induction calls with
  | nil => exact Nat.zero_le _
  | cons call earlier ih =>
      cases call with
      | write samples now =>
          have hwindow := (window_after l (.write samples now :: earlier)).1
          rw [Jitter.length, SampleQueue.length, hwindow, List.length_drop, position, written]
          omega
      | read count now =>
          rw [Jitter.length, SampleQueue.length] at ih ⊢
          rw [after, Call.apply]
          rcases queue_read_cases (after l earlier) count now with ⟨-, -, hqueue⟩ | ⟨-, hqueue⟩
          · rw [hqueue, List.length_drop]
            omega
          · rw [hqueue]
            exact ih
      | clear => exact Nat.zero_le _

theorem isLeast_position (calls : List Call) (samples : List Sample) (now : Nat) :
    IsLeast {k | position l calls ≤ k ∧ ((written calls ++ samples).drop k).length ≤ bound l}
      (position l (.write samples now :: calls)) := by
  constructor
  · refine ⟨Nat.le_max_left _ _, ?_⟩
    rw [List.length_drop, position]
    omega
  · rintro k ⟨hk, hfits⟩
    rw [List.length_drop] at hfits
    rw [position]
    omega

theorem even_written {calls : List Call} (hpaired : ∀ call ∈ calls, Paired call) :
    Even (written calls).length := by
  induction calls with
  | nil => exact Even.zero
  | cons call earlier ih =>
      have hcall := hpaired call List.mem_cons_self
      have hearlier := ih fun other hmem => hpaired other (List.mem_cons_of_mem call hmem)
      cases call with
      | write samples now =>
          rw [written, List.length_append]
          exact hearlier.add hcall
      | read count now => exact hearlier
      | clear => exact Even.zero

theorem even_bound (hlong : 1 ≤ max l.desired.toNat l.most.toNat) : Even (bound l) := by
  have hmany : bound l = max l.desired.toNat l.most.toNat * Audio.samplesPerMilli := by
    rw [toNat_bound, Audio.samplesPerMilli]
    omega
  rw [hmany]
  exact Even.mul_left (by decide) _

theorem even_position (hlong : 1 ≤ max l.desired.toNat l.most.toNat) {calls : List Call}
    (hpaired : ∀ call ∈ calls, Paired call) : Even (position l calls) := by
  induction calls with
  | nil => exact Even.zero
  | cons call earlier ih =>
      have hcall := hpaired call List.mem_cons_self
      have hearlier := ih fun other hmem => hpaired other (List.mem_cons_of_mem call hmem)
      cases call with
      | write samples now =>
          have hwritten : Even (written earlier ++ samples).length := even_written hpaired
          rw [position]
          rcases Nat.le_total (position l earlier)
              ((written earlier ++ samples).length - bound l) with hover | hfits
          · rw [Nat.max_eq_right hover]
            exact Even.tsub hwritten (even_bound l hlong)
          · rw [Nat.max_eq_left hfits]
            exact hearlier
      | read count now =>
          rw [position]
          split
          · exact hearlier.add hcall
          · exact hearlier
      | clear => exact Even.zero

/-- At every moment the queue is what was written since the last clear from one position on, and it
keeps within its bound. A write moves the position on no further than that asks for, and counts what
was queued and is passed over; a read that succeeds fills its block with the next samples and passes
over them, one that fails leaves the block and the queue alone. As long as pairs are moved, and
there is room for one, the position is between two pairs. -/
theorem queue_is_window (calls : List Call) :
    (after l calls).queue.samples = (written calls).drop (position l calls) ∧
      (after l calls).length ≤ bound l ∧
      (∀ samples now,
        IsLeast {k | position l calls ≤ k ∧ ((written calls ++ samples).drop k).length ≤ bound l}
            (position l (.write samples now :: calls)) ∧
          ((after l calls).write samples now).2 =
            (((written calls).take (position l (.write samples now :: calls))).drop
              (position l calls)).length) ∧
      (∀ block now,
        if ((after l calls).read block.length now).1.isSome then
          fill (after l calls) block now =
              ((written calls).drop (position l calls)).take block.length ∧
            (fill (after l calls) block now).length = block.length ∧
            position l (.read block.length now :: calls) = position l calls + block.length
        else
          fill (after l calls) block now = block ∧
            ((after l calls).read block.length now).2.queue = (after l calls).queue ∧
            position l (.read block.length now :: calls) = position l calls) ∧
      (1 ≤ max l.desired.toNat l.most.toNat → (∀ call ∈ calls, Paired call) →
        Even (position l calls)) := by
  obtain ⟨hsamples, hposition⟩ := window_after l calls
  refine ⟨hsamples, length_after_le l calls, ?_, ?_, fun hlong => even_position l hlong⟩
  · intro samples now
    refine ⟨isLeast_position l calls samples now, ?_⟩
    have hdropped := dropped_push hsamples hposition samples
    rw [capacity_after] at hdropped
    exact hdropped
  · intro block now
    rw [fill, position]
    rcases queue_read_cases (after l calls) block.length now with
      ⟨henough, hread, -⟩ | ⟨hread, hqueue⟩
    · rw [hread, if_pos Option.isSome_some, if_pos Option.isSome_some, Option.getD_some,
        List.length_take, hsamples]
      rw [Jitter.length, SampleQueue.length, hsamples] at henough
      exact ⟨rfl, Nat.min_eq_left henough, rfl⟩
    · rw [hread]
      exact ⟨rfl, hqueue, rfl⟩

/-- A pair is read from a buffer for one millisecond that was written a pair too much. -/
theorem queue_is_window_overflow :
    let l : Latency := ⟨0, 1, 1⟩
    let calls : List Call := [.read 2 1, .write (List.replicate 98 Sample.zero) 0]
    1 ≤ max l.desired.toNat l.most.toNat ∧ (∀ call ∈ calls, Paired call) ∧
      position l calls = 4 ∧ Even (position l calls) := by
  intro l calls
  have hlong : 1 ≤ max l.desired.toNat l.most.toNat := by decide
  have hpaired : ∀ call ∈ calls, Paired call := by
    simp only [calls, List.forall_mem_cons, Paired, List.length_replicate]
    exact ⟨by decide, by decide, nofun⟩
  have heven := (queue_is_window l calls).2.2.2.2 hlong hpaired
  exact ⟨hlong, hpaired, by decide, heven⟩

end VoiceCall.Proofs.Buffer.Window
