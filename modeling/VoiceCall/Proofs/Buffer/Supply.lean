import VoiceCall.Proofs.Buffer.Window

namespace VoiceCall.Proofs.Buffer.Supply

open VoiceCall.Buffer
open VoiceCall.Proofs.Buffer.History
open VoiceCall.Proofs.Buffer.Window (bound capacity_after length_after_le toNat_bound)

variable (l : Latency)

/-- Samples that are written at once, and when. -/
structure Portion where
  samples : List Sample
  now : Nat

def Portion.call (p : Portion) : Call :=
  .write p.samples p.now

/-- How many samples some portions bring, whether or not there is room for them. -/
def supplied (portions : List Portion) : Nat :=
  (portions.map fun p => p.samples.length).sum

/-- The buffer after a history and some portions on top of it, the latest first. -/
def refilled (portions : List Portion) (calls : List Call) : Jitter :=
  after l (portions.map Portion.call ++ calls)

theorem length_push {q : SampleQueue} (hq : q.length ≤ q.capacity) (input : List Sample) :
    (q.push input).1.length = min (q.length + input.length) q.capacity := by
  unfold SampleQueue.push SampleQueue.length at *
  simp only [List.length_append, List.length_drop]
  omega

theorem length_refilled (portions : List Portion) (calls : List Call) :
    (refilled l portions calls).length =
      min ((after l calls).length + supplied portions) (bound l) := by
  induction portions with
  | nil => exact (Nat.min_eq_left (length_after_le l calls)).symm
  | cons p portions ih =>
      have hcapacity : (refilled l portions calls).queue.capacity = bound l := capacity_after l _
      have hfits : (refilled l portions calls).length ≤ bound l := length_after_le l _
      change ((refilled l portions calls).queue.push p.samples).1.length = _
      rw [length_push (hcapacity ▸ hfits), hcapacity]
      change min ((refilled l portions calls).length + _) _ = _
      rw [ih, supplied, supplied, List.map_cons, List.sum_cons]
      omega

theorem desired_le_bound : Audio.samplesOfMillis l.desired ≤ bound l := by
  have hmost : l.desired.toNat * Audio.samplesPerMilli ≤
      max l.desired.toNat l.most.toNat * Audio.samplesPerMilli :=
    Nat.mul_le_mul_right _ (Nat.le_max_left _ _)
  rw [toNat_bound, Audio.samplesOfMillis]
  exact Nat.le_trans hmost (Nat.le_max_right _ _)

theorem released_of_desired_le {b : Jitter} (h : b.desired ≤ b.length) (now : Nat) :
    b.released now = true := by
  have hqueued : b.desired ≤ b.queue.length := h
  simp [Jitter.released, hqueued]

theorem read_of_released {b : Jitter} {count now : Nat} (hreleased : b.released now = true)
    (hcount : count ≤ b.length) :
    b.read count now = (some (b.queue.samples.take count),
      { b with
        queue := { b.queue with samples := b.queue.samples.drop count }
        gathering := false }) := by
  have henough : ¬ b.queue.length < count := Nat.not_lt.mpr hcount
  rw [Jitter.read, if_pos hreleased, SampleQueue.pop, if_neg henough]

theorem length_div_le (calls : List Call) :
    (after l calls).length / Audio.samplesPerMilli ≤ max l.desired.toNat l.most.toNat := by
  have hlength := length_after_le l calls
  rw [toNat_bound, Audio.samplesPerMilli] at hlength
  rw [Audio.samplesPerMilli]
  omega

theorem bufferedMillis_after (calls : List Call) :
    (after l calls).bufferedMillis.toNat = (after l calls).length / Audio.samplesPerMilli ∧
      (after l calls).bufferedMillis ≤ max l.desired l.most := by
  have hmost := length_div_le l calls
  have hdesired := l.desired.toNat_lt
  have hlargest := l.most.toNat_lt
  have hexact : (after l calls).bufferedMillis.toNat =
      (after l calls).length / Audio.samplesPerMilli := by
    rw [Jitter.bufferedMillis, Audio.millisOfSamples, UInt32.toNat_ofNat']
    exact Nat.mod_eq_of_lt (by omega)
  refine ⟨hexact, ?_⟩
  rw [UInt32.le_iff_toNat_le, hexact, toNat_max]
  exact hmost

/-- Writes that together bring what is desired open the gate, whatever state they find and whatever
the clock says at the read; as much as they brought can then be read, as far as the buffer holds
that much, and what is queued is always reported in exact milliseconds. -/
theorem refilled_never_starves {portions : List Portion}
    (hsupplied : Audio.samplesOfMillis l.desired ≤ supplied portions) {count : Nat}
    (hcount : count ≤ min (supplied portions) (bound l)) (calls : List Call) (now : Nat) :
    ((refilled l portions calls).read count now).1 =
        some ((refilled l portions calls).queue.samples.take count) ∧
      ((refilled l portions calls).read count now).2.gathering = false ∧
      ∀ history,
        (after l history).bufferedMillis.toNat =
            (after l history).length / Audio.samplesPerMilli ∧
          (after l history).bufferedMillis ≤ max l.desired l.most := by
  have hlength := length_refilled l portions calls
  have hbound := desired_le_bound l
  have hreleased : (refilled l portions calls).released now = true := by
    apply released_of_desired_le
    rw [refilled, (fixed_after l _).1, ← refilled, hlength]
    omega
  have hqueued : count ≤ (refilled l portions calls).length := by
    rw [hlength]
    omega
  have hread := read_of_released hreleased hqueued
  rw [hread]
  exact ⟨rfl, rfl, bufferedMillis_after l⟩

/-- Five milliseconds are desired and only two are held, so the five count for both; of six that are
written the first is dropped, and the buffer stays open although the read empties it. -/
theorem refilled_never_starves_trimmed :
    let l : Latency := ⟨5, 2, 1⟩
    let portions : List Portion := List.replicate 6 ⟨List.replicate 96 Sample.half, 3⟩
    Audio.samplesOfMillis l.desired ≤ supplied portions ∧ 480 ≤ min (supplied portions) (bound l) ∧
      ((refilled l portions [.read 1 900]).read 480 1000).1.isSome ∧
      ((refilled l portions [.read 1 900]).read 480 1000).2.gathering = false := by
  intro l portions
  have hsupplied : Audio.samplesOfMillis l.desired ≤ supplied portions := by decide
  have hcount : 480 ≤ min (supplied portions) (bound l) := by decide
  obtain ⟨hread, hreleased, -⟩ :=
    refilled_never_starves l hsupplied hcount [.read 1 900] 1000
  exact ⟨hsupplied, hcount, Option.isSome_of_eq_some hread, hreleased⟩

end VoiceCall.Proofs.Buffer.Supply
