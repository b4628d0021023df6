import VoiceCall.Proofs.Audio.Limits

namespace VoiceCall.Proofs.Audio.Peaks

open Float.Model (UnpackedFloat)
open VoiceCall.Proofs.Audio.Limits

variable {r s t : Sample}

/-- The place of a number in the order: its side, and on it the exponent before the mantissa. -/
def place : UnpackedFloat → Int × Int × Int
  | .notANumber => (0, 0, 0)
  | .infinity .negative => (-2, 0, 0)
  | .finite .negative m e _ => (-1, -e, -m)
  | .zero _ => (0, 0, 0)
  | .finite .positive m e _ => (1, e, m)
  | .infinity .positive => (2, 0, 0)

def Before (p q : Int × Int × Int) : Prop :=
  p.1 < q.1 ∨ p.1 = q.1 ∧ (p.2.1 < q.2.1 ∨ p.2.1 = q.2.1 ∧ p.2.2 < q.2.2)

/-- A largest magnitude of samples; zero is the least one there is. -/
structure Peak (samples : List Sample) (level : Sample) : Prop where
  isNaN : level.isNaN = false
  attained : level = Sample.zero ∨ ∃ s ∈ samples, level = s.abs
  bound : ∀ s ∈ samples, ¬ level < s.abs

theorem compare_eq_lt_iff {f g : UnpackedFloat} (hf : f.isNaN = false) (hg : g.isNaN = false) :
    f.compare g = some .lt ↔ Before (place f) (place g) := by
  cases f with
  | notANumber => cases hf
  | infinity s =>
      cases g with
      | notANumber => cases hg
      | infinity t => cases s <;> cases t <;> dsimp only [place] <;> simp +decide [Before]
      | zero t => cases s <;> dsimp only [UnpackedFloat.compare, place] <;> simp [Before]
      | finite t m e hm =>
          cases s <;> cases t <;> dsimp only [UnpackedFloat.compare, place] <;> simp [Before]
  | zero s =>
      cases g with
      | notANumber => cases hg
      | infinity t => cases t <;> dsimp only [UnpackedFloat.compare, place] <;> simp [Before]
      | zero t =>
          dsimp only [UnpackedFloat.compare, place]
          simp [Before]
      | finite t m e hm =>
          cases t <;> dsimp only [UnpackedFloat.compare, place] <;> simp [Before]
  | finite s m e hm =>
      cases g with
      | notANumber => cases hg
      | infinity t =>
          cases s <;> cases t <;> dsimp only [UnpackedFloat.compare, place] <;> simp [Before]
      | zero t => cases s <;> dsimp only [UnpackedFloat.compare, place] <;> simp [Before]
      | finite t m' e' hm' =>
          cases s <;> cases t <;> dsimp only [UnpackedFloat.compare, place] <;>
            simp [Before, Ordering.swap_then, Ordering.then_eq_lt, Int.compare_eq_lt,
              Int.compare_eq_gt, Nat.compare_eq_lt, Nat.compare_eq_gt]

theorem lt_iff_before :
    s < t ↔ (s.isNaN = false ∧ t.isNaN = false) ∧
      Before (place s.toModel.unpack) (place t.toModel.unpack) := by
  rw [lt_iff]
  constructor
  · intro hlt
    have hnumbers := (isSome_compare_iff _ _).mp (Option.isSome_of_eq_some hlt)
    exact ⟨hnumbers, (compare_eq_lt_iff hnumbers.1 hnumbers.2).mp hlt⟩
  · rintro ⟨⟨hs, ht⟩, hbefore⟩
    exact (compare_eq_lt_iff hs ht).mpr hbefore

theorem le_iff_not_before :
    s ≤ t ↔ (s.isNaN = false ∧ t.isNaN = false) ∧
      ¬ Before (place t.toModel.unpack) (place s.toModel.unpack) := by
  constructor
  · intro hle
    obtain ⟨hs, ht⟩ := isNaN_of_le hle
    refine ⟨⟨hs, ht⟩, fun hbefore => ?_⟩
    exact (not_lt_iff ht hs).mpr hle (lt_iff_before.mpr ⟨⟨ht, hs⟩, hbefore⟩)
  · rintro ⟨⟨hs, ht⟩, hbefore⟩
    exact (not_lt_iff ht hs).mp fun hlt => hbefore (lt_iff_before.mp hlt).2

theorem le_of_lt_of_le (h : r < s) (h' : s ≤ t) : r ≤ t := by
  obtain ⟨⟨hr, -⟩, hbefore⟩ := lt_iff_before.mp h
  obtain ⟨⟨-, ht⟩, hbefore'⟩ := le_iff_not_before.mp h'
  refine le_iff_not_before.mpr ⟨⟨hr, ht⟩, ?_⟩
  unfold Before at *
  omega

theorem lt_of_le_of_lt (h : r ≤ s) (h' : s < t) : r < t := by
  obtain ⟨⟨hr, -⟩, hbefore⟩ := le_iff_not_before.mp h
  obtain ⟨⟨-, ht⟩, hbefore'⟩ := lt_iff_before.mp h'
  refine lt_iff_before.mpr ⟨⟨hr, ht⟩, ?_⟩
  unfold Before at *
  omega

theorem lt_of_lt_of_le (h : r < s) (h' : s ≤ t) : r < t := by
  obtain ⟨⟨hr, -⟩, hbefore⟩ := lt_iff_before.mp h
  obtain ⟨⟨-, ht⟩, hbefore'⟩ := le_iff_not_before.mp h'
  refine lt_iff_before.mpr ⟨⟨hr, ht⟩, ?_⟩
  unfold Before at *
  omega

theorem isNaN_zero : Sample.zero.isNaN = false := by
  decide +kernel

/-- A peak only rises, and no further than to the magnitude of a sample. -/
theorem foldl_raisePeak (samples : List Sample) {peak : Sample} (hpeak : peak.isNaN = false) :
    (samples.foldl Sample.raisePeak peak = peak ∨
        ∃ s ∈ samples, samples.foldl Sample.raisePeak peak = s.abs) ∧
      peak ≤ samples.foldl Sample.raisePeak peak ∧
      ∀ s ∈ samples, ¬ samples.foldl Sample.raisePeak peak < s.abs := by
  induction samples generalizing peak with
  | nil => exact ⟨.inl rfl, le_refl hpeak, by simp⟩
  | cons s samples ih =>
      rw [List.foldl_cons, Sample.raisePeak, Sample.larger]
      split
      · rename_i hrise
        obtain ⟨-, hmagnitude⟩ := (lt_iff_before.mp hrise).1
        obtain ⟨hattained, hle, hbound⟩ := ih hmagnitude
        refine ⟨.inr ?_, le_of_lt_of_le hrise hle, ?_⟩
        · rcases hattained with hfirst | ⟨t, ht, hattained⟩
          · exact ⟨s, List.mem_cons_self, hfirst⟩
          · exact ⟨t, List.mem_cons_of_mem s ht, hattained⟩
        · rw [List.forall_mem_cons]
          exact ⟨(not_lt_iff (isNaN_of_le hle).2 hmagnitude).mpr hle, hbound⟩
      · rename_i hrise
        obtain ⟨hattained, hle, hbound⟩ := ih hpeak
        refine ⟨hattained.imp_right ?_, hle, ?_⟩
        · rintro ⟨t, ht, hattained⟩
          exact ⟨t, List.mem_cons_of_mem s ht, hattained⟩
        · rw [List.forall_mem_cons]
          exact ⟨fun hlt => hrise (lt_of_le_of_lt hle hlt), hbound⟩

theorem peak_peakLevel (samples : List Sample) : Peak samples (peakLevel samples) := by
  obtain ⟨hattained, hle, hbound⟩ := foldl_raisePeak samples isNaN_zero
  exact ⟨(isNaN_of_le hle).2, hattained, hbound⟩

theorem larger_le (hs : s ≤ t) (hr : r.isNaN = false → ¬ t < r) : Sample.larger s r ≤ t := by
  unfold Sample.larger
  split
  · rename_i hrise
    obtain ⟨-, hnumber⟩ := (lt_iff_before.mp hrise).1
    exact (not_lt_iff (isNaN_of_le hs).2 hnumber).mp (hr hnumber)
  · exact hs

/-- A fold that starts higher ends with what is higher: its start, or the end of the other fold. -/
theorem foldl_raisePeak_of_le (samples : List Sample) {low high : Sample} (hle : low ≤ high) :
    samples.foldl Sample.raisePeak high =
      Sample.larger high (samples.foldl Sample.raisePeak low) := by
  induction samples generalizing low high with
  | nil =>
      have hstay : ¬ high < low := (not_lt_iff (isNaN_of_le hle).2 (isNaN_of_le hle).1).mpr hle
      exact (if_neg hstay).symm
  | cons s samples ih =>
      rw [List.foldl_cons, List.foldl_cons, Sample.raisePeak, Sample.raisePeak]
      by_cases hrise : high < s.abs
      · have hlow : low < s.abs := lt_of_le_of_lt hle hrise
        have hmagnitude := (lt_iff_before.mp hrise).1.2
        have hend := lt_of_lt_of_le hrise (foldl_raisePeak samples hmagnitude).2.1
        have hhigh : Sample.larger high s.abs = s.abs := if_pos hrise
        have hlow' : Sample.larger low s.abs = s.abs := if_pos hlow
        rw [hhigh, hlow']
        exact (if_pos hend).symm
      · have hhigh : Sample.larger high s.abs = high := if_neg hrise
        rw [hhigh]
        exact ih (larger_le hle fun _ => hrise)

theorem peakLevel_append (samples others : List Sample) :
    peakLevel (samples ++ others) = Sample.larger (peakLevel samples) (peakLevel others) := by
  rw [peakLevel, List.foldl_append]
  exact foldl_raisePeak_of_le others (foldl_raisePeak samples isNaN_zero).2.1

/-- One sample, over and over, raises the peak once. -/
theorem peakLevel_replicate (hfirst : Sample.raisePeak Sample.zero s = t)
    (hnext : Sample.raisePeak t s = t) (n : Nat) : peakLevel (List.replicate (n + 1) s) = t := by
  rw [peakLevel, List.replicate_succ, List.foldl_cons, hfirst]
  induction n with
  | zero => rfl
  | succ n ih => rw [List.replicate_succ, List.foldl_cons, hnext, ih]

/-- The peak of some samples is the peak of more exactly if none of the others is above it. -/
theorem peak_append_iff {samples : List Sample} {level : Sample} (hpeak : Peak samples level)
    (others : List Sample) :
    Peak (others ++ samples) level ↔ ∀ s ∈ others, ¬ level < s.abs := by
  constructor
  · intro hall s hs
    exact hall.bound s (List.mem_append_left samples hs)
  · intro hothers
    refine ⟨hpeak.isNaN, hpeak.attained.imp_right ?_, ?_⟩
    · rintro ⟨s, hs, hattained⟩
      exact ⟨s, List.mem_append_right others hs, hattained⟩
    · intro s hs
      rcases List.mem_append.mp hs with hs | hs
      · exact hothers s hs
      · exact hpeak.bound s hs

theorem peak_nil_iff {level : Sample} : Peak [] level ↔ level = Sample.zero := by
  constructor
  · intro hpeak
    simpa using hpeak.attained
  · rintro rfl
    exact peak_peakLevel []

end VoiceCall.Proofs.Audio.Peaks
