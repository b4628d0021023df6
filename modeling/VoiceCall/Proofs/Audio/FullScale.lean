import VoiceCall.Proofs.Audio.Infinities
import VoiceCall.Proofs.Audio.Peaks
import VoiceCall.Proofs.Number.Overflow

namespace VoiceCall.Proofs.Audio.FullScale

open Float.Model (UnpackedFloat)
open VoiceCall.Proofs.Audio.Infinities
open VoiceCall.Proofs.Audio.Limits
open VoiceCall.Proofs.Audio.Peaks
open VoiceCall.Proofs.Number.Magnitude
open VoiceCall.Proofs.Number.Overflow
open VoiceCall.Proofs.Number.Proper

variable {s t gain : Sample} {samples : List Sample}

def InRange (s : Sample) : Prop :=
  -Sample.one ≤ s ∧ s ≤ Sample.one

theorem InRange.isNaN (h : InRange s) : s.isNaN = false :=
  (isNaN_of_le h.2).1

theorem InRange.isFinite (h : InRange s) : s.isFinite :=
  isFinite_of_le (by decide +kernel) (by decide +kernel) h.1 h.2

theorem isNaN_of_isFinite (h : s.isFinite) : s.isNaN = false :=
  (isFinite_iff.mp h).1

theorem unpack_one : Sample.one.toModel.unpack = .finite .positive (2 ^ 23) (-23) (by decide) := by
  rfl

theorem atMost_half : AtMost (-1) Sample.half.toModel.unpack :=
  ⟨23, by decide, Nat.le_refl _⟩

/-- Singles are at most one in the order of their exponents and mantissas. -/
theorem fits_zero_iff {m : Nat} {e : Int} (hshort : m < 2 ^ 24) (hlong : e = -149 ∨ 2 ^ 23 ≤ m) :
    Fits 0 m e ↔ e < -23 ∨ e = -23 ∧ m ≤ 2 ^ 23 := by
  constructor
  · rintro ⟨i, hi, hm⟩
    rcases Nat.lt_trichotomy i 23 with hless | rfl | hmore
    · have hpow : 2 ^ i ≤ 2 ^ 22 := Nat.pow_le_pow_right (by decide) (by omega)
      omega
    · omega
    · omega
  · rintro (hbelow | ⟨rfl, hm⟩)
    · exact (fits_two_pow (n := 24) (by omega)).mono (Nat.le_of_lt hshort)
    · exact ⟨23, rfl, hm⟩

/-- Between the places of minus one and one is what is at most one. -/
theorem atMost_zero_iff {f : UnpackedFloat}
    (hshape : ∀ sign m e hm, f = .finite sign m e hm → m < 2 ^ 24 ∧ (e = -149 ∨ 2 ^ 23 ≤ m)) :
    AtMost 0 f ↔ f.isNaN = false ∧ ¬ Before (place f) (-1, 23, -(2 ^ 23 : Nat)) ∧
      ¬ Before (1, -23, (2 ^ 23 : Nat)) (place f) := by
  cases f with
  | notANumber => exact iff_of_false id fun h => by cases h.1
  | infinity sign =>
      cases sign with
      | negative => exact iff_of_false id fun h => h.2.1 (.inl (by decide))
      | positive => exact iff_of_false id fun h => h.2.2 (.inl (by decide))
  | zero sign =>
      change True ↔ _ ∧ ¬ ((0 : Int) < -1 ∨ (0 : Int) = -1 ∧ _) ∧
        ¬ ((1 : Int) < 0 ∨ (1 : Int) = 0 ∧ _)
      exact iff_of_true trivial ⟨rfl, by omega, by omega⟩
  | finite sign m e hm =>
      obtain ⟨hshort, hlong⟩ := hshape sign m e hm rfl
      rw [atMost_finite, fits_zero_iff hshort hlong]
      refine Iff.trans ?_ (and_iff_right rfl).symm
      cases sign with
      | negative =>
          change _ ↔ ¬ ((-1 : Int) < -1 ∨ (-1 : Int) = -1 ∧
              (-e < 23 ∨ -e = 23 ∧ -(m : Int) < -(2 ^ 23 : Nat))) ∧
            ¬ ((1 : Int) < -1 ∨ (1 : Int) = -1 ∧ _)
          omega
      | positive =>
          change _ ↔ ¬ ((1 : Int) < -1 ∨ (1 : Int) = -1 ∧ _) ∧
            ¬ ((1 : Int) < 1 ∨ (1 : Int) = 1 ∧ (-23 < e ∨ -23 = e ∧ ((2 ^ 23 : Nat) : Int) < m))
          omega

theorem inRange_iff : InRange s ↔ AtMost 0 s.toModel.unpack := by
  have hs : s.isNaN = s.toModel.unpack.isNaN := rfl
  have hone : Sample.one.isNaN = false := rfl
  have hnegative : (-Sample.one).isNaN = false := rfl
  rw [atMost_zero_iff fun _ _ _ _ => unpack_finite, InRange, le_iff_not_before, le_iff_not_before,
    hone, hnegative, ← hs]
  change ((_ ∧ _) ∧ ¬ Before _ (-1, 23, -(2 ^ 23 : Nat))) ∧
    (_ ∧ _) ∧ ¬ Before (1, -23, (2 ^ 23 : Nat)) _ ↔ _
  constructor
  · rintro ⟨⟨⟨-, hnumber⟩, hlow⟩, -, hhigh⟩
    exact ⟨hnumber, hlow, hhigh⟩
  · rintro ⟨hnumber, hlow, hhigh⟩
    exact ⟨⟨⟨rfl, hnumber⟩, hlow⟩, ⟨hnumber, rfl⟩, hhigh⟩

theorem inRange_mean (hs : InRange s) (ht : InRange t) : InRange (Sample.mean s t) := by
  rw [inRange_iff] at hs ht ⊢
  have hsum : AtMost 1 (s + t).toModel.unpack :=
    atMost_unpack_pack (atMost_add hs ht (by decide)) (by decide) (by decide)
  have hmean : AtMost 0 (UnpackedFloat.mul .binary32 (s + t).toModel.unpack
      Sample.half.toModel.unpack) := atMost_mul hsum atMost_half (by decide)
  exact atMost_unpack_pack hmean (by decide) (by decide)

theorem isNaN_mean (hs : s.isFinite) (ht : t.isFinite) : (Sample.mean s t).isNaN = false := by
  have hsum : (s + t).isNaN = false := isNaN_unpack_pack (isNaN_add hs ht)
  have hmean : (UnpackedFloat.mul .binary32 (s + t).toModel.unpack
      Sample.half.toModel.unpack).isNaN = false := isNaN_mul hsum _ _ _ (by decide : 0 < 2 ^ 23)
  exact isNaN_unpack_pack hmean

theorem fullScale_of_isNaN (hs : ¬ s.isNaN = false) : s.fullScale = s :=
  limit_of_isNaN hs

theorem inRange_fullScale_iff : InRange s.fullScale ↔ s.isNaN = false := by
  constructor
  · intro hrange
    by_contra hs
    exact hs (fullScale_of_isNaN hs ▸ hrange.isNaN)
  · exact limit_mem (by decide +kernel)

/-- What is limited to full scale is there, or no number. -/
theorem inRange_fullScale_of_isNaN (h : s.fullScale.isNaN = false) : InRange s.fullScale := by
  rw [inRange_fullScale_iff]
  by_contra hs
  exact hs (fullScale_of_isNaN hs ▸ h)

theorem isNaN_mul_iff (hs : s.isNaN = false) (hgain : gain.isFinite) :
    (s * gain).isNaN = false ↔ (gain == Sample.zero → s.isFinite) := by
  obtain ⟨hnumber, hbounded⟩ := isFinite_iff.mp hgain
  rw [isNaN_product_iff, isFinite_iff]
  constructor
  · rintro ⟨-, hzero, -⟩ hgain'
    exact ⟨hs, fun hinf => hzero hinf hgain'⟩
  · intro hfinite
    exact ⟨⟨hs, hnumber⟩, fun hinf hzero => (hfinite hzero).2 hinf,
      fun hinf => absurd hinf hbounded⟩

/-- What is finite is at most the largest single, and a sample within full scale keeps it there. -/
theorem isFinite_mul (hs : InRange s) (hgain : gain.isFinite) : (s * gain).isFinite := by
  rw [inRange_iff] at hs
  have hbounded : Bounded (2 ^ 24 - 1) 104 gain.toModel.unpack :=
    bounded_unpack hgain (by decide) (by decide)
  exact isFinite_unpack_pack (bounded_mul hs hbounded (by decide) (by decide)) (by decide)

theorem unpack_of_beq_one (h : gain == Sample.one) :
    ∃ m e hm, gain.toModel.unpack = .finite .positive m e hm := by
  change (gain.toModel.unpack.compare Sample.one.toModel.unpack == some .eq) = true at h
  rw [unpack_one] at h
  generalize gain.toModel.unpack = g at h
  cases g with
  | notANumber => cases h
  | zero sign => cases h
  | infinity sign => cases sign <;> cases h
  | finite sign m e hm =>
      cases sign with
      | positive => exact ⟨m, e, hm, rfl⟩
      | negative => cases h

theorem not_beq_zero_of_beq_one (h : gain == Sample.one) : ¬ gain == Sample.zero := by
  obtain ⟨m, e, hm, hunpack⟩ := unpack_of_beq_one h
  change ¬ (gain.toModel.unpack.compare (.zero .positive) == some .eq) = true
  rw [hunpack]
  exact Bool.false_ne_true

theorem not_isInf_of_beq_one (h : gain == Sample.one) : ¬ gain.isInf := by
  obtain ⟨m, e, hm, hunpack⟩ := unpack_of_beq_one h
  change ¬ gain.toModel.unpack.isInf = true
  rw [hunpack]
  exact Bool.false_ne_true

theorem isNaN_gain (given : Sample) : (Sample.gain given).isNaN = false := by
  unfold Sample.gain
  split
  · exact (lt_iff_before.mp ‹_›).1.2
  · exact isNaN_zero

theorem inRange_abs (hs : InRange s) : InRange s.abs := by
  rw [inRange_iff] at hs ⊢
  have habs : AtMost 0 s.toModel.unpack.abs := by
    generalize s.toModel.unpack = f at hs
    cases f with
    | infinity sign => cases hs
    | notANumber => cases hs
    | zero sign => trivial
    | finite sign m e hm => exact hs
  exact atMost_unpack_pack habs (by decide) (by decide)

theorem peakLevel_mem (h : ∀ s ∈ samples, InRange s) :
    Sample.zero ≤ peakLevel samples ∧ peakLevel samples ≤ Sample.one := by
  refine ⟨(foldl_raisePeak samples isNaN_zero).2.1, ?_⟩
  rcases (peak_peakLevel samples).attained with hlevel | ⟨s, hs, hlevel⟩
  · rw [hlevel]
    decide +kernel
  · rw [hlevel]
    exact (inRange_abs (h s hs)).2

end VoiceCall.Proofs.Audio.FullScale
