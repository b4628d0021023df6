import Mathlib.Algebra.Ring.Nat
import VoiceCall.Proofs.Number.Pattern
import VoiceCall.Proofs.Number.Rounding

/-!
Magnitudes of at most a power of two. Main statement: rounding and packing keep such a bound, since
the power itself is a number of the format, so that sums and products are bounded as exact ones are.
-/

namespace VoiceCall.Proofs.Number.Magnitude

open Float.Model (Format UnpackedFloat totalExponent)
open Float.Model.UnpackedFloat
open VoiceCall.Proofs.Number.Pattern (toNat_one_append)
open VoiceCall.Proofs.Number.Rounding

variable {spec : Format} {k l e : Int} {m : Nat} {f g : UnpackedFloat}

/-- A mantissa with its exponent is at most `2 ^ k`. -/
def Fits (k : Int) (m : Nat) (e : Int) : Prop :=
  ∃ i : Nat, e + i = k ∧ m ≤ 2 ^ i

/-- A mantissa with its exponent is at most `b * 2 ^ k`. -/
def Within (b : Nat) (k : Int) (m : Nat) (e : Int) : Prop :=
  ∃ i : Nat, e + i = k ∧ m ≤ b * 2 ^ i

/-- A finite magnitude of at most `2 ^ k`. -/
def AtMost (k : Int) : UnpackedFloat → Prop
  | .zero _ => True
  | .finite _ m e _ => Fits k m e
  | .infinity _ => False
  | .notANumber => False

theorem atMost_finite {s : Sign} {hm : 0 < m} : AtMost k (.finite s m e hm) ↔ Fits k m e :=
  Iff.rfl

theorem fits_iff_within : Fits k m e ↔ Within 1 k m e := by
  simp only [Fits, Within, Nat.one_mul]

theorem Fits.mono {n : Nat} (h : Fits k m e) (hle : n ≤ m) : Fits k n e := by
  obtain ⟨i, hi, hm⟩ := h
  exact ⟨i, hi, Nat.le_trans hle hm⟩

theorem Fits.succ (h : Fits k m e) : Fits (k + 1) m e := by
  obtain ⟨i, hi, hm⟩ := h
  refine ⟨i + 1, by omega, ?_⟩
  rw [Nat.pow_succ]
  omega

theorem AtMost.succ (h : AtMost k f) : AtMost (k + 1) f := by
  cases f with
  | zero s => trivial
  | finite s m e hm => exact Fits.succ h
  | infinity s => cases h
  | notANumber => cases h

theorem atMost_ite {c : Prop} [Decidable c] (hf : c → AtMost k f) (hg : ¬ c → AtMost k g) :
    AtMost k (if c then f else g) := by
  split
  · exact hf ‹_›
  · exact hg ‹_›

theorem atMost_dite {c : Prop} [Decidable c] {f : c → UnpackedFloat} {g : ¬ c → UnpackedFloat}
    (hf : ∀ h, AtMost k (f h)) (hg : ∀ h, AtMost k (g h)) :
    AtMost k (if h : c then f h else g h) := by
  split
  · exact hf _
  · exact hg _

theorem fits_two_pow {n : Nat} (h : e + n ≤ k) : Fits k (2 ^ n) e :=
  ⟨(k - e).toNat, by omega, Nat.pow_le_pow_right (by decide) (by omega)⟩

theorem mantissaBits_eq (spec : Format) :
    spec.mantissaBits = 1 + spec.mantissaBitsWithoutImplicit :=
  rfl

theorem truncates_exact (m : Nat) : Truncates (.ofMantissaAndAccuracy m .exact) m 1 := by
  constructor <;> simp [ExtendedMantissa.ofMantissaAndAccuracy, Nat.mod_one]

/-- No more is shifted out than what lies below the bound. -/
theorem shift_le {b i : Nat} (hb : b < 2 ^ spec.mantissaBits) (hi : e + i = k)
    (hm : m ≤ b * 2 ^ i) (hk : spec.minExponent ≤ k) :
    (spec.targetExponent (totalExponent m e) - e).toNat ≤ i := by
  have hlog : m.log2 < spec.mantissaBits + i := by
    rcases Nat.eq_zero_or_pos m with rfl | hpos
    · rw [Nat.log2_zero, mantissaBits_eq]
      omega
    · rw [Nat.log2_lt (by omega), Nat.pow_add]
      exact Nat.lt_of_le_of_lt hm (Nat.mul_lt_mul_of_pos_right hb (Nat.two_pow_pos i))
  unfold Format.targetExponent totalExponent
  omega

theorem within_shiftToTargetExponent {b : Nat} (h : Within b k m e)
    (hb : b < 2 ^ spec.mantissaBits) (hk : spec.minExponent ≤ k) :
    let shifted := shiftToTargetExponent spec m e .exact
    Within b k shifted.1.roundedMantissa shifted.2 ∧ Within b k shifted.1.mantissa shifted.2 := by
  obtain ⟨i, hi, hm⟩ := h
  have hshift := shift_le hb hi hm hk
  unfold shiftToTargetExponent shiftToExponent
  dsimp only
  generalize (spec.targetExponent (totalExponent m e) - e).toNat = j at hshift
  have htruncates := (truncates_exact m).shiftRight Nat.one_pos j
  have hpow : m ≤ b * 2 ^ (i - j) * (1 * 2 ^ j) := by
    rw [Nat.one_mul, Nat.mul_assoc, ← Nat.pow_add, Nat.sub_add_cancel hshift]
    exact hm
  have hi' : e + j + (i - j : Nat) = k := by omega
  refine ⟨⟨i - j, hi', ?_⟩, i - j, hi', ?_⟩
  · rw [htruncates.roundedMantissa]
    exact roundDiv_le_of_le_mul (Nat.mul_pos Nat.one_pos (Nat.two_pow_pos j)) hpow
  · rw [htruncates.mantissa]
    exact Nat.div_le_of_le_mul (Nat.mul_comm _ _ ▸ hpow)

/-- Rounding may fill the mantissa up, and then it is shifted once more. -/
theorem within_shifted_twice {b : Nat} (h : Within b k m e) (hb : b < 2 ^ spec.mantissaBits)
    (hk : spec.minExponent ≤ k) :
    let first := shiftToTargetExponent spec m e .exact
    let second := shiftToTargetExponent spec first.1.roundedMantissa first.2 .exact
    Within b k second.1.mantissa second.2 :=
  (within_shiftToTargetExponent (within_shiftToTargetExponent h hb hk).1 hb hk).2

theorem atMost_roundWithAccuracy (h : Fits k m e) (hk : spec.minExponent ≤ k) (s : Sign) :
    AtMost k (roundWithAccuracy spec s m e .exact) := by
  have hone : 1 < 2 ^ spec.mantissaBits := Nat.one_lt_two_pow (by rw [mantissaBits_eq]; omega)
  have hshifted := within_shifted_twice (fits_iff_within.mp h) hone hk
  unfold roundWithAccuracy
  exact atMost_dite (fun _ => trivial) fun _ => fits_iff_within.mpr hshifted

theorem decreaseExponent_eq (m : Nat) (e target : Int) :
    decreaseExponent m e target =
      (m * 2 ^ (e - target).toNat, e - ((e - target).toNat : Int)) := by
  rw [decreaseExponent, Nat.shiftLeft_eq]

theorem Fits.decrease (h : Fits k m e) (n : Nat) : Fits k (m * 2 ^ n) (e - n) := by
  obtain ⟨i, hi, hm⟩ := h
  refine ⟨i + n, by omega, ?_⟩
  rw [Nat.pow_add]
  exact Nat.mul_le_mul_right _ hm

theorem atMost_round (h : Fits k m e) (hk : spec.minExponent ≤ k) (s : Sign) :
    AtMost k (UnpackedFloat.round spec s m e) := by
  unfold UnpackedFloat.round
  dsimp only
  rw [decreaseExponent_eq]
  exact atMost_roundWithAccuracy (h.decrease _) hk s

theorem atMost_normalize {n : Int} (h : Fits k n.natAbs e) (hk : spec.minExponent ≤ k) (s : Sign) :
    AtMost k (UnpackedFloat.normalize spec n e s) := by
  unfold UnpackedFloat.normalize
  split
  · exact atMost_round (h.mono (by omega)) hk _
  · trivial
  · exact atMost_round (h.mono (by omega)) hk _

theorem natAbs_apply (s : Sign) (n : Nat) : (s.apply n).natAbs = n := by
  cases s with
  | positive => rfl
  | negative => exact Int.natAbs_neg n

/-- Mantissas that were brought to one exponent are added without rounding. -/
theorem fits_add {n : Nat} {e' : Int} (h : Fits k m e) (h' : Fits k n e') (s t : Sign) :
    Fits (k + 1)
      (s.apply (m * 2 ^ (e - min e e').toNat : Nat) +
        t.apply (n * 2 ^ (e' - min e e').toNat : Nat)).natAbs (min e e') := by
  obtain ⟨i, hi, hm⟩ := h.decrease (e - min e e').toNat
  obtain ⟨j, hj, hn⟩ := h'.decrease (e' - min e e').toNat
  obtain rfl : j = i := by omega
  refine ⟨j + 1, by omega, ?_⟩
  have habs := Int.natAbs_add_le (s.apply (m * 2 ^ (e - min e e').toNat : Nat))
    (t.apply (n * 2 ^ (e' - min e e').toNat : Nat))
  rw [natAbs_apply, natAbs_apply] at habs
  rw [Nat.pow_succ]
  omega

theorem atMost_add (hf : AtMost k f) (hg : AtMost k g) (hk : spec.minExponent ≤ k + 1) :
    AtMost (k + 1) (UnpackedFloat.add spec f g) := by
  cases f with
  | infinity s => cases hf
  | notANumber => cases hf
  | zero s =>
      cases g with
      | infinity t => cases hg
      | notANumber => cases hg
      | zero t =>
          change AtMost (k + 1) (if s == t then .zero s else .zero .positive)
          split <;> trivial
      | finite t n e' hn => exact hg.succ
  | finite s m e hm =>
      cases g with
      | infinity t => cases hg
      | notANumber => cases hg
      | zero t => exact hf.succ
      | finite t n e' hn =>
          change AtMost (k + 1) (UnpackedFloat.normalize spec
            (s.apply (decreaseExponent m e (min e e')).1 +
              t.apply (decreaseExponent n e' (min e e')).1) (min e e') .positive)
          rw [decreaseExponent_eq, decreaseExponent_eq]
          exact atMost_normalize (fits_add hf hg s t) hk _

theorem atMost_mul (hf : AtMost k f) (hg : AtMost l g) (hkl : spec.minExponent ≤ k + l) :
    AtMost (k + l) (UnpackedFloat.mul spec f g) := by
  cases f with
  | infinity s => cases hf
  | notANumber => cases hf
  | zero s =>
      cases g with
      | infinity t => cases hg
      | notANumber => cases hg
      | zero t => trivial
      | finite t n e' hn => trivial
  | finite s m e hm =>
      cases g with
      | infinity t => cases hg
      | notANumber => cases hg
      | zero t => trivial
      | finite t n e' hn =>
          obtain ⟨i, hi, hm⟩ := hf
          obtain ⟨j, hj, hn⟩ := hg
          refine atMost_roundWithAccuracy ⟨i + j, by omega, ?_⟩ hkl _
          rw [Nat.pow_add]
          exact Nat.mul_le_mul hm hn

/-- The least exponent, as packing has it. -/
theorem minExponent_eq (spec : Format) :
    spec.minExponent = 1 - (spec.exponentBias + spec.mantissaBitsWithoutImplicit) := by
  have hpow := Nat.two_pow_pos (spec.exponentBits - 1)
  have hcast : (2 : Int) ^ (spec.exponentBits - 1) = (2 ^ (spec.exponentBits - 1) : Nat) := by
    push_cast
    rfl
  unfold Format.minExponent Format.exponentBias
  rw [hcast, mantissaBits_eq]
  omega

/-- What a format holds is below all others, or has the bit that is not written. -/
theorem unpack_finite_cases {b : BitVec spec.numBits} {s : Sign} {hm : 0 < m}
    (h : unpack spec b = .finite s m e hm) :
    m = (unpackMantissa b).toNat ∧ e = spec.minExponent ∨
      @unpackExponent spec b ≠ -1#_ ∧
        m = 2 ^ spec.mantissaBitsWithoutImplicit + (unpackMantissa b).toNat ∧
        e = (unpackExponent b).toNat - (spec.exponentBias + spec.mantissaBitsWithoutImplicit) := by
  unfold unpack at h
  dsimp only at h
  by_cases hlast : @unpackExponent spec b = -1#_
  · rw [if_pos hlast] at h
    by_cases hfraction : @unpackMantissa spec b = 0#_
    · rw [if_pos hfraction] at h
      cases h
    · rw [if_neg hfraction] at h
      cases h
  rw [if_neg hlast] at h
  by_cases hfirst : @unpackExponent spec b = 0#_
  · rw [if_pos hfirst] at h
    by_cases hfraction : @unpackMantissa spec b = 0#_
    · rw [dif_pos hfraction] at h
      cases h
    · rw [dif_neg hfraction] at h
      injection h with _ hmantissa he
      rw [hfirst, BitVec.toNat_ofNat, Nat.zero_mod] at he
      refine .inl ⟨hmantissa.symm, ?_⟩
      rw [minExponent_eq]
      omega
  · rw [if_neg hfirst] at h
    injection h with _ hmantissa he
    rw [toNat_one_append] at hmantissa
    exact .inr ⟨hlast, hmantissa.symm, he.symm⟩

/-- What a format holds has a short mantissa, and a long one unless its exponent is the least. -/
theorem unpack_finite {b : BitVec spec.numBits} {s : Sign} {hm : 0 < m}
    (h : unpack spec b = .finite s m e hm) :
    m < 2 ^ spec.mantissaBits ∧
      (e = spec.minExponent ∨ 2 ^ spec.mantissaBitsWithoutImplicit ≤ m) := by
  have hshort := (@unpackMantissa spec b).isLt
  have hbits : 2 ^ spec.mantissaBits = 2 * 2 ^ spec.mantissaBitsWithoutImplicit := by
    rw [mantissaBits_eq, Nat.pow_add, Nat.pow_one]
  rcases unpack_finite_cases h with ⟨hm, he⟩ | ⟨-, hm, -⟩
  · exact ⟨by omega, .inl he⟩
  · exact ⟨by omega, .inr (by omega)⟩

theorem atMost_unpack {b : BitVec spec.numBits} (hexponent : unpackExponent b ≠ -1#_)
    (hk : spec.minExponent + spec.mantissaBitsWithoutImplicit ≤ k)
    (hnormal : unpackExponent b ≠ 0#_ →
      Fits k (2 ^ spec.mantissaBitsWithoutImplicit + (unpackMantissa b).toNat)
        ((unpackExponent b).toNat - (spec.exponentBias + spec.mantissaBitsWithoutImplicit))) :
    AtMost k (unpack spec b) := by
  have hshort := (@unpackMantissa spec b).isLt
  unfold unpack
  dsimp only
  rw [if_neg hexponent]
  refine atMost_ite (fun hzero => atMost_dite (fun _ => trivial) fun _ => ?_) fun hzero => ?_
  · rw [minExponent_eq] at hk
    refine Fits.mono (m := 2 ^ spec.mantissaBitsWithoutImplicit) ?_ (Nat.le_of_lt hshort)
    rw [hzero, BitVec.toNat_ofNat, Nat.zero_mod]
    exact fits_two_pow (by omega)
  · have hfits := hnormal hzero
    rwa [← toNat_one_append] at hfits

/-- An exponent of zero stands for the numbers below all others, so only the mantissas of the rest
matter. -/
theorem atMost_packComponents {biased : Nat} (hbiased : biased + 1 < 2 ^ spec.exponentBits)
    (hk : spec.minExponent + spec.mantissaBitsWithoutImplicit ≤ k)
    {v : BitVec spec.mantissaBitsWithoutImplicit}
    (hnormal : biased ≠ 0 → Fits k (2 ^ spec.mantissaBitsWithoutImplicit + v.toNat)
      (biased - (spec.exponentBias + spec.mantissaBitsWithoutImplicit))) (s : Sign) :
    AtMost k (unpack spec (packComponents spec s (BitVec.ofNat _ biased) v)) := by
  have hexponent : (BitVec.ofNat spec.exponentBits biased).toNat = biased := by
    rw [BitVec.toNat_ofNat]
    exact Nat.mod_eq_of_lt (by omega)
  refine atMost_unpack ?_ hk fun hzero => ?_
  · rw [unpackExponent_packComponents]
    intro hones
    have hlast := congrArg BitVec.toNat hones
    rw [hexponent, BitVec.neg_one_eq_allOnes, BitVec.toNat_allOnes] at hlast
    omega
  · rw [unpackExponent_packComponents] at hzero ⊢
    rw [unpackMantissa_packComponents, hexponent]
    refine hnormal ?_
    rintro rfl
    exact hzero rfl

theorem atMost_unpack_pack (h : AtMost k f)
    (hk : spec.minExponent + spec.mantissaBitsWithoutImplicit ≤ k)
    (hk' : k + spec.exponentBias + spec.mantissaBitsWithoutImplicit + 1 <
      (2 ^ spec.exponentBits : Nat)) :
    AtMost k (unpack spec (pack spec f)) := by
  have hwidth : 2 ^ 1 ≤ 2 ^ spec.exponentBits := Nat.pow_le_pow_right (by decide) spec.he
  have hzero : 0 + 1 < 2 ^ spec.exponentBits := by omega
  cases f with
  | infinity s => cases h
  | notANumber => cases h
  | zero s => exact atMost_packComponents hzero hk (absurd rfl) s
  | finite s m e hm =>
      obtain ⟨i, hi, hle⟩ := h
      have hfinite : ¬ 2 ^ spec.exponentBits ≤
          (e + spec.exponentBias + spec.mantissaBitsWithoutImplicit).toNat + 1 := by
        omega
      unfold pack
      dsimp only
      rw [if_neg hfinite]
      by_cases hnormal : m.log2 + 1 = spec.mantissaBits
      · have hlog : m.log2 = spec.mantissaBitsWithoutImplicit := by
          rw [mantissaBits_eq] at hnormal
          omega
        have hlong : 2 ^ spec.mantissaBitsWithoutImplicit ≤ m := hlog ▸ Nat.log2_self_le (by omega)
        have hshort : m < 2 ^ (spec.mantissaBitsWithoutImplicit + 1) := hlog ▸ Nat.lt_log2_self
        have hmantissa : 2 ^ spec.mantissaBitsWithoutImplicit +
            m % 2 ^ spec.mantissaBitsWithoutImplicit = m := by
          rw [Nat.pow_succ] at hshort
          rw [Nat.mod_eq_sub_mod hlong, Nat.mod_eq_of_lt (by omega)]
          omega
        rw [if_pos hnormal]
        refine atMost_packComponents (by omega) hk (fun hpos => ?_) s
        rw [BitVec.toNat_ofNat, hmantissa]
        exact ⟨i, by omega, hle⟩
      · rw [if_neg hnormal]
        exact atMost_packComponents hzero hk (absurd rfl) s

end VoiceCall.Proofs.Number.Magnitude
