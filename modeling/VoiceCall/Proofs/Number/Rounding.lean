import Mathlib.Algebra.Ring.Nat
import VoiceCall.Proofs.Number.Span

namespace VoiceCall.Proofs.Number.Rounding

open Float.Model.UnpackedFloat
open VoiceCall.Binary (roundDiv)
open VoiceCall.Proofs.Number.Span

theorem div_le_roundDiv (n d : Nat) : n / d ≤ roundDiv n d := by
  unfold roundDiv
  dsimp only
  split
  · exact Nat.le_refl _
  · split <;> omega

theorem div_le_div_of_mul_le {n d n' d' : Nat} (hd : 0 < d) (hd' : 0 < d')
    (h : n * d' ≤ n' * d) : n / d ≤ n' / d' := by
  rw [Nat.le_div_iff_mul_le hd']
  refine Nat.le_of_mul_le_mul_right ?_ hd
  calc n / d * d' * d = n / d * d * d' := Nat.mul_right_comm _ _ _
    _ ≤ n * d' := Nat.mul_le_mul_right _ (Nat.div_mul_le_self n d)
    _ ≤ n' * d := h

theorem mod_mul_le_mod_mul {n d n' d' : Nat} (h : n * d' ≤ n' * d) (hdiv : n / d = n' / d') :
    n % d * d' ≤ n' % d' * d := by
  rw [← Nat.div_add_mod n d, ← Nat.div_add_mod n' d', hdiv] at h
  have hcommon : d * (n' / d') * d' = d' * (n' / d') * d := by
    rw [Nat.mul_comm d, Nat.mul_right_comm, Nat.mul_comm (n' / d')]
  rw [Nat.add_mul, Nat.add_mul, hcommon] at h
  exact Nat.le_of_add_le_add_left h

theorem roundDiv_le_roundDiv {n d n' d' : Nat} (hd : 0 < d) (hd' : 0 < d')
    (h : n * d' ≤ n' * d) : roundDiv n d ≤ roundDiv n' d' := by
  rcases Nat.lt_or_eq_of_le (div_le_div_of_mul_le hd hd' h) with hlt | hdiv
  · calc roundDiv n d ≤ n / d + 1 := roundDiv_le n d
      _ ≤ n' / d' := hlt
      _ ≤ roundDiv n' d' := div_le_roundDiv n' d'
  · have hdouble : 2 * (n % d) * d' ≤ 2 * (n' % d') * d := by
      rw [Nat.mul_assoc, Nat.mul_assoc]
      exact Nat.mul_le_mul_left 2 (mod_mul_le_mod_mul h hdiv)
    -- The remainder of the larger quotient is on the same side of one half, or on a higher one.
    have hreach (hhalf : d ≤ 2 * (n % d)) : d' ≤ 2 * (n' % d') := by
      refine Nat.le_of_mul_le_mul_right ?_ hd
      calc d' * d = d * d' := Nat.mul_comm d' d
        _ ≤ 2 * (n % d) * d' := Nat.mul_le_mul_right d' hhalf
        _ ≤ 2 * (n' % d') * d := hdouble
    have hpass (hhalf : d < 2 * (n % d)) : d' < 2 * (n' % d') := by
      refine Nat.lt_of_mul_lt_mul_right (a := d) ?_
      calc d' * d = d * d' := Nat.mul_comm d' d
        _ < 2 * (n % d) * d' := Nat.mul_lt_mul_of_pos_right hhalf hd'
        _ ≤ 2 * (n' % d') * d := hdouble
    unfold roundDiv
    dsimp only
    rw [hdiv]
    grind

theorem roundDiv_le_of_le_mul {n d m : Nat} (hd : 0 < d) (h : n ≤ m * d) : roundDiv n d ≤ m := by
  rw [← roundDiv_one m]
  exact roundDiv_le_roundDiv hd Nat.one_pos (by omega)

theorem le_roundDiv_of_mul_le {n d m : Nat} (hd : 0 < d) (h : m * d ≤ n) : m ≤ roundDiv n d :=
  Nat.le_trans ((Nat.le_div_iff_mul_le hd).mpr h) (div_le_roundDiv n d)

/-- A mantissa that is the whole part of `n / d`, with the bits behind it. -/
structure Truncates (em : ExtendedMantissa) (n d : Nat) : Prop where
  mantissa : em.mantissa = n / d
  roundBit : em.roundBit = true ↔ d ≤ 2 * (n % d)
  stickyBit : em.stickyBit = true ↔ n % d ≠ 0 ∧ 2 * (n % d) ≠ d

theorem truncates_ofMantissaAndAccuracy {n d : Nat} (hd : 0 < d) :
    Truncates (.ofMantissaAndAccuracy (n / d) (accuracyOfFraction (n % d) d)) n d := by
  unfold accuracyOfFraction
  split
  · constructor <;> simp [ExtendedMantissa.ofMantissaAndAccuracy] <;> omega
  · cases hcompare : compare (2 * (n % d)) d with
    | lt =>
        have := Nat.compare_eq_lt.mp hcompare
        constructor <;> simp [ExtendedMantissa.ofMantissaAndAccuracy] <;> omega
    | eq =>
        have := Nat.compare_eq_eq.mp hcompare
        constructor <;> simp [ExtendedMantissa.ofMantissaAndAccuracy] <;> omega
    | gt =>
        have := Nat.compare_eq_gt.mp hcompare
        constructor <;> simp [ExtendedMantissa.ofMantissaAndAccuracy] <;> omega

theorem Truncates.shiftRightOne {em : ExtendedMantissa} {n d : Nat} (hd : 0 < d)
    (h : Truncates em n d) : Truncates em.shiftRightOne n (d * 2) := by
  have hmod : n % (d * 2) = n % d + d * (n / d % 2) := Nat.mod_mul
  have hremainder := Nat.mod_lt n hd
  constructor
  · rw [ExtendedMantissa.shiftRightOne, h.mantissa, Nat.div_div_eq_div_mul]
  · rcases Nat.mod_two_eq_zero_or_one (n / d) with hbit | hbit
    · simp [ExtendedMantissa.shiftRightOne, h.mantissa, hmod, hbit]
      omega
    · simp [ExtendedMantissa.shiftRightOne, h.mantissa, hmod, hbit]
      omega
  · rcases Nat.mod_two_eq_zero_or_one (n / d) with hbit | hbit
    · simp [ExtendedMantissa.shiftRightOne, h.roundBit, h.stickyBit, hmod, hbit]
      omega
    · simp [ExtendedMantissa.shiftRightOne, h.roundBit, h.stickyBit, hmod, hbit]
      omega

theorem Truncates.shiftRight {em : ExtendedMantissa} {n d : Nat} (hd : 0 < d) (h : Truncates em n d)
    (k : Nat) : Truncates (em >>> k) n (d * 2 ^ k) := by
  induction k with
  | zero =>
      rw [Nat.pow_zero, Nat.mul_one]
      exact h
  | succ k ih =>
      rw [Nat.pow_succ, ← Nat.mul_assoc]
      exact ih.shiftRightOne (Nat.mul_pos hd (Nat.two_pow_pos k))

theorem Truncates.roundedMantissa {em : ExtendedMantissa} {n d : Nat} (h : Truncates em n d) :
    em.roundedMantissa = roundDiv n d := by
  obtain ⟨mantissa, roundBit, stickyBit⟩ := em
  obtain ⟨rfl, hround, hsticky⟩ := h
  cases roundBit <;> cases stickyBit <;>
    simp only [Bool.false_eq_true, true_iff, false_iff] at hround hsticky <;>
    simp only [ExtendedMantissa.roundedMantissa, ExtendedMantissa.accuracy,
      Accuracy.roundToNearestEven, roundDiv] <;>
    grind

end VoiceCall.Proofs.Number.Rounding
