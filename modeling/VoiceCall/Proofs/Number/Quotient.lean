import VoiceCall.Proofs.Number.Pattern
import VoiceCall.Proofs.Number.Rounding

namespace VoiceCall.Proofs.Number.Quotient

open Float.Model (Format UnpackedFloat totalExponent)
open Float.Model.UnpackedFloat
open VoiceCall.Binary (double roundDiv)
open VoiceCall.Proofs.Number.Pattern
open VoiceCall.Proofs.Number.Rounding

theorem toNat_packComponents (e : BitVec 11) (m : BitVec 52) :
    (packComponents .binary64 .positive e m).toNat = e.toNat * 2 ^ 52 + m.toNat := by
  unfold packComponents
  rw [BitVec.toNat_append, ← Nat.shiftLeft_add_eq_or_of_lt m.isLt, BitVec.toNat_append]
  simp [Sign.toBitVec, Nat.shiftLeft_eq]

theorem toNat_packedInfinity :
    (packedInfinity .binary64 .positive).toNat = double.infinity := by
  rfl

theorem toNat_pack {m k : Nat} (h : Scaled m k) (hlt : m < 2 ^ 53) (hm : 0 < m) :
    (pack .binary64 (.finite .positive m ((k : Int) - 1074) hm)).toNat =
      min double.infinity (code m k) := by
  have hinfinity : double.infinity = 2047 * 2 ^ 52 := by decide
  have hbias : Format.binary64.exponentBias = 1023 := rfl
  have hbits : Format.binary64.mantissaBits = 53 := rfl
  have hlong := h.long
  have hshort : m.log2 < 52 ↔ m < 2 ^ 52 := Nat.log2_lt (by omega)
  have hlog : m.log2 < 53 := (Nat.log2_lt (by omega)).mpr hlt
  unfold pack
  dsimp only
  rw [hbias, hbits]
  split
  · rw [toNat_packedInfinity, code]
    omega
  · split
    · rw [toNat_packComponents, BitVec.toNat_ofNat, BitVec.toNat_ofNat, code]
      omega
    · rw [toNat_packComponents, BitVec.toNat_ofNat, BitVec.toNat_ofNat, code]
      omega

/-- How many places a significand is too long for a double with its exponent. -/
def excess (m : Nat) (e : Int) : Nat :=
  (max ((m.log2 : Int) + e - 52) (-1074) - e).toNat

theorem shiftToTargetExponent_eq (m : Nat) (e : Int) (a : Accuracy) :
    shiftToTargetExponent .binary64 m e a =
      (ExtendedMantissa.ofMantissaAndAccuracy m a >>> excess m e, e + excess m e) := by
  have htarget : Format.binary64.targetExponent (totalExponent m e) =
      max ((m.log2 : Int) + e - 52) (-1074) := by
    have hbits : Format.binary64.mantissaBits = 53 := rfl
    have hmin : Format.binary64.minExponent = -1074 := rfl
    unfold Format.targetExponent totalExponent
    rw [hbits, hmin]
    omega
  unfold shiftToTargetExponent shiftToExponent
  rw [htarget]
  rfl

theorem shiftToTargetExponent_of_lt {m : Nat} {e : Int} (hm : m < 2 ^ 53) (he : -1074 ≤ e) :
    shiftToTargetExponent .binary64 m e .exact = (⟨m, false, false⟩, e) := by
  have hlog : m.log2 < 53 := by
    rcases Nat.eq_zero_or_pos m with rfl | hpos
    · decide
    · exact (Nat.log2_lt (by omega)).mpr hm
  have hexcess : excess m e = 0 := by
    unfold excess
    omega
  rw [shiftToTargetExponent_eq, hexcess, Int.natCast_zero, Int.add_zero]
  rfl

theorem shiftToTargetExponent_two_pow {e : Int} (he : -1074 ≤ e) :
    shiftToTargetExponent .binary64 (2 ^ 53) e .exact = (⟨2 ^ 52, false, false⟩, e + 1) := by
  have hexcess : excess (2 ^ 53) e = 1 := by
    unfold excess
    rw [Nat.log2_two_pow]
    omega
  rw [shiftToTargetExponent_eq, hexcess]
  rfl

theorem toNat_pack_roundWithAccuracy {m k : Nat} {e : Int} {a : Accuracy} {em : ExtendedMantissa}
    (hshift : shiftToTargetExponent .binary64 m e a = (em, (k : Int) - 1074))
    (hscaled : Scaled em.roundedMantissa k) :
    (pack .binary64 (roundWithAccuracy .binary64 .positive m e a)).toNat =
      min double.infinity (code em.roundedMantissa k) := by
  unfold roundWithAccuracy
  rw [hshift]
  dsimp only
  generalize em.roundedMantissa = r at hscaled
  rcases Nat.lt_or_eq_of_le hscaled.short with hlt | rfl
  · rw [shiftToTargetExponent_of_lt hlt (by omega)]
    dsimp only
    by_cases hzero : r = 0
    · rw [dif_pos hzero]
      obtain rfl : k = 0 := hscaled.long.resolve_right (by omega)
      rw [hzero]
      rfl
    · rw [dif_neg hzero]
      exact toNat_pack hscaled hlt (Nat.pos_of_ne_zero hzero)
  · -- The rounding filled the significand up, so it is shifted once more.
    rw [shiftToTargetExponent_two_pow (by omega)]
    dsimp only
    rw [dif_neg (by decide)]
    have hcode : code (2 ^ 53) k = code (2 ^ 52) (k + 1) := by
      unfold code
      omega
    have hexponent : (k : Int) - 1074 + 1 = (k + 1 : Nat) - 1074 := by omega
    rw [hcode, ← toNat_pack ⟨by decide, .inr (Nat.le_refl _)⟩ (by decide) (by decide), ← hexponent]

theorem add_excess {m : Nat} {e : Int} (h : e ≤ -1074 ∨ 52 ≤ m.log2) :
    e + excess m e = max ((m.log2 : Int) + e - 52) (-1074) := by
  unfold excess
  omega

theorem lt_mul_excess (n : Nat) {d : Nat} (hd : 0 < d) (e : Int) :
    n < 2 ^ 53 * (d * 2 ^ excess (n / d) e) := by
  have hlog : (n / d).log2 + 1 ≤ 53 + excess (n / d) e := by
    unfold excess
    omega
  have hquotient : n / d < 2 ^ (53 + excess (n / d) e) :=
    Nat.lt_of_lt_of_le Nat.lt_log2_self (Nat.pow_le_pow_right (by decide) hlog)
  calc n < 2 ^ (53 + excess (n / d) e) * d := (Nat.div_lt_iff_lt_mul hd).mp hquotient
    _ = 2 ^ 53 * (d * 2 ^ excess (n / d) e) := by
        rw [Nat.pow_add, Nat.mul_assoc, Nat.mul_comm d]

theorem mul_excess_le {n d : Nat} {e : Int} (hd : 0 < d) (h : e ≤ -1074 ∨ 52 ≤ (n / d).log2)
    (he : e + excess (n / d) e ≠ -1074) : 2 ^ 52 * (d * 2 ^ excess (n / d) e) ≤ n := by
  have hexcess := add_excess h
  have hlog : (n / d).log2 = 52 + excess (n / d) e := by omega
  have hquotient : 2 ^ (52 + excess (n / d) e) ≤ n / d := by
    rw [← hlog]
    refine Nat.log2_self_le fun hzero => ?_
    rw [hzero, Nat.log2_zero] at hlog
    omega
  calc 2 ^ 52 * (d * 2 ^ excess (n / d) e) = 2 ^ (52 + excess (n / d) e) * d := by
        rw [Nat.pow_add, Nat.mul_assoc, Nat.mul_comm d]
    _ ≤ n := (Nat.le_div_iff_mul_le hd).mp hquotient

/-- What the quotient is scaled to before it is cut off has a significand that is long enough. -/
theorem exists_divCore (m₁ : Nat) (e₁ : Int) {m₂ : Nat} (e₂ : Int) (hm₁ : 0 < m₁) (hm₂ : 0 < m₂) :
    ∃ (s : Nat) (e : Int), e = e₁ - e₂ - s ∧
      (e ≤ -1074 ∨ 52 ≤ (m₁ * 2 ^ s / m₂).log2) ∧
      divCore .binary64 m₁ e₁ m₂ e₂ =
        (m₁ * 2 ^ s / m₂, e, accuracyOfFraction (m₁ * 2 ^ s % m₂) m₂) := by
  have hbits : Format.binary64.mantissaBits = 53 := rfl
  have hmin : Format.binary64.minExponent = -1074 := rfl
  unfold divCore
  dsimp only
  unfold Format.targetExponent totalExponent
  rw [hbits, hmin]
  generalize htarget : min (e₁ - e₂) _ = e
  generalize hshift : (e₁ - e₂ - e).toNat = s
  refine ⟨s, e, by omega, ?_, by rw [Nat.shiftLeft_eq]⟩
  by_cases hlow : e ≤ -1074
  · exact .inl hlow
  · right
    have hlog : m₂.log2 + 53 ≤ m₁.log2 + s := by omega
    have hlong : 2 ^ 52 ≤ m₁ * 2 ^ s / m₂ := by
      rw [Nat.le_div_iff_mul_le hm₂]
      calc 2 ^ 52 * m₂ ≤ 2 ^ 52 * 2 ^ (m₂.log2 + 1) :=
            Nat.mul_le_mul_left _ (Nat.le_of_lt Nat.lt_log2_self)
        _ = 2 ^ (m₂.log2 + 53) := by
            rw [← Nat.pow_add]
            congr 1
            omega
        _ ≤ 2 ^ (m₁.log2 + s) := Nat.pow_le_pow_right (by decide) hlog
        _ = 2 ^ m₁.log2 * 2 ^ s := Nat.pow_add _ _ _
        _ ≤ m₁ * 2 ^ s := Nat.mul_le_mul_right _ (Nat.log2_self_le (by omega))
    exact (Nat.le_log2 (by omega)).mpr hlong

theorem scaled_roundDiv {n d k : Nat} (hd : 0 < d) (hlong : k = 0 ∨ 2 ^ 52 * d ≤ n)
    (hshort : n < 2 ^ 53 * d) : Scaled (roundDiv n d) k where
  short := roundDiv_le_of_le_mul hd (Nat.le_of_lt hshort)
  long := hlong.imp_right (le_roundDiv_of_mul_le hd)

/-- The pattern `p` is nearest to `a / b` steps of the smallest double, which are `n / d` ones that
were doubled `k` times. -/
structure Nearest (a b p n d k : Nat) : Prop where
  pos : 0 < d
  value : a * d = n * 2 ^ k * b
  long : k = 0 ∨ 2 ^ 52 * d ≤ n
  short : n < 2 ^ 53 * d
  pattern_eq : p = min double.infinity (code (roundDiv n d) k)

theorem Nearest.scaled {a b p n d k : Nat} (h : Nearest a b p n d k) : Scaled (roundDiv n d) k :=
  scaled_roundDiv h.pos h.long h.short

/-- Nearest patterns keep the order of what they are nearest to. -/
theorem Nearest.le {a b p n d k a' b' p' n' d' k' : Nat} (h : Nearest a b p n d k)
    (h' : Nearest a' b' p' n' d' k') (hb : 0 < b) (hb' : 0 < b') (hle : a * b' ≤ a' * b) :
    p ≤ p' := by
  have hd := h.pos
  have hd' := h'.pos
  have hvalues : n * 2 ^ k * d' ≤ n' * 2 ^ k' * d := by
    refine Nat.le_of_mul_le_mul_right ?_ (Nat.mul_pos hb hb')
    calc n * 2 ^ k * d' * (b * b') = a * b' * (d * d') := by grind [h.value]
      _ ≤ a' * b * (d * d') := Nat.mul_le_mul_right _ hle
      _ = n' * 2 ^ k' * d * (b * b') := by grind [h'.value]
  suffices hcode : code (roundDiv n d) k ≤ code (roundDiv n' d') k' by
    rw [h.pattern_eq, h'.pattern_eq]
    exact Nat.le_min.mpr ⟨Nat.min_le_left _ _, Nat.le_trans (Nat.min_le_right _ _) hcode⟩
  rcases Nat.lt_trichotomy k k' with hlt | rfl | hgt
  · exact code_le_code_of_lt h.scaled h'.scaled hlt
  · have hquotients : n * d' ≤ n' * d := by
      refine Nat.le_of_mul_le_mul_right ?_ (Nat.two_pow_pos k)
      calc n * d' * 2 ^ k = n * 2 ^ k * d' := Nat.mul_right_comm _ _ _
        _ ≤ n' * 2 ^ k * d := hvalues
        _ = n' * d * 2 ^ k := Nat.mul_right_comm _ _ _
    exact Nat.add_le_add_left (roundDiv_le_roundDiv hd hd' hquotients) _
  · exfalso
    have hlong : 2 ^ 52 * d ≤ n := h.long.resolve_left (by omega)
    have hpowers : 2 ^ k' * 2 ≤ 2 ^ k := by
      rw [← Nat.pow_succ]
      exact Nat.pow_le_pow_right (by decide) hgt
    refine Nat.not_lt.mpr hvalues ?_
    calc n' * 2 ^ k' * d < 2 ^ 53 * d' * 2 ^ k' * d :=
          Nat.mul_lt_mul_of_pos_right
            (Nat.mul_lt_mul_of_pos_right h'.short (Nat.two_pow_pos k')) hd
      _ = 2 ^ 52 * d * (2 ^ k' * 2) * d' := by grind
      _ ≤ n * 2 ^ k * d' := Nat.mul_le_mul_right _ (Nat.mul_le_mul hlong hpowers)

theorem exists_rounded {n d : Nat} {e : Int} (hd : 0 < d)
    (hlong : e ≤ -1074 ∨ 52 ≤ (n / d).log2) :
    ∃ j k : Nat, e + j = (k : Int) - 1074 ∧ (k = 0 ∨ 2 ^ 52 * (d * 2 ^ j) ≤ n) ∧
      n < 2 ^ 53 * (d * 2 ^ j) ∧
      (pack .binary64 (roundWithAccuracy .binary64 .positive (n / d) e
        (accuracyOfFraction (n % d) d))).toNat =
          min double.infinity (code (roundDiv n (d * 2 ^ j)) k) := by
  have hexcess := add_excess hlong
  have hshort := lt_mul_excess n hd e
  have hfull := mul_excess_le hd hlong
  have hshift := shiftToTargetExponent_eq (n / d) e (accuracyOfFraction (n % d) d)
  generalize excess (n / d) e = j at *
  obtain ⟨k, hk⟩ : ∃ k : Nat, e + j = (k : Int) - 1074 := ⟨(e + j + 1074).toNat, by omega⟩
  have hstored : k = 0 ∨ 2 ^ 52 * (d * 2 ^ j) ≤ n :=
    (Nat.eq_zero_or_pos k).imp_right fun hpos => hfull (by omega)
  have hrounded := ((truncates_ofMantissaAndAccuracy (n := n) hd).shiftRight hd j).roundedMantissa
  have hscaled := scaled_roundDiv (Nat.mul_pos hd (Nat.two_pow_pos j)) hstored hshort
  rw [hk] at hshift
  refine ⟨j, k, hk, hstored, hshort, ?_⟩
  rw [toNat_pack_roundWithAccuracy hshift (hrounded ▸ hscaled), hrounded]

theorem div_finite {m₁ m₂ : Nat} {e₁ e₂ : Int} (hm₁ : 0 < m₁) (hm₂ : 0 < m₂) :
    UnpackedFloat.div .binary64 (.finite .positive m₁ e₁ hm₁) (.finite .positive m₂ e₂ hm₂) =
      roundWithAccuracy .binary64 .positive (divCore .binary64 m₁ e₁ m₂ e₂).1
        (divCore .binary64 m₁ e₁ m₂ e₂).2.1 (divCore .binary64 m₁ e₁ m₂ e₂).2.2 :=
  rfl

theorem exists_nearest {x y : Float} {m₁ k₁ m₂ k₂ : Nat} (hx : Encodes x m₁ k₁)
    (hy : Encodes y m₂ k₂) :
    ∃ n d k, Nearest (m₁ * 2 ^ k₁ * 2 ^ places) (m₂ * 2 ^ k₂) (pattern (x / y)) n d k := by
  obtain ⟨s, e, he, hlong, hcore⟩ :=
    exists_divCore m₁ ((k₁ : Int) - 1074) ((k₂ : Int) - 1074) hx.pos hy.pos
  obtain ⟨j, k, hk, hstored, hshort, hpack⟩ := exists_rounded hy.pos hlong
  have hpowers : 2 ^ k₁ * 2 ^ places * 2 ^ j = 2 ^ s * 2 ^ k * 2 ^ k₂ := by
    rw [← Nat.pow_add, ← Nat.pow_add, ← Nat.pow_add, ← Nat.pow_add, places]
    congr 1
    omega
  have hinfinity : double.infinity < 2 ^ 63 := by decide
  have hpattern : pattern (x / y) =
      (pack .binary64 (UnpackedFloat.div .binary64 x.toModel.unpack y.toModel.unpack)).toNat %
        2 ^ 63 := rfl
  refine ⟨m₁ * 2 ^ s, m₂ * 2 ^ j, k, Nat.mul_pos hy.pos (Nat.two_pow_pos j), ?_, hstored, hshort,
    ?_⟩
  · calc m₁ * 2 ^ k₁ * 2 ^ places * (m₂ * 2 ^ j)
        = m₁ * m₂ * (2 ^ k₁ * 2 ^ places * 2 ^ j) := by grind
      _ = m₁ * 2 ^ s * 2 ^ k * (m₂ * 2 ^ k₂) := by grind
  · rw [hpattern, hx.unpack_eq, hy.unpack_eq, div_finite, hcore, hpack]
    exact Nat.mod_eq_of_lt (Nat.lt_of_le_of_lt (Nat.min_le_left _ _) hinfinity)

/-- A larger dividend never has a smaller quotient. -/
theorem pattern_div_le_pattern_div {x y c : Float} {m k m' k' m₂ k₂ : Nat} (hx : Encodes x m k)
    (hy : Encodes y m' k') (hc : Encodes c m₂ k₂) (h : x ≤ y) :
    pattern (x / c) ≤ pattern (y / c) := by
  obtain ⟨n, d, j, hquotient⟩ := exists_nearest hx hc
  obtain ⟨n', d', j', hquotient'⟩ := exists_nearest hy hc
  have hpos : 0 < m₂ * 2 ^ k₂ := Nat.mul_pos hc.pos (Nat.two_pow_pos k₂)
  refine hquotient.le hquotient' hpos hpos ?_
  rw [hx.le_iff hy, hx.pattern_eq, hy.pattern_eq] at h
  have hsteps := mul_le_mul_of_code_le hx.scaled hy.scaled h
  exact Nat.mul_le_mul_right _ (Nat.mul_le_mul_right _ hsteps)

end VoiceCall.Proofs.Number.Quotient
