import Mathlib.Algebra.Ring.Nat
import VoiceCall.Number.Binary

namespace VoiceCall.Proofs.Number.Pattern

open Float.Model (Format)
open Float.Model.UnpackedFloat
open VoiceCall.Binary (double ofDouble ratio)

/-- A significand and how often it is doubled, as doubles have them. The significand that is one too
long for a double stands for the next scale. -/
structure Scaled (m k : Nat) : Prop where
  short : m ≤ 2 ^ 53
  long : k = 0 ∨ 2 ^ 52 ≤ m

/-- The pattern that a significand and its scale have. -/
def code (m k : Nat) : Nat :=
  k * 2 ^ 52 + m

theorem mul_le_mul_of_scaled {m k m' k' : Nat} (h : Scaled m k) (h' : Scaled m' k')
    (hlt : k < k') : m * 2 ^ k ≤ m' * 2 ^ k' := by
  have hlong : 2 ^ 52 ≤ m' := h'.long.resolve_left (by omega)
  calc m * 2 ^ k ≤ 2 ^ 53 * 2 ^ k := Nat.mul_le_mul_right _ h.short
    _ = 2 ^ 52 * 2 ^ (k + 1) := by
        rw [Nat.pow_succ 2 k]
        omega
    _ ≤ 2 ^ 52 * 2 ^ k' := Nat.mul_le_mul_left _ (Nat.pow_le_pow_right (by decide) hlt)
    _ ≤ m' * 2 ^ k' := Nat.mul_le_mul_right _ hlong

theorem code_le_code_of_lt {m k m' k' : Nat} (h : Scaled m k) (h' : Scaled m' k')
    (hlt : k < k') : code m k ≤ code m' k' := by
  have hshort := h.short
  have hlong : 2 ^ 52 ≤ m' := h'.long.resolve_left (by omega)
  simp only [code]
  omega

theorem mul_le_mul_of_code_le {m k m' k' : Nat} (h : Scaled m k) (h' : Scaled m' k')
    (hcode : code m k ≤ code m' k') : m * 2 ^ k ≤ m' * 2 ^ k' := by
  rcases Nat.lt_trichotomy k k' with hlt | rfl | hgt
  · exact mul_le_mul_of_scaled h h' hlt
  · simp only [code] at hcode
    exact Nat.mul_le_mul_right _ (by omega)
  · have hshort := h'.short
    have hlong : 2 ^ 52 ≤ m := h.long.resolve_left (by omega)
    simp only [code] at hcode
    obtain rfl : k = k' + 1 := by omega
    obtain rfl : m = 2 ^ 52 := by omega
    obtain rfl : m' = 2 ^ 53 := by omega
    rw [Nat.pow_succ 2 k']
    omega

theorem decode_eq (p : Nat) :
    ∃ m k : Nat, double.decode p = (m, (k : Int) - 1074) ∧ Scaled m k ∧ p = code m k := by
  have hfraction := Nat.mod_lt p (Nat.two_pow_pos 52)
  have hdivision := Nat.div_add_mod p (2 ^ 52)
  unfold VoiceCall.Binary.Format.decode
  dsimp only [double, Nat.pow_eq]
  split
  · rename_i hcode
    refine ⟨p % 2 ^ 52, 0, rfl, ⟨?_, .inl rfl⟩, ?_⟩
    · omega
    · simp only [code]
      omega
  · rename_i hcode
    refine ⟨p % 2 ^ 52 + 2 ^ 52, p / 2 ^ 52 - 1, ?_, ⟨?_, .inr ?_⟩, ?_⟩
    · exact Prod.ext rfl (by dsimp only; omega)
    · omega
    · omega
    · simp only [code]
      omega

/-- The pattern of a double without its sign. -/
def pattern (x : Float) : Nat :=
  x.toBits.toNat % 2 ^ 63

/-- How many binary places doubles have behind the point. -/
def places : Nat :=
  1074

theorem ratio_snd_pos (x : Float) : 0 < (ratio x).2 := by
  unfold ratio
  dsimp only
  split
  · exact Nat.one_pos
  · exact Nat.two_pow_pos _

theorem ratio_eq (x : Float) :
    ∃ m k : Nat, Scaled m k ∧ pattern x = code m k ∧
      (ratio x).1 * 2 ^ places = m * 2 ^ k * (ratio x).2 := by
  obtain ⟨m, k, hdecode, hscaled, hcode⟩ := decode_eq (pattern x)
  have hdouble : ofDouble x = (m, (k : Int) - 1074) := hdecode
  refine ⟨m, k, hscaled, hcode, ?_⟩
  simp only [ratio, hdouble, Nat.pow_eq]
  split
  · generalize hwhole : ((k : Int) - 1074).toNat = whole
    obtain rfl : k = whole + 1074 := by omega
    rw [places, Nat.pow_add, Nat.mul_one, Nat.mul_assoc]
  · rw [Nat.mul_assoc, ← Nat.pow_add, places]
    congr 2
    omega

theorem ratio_le_of_pattern_le {x y : Float} (h : pattern x ≤ pattern y) :
    (ratio x).1 * (ratio y).2 ≤ (ratio y).1 * (ratio x).2 := by
  obtain ⟨m, k, hscaled, hcode, hratio⟩ := ratio_eq x
  obtain ⟨m', k', hscaled', hcode', hratio'⟩ := ratio_eq y
  rw [hcode, hcode'] at h
  have hsteps := mul_le_mul_of_code_le hscaled hscaled' h
  refine Nat.le_of_mul_le_mul_right ?_ (Nat.two_pow_pos places)
  calc (ratio x).1 * (ratio y).2 * 2 ^ places
      = m * 2 ^ k * (ratio x).2 * (ratio y).2 := by rw [Nat.mul_right_comm, hratio]
    _ ≤ m' * 2 ^ k' * (ratio x).2 * (ratio y).2 :=
        Nat.mul_le_mul_right _ (Nat.mul_le_mul_right _ hsteps)
    _ = (ratio y).1 * (ratio x).2 * 2 ^ places := by
        rw [Nat.mul_right_comm, ← hratio', Nat.mul_right_comm]

theorem toNat_unpackMantissa (b : BitVec 64) :
    (@unpackMantissa .binary64 b).toNat = b.toNat % 2 ^ 52 := by
  simp [unpackMantissa]

theorem toNat_unpackExponent (b : BitVec 64) :
    (@unpackExponent .binary64 b).toNat = b.toNat / 2 ^ 52 % 2 ^ 11 := by
  simp [unpackExponent, Nat.shiftRight_eq_div_pow]

theorem toNat_one_append {n : Nat} (m : BitVec n) : (1#1 ++ m).toNat = 2 ^ n + m.toNat := by
  rw [BitVec.toNat_append, ← Nat.shiftLeft_add_eq_or_of_lt m.isLt, Nat.shiftLeft_eq]
  simp

/-- A positive finite double by its significand and its scale. -/
structure Encodes (x : Float) (m k : Nat) : Prop where
  scaled : Scaled m k
  lt : m < 2 ^ 53
  pos : 0 < m
  pattern_eq : pattern x = code m k
  unpack_eq : x.toModel.unpack = .finite .positive m ((k : Int) - 1074) pos

theorem exists_encodes {x : Float} {m : Nat} {e : Int} {hm : 0 < m}
    (h : x.toModel.unpack = .finite .positive m e hm) : ∃ k, Encodes x m k := by
  suffices hk : ∃ k : Nat, e = (k : Int) - 1074 ∧ Scaled m k ∧ m < 2 ^ 53 ∧ pattern x = code m k by
    obtain ⟨k, rfl, hscaled, hlt, hpattern⟩ := hk
    exact ⟨k, hscaled, hlt, hm, hpattern, h⟩
  have hpattern : pattern x = x.toModel.toBits.toBitVec.toNat % 2 ^ 63 := rfl
  unfold Float.Model.unpack Float.Model.UnpackedFloat.unpack at h
  generalize x.toModel.toBits.toBitVec = b at h hpattern
  have hmantissa := toNat_unpackMantissa b
  have hexponent := toNat_unpackExponent b
  have hbias : Format.binary64.exponentBias = 1023 := rfl
  dsimp only at h
  by_cases hlast : @unpackExponent .binary64 b = -1#_
  · rw [if_pos hlast] at h
    by_cases hfraction : @unpackMantissa .binary64 b = 0#_
    · rw [if_pos hfraction] at h
      cases h
    · rw [if_neg hfraction] at h
      cases h
  rw [if_neg hlast] at h
  by_cases hfirst : @unpackExponent .binary64 b = 0#_
  · rw [if_pos hfirst] at h
    by_cases hfraction : @unpackMantissa .binary64 b = 0#_
    · rw [dif_pos hfraction] at h
      cases h
    · rw [dif_neg hfraction] at h
      injection h with _ hm he
      rw [hfirst, BitVec.toNat_ofNat, Nat.zero_mod] at hexponent he
      refine ⟨0, by omega, ⟨by omega, .inl rfl⟩, by omega, ?_⟩
      unfold code
      omega
  · rw [if_neg hfirst] at h
    injection h with _ hm he
    have hnonzero : (@unpackExponent .binary64 b).toNat ≠ 0 :=
      fun hnat => hfirst (BitVec.eq_of_toNat_eq hnat)
    rw [@toNat_one_append 52] at hm
    refine ⟨(@unpackExponent .binary64 b).toNat - 1, by omega,
      ⟨by omega, .inr (by omega)⟩, by omega, ?_⟩
    unfold code
    omega

theorem lt_iff {x y : Float} :
    x < y ↔ x.toModel.unpack.compare y.toModel.unpack = some .lt := by
  change decide (x.toModel < y.toModel) = true ↔ _
  rw [decide_eq_true_iff]
  exact beq_iff_eq

theorem le_iff {x y : Float} :
    x ≤ y ↔ (x.toModel.unpack.compare y.toModel.unpack).any Ordering.isLE := by
  change decide (x.toModel ≤ y.toModel) = true ↔ _
  rw [decide_eq_true_iff]
  rfl

theorem unpack_zero : (0 : Float).toModel.unpack = .zero .positive := by
  rfl

theorem zero_lt_iff {x : Float} :
    0 < x ↔ (∃ m k, Encodes x m k) ∨ x.toModel.unpack = .infinity .positive := by
  rw [lt_iff, unpack_zero]
  constructor
  · intro h
    cases hx : x.toModel.unpack with
    | finite s m e hm =>
        cases s with
        | positive =>
            obtain ⟨k, hk⟩ := exists_encodes hx
            exact .inl ⟨m, k, hk⟩
        | negative => rw [hx] at h; cases h
    | infinity s =>
        cases s with
        | positive => exact .inr rfl
        | negative => rw [hx] at h; cases h
    | _ => rw [hx] at h; cases h
  · rintro (⟨m, k, hx⟩ | hx)
    · rw [hx.unpack_eq]
      rfl
    · rw [hx]
      rfl

theorem exists_encodes_of_pos {x : Float} (hpos : 0 < x) (hfinite : x.isFinite) :
    ∃ m k, Encodes x m k := by
  refine (zero_lt_iff.mp hpos).resolve_right fun hinfinite => ?_
  change x.toModel.unpack.isFinite = true at hfinite
  rw [hinfinite] at hfinite
  cases hfinite

theorem Encodes.isFinite {x : Float} {m k : Nat} (h : Encodes x m k) : x.isFinite := by
  change x.toModel.unpack.isFinite = true
  rw [h.unpack_eq]
  rfl

theorem exists_encodes_of_le {x y : Float} {m k : Nat} (hpos : 0 < x) (hle : x ≤ y)
    (hy : Encodes y m k) : ∃ m' k', Encodes x m' k' := by
  refine (zero_lt_iff.mp hpos).resolve_right fun hinfinite => ?_
  rw [le_iff, hinfinite, hy.unpack_eq] at hle
  cases hle

theorem compare_finite {m m' : Nat} {e e' : Int} (hm : 0 < m) (hm' : 0 < m') :
    Float.Model.UnpackedFloat.compare (.finite .positive m e hm) (.finite .positive m' e' hm') =
      some ((compare e e').then (compare m m')) :=
  rfl

theorem Encodes.le_iff {x y : Float} {m k m' k' : Nat} (hx : Encodes x m k)
    (hy : Encodes y m' k') : x ≤ y ↔ pattern x ≤ pattern y := by
  have hlt := hx.lt
  have hlt' := hy.lt
  have hlong := hx.scaled.long
  have hlong' := hy.scaled.long
  rw [Pattern.le_iff, hx.unpack_eq, hy.unpack_eq, hx.pattern_eq, hy.pattern_eq, compare_finite,
    Option.any_some]
  unfold code
  rcases Nat.lt_trichotomy k k' with hk | rfl | hk
  · rw [Int.compare_eq_lt.mpr (by omega)]
    exact iff_of_true rfl (by omega)
  · rw [Int.compare_eq_eq.mpr rfl]
    simp [Nat.isLE_compare]
  · rw [Int.compare_eq_gt.mpr (by omega)]
    exact iff_of_false Bool.false_ne_true (by omega)

end VoiceCall.Proofs.Number.Pattern
