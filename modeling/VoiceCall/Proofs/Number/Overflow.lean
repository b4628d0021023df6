import VoiceCall.Proofs.Number.Magnitude
import VoiceCall.Proofs.Number.Proper

namespace VoiceCall.Proofs.Number.Overflow

open Float.Model (Format UnpackedFloat)
open Float.Model.UnpackedFloat
open VoiceCall.Proofs.Number.Magnitude

variable {spec : Format} {b : Nat} {k : Int} {f g : UnpackedFloat}

/-- A finite magnitude of at most `b * 2 ^ k`. -/
def Bounded (b : Nat) (k : Int) : UnpackedFloat → Prop
  | .zero _ => True
  | .finite _ m e _ => Within b k m e
  | .infinity _ => False
  | .notANumber => False

theorem bounded_dite {c : Prop} [Decidable c] {f : c → UnpackedFloat} {g : ¬ c → UnpackedFloat}
    (hf : ∀ h, Bounded b k (f h)) (hg : ∀ h, Bounded b k (g h)) :
    Bounded b k (if h : c then f h else g h) := by
  split
  · exact hf _
  · exact hg _

/-- No exponent reaches the one of infinities. -/
theorem unpack_exponent_le {v : BitVec spec.numBits} {s : Sign} {m : Nat} {e : Int} {hm : 0 < m}
    (h : unpack spec v = .finite s m e hm) :
    e = spec.minExponent ∨
      e + spec.exponentBias + spec.mantissaBitsWithoutImplicit + 2 ≤
        (2 ^ spec.exponentBits : Nat) := by
  rcases unpack_finite_cases h with ⟨-, he⟩ | ⟨hlast, -, he⟩
  · exact .inl he
  · have hexponent := (@unpackExponent spec v).isLt
    have hlast' : (@unpackExponent spec v).toNat ≠ 2 ^ spec.exponentBits - 1 := by
      intro hones
      refine hlast (BitVec.eq_of_toNat_eq ?_)
      rw [hones, BitVec.neg_one_eq_allOnes, BitVec.toNat_allOnes]
    exact .inr (by omega)

theorem bounded_unpack {v : BitVec spec.numBits} (hfinite : (unpack spec v).isFinite)
    (hleast : spec.minExponent ≤ k)
    (hlast : (2 ^ spec.exponentBits : Nat) ≤
      k + spec.exponentBias + spec.mantissaBitsWithoutImplicit + 2) :
    Bounded (2 ^ spec.mantissaBits - 1) k (unpack spec v) := by
  cases hunpack : unpack spec v with
  | notANumber =>
      rw [hunpack] at hfinite
      cases hfinite
  | infinity s =>
      rw [hunpack] at hfinite
      cases hfinite
  | zero s => trivial
  | finite s m e hm =>
      have hshort := (unpack_finite hunpack).1
      have hexponent := unpack_exponent_le hunpack
      refine ⟨(k - e).toNat, by omega, ?_⟩
      exact Nat.le_trans (by omega) (Nat.le_mul_of_pos_right _ (Nat.two_pow_pos _))

theorem bounded_mul (hf : AtMost 0 f) (hg : Bounded b k g) (hb : b < 2 ^ spec.mantissaBits)
    (hk : spec.minExponent ≤ k) : Bounded b k (UnpackedFloat.mul spec f g) := by
  cases f with
  | infinity s => cases hf
  | notANumber => cases hf
  | zero s =>
      cases g with
      | infinity t => cases hg
      | notANumber => cases hg
      | zero t => trivial
      | finite t n e' hn => trivial
  | finite s m e hm =>
      cases g with
      | infinity t => cases hg
      | notANumber => cases hg
      | zero t => trivial
      | finite t n e' hn =>
          obtain ⟨i, hi, hm⟩ := hf
          obtain ⟨j, hj, hn⟩ := hg
          have hproduct : Within b k (m * n) (e + e') := by
            refine ⟨i + j, by omega, ?_⟩
            calc m * n ≤ 2 ^ i * (b * 2 ^ j) := Nat.mul_le_mul hm hn
              _ = b * 2 ^ (i + j) := by rw [Nat.mul_left_comm, Nat.pow_add]
          exact bounded_dite (fun _ => trivial) fun _ => within_shifted_twice hproduct hb hk

theorem isFinite_unpack {v : BitVec spec.numBits}
    (h : unpackExponent v ≠ -BitVec.ofNat spec.exponentBits 1) : (unpack spec v).isFinite := by
  unfold unpack
  dsimp only
  rw [if_neg h]
  by_cases hfirst : @unpackExponent spec v = 0#_
  · rw [if_pos hfirst]
    by_cases hfraction : @unpackMantissa spec v = 0#_
    · rw [dif_pos hfraction]
      rfl
    · rw [dif_neg hfraction]
      rfl
  · rw [if_neg hfirst]
    rfl

theorem isFinite_unpack_packComponents {s : Sign} {e : BitVec spec.exponentBits}
    {m : BitVec spec.mantissaBitsWithoutImplicit} (h : e ≠ -BitVec.ofNat spec.exponentBits 1) :
    (unpack spec (packComponents spec s e m)).isFinite :=
  isFinite_unpack (by rwa [unpackExponent_packComponents])

theorem isFinite_unpack_pack (h : Bounded b k f)
    (hk : k + spec.exponentBias + spec.mantissaBitsWithoutImplicit + 1 <
      (2 ^ spec.exponentBits : Nat)) : (unpack spec (pack spec f)).isFinite := by
  cases f with
  | infinity s => cases h
  | notANumber => cases h
  | zero s => exact isFinite_unpack_packComponents (Proper.zero_ne_neg_one spec)
  | finite s m e hm =>
      obtain ⟨i, hi, -⟩ := h
      have hwidth : 2 ^ 1 ≤ 2 ^ spec.exponentBits := Nat.pow_le_pow_right (by decide) spec.he
      have hfinite : ¬ 2 ^ spec.exponentBits ≤
          (e + spec.exponentBias + spec.mantissaBitsWithoutImplicit).toNat + 1 := by
        omega
      unfold pack
      dsimp only
      rw [if_neg hfinite]
      split
      · refine isFinite_unpack_packComponents fun hones => ?_
        have hlast := congrArg BitVec.toNat hones
        rw [BitVec.neg_one_eq_allOnes, BitVec.toNat_allOnes, BitVec.toNat_ofNat,
          Nat.mod_eq_of_lt (by omega)] at hlast
        omega
      · exact isFinite_unpack_packComponents (Proper.zero_ne_neg_one spec)

end VoiceCall.Proofs.Number.Overflow
