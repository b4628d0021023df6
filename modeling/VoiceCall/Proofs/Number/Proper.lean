import VoiceCall.Number.Binary

namespace VoiceCall.Proofs.Number.Proper

open Float.Model (Format UnpackedFloat)
open Float.Model.UnpackedFloat
open VoiceCall.Binary (narrow ratio single)

theorem isNaN_ite {c : Prop} [Decidable c] {f g : UnpackedFloat} (hf : c → f.isNaN = false)
    (hg : ¬ c → g.isNaN = false) : (if c then f else g).isNaN = false := by
  split
  · exact hf ‹_›
  · exact hg ‹_›

theorem isNaN_dite {c : Prop} [Decidable c] {f : c → UnpackedFloat} {g : ¬ c → UnpackedFloat}
    (hf : ∀ h, (f h).isNaN = false) (hg : ∀ h, (g h).isNaN = false) :
    (if h : c then f h else g h).isNaN = false := by
  split
  · exact hf _
  · exact hg _

theorem isNaN_unpack {spec : Format} {b : BitVec spec.numBits}
    (h : unpackExponent b = -BitVec.ofNat spec.exponentBits 1 →
      unpackMantissa b = BitVec.ofNat spec.mantissaBitsWithoutImplicit 0) :
    (unpack spec b).isNaN = false := by
  refine isNaN_ite (fun hexponent => ?_) fun _ => ?_
  · exact isNaN_ite (fun _ => rfl) fun hmantissa => absurd (h hexponent) hmantissa
  · exact isNaN_ite (fun _ => isNaN_dite (fun _ => rfl) fun _ => rfl) fun _ => rfl

theorem isNaN_unpack_packComponents {spec : Format} {s : Sign} {e : BitVec spec.exponentBits}
    {m : BitVec spec.mantissaBitsWithoutImplicit}
    (h : e = -BitVec.ofNat spec.exponentBits 1 → m = BitVec.ofNat _ 0) :
    (unpack spec (packComponents spec s e m)).isNaN = false := by
  refine isNaN_unpack fun hexponent => ?_
  rw [unpackExponent_packComponents] at hexponent
  rw [unpackMantissa_packComponents, h hexponent]

theorem zero_ne_neg_one (spec : Format) :
    BitVec.ofNat spec.exponentBits 0 ≠ -BitVec.ofNat spec.exponentBits 1 := by
  have hwidth := spec.he
  simp
  omega

theorem isNaN_unpack_pack {spec : Format} {f : UnpackedFloat} (h : f.isNaN = false) :
    (unpack spec (pack spec f)).isNaN = false := by
  cases f with
  | notANumber => cases h
  | infinity s => exact isNaN_unpack_packComponents fun _ => rfl
  | zero s => exact isNaN_unpack_packComponents fun hzero => absurd hzero (zero_ne_neg_one spec)
  | finite s m e hm =>
      unfold pack
      dsimp only
      split
      · exact isNaN_unpack_packComponents fun _ => rfl
      · rename_i hbound
        split
        · refine isNaN_unpack_packComponents fun hones => absurd (congrArg BitVec.toNat hones) ?_
          rw [BitVec.neg_one_eq_allOnes, BitVec.toNat_allOnes, BitVec.toNat_ofNat,
            Nat.mod_eq_of_lt (by omega)]
          omega
        · exact isNaN_unpack_packComponents fun hzero => absurd hzero (zero_ne_neg_one spec)

theorem isNaN_roundWithAccuracy (spec : Format) (s : Sign) (m : Nat) (e : Int) (a : Accuracy) :
    (roundWithAccuracy spec s m e a).isNaN = false := by
  unfold roundWithAccuracy
  exact isNaN_dite (fun _ => rfl) fun _ => rfl

theorem isNaN_neg {f : UnpackedFloat} (h : f.isNaN = false) : f.neg.isNaN = false := by
  cases f with
  | notANumber => cases h
  | infinity s => rfl
  | zero s => rfl
  | finite s m e hm => rfl

theorem isNaN_mul {spec : Format} {f : UnpackedFloat} (hf : f.isNaN = false) (s : Sign) (m : Nat)
    (e : Int) (hm : 0 < m) : (UnpackedFloat.mul spec f (.finite s m e hm)).isNaN = false := by
  cases f with
  | notANumber => cases hf
  | infinity s => rfl
  | zero s => rfl
  | finite s m e hm => exact isNaN_roundWithAccuracy _ _ _ _ _

theorem isNaN_div {spec : Format} {f : UnpackedFloat} (hf : f.isNaN = false) (s : Sign) (m : Nat)
    (e : Int) (hm : 0 < m) : (UnpackedFloat.div spec f (.finite s m e hm)).isNaN = false := by
  cases f with
  | notANumber => cases hf
  | infinity s => rfl
  | zero s => rfl
  | finite s m e hm => exact isNaN_roundWithAccuracy _ _ _ _ _

theorem isNaN_normalize (spec : Format) (n e : Int) (s : Sign) :
    (UnpackedFloat.normalize spec n e s).isNaN = false := by
  unfold UnpackedFloat.normalize
  split
  · exact isNaN_roundWithAccuracy _ _ _ _ _
  · rfl
  · exact isNaN_roundWithAccuracy _ _ _ _ _

theorem isNaN_ofInt (spec : Format) (n : Int) : (UnpackedFloat.ofInt spec n).isNaN = false :=
  isNaN_normalize _ _ _ _

/-- Only infinities can fail to have a sum. -/
theorem isNaN_add {spec : Format} {f g : UnpackedFloat} (hf : f.isFinite) (hg : g.isFinite) :
    (UnpackedFloat.add spec f g).isNaN = false := by
  cases f with
  | infinity s => cases hf
  | notANumber => cases hf
  | zero s =>
      cases g with
      | infinity t => cases hg
      | notANumber => cases hg
      | zero t => exact isNaN_ite (fun _ => rfl) fun _ => rfl
      | finite t n e hn => rfl
  | finite s m e hm =>
      cases g with
      | infinity t => cases hg
      | notANumber => cases hg
      | zero t => rfl
      | finite t n e' hn => exact isNaN_normalize _ _ _ _

/-- Finite and not zero. -/
def isRegular (x : Float) : Bool :=
  match x.toModel.unpack with
  | .finite .. => true
  | _ => false

theorem exists_of_isRegular {x : Float} (h : isRegular x) :
    ∃ s m e hm, x.toModel.unpack = .finite s m e hm := by
  unfold isRegular at h
  cases hunpack : x.toModel.unpack with
  | finite s m e hm => exact ⟨s, m, e, hm, rfl⟩
  | _ =>
      rw [hunpack] at h
      cases h

theorem isNaN_mul_of_isRegular {x y : Float} (hx : x.isNaN = false) (hy : isRegular y) :
    (x * y).isNaN = false := by
  obtain ⟨s, m, e, hm, hunpack⟩ := exists_of_isRegular hy
  have hmul : (UnpackedFloat.mul .binary64 x.toModel.unpack y.toModel.unpack).isNaN = false := by
    rw [hunpack]
    exact isNaN_mul hx s m e hm
  exact isNaN_unpack_pack hmul

theorem isNaN_div_of_isRegular {x y : Float} (hx : x.isNaN = false) (hy : isRegular y) :
    (x / y).isNaN = false := by
  obtain ⟨s, m, e, hm, hunpack⟩ := exists_of_isRegular hy
  have hdiv : (UnpackedFloat.div .binary64 x.toModel.unpack y.toModel.unpack).isNaN = false := by
    rw [hunpack]
    exact isNaN_div hx s m e hm
  exact isNaN_unpack_pack hdiv

theorem isNaN_neg_double {x : Float} (h : x.isNaN = false) : (-x).isNaN = false :=
  isNaN_unpack_pack (isNaN_neg h)

theorem isNaN_neg_single {x : Float32} (h : x.isNaN = false) : (-x).isNaN = false :=
  isNaN_unpack_pack (isNaN_neg h)

theorem isNaN_toFloat (n : UInt64) : n.toFloat.isNaN = false :=
  isNaN_unpack_pack (isNaN_ofInt _ _)

theorem isNaN_toFloat32 (n : UInt64) : n.toFloat32.isNaN = false :=
  isNaN_unpack_pack (isNaN_ofInt _ _)

theorem ofRatio_le_infinity (n d : Nat) : single.ofRatio n d ≤ single.infinity := by
  unfold VoiceCall.Binary.Format.ofRatio
  split
  · exact Nat.zero_le _
  · exact Nat.min_le_left _ _

theorem isNaN_ofBits {w : UInt32} (h : w.toNat % Nat.pow 2 31 ≤ single.infinity) :
    (Float32.ofBits w).isNaN = false := by
  rw [Nat.pow_eq] at h
  refine isNaN_unpack_pack (isNaN_unpack fun hexponent => ?_)
  have hones : w.toNat >>> 23 % 2 ^ 8 = 255 := by
    simpa [unpackExponent] using congrArg BitVec.toNat hexponent
  have hinfinity : single.infinity = 255 * 2 ^ 23 := by decide
  rw [Nat.shiftRight_eq_div_pow] at hones
  apply BitVec.eq_of_toNat_eq
  have hmantissa : w.toNat % 2 ^ 23 = 0 := by omega
  simpa [unpackMantissa] using hmantissa

theorem isNaN_narrow {x : Float} (h : x.isNaN = false) : (narrow x).isNaN = false := by
  unfold narrow
  rw [if_neg (Bool.eq_false_iff.mp h)]
  dsimp only
  have hsign := x.toBits.toNat_lt
  have hinfinity : single.infinity = 255 * 2 ^ 23 := by decide
  have hpattern : ∀ magnitude ≤ single.infinity,
      (Float32.ofBits (UInt32.ofNat
        (x.toBits.toNat / Nat.pow 2 63 * Nat.pow 2 31 + magnitude))).isNaN = false := by
    intro magnitude hmagnitude
    apply isNaN_ofBits
    rw [UInt32.toNat_ofNat']
    simp only [Nat.pow_eq]
    omega
  split
  · exact hpattern _ (ofRatio_le_infinity _ _)
  · exact hpattern _ (Nat.le_refl _)

end VoiceCall.Proofs.Number.Proper
