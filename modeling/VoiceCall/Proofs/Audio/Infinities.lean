import VoiceCall.Proofs.Audio.Limits
import VoiceCall.Proofs.Number.Proper

namespace VoiceCall.Proofs.Audio.Infinities

open Float.Model (UnpackedFloat)
open Float.Model.UnpackedFloat (unpack pack)
open VoiceCall.Proofs.Number.Proper

variable {s t : Sample} {f g : UnpackedFloat}

theorem isNaN_unpack_pack_eq (f : UnpackedFloat) :
    (unpack .binary32 (pack .binary32 f)).isNaN = f.isNaN := by
  cases f with
  | notANumber => rfl
  | _ => exact isNaN_unpack_pack rfl

theorem isInf_unpack_pack (hf : f.isInf) : (unpack .binary32 (pack .binary32 f)).isInf := by
  cases f with
  | infinity sign => cases sign <;> rfl
  | _ => cases hf

/-- The zeros are what compares to zero as equal. -/
theorem compare_zero_eq_iff :
    (f.compare (.zero .positive) == some .eq) = true ↔ ∃ sign, f = .zero sign := by
  cases f with
  | zero sign => exact iff_of_true rfl ⟨sign, rfl⟩
  | notANumber => exact iff_of_false Bool.false_ne_true nofun
  | _ sign => cases sign <;> exact iff_of_false Bool.false_ne_true nofun

theorem infinity_ne_zero (s : UnpackedFloat.Sign) :
    ¬ ∃ sign, UnpackedFloat.infinity s = .zero sign := by
  rintro ⟨sign, ⟨⟩⟩

theorem finite_ne_zero {s : UnpackedFloat.Sign} {m : Nat} {e : Int} {hm : 0 < m} :
    ¬ ∃ sign, UnpackedFloat.finite s m e hm = .zero sign := by
  rintro ⟨sign, ⟨⟩⟩

theorem isNaN_mul_unpacked_iff :
    (UnpackedFloat.mul .binary32 f g).isNaN = false ↔
      (f.isNaN = false ∧ g.isNaN = false) ∧ (f.isInf → ¬ ∃ sign, g = .zero sign) ∧
        (g.isInf → ¬ ∃ sign, f = .zero sign) := by
  cases f with
  | notANumber => exact iff_of_false Bool.noConfusion fun h => Bool.noConfusion h.1.1
  | infinity s =>
      cases g with
      | notANumber => exact iff_of_false Bool.noConfusion fun h => Bool.noConfusion h.1.2
      | infinity t =>
          exact iff_of_true rfl
            ⟨⟨rfl, rfl⟩, fun _ => infinity_ne_zero t, fun _ => infinity_ne_zero s⟩
      | zero t => exact iff_of_false Bool.noConfusion fun h => h.2.1 rfl ⟨t, rfl⟩
      | finite t n e' hn => exact iff_of_true rfl ⟨⟨rfl, rfl⟩, fun _ => finite_ne_zero, nofun⟩
  | zero s =>
      cases g with
      | notANumber => exact iff_of_false Bool.noConfusion fun h => Bool.noConfusion h.1.2
      | infinity t => exact iff_of_false Bool.noConfusion fun h => h.2.2 rfl ⟨s, rfl⟩
      | zero t => exact iff_of_true rfl ⟨⟨rfl, rfl⟩, nofun, nofun⟩
      | finite t n e' hn => exact iff_of_true rfl ⟨⟨rfl, rfl⟩, nofun, nofun⟩
  | finite s m e hm =>
      cases g with
      | notANumber => exact iff_of_false Bool.noConfusion fun h => Bool.noConfusion h.1.2
      | infinity t => exact iff_of_true rfl ⟨⟨rfl, rfl⟩, nofun, fun _ => finite_ne_zero⟩
      | zero t => exact iff_of_true rfl ⟨⟨rfl, rfl⟩, nofun, nofun⟩
      | finite t n e' hn =>
          exact iff_of_true (isNaN_roundWithAccuracy _ _ _ _ _) ⟨⟨rfl, rfl⟩, nofun, nofun⟩

theorem isNaN_add_unpacked_iff :
    (UnpackedFloat.add .binary32 f g).isNaN = false ↔
      (f.isNaN = false ∧ g.isNaN = false) ∧
        (f.isInf → g.isInf → (f.compare g == some .eq) = true) := by
  cases f with
  | notANumber => exact iff_of_false Bool.noConfusion fun h => Bool.noConfusion h.1.1
  | infinity s =>
      cases g with
      | notANumber => exact iff_of_false Bool.noConfusion fun h => Bool.noConfusion h.1.2
      | infinity t => cases s <;> cases t <;> decide
      | _ => exact iff_of_true rfl ⟨⟨rfl, rfl⟩, nofun⟩
  | zero s =>
      cases g with
      | notANumber => exact iff_of_false Bool.noConfusion fun h => Bool.noConfusion h.1.2
      | infinity t => exact iff_of_true rfl ⟨⟨rfl, rfl⟩, nofun⟩
      | _ => exact iff_of_true (isNaN_add rfl rfl) ⟨⟨rfl, rfl⟩, nofun⟩
  | finite s m e hm =>
      cases g with
      | notANumber => exact iff_of_false Bool.noConfusion fun h => Bool.noConfusion h.1.2
      | infinity t => exact iff_of_true rfl ⟨⟨rfl, rfl⟩, nofun⟩
      | _ => exact iff_of_true (isNaN_add rfl rfl) ⟨⟨rfl, rfl⟩, nofun⟩

theorem isFinite_iff : s.isFinite ↔ s.isNaN = false ∧ ¬ s.isInf := by
  change s.toModel.unpack.isFinite ↔ s.toModel.unpack.isNaN = false ∧ ¬ s.toModel.unpack.isInf
  cases s.toModel.unpack with
  | notANumber => exact iff_of_false Bool.false_ne_true fun h => Bool.noConfusion h.1
  | infinity sign => exact iff_of_false Bool.false_ne_true fun h => h.2 rfl
  | _ => exact iff_of_true rfl ⟨rfl, Bool.false_ne_true⟩

theorem isNaN_product_iff :
    (s * t).isNaN = false ↔ (s.isNaN = false ∧ t.isNaN = false) ∧
      (s.isInf → ¬ t == Sample.zero) ∧ (t.isInf → ¬ s == Sample.zero) := by
  have hproduct : (s * t).isNaN = (UnpackedFloat.mul .binary32 s.toModel.unpack
      t.toModel.unpack).isNaN := isNaN_unpack_pack_eq _
  have hzero (r : Sample) : r == Sample.zero ↔ ∃ sign, r.toModel.unpack = .zero sign :=
    compare_zero_eq_iff
  rw [hproduct, isNaN_mul_unpacked_iff, hzero, hzero]
  rfl

theorem isNaN_sum_iff :
    (s + t).isNaN = false ↔ (s.isNaN = false ∧ t.isNaN = false) ∧
      (s.isInf → t.isInf → s == t) := by
  have hsum : (s + t).isNaN = (UnpackedFloat.add .binary32 s.toModel.unpack
      t.toModel.unpack).isNaN := isNaN_unpack_pack_eq _
  rw [hsum, isNaN_add_unpacked_iff]
  rfl

/-- An infinite factor makes the product infinite, or no number. -/
theorem isInf_mul (ht : t.isInf) (hproduct : (s * t).isNaN = false) : (s * t).isInf := by
  have hnumber : (UnpackedFloat.mul .binary32 s.toModel.unpack t.toModel.unpack).isNaN = false :=
    (isNaN_unpack_pack_eq _).symm.trans hproduct
  change t.toModel.unpack.isInf at ht
  refine isInf_unpack_pack ?_
  generalize s.toModel.unpack = f at hnumber
  generalize t.toModel.unpack = g at ht hnumber
  cases g with
  | infinity sign =>
      cases f with
      | notANumber => cases hnumber
      | zero sign' => cases hnumber
      | _ sign' => rfl
  | _ => cases ht

end VoiceCall.Proofs.Audio.Infinities
