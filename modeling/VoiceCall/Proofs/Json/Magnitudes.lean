import VoiceCall.Json.Scalar
import VoiceCall.Proofs.Number.Proper

namespace VoiceCall.Proofs.Json.Magnitudes

open VoiceCall.Json
open VoiceCall.Json.Numeral
open VoiceCall.Proofs.Number.Proper

theorem isRegular_powerOfTen : ∀ n < 309, isRegular (powerOfTen n) := by
  decide +kernel

theorem isNaN_scaleDown {x : Float} (hx : x.isNaN = false) (n : Nat) :
    (scaleDown x n).isNaN = false := by
  fun_induction scaleDown x n with
  | case1 x n hn => exact isNaN_div_of_isRegular hx (isRegular_powerOfTen n (by omega))
  | case2 x n hn hzero => exact hx
  | case3 x n hn hzero ih =>
      exact ih (isNaN_div_of_isRegular hx (isRegular_powerOfTen 308 (by decide)))

theorem isNaN_of_scale {significand : Nat} {exponent : Int} {x : Float}
    (h : scale significand exponent = some x) : x.isNaN = false := by
  have hsignificand := isNaN_toFloat significand.toUInt64
  unfold scale at h
  dsimp only at h
  split at h
  · cases h
    exact isNaN_scaleDown hsignificand _
  · split at h
    · split at h
      · cases h
      · cases h
        exact isNaN_mul_of_isRegular hsignificand (isRegular_powerOfTen _ (by omega))
    · split at h
      · cases h
        exact hsignificand
      · cases h

theorem isNaN_of_magnitude {n : Numeral} {x : Float} (h : n.magnitude = some x) :
    x.isNaN = false := by
  unfold magnitude at h
  dsimp only at h
  split at h
  · exact isNaN_of_scale h
  · split at h
    · exact isNaN_of_scale h
    · split at h
      · cases h
        decide +kernel
      · cases h

theorem isNaN_of_value {n : Numeral} {x : Float} (h : n.value = some (.real x)) :
    x.isNaN = false := by
  unfold value at h
  extract_lets integer at h
  split at h
  · cases h
  · obtain ⟨y, hy, ⟨⟩⟩ := Option.map_eq_some_iff.mp h
    split
    · exact isNaN_neg_double (isNaN_of_magnitude hy)
    · exact isNaN_of_magnitude hy

theorem isNaN_toSingle {n : Numeral} {number : Number} (h : n.value = some number) :
    number.toSingle.isNaN = false := by
  cases number with
  | integer k =>
      unfold Number.toSingle
      dsimp only
      split
      · exact isNaN_neg_single (isNaN_toFloat32 _)
      · exact isNaN_toFloat32 _
  | real x => exact isNaN_narrow (isNaN_of_value h)

end VoiceCall.Proofs.Json.Magnitudes
