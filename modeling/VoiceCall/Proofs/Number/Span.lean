import VoiceCall.Number.Nanoseconds

namespace VoiceCall.Proofs.Number.Span

open VoiceCall.Binary

/-- The magnitude of a finite double is at least a natural number. -/
def Reaches (x : Float) (bound : Nat) : Prop :=
  bound * (ratio x).2 ≤ (ratio x).1

theorem roundDiv_le (n d : Nat) : roundDiv n d ≤ n / d + 1 := by
  unfold roundDiv
  dsimp only
  split
  · omega
  · split <;> omega

theorem roundDiv_one (n : Nat) : roundDiv n 1 = n := by
  simp [roundDiv, Nat.mod_one]

theorem decode_fst_lt (f : Format) (pattern : Nat) :
    (f.decode pattern).1 < 2 * Nat.pow 2 (f.precision - 1) := by
  have hfraction : pattern % Nat.pow 2 (f.precision - 1) < Nat.pow 2 (f.precision - 1) :=
    Nat.mod_lt _ (Nat.pow_pos (by decide))
  unfold Format.decode
  dsimp only
  split
  · dsimp only
    omega
  · dsimp only
    omega

theorem ratio_cases (x : Float) :
    (ratio x).2 = 1 ∨ (ratio x).1 < Nat.pow 2 53 ∧ 0 < (ratio x).2 := by
  have hfst : (ofDouble x).1 < Nat.pow 2 53 := decode_fst_lt double _
  unfold ratio
  rcases hdouble : ofDouble x with ⟨m, e⟩
  rw [hdouble] at hfst
  by_cases he : 0 ≤ e
  · simp [he]
  · right
    simp only [he, if_false]
    exact ⟨hfst, Nat.pow_pos (by decide)⟩

/-- A whole number keeps its nanoseconds; a fraction is too small for rounding to matter. -/
theorem limit_le_roundDiv_iff {n d : Nat} (h : d = 1 ∨ n < Nat.pow 2 53 ∧ 0 < d) :
    Nanoseconds.limit ≤ roundDiv (n * Nanoseconds.perSecond) d ↔ UInt64.size * d ≤ n := by
  have hsignificand : Nat.pow 2 53 = 9007199254740992 := rfl
  simp only [Nanoseconds.limit, Nanoseconds.perSecond, UInt64.size]
  rcases h with rfl | ⟨hn, hd⟩
  · rw [roundDiv_one]
    omega
  · have hround := roundDiv_le (n * 1000000000) d
    have hquotient := Nat.div_le_self (n * 1000000000) d
    have hproduct := Nat.le_mul_of_pos_right 18446744073709551616 hd
    omega

theorem ofSeconds?_eq_none_iff (seconds : Float) :
    Nanoseconds.ofSeconds? seconds = none ↔ Reaches seconds UInt64.size := by
  rw [Reaches, ← limit_le_roundDiv_iff (ratio_cases seconds), Nanoseconds.ofSeconds?]
  rcases ratio seconds with ⟨n, d⟩
  dsimp only
  split
  · rename_i hshort
    simp only [reduceCtorEq, false_iff]
    omega
  · rename_i hlong
    simp only [true_iff]
    omega

end VoiceCall.Proofs.Number.Span
