import VoiceCall.Audio.Sample

namespace VoiceCall.Proofs.Audio.Limits

open Float.Model (UnpackedFloat)

variable {low high s t : Sample}

theorem compare_swap (f g : UnpackedFloat) : g.compare f = (f.compare g).map Ordering.swap := by
  cases f with
  | notANumber => cases g <;> rfl
  | infinity s =>
      cases g with
      | infinity t => cases s <;> cases t <;> rfl
      | _ => cases s <;> rfl
  | zero s =>
      cases g with
      | notANumber => rfl
      | zero t => rfl
      | _ t => cases t <;> rfl
  | finite s m e hm =>
      cases g with
      | notANumber => rfl
      | infinity t => cases t <;> rfl
      | zero t => cases s <;> rfl
      | finite t m' e' hm' =>
          dsimp only [UnpackedFloat.compare]
          cases s <;> cases t <;>
            simp [Ordering.swap_then, Int.compare_swap, Nat.compare_swap]

theorem isSome_compare_iff (f g : UnpackedFloat) :
    (f.compare g).isSome ↔ f.isNaN = false ∧ g.isNaN = false := by
  cases f with
  | notANumber =>
      refine iff_of_false ?_ fun h => Bool.noConfusion h.1
      cases g <;> exact Bool.false_ne_true
  | infinity s =>
      cases g with
      | notANumber =>
          exact iff_of_false (by cases s <;> exact Bool.false_ne_true) fun h => Bool.noConfusion h.2
      | _ => exact iff_of_true (by cases s <;> rfl) ⟨rfl, rfl⟩
  | zero s =>
      cases g with
      | notANumber => exact iff_of_false Bool.false_ne_true fun h => Bool.noConfusion h.2
      | zero t => exact iff_of_true rfl ⟨rfl, rfl⟩
      | _ t => exact iff_of_true (by cases t <;> rfl) ⟨rfl, rfl⟩
  | finite s m e hm =>
      cases g with
      | notANumber => exact iff_of_false Bool.false_ne_true fun h => Bool.noConfusion h.2
      | infinity t => exact iff_of_true (by cases t <;> rfl) ⟨rfl, rfl⟩
      | zero t => exact iff_of_true (by cases s <;> rfl) ⟨rfl, rfl⟩
      | finite t m' e' hm' => exact iff_of_true (by cases s <;> cases t <;> rfl) ⟨rfl, rfl⟩

theorem lt_iff : s < t ↔ s.toModel.unpack.compare t.toModel.unpack = some .lt := by
  change decide (s.toModel < t.toModel) = true ↔ _
  rw [decide_eq_true_iff]
  exact beq_iff_eq

theorem le_iff : s ≤ t ↔ (s.toModel.unpack.compare t.toModel.unpack).any Ordering.isLE := by
  change decide (s.toModel ≤ t.toModel) = true ↔ _
  rw [decide_eq_true_iff]
  rfl

theorem not_lt_iff (hs : s.isNaN = false) (ht : t.isNaN = false) : ¬ s < t ↔ t ≤ s := by
  rw [lt_iff, le_iff, compare_swap s.toModel.unpack]
  obtain ⟨o, ho⟩ := Option.isSome_iff_exists.mp ((isSome_compare_iff _ _).mpr ⟨hs, ht⟩)
  rw [ho]
  cases o <;> decide

theorem le_refl (hs : s.isNaN = false) : s ≤ s := by
  rw [← not_lt_iff hs hs, lt_iff]
  intro hlt
  have hswap := compare_swap s.toModel.unpack s.toModel.unpack
  rw [hlt] at hswap
  cases hswap

theorem isNaN_of_le (h : s ≤ t) : s.isNaN = false ∧ t.isNaN = false := by
  refine (isSome_compare_iff _ _).mp ?_
  obtain ⟨o, ho, -⟩ := (Option.any_eq_true _ _).mp (le_iff.mp h)
  exact Option.isSome_of_mem ho

theorem isNaN_of_lt (h : s < t) : s.isNaN = false ∧ t.isNaN = false :=
  (isSome_compare_iff _ _).mp (Option.isSome_of_mem (lt_iff.mp h))

/-- Nothing infinite lies between what is finite. -/
theorem isFinite_of_le (hlow : low.isFinite) (hhigh : high.isFinite) (h : low ≤ s)
    (h' : s ≤ high) : s.isFinite := by
  rw [le_iff] at h h'
  change low.toModel.unpack.isFinite at hlow
  change high.toModel.unpack.isFinite at hhigh
  change s.toModel.unpack.isFinite
  generalize low.toModel.unpack = f at h hlow
  generalize high.toModel.unpack = g at h' hhigh
  generalize s.toModel.unpack = x at h h' ⊢
  cases x with
  | notANumber => cases f <;> cases h
  | infinity sign =>
      cases sign with
      | negative =>
          cases f with
          | notANumber => cases hlow
          | infinity _ => cases hlow
          | zero _ => cases h
          | finite _ _ _ _ => cases h
      | positive =>
          cases g with
          | notANumber => cases hhigh
          | infinity _ => cases hhigh
          | zero _ => cases h'
          | finite _ _ _ _ => cases h'
  | zero sign => rfl
  | finite sign m e hm => rfl

theorem limit_mem (hbounds : low ≤ high) (hs : s.isNaN = false) :
    low ≤ Sample.limit low high s ∧ Sample.limit low high s ≤ high := by
  obtain ⟨hlow, hhigh⟩ := isNaN_of_le hbounds
  have hraised : low ≤ (if s < low then low else s) ∧
      (if s < low then low else s).isNaN = false := by
    split
    · exact ⟨le_refl hlow, hlow⟩
    · rename_i hbelow
      exact ⟨(not_lt_iff hs hlow).mp hbelow, hs⟩
  unfold Sample.limit
  dsimp only
  generalize (if s < low then low else s) = raised at hraised
  split
  · exact ⟨hbounds, le_refl hhigh⟩
  · rename_i habove
    exact ⟨hraised.1, (not_lt_iff hhigh hraised.2).mp habove⟩

theorem limit_of_mem (h : low ≤ s) (h' : s ≤ high) : Sample.limit low high s = s := by
  have hs := (isNaN_of_le h).2
  unfold Sample.limit
  rw [if_neg ((not_lt_iff hs (isNaN_of_le h).1).mpr h)]
  exact if_neg ((not_lt_iff (isNaN_of_le h').2 hs).mpr h')

theorem limit_of_isNaN (hs : ¬ s.isNaN = false) : Sample.limit low high s = s := by
  unfold Sample.limit
  rw [if_neg fun hbelow => hs (isNaN_of_lt hbelow).1]
  exact if_neg fun habove => hs (isNaN_of_lt habove).2

theorem not_lt_limit (hbounds : low ≤ high) (s : Sample) : ¬ high < Sample.limit low high s := by
  by_cases hs : s.isNaN = false
  · have hmost := (limit_mem hbounds hs).2
    exact (not_lt_iff (isNaN_of_le hmost).2 (isNaN_of_le hmost).1).mpr hmost
  · rw [limit_of_isNaN hs]
    exact fun habove => hs (isNaN_of_lt habove).2

theorem limit_limit (hbounds : low ≤ high) (s : Sample) :
    Sample.limit low high (Sample.limit low high s) = Sample.limit low high s := by
  by_cases hs : s.isNaN = false
  · obtain ⟨hlow, hhigh⟩ := limit_mem hbounds hs
    exact limit_of_mem hlow hhigh
  · rw [limit_of_isNaN hs, limit_of_isNaN hs]

end VoiceCall.Proofs.Audio.Limits
