/-!
Lists that are cut into groups of one size, piece by piece if need be: what is left behind the last
full group is put in front of what comes next. A device's samples are such a list, with one group
for each of its frames.
-/

namespace VoiceCall.Proofs.Sound.Groups

variable {β γ : Type} {size : Nat}

/-- The full groups of consecutive elements, in order. -/
def groups (size : Nat) (xs : List β) : List (List β) :=
  (List.range (xs.length / size)).map fun i => (xs.drop (i * size)).take size

/-- The elements behind the last full group. -/
def remainder (size : Nat) (xs : List β) : List β :=
  xs.drop (xs.length / size * size)

/-- All elements, in full groups and a shorter one if there are some behind them. -/
def slices (size : Nat) (xs : List β) : List (List β) :=
  groups size xs ++ if (remainder size xs).isEmpty then [] else [remainder size xs]

/-- The samples of a device frame; a device has at least one channel. -/
def frameWidth (channels : UInt16) : Nat :=
  max channels.toNat 1

theorem frameWidth_pos (channels : UInt16) : 0 < frameWidth channels :=
  Nat.le_max_right _ _

theorem length_groups (xs : List β) : (groups size xs).length = xs.length / size := by
  rw [groups, List.length_map, List.length_range]

theorem groups_of_lt {xs : List β} (h : xs.length < size) : groups size xs = [] := by
  rw [groups, Nat.div_eq_of_lt h]
  rfl

theorem remainder_of_lt {xs : List β} (h : xs.length < size) : remainder size xs = xs := by
  rw [remainder, Nat.div_eq_of_lt h, Nat.zero_mul, List.drop_zero]

theorem groups_of_le (hsize : 0 < size) {xs : List β} (h : size ≤ xs.length) :
    groups size xs = xs.take size :: groups size (xs.drop size) := by
  rw [groups, Nat.div_eq_sub_div hsize h, List.range_succ_eq_map, List.map_cons, List.map_map,
    Nat.zero_mul, List.drop_zero, groups, List.length_drop]
  congr 1
  apply List.map_congr_left
  intro i _
  rw [Function.comp_apply, List.drop_drop, Nat.succ_mul, Nat.add_comm]

theorem remainder_of_le (hsize : 0 < size) {xs : List β} (h : size ≤ xs.length) :
    remainder size xs = remainder size (xs.drop size) := by
  rw [remainder, Nat.div_eq_sub_div hsize h, remainder, List.drop_drop, List.length_drop,
    Nat.succ_mul, Nat.add_comm]

theorem groups_of_length_eq (hsize : 0 < size) {xs : List β} (h : xs.length = size) :
    groups size xs = [xs] := by
  have hfits : xs.length ≤ size := Nat.le_of_eq h
  rw [groups_of_le hsize (Nat.le_of_eq h.symm), List.take_of_length_le hfits,
    List.drop_of_length_le hfits, groups_of_lt hsize]

theorem length_remainder (xs : List β) : (remainder size xs).length = xs.length % size := by
  rw [remainder, List.length_drop, Nat.mul_comm, Nat.mod_eq_sub]

theorem length_remainder_lt (hsize : 0 < size) (xs : List β) :
    (remainder size xs).length < size := by
  rw [length_remainder]
  exact Nat.mod_lt _ hsize

theorem remainder_eq_nil {xs : List β} (h : size ∣ xs.length) : remainder size xs = [] := by
  apply List.eq_nil_of_length_eq_zero
  rw [length_remainder, Nat.mod_eq_zero_of_dvd h]

theorem length_of_mem_groups {xs group : List β} (h : group ∈ groups size xs) :
    group.length = size := by
  obtain ⟨i, hi, rfl⟩ := List.mem_map.mp h
  have hfits : (i + 1) * size ≤ xs.length :=
    Nat.le_trans (Nat.mul_le_mul_right size (List.mem_range.mp hi)) (Nat.div_mul_le_self _ _)
  rw [Nat.succ_mul] at hfits
  exact List.length_take_of_le (by rw [List.length_drop]; omega)

theorem slices_nil : slices size ([] : List β) = [] := by
  rw [slices, groups, remainder, List.drop_nil, List.length_nil, Nat.zero_div]
  rfl

theorem slices_of_ne_nil (hsize : 0 < size) {xs : List β} (h : xs ≠ []) :
    slices size xs = xs.take size :: slices size (xs.drop size) := by
  rcases Nat.lt_or_ge xs.length size with hshort | hfull
  · have hfits := Nat.le_of_lt hshort
    rw [slices, groups_of_lt hshort, remainder_of_lt hshort, List.take_of_length_le hfits,
      List.drop_of_length_le hfits, slices_nil, if_neg (by simpa using h), List.nil_append]
  · rw [slices, groups_of_le hsize hfull, remainder_of_le hsize hfull, List.cons_append, slices]

/-- A list is too short for a group, or has one in front of the rest. -/
@[elab_as_elim]
theorem groups_induction {motive : List β → Prop} (hsize : 0 < size)
    (short : ∀ xs, xs.length < size → motive xs)
    (full : ∀ xs, size ≤ xs.length → motive (xs.drop size) → motive xs) (xs : List β) :
    motive xs := by
  induction hlength : xs.length using Nat.strongRecOn generalizing xs with
  | ind length ih =>
      subst hlength
      rcases Nat.lt_or_ge xs.length size with hshort | hfull
      · exact short xs hshort
      · refine full xs hfull (ih _ ?_ (xs.drop size) rfl)
        rw [List.length_drop]
        omega

/-- A list is empty, or has a slice in front of the rest. -/
@[elab_as_elim]
theorem slices_induction {motive : List β → Prop} (hsize : 0 < size) (nil : motive [])
    (slice : ∀ xs, xs ≠ [] → motive (xs.drop size) → motive xs) (xs : List β) : motive xs := by
  induction xs using groups_induction hsize with
  | short xs h =>
      by_cases hempty : xs = []
      · rw [hempty]
        exact nil
      · refine slice xs hempty ?_
        rw [List.drop_of_length_le (Nat.le_of_lt h)]
        exact nil
  | full xs h ih =>
      refine slice xs ?_ ih
      rintro rfl
      exact absurd h (Nat.not_le_of_lt hsize)

theorem groups_append (hsize : 0 < size) (xs ys : List β) :
    groups size (xs ++ ys) = groups size xs ++ groups size (remainder size xs ++ ys) := by
  induction xs using groups_induction hsize with
  | short xs h => rw [groups_of_lt h, remainder_of_lt h, List.nil_append]
  | full xs h ih =>
      have hlonger : size ≤ (xs ++ ys).length := by
        rw [List.length_append]
        omega
      rw [groups_of_le hsize hlonger, groups_of_le hsize h, remainder_of_le hsize h,
        List.take_append_of_le_length h, List.drop_append_of_le_length h, ih, List.cons_append]

theorem remainder_append (hsize : 0 < size) (xs ys : List β) :
    remainder size (xs ++ ys) = remainder size (remainder size xs ++ ys) := by
  induction xs using groups_induction hsize with
  | short xs h => rw [remainder_of_lt h]
  | full xs h ih =>
      have hlonger : size ≤ (xs ++ ys).length := by
        rw [List.length_append]
        omega
      rw [remainder_of_le hsize hlonger, remainder_of_le hsize h,
        List.drop_append_of_le_length h, ih]

theorem groups_append_of_dvd (hsize : 0 < size) {xs : List β} (h : size ∣ xs.length)
    (ys : List β) : groups size (xs ++ ys) = groups size xs ++ groups size ys := by
  rw [groups_append hsize, remainder_eq_nil h, List.nil_append]

theorem groups_flatten (hsize : 0 < size) {pieces : List (List β)}
    (h : ∀ piece ∈ pieces, size ∣ piece.length) :
    groups size pieces.flatten = pieces.flatMap (groups size) := by
  induction pieces with
  | nil => exact groups_of_lt hsize
  | cons piece pieces ih =>
      rw [List.forall_mem_cons] at h
      rw [List.flatten_cons, groups_append_of_dvd hsize h.1, ih h.2, List.flatMap_cons]

section

variable {f : β → List γ} {width : Nat}

theorem length_flatMap_of_width {xs : List β} (hf : ∀ x ∈ xs, (f x).length = width) :
    (xs.flatMap f).length = xs.length * width := by
  induction xs with
  | nil => rw [List.flatMap_nil, List.length_nil, List.length_nil, Nat.zero_mul]
  | cons x xs ih =>
      rw [List.forall_mem_cons] at hf
      rw [List.flatMap_cons, List.length_append, hf.1, ih hf.2, List.length_cons, Nat.succ_mul,
        Nat.add_comm]

/-- Where every element stands for as many, whole groups of elements stand for whole groups. -/
theorem cut_flatMap (hsize : 0 < size) (hwidth : 0 < width) {xs : List β}
    (hf : ∀ x ∈ xs, (f x).length = width) :
    groups (size * width) (xs.flatMap f) = (groups size xs).map (·.flatMap f) ∧
      remainder (size * width) (xs.flatMap f) = (remainder size xs).flatMap f := by
  have hlarge : 0 < size * width := Nat.mul_pos hsize hwidth
  induction xs using groups_induction hsize with
  | short xs h =>
      have hshort : (xs.flatMap f).length < size * width := by
        rw [length_flatMap_of_width hf]
        exact Nat.mul_lt_mul_of_pos_right h hwidth
      rw [groups_of_lt hshort, groups_of_lt h, remainder_of_lt hshort, remainder_of_lt h]
      exact ⟨rfl, rfl⟩
  | full xs h ih =>
      have htake : ((xs.take size).flatMap f).length = size * width := by
        rw [length_flatMap_of_width fun x hx => hf x (List.mem_of_mem_take hx),
          List.length_take_of_le h]
      have hrest := ih fun x hx => hf x (List.mem_of_mem_drop hx)
      have hsplit : xs.flatMap f = (xs.take size).flatMap f ++ (xs.drop size).flatMap f := by
        rw [← List.flatMap_append, List.take_append_drop]
      have hfull : size * width ≤ (xs.flatMap f).length := by
        rw [hsplit, List.length_append, htake]
        exact Nat.le_add_right _ _
      rw [groups_of_le hlarge hfull, remainder_of_le hlarge hfull, groups_of_le hsize h,
        remainder_of_le hsize h, hsplit, List.take_left' htake, List.drop_left' htake, hrest.1,
        hrest.2]
      exact ⟨rfl, rfl⟩

end

end VoiceCall.Proofs.Sound.Groups
