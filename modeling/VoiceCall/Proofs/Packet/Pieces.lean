import VoiceCall.Packet.Packetizer

namespace VoiceCall.Proofs.Packet.Pieces

open VoiceCall.Packet
open VoiceCall.Packet.Packetizer

theorem pieces_of_le {ceiling : Nat} {unit : Octets} (h : unit.length ≤ ceiling) :
    pieces ceiling unit = [unit] := by
  rw [pieces, if_pos (Or.inl h)]

theorem pieces_of_lt {ceiling : Nat} {unit : Octets} (hceiling : 0 < ceiling)
    (h : ceiling < unit.length) :
    pieces ceiling unit = unit.take ceiling :: pieces ceiling (unit.drop ceiling) := by
  rw [pieces, if_neg (by omega)]

theorem pieces_ne_nil (ceiling : Nat) (unit : Octets) : pieces ceiling unit ≠ [] := by
  rw [pieces]
  split <;> simp

theorem flatten_pieces (ceiling : Nat) (unit : Octets) :
    (pieces ceiling unit).flatten = unit := by
  induction unit using pieces.induct ceiling with
  | case1 unit hwhole =>
      rw [pieces, if_pos hwhole]
      exact List.append_nil unit
  | case2 unit hcut ih =>
      rw [pieces, if_neg hcut, List.flatten_cons, ih, List.take_append_drop]

theorem length_le_of_mem_pieces {ceiling : Nat} (hceiling : 0 < ceiling) {unit piece : Octets}
    (hpiece : piece ∈ pieces ceiling unit) : piece.length ≤ ceiling := by
  induction unit using pieces.induct ceiling with
  | case1 unit hwhole =>
      rw [pieces, if_pos hwhole, List.mem_singleton] at hpiece
      subst hpiece
      omega
  | case2 unit hcut ih =>
      rw [pieces, if_neg hcut, List.mem_cons] at hpiece
      rcases hpiece with rfl | hpiece
      · exact List.length_take_le ceiling unit
      · exact ih hpiece

/-- Only the last piece may be shorter than the ceiling. -/
theorem length_of_mem_dropLast {ceiling : Nat} {unit piece : Octets}
    (hpiece : piece ∈ (pieces ceiling unit).dropLast) : piece.length = ceiling := by
  induction unit using pieces.induct ceiling with
  | case1 unit hwhole =>
      rw [pieces, if_pos hwhole] at hpiece
      cases hpiece
  | case2 unit hcut ih =>
      rw [pieces, if_neg hcut, List.dropLast_cons_of_ne_nil (pieces_ne_nil _ _),
        List.mem_cons] at hpiece
      rcases hpiece with rfl | hpiece
      · exact List.length_take_of_le (by omega)
      · exact ih hpiece

theorem packetCount_of_le {p : Packetizer} {length : Nat} (h : length ≤ p.ceiling) :
    p.packetCount length = 1 := by
  have hshare : (length + p.ceiling - 1) / p.ceiling ≤ 1 := by
    rcases Nat.eq_zero_or_pos p.ceiling with hceiling | hceiling
    · simp [hceiling]
    · apply Nat.le_of_lt_succ
      rw [Nat.div_lt_iff_lt_mul hceiling]
      omega
  exact Nat.max_eq_right hshare

theorem packetCount_of_lt {p : Packetizer} {length : Nat} (hceiling : 0 < p.ceiling)
    (h : p.ceiling < length) :
    p.packetCount length = p.packetCount (length - p.ceiling) + 1 := by
  have hshare : (length + p.ceiling - 1) / p.ceiling =
      (length - p.ceiling + p.ceiling - 1) / p.ceiling + 1 := by
    rw [← Nat.add_div_right _ hceiling]
    congr 1
    omega
  have hrest : 1 ≤ (length - p.ceiling + p.ceiling - 1) / p.ceiling := by
    rw [Nat.le_div_iff_mul_le hceiling]
    omega
  unfold packetCount
  omega

theorem length_fragment {p : Packetizer} (hceiling : 0 < p.ceiling) (unit : Octets) :
    (p.fragment unit).length = p.packetCount unit.length := by
  unfold fragment
  induction unit using pieces.induct p.ceiling with
  | case1 unit hwhole =>
      have hshort : unit.length ≤ p.ceiling := by omega
      rw [pieces_of_le hshort, packetCount_of_le hshort, List.length_singleton]
  | case2 unit hcut ih =>
      have hlong : p.ceiling < unit.length := by omega
      rw [pieces_of_lt hceiling hlong, List.length_cons, ih, List.length_drop,
        ← packetCount_of_lt hceiling hlong]

theorem packetCount_eq_one_iff {p : Packetizer} (hceiling : 0 < p.ceiling) (length : Nat) :
    p.packetCount length = 1 ↔ length ≤ p.ceiling := by
  constructor
  · intro hone
    rcases Nat.lt_or_ge p.ceiling length with hlong | hshort
    · have hmore := packetCount_of_lt hceiling hlong
      have hrest : 1 ≤ p.packetCount (length - p.ceiling) := Nat.le_max_right _ _
      omega
    · exact hshort
  · exact packetCount_of_le

/-- No count is above the length, so it fits where the length does. -/
theorem packetCount_le {p : Packetizer} (hceiling : 0 < p.ceiling) (length : Nat) :
    p.packetCount length ≤ max length 1 := by
  obtain ⟨before, hbefore⟩ : ∃ before, max length 1 = before + 1 :=
    ⟨max length 1 - 1, (Nat.sub_add_cancel (Nat.le_max_right length 1)).symm⟩
  refine Nat.max_le.mpr ⟨Nat.div_le_of_le_mul ?_, Nat.le_max_right length 1⟩
  calc length + p.ceiling - 1
      ≤ before + p.ceiling := by omega
    _ ≤ p.ceiling * before + p.ceiling :=
        Nat.add_le_add_right (Nat.le_mul_of_pos_left before hceiling) p.ceiling
    _ = p.ceiling * max length 1 := by rw [hbefore, Nat.mul_succ]

/-- A unit in pieces that are full up to the last one. None is empty but the lone piece of an empty
unit. -/
structure Partition (ceiling : Nat) (unit : Octets) (parts : List Octets) : Prop where
  whole : parts.flatten = unit
  bounded : ∀ part ∈ parts, part.length ≤ ceiling
  full : ∀ part ∈ parts.dropLast, part.length = ceiling
  filled : unit ≠ [] → [] ∉ parts
  lone : unit = [] → parts = [[]]

variable {ceiling : Nat} {unit : Octets}

theorem nil_not_mem_pieces (hceiling : 0 < ceiling) (hunit : unit ≠ []) :
    [] ∉ pieces ceiling unit := by
  induction unit using pieces.induct ceiling with
  | case1 unit hwhole =>
      rw [pieces, if_pos hwhole, List.mem_singleton]
      exact hunit.symm
  | case2 unit hcut ih =>
      have hlong : ceiling < unit.length := by omega
      rw [pieces_of_lt hceiling hlong, List.mem_cons, not_or]
      constructor
      · intro hfirst
        have hlength := congrArg List.length hfirst
        rw [List.length_take_of_le (Nat.le_of_lt hlong), List.length_nil] at hlength
        omega
      · refine ih fun hrest => ?_
        have hlength := congrArg List.length hrest
        rw [List.length_drop, List.length_nil] at hlength
        omega

theorem partition_pieces (hceiling : 0 < ceiling) (unit : Octets) :
    Partition ceiling unit (pieces ceiling unit) where
  whole := flatten_pieces ceiling unit
  bounded _ hpart := length_le_of_mem_pieces hceiling hpart
  full _ hpart := length_of_mem_dropLast hpart
  filled hunit := nil_not_mem_pieces hceiling hunit
  lone hunit := by
    subst hunit
    exact pieces_of_le (Nat.zero_le ceiling)

/-- The first of several parts is full, and the others cut what is behind it in the same way. -/
theorem Partition.of_cons {first : Octets} {rest : List Octets}
    (h : Partition ceiling unit (first :: rest)) (hrest : rest ≠ []) :
    ceiling < unit.length ∧ first = unit.take ceiling ∧
      Partition ceiling (unit.drop ceiling) rest := by
  obtain ⟨rfl, hbounded, hfull, hfilled, hlone⟩ := h
  rw [List.dropLast_cons_of_ne_nil hrest] at hfull
  have hunit : (first :: rest).flatten ≠ [] := fun hunit => hrest (List.cons.inj (hlone hunit)).2
  have hfirst : first.length = ceiling := hfull first List.mem_cons_self
  have hbehind : [] ∉ rest := fun hmem => hfilled hunit (List.mem_cons_of_mem first hmem)
  have hmore : rest.flatten ≠ [] := by
    intro hnone
    obtain ⟨part, hpart⟩ := List.exists_mem_of_ne_nil rest hrest
    exact hbehind (List.flatten_eq_nil_iff.mp hnone part hpart ▸ hpart)
  have hpositive := List.length_pos_iff.mpr hmore
  rw [List.flatten_cons, List.length_append, List.take_left' hfirst, List.drop_left' hfirst]
  refine ⟨by omega, rfl, rfl, ?_, ?_, fun _ => hbehind, fun hnone => absurd hnone hmore⟩
  · exact fun part hpart => hbounded part (List.mem_cons_of_mem first hpart)
  · exact fun part hpart => hfull part (List.mem_cons_of_mem first hpart)

theorem Partition.eq_pieces {parts : List Octets} (hceiling : 0 < ceiling)
    (h : Partition ceiling unit parts) : parts = pieces ceiling unit := by
  induction parts generalizing unit with
  | nil => exact absurd (h.lone h.whole.symm) (by simp)
  | cons first rest ih =>
      by_cases hrest : rest = []
      · subst hrest
        obtain rfl : first = unit := (List.append_nil first).symm.trans h.whole
        rw [pieces_of_le (h.bounded first List.mem_cons_self)]
      · obtain ⟨hlong, rfl, htail⟩ := h.of_cons hrest
        rw [pieces_of_lt hceiling hlong, ← ih htail]

/-- Whatever ceiling is asked for, of which zero counts as one, a unit is cut in the only way there
is, into as many pieces as its packets are counted. -/
theorem fragment_partitions (ceiling : Nat) (unit : Octets) :
    let p := Packetizer.ofCeiling ceiling
    Partition (max ceiling 1) unit (p.fragment unit) ∧
      (∀ parts, Partition (max ceiling 1) unit parts → parts = p.fragment unit) ∧
      (p.fragment unit).length = p.packetCount unit.length ∧
      p.packetCount unit.length ≤ max unit.length 1 := by
  intro p
  have hceiling : 0 < p.ceiling := Nat.le_max_right ceiling 1
  exact ⟨partition_pieces hceiling unit, fun _ hparts => hparts.eq_pieces hceiling,
    length_fragment hceiling unit, packetCount_le hceiling unit.length⟩

end VoiceCall.Proofs.Packet.Pieces
