import Mathlib.Data.String.Basic
import VoiceCall.Json.Value

namespace VoiceCall.Proofs.Json.Fields

open VoiceCall.Json

variable {name : String} {value : Value} {fields : List (String × Value)}

/-- Every name is below all names behind it. -/
def Sorted (fields : List (String × Value)) : Prop :=
  fields.Pairwise fun one other => one.1 < other.1

theorem mem_insertField {field : String × Value} (h : field ∈ insertField name value fields) :
    field = (name, value) ∨ field ∈ fields := by
  induction fields with
  | nil => exact .inl (List.mem_singleton.mp h)
  | cons held rest ih =>
      rw [insertField] at h
      split at h
      · exact List.mem_cons.mp h
      · split at h
        · exact (List.mem_cons.mp h).imp_right (List.mem_cons_of_mem held)
        · rcases List.mem_cons.mp h with rfl | hrest
          · exact .inr List.mem_cons_self
          · exact (ih hrest).imp_right (List.mem_cons_of_mem held)

theorem sorted_insertField (h : Sorted fields) : Sorted (insertField name value fields) := by
  induction fields with
  | nil => exact List.pairwise_singleton _ _
  | cons held rest ih =>
      obtain ⟨hheld, hrest⟩ := List.pairwise_cons.mp h
      rw [insertField]
      split
      · rename_i hbelow
        refine List.pairwise_cons.mpr ⟨fun field hmem => ?_, h⟩
        rcases List.mem_cons.mp hmem with rfl | hmem
        · exact hbelow
        · exact hbelow.trans (hheld field hmem)
      · rename_i hbelow
        split
        · rename_i hsame
          subst hsame
          exact List.pairwise_cons.mpr ⟨hheld, hrest⟩
        · rename_i hsame
          have habove : held.1 < name := lt_of_le_of_ne (not_lt.mp hbelow) (Ne.symm hsame)
          refine List.pairwise_cons.mpr ⟨fun field hmem => ?_, ih hrest⟩
          rcases mem_insertField hmem with rfl | hmem
          · exact habove
          · exact hheld field hmem

theorem insertField_of_above (h : ∀ field ∈ fields, field.1 < name) :
    insertField name value fields = fields ++ [(name, value)] := by
  induction fields with
  | nil => rfl
  | cons held rest ih =>
      have habove : held.1 < name := h held List.mem_cons_self
      rw [insertField, if_neg habove.not_gt, if_neg habove.ne',
        ih fun field hmem => h field (List.mem_cons_of_mem held hmem)]
      rfl

theorem foldl_insertField_of_sorted {held fields : List (String × Value)}
    (h : Sorted (held ++ fields)) :
    fields.foldl (fun sorted (name, value) => insertField name value sorted) held =
      held ++ fields := by
  induction fields generalizing held with
  | nil => exact (List.append_nil held).symm
  | cons field fields ih =>
      rcases field with ⟨name, value⟩
      have habove : ∀ other ∈ held, other.1 < name := fun other hmem =>
        (List.pairwise_append.mp h).2.2 other hmem (name, value) List.mem_cons_self
      rw [List.append_cons] at h ⊢
      rw [List.foldl_cons]
      dsimp only
      rw [insertField_of_above habove, ih h]

theorem sortFields_of_sorted (h : Sorted fields) : sortFields fields = fields :=
  @foldl_insertField_of_sorted [] fields h

theorem sorted_foldl_insertField {held : List (String × Value)} (h : Sorted held)
    (fields : List (String × Value)) :
    Sorted (fields.foldl (fun sorted (name, value) => insertField name value sorted) held) := by
  induction fields generalizing held with
  | nil => exact h
  | cons field fields ih => exact ih (sorted_insertField h)

theorem sorted_sortFields (fields : List (String × Value)) : Sorted (sortFields fields) :=
  sorted_foldl_insertField .nil fields

theorem mem_foldl_insertField {held : List (String × Value)} {field : String × Value}
    (h : field ∈ fields.foldl (fun sorted (name, value) => insertField name value sorted) held) :
    field ∈ held ∨ field ∈ fields := by
  induction fields generalizing held with
  | nil => exact .inl h
  | cons first fields ih =>
      rcases ih h with hheld | hmem
      · rcases mem_insertField hheld with rfl | hheld
        · exact .inr List.mem_cons_self
        · exact .inl hheld
      · exact .inr (List.mem_cons_of_mem first hmem)

theorem mem_sortFields {field : String × Value} (h : field ∈ sortFields fields) :
    field ∈ fields :=
  (mem_foldl_insertField h).resolve_left List.not_mem_nil

end VoiceCall.Proofs.Json.Fields
