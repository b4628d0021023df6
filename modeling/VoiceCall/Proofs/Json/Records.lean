import VoiceCall.Json.Decoder
import VoiceCall.Proofs.Json.Fields

namespace VoiceCall.Proofs.Json.Records

open VoiceCall.Json
open VoiceCall.Proofs.Json.Fields

theorem lookup_cons (name other : String) (value : Value) (fields : List (String × Value)) :
    List.lookup other ((name, value) :: fields) =
      if other = name then some value else fields.lookup other := by
  rw [List.lookup_cons]
  split
  · rename_i hsame
    rw [if_pos (eq_of_beq hsame)]
  · rename_i hother
    rw [if_neg (ne_of_beq_false hother)]

theorem lookup_insertField (name other : String) (value : Value)
    (fields : List (String × Value)) :
    (insertField name value fields).lookup other =
      if other = name then some value else fields.lookup other := by
  induction fields with
  | nil => rw [insertField, lookup_cons]
  | cons held fields ih =>
      rcases held with ⟨present, old⟩
      rw [insertField]
      split
      · rw [lookup_cons]
      · split
        · rename_i hsame
          subst hsame
          rw [lookup_cons, lookup_cons]
          split <;> rfl
        · rename_i hother
          rw [lookup_cons, lookup_cons, ih]
          split
          · rename_i hpresent
            rw [if_neg (by rintro rfl; exact hother hpresent)]
          · rfl

theorem lookup_foldl_insertField (name : String) (held fields : List (String × Value)) :
    (fields.foldl (fun sorted (name, value) => insertField name value sorted) held).lookup name =
      (fields.reverse ++ held).lookup name := by
  induction fields generalizing held with
  | nil => rfl
  | cons field fields ih =>
      rcases field with ⟨present, value⟩
      rw [List.foldl_cons]
      dsimp only
      rw [ih, List.lookup_append, lookup_insertField, ← lookup_cons, ← List.lookup_append,
        List.reverse_cons, List.append_assoc, List.singleton_append]

/-- Of several fields of a name the last one counts. -/
theorem lookup_sortFields (name : String) (fields : List (String × Value)) :
    (sortFields fields).lookup name = fields.reverse.lookup name := by
  rw [sortFields, lookup_foldl_insertField, List.append_nil]

theorem checkFields_eq_ok {known : List (String × Decoder Unit)} {fields : List (String × Value)}
    (h : ∀ field ∈ fields, ∀ check, known.lookup field.1 = some check → check field.2 = .ok ()) :
    checkFields known fields = .ok () := by
  induction fields with
  | nil => rfl
  | cons field fields ih =>
      have hrest := ih fun field hmem => h field (List.mem_cons_of_mem _ hmem)
      rcases field with ⟨name, value⟩
      cases hknown : known.lookup name with
      | none => simp [checkFields, hknown, hrest, bind, Except.bind]
      | some check =>
          have hcheck := h (name, value) List.mem_cons_self check hknown
          simp [checkFields, hknown, hcheck, hrest, bind, Except.bind]

theorem decodeRecord_ofFields {α : Type} {name : String} {known : List (String × Decoder Unit)}
    {build : Slots → Except Mismatch α} {fields : List (String × Value)}
    (h : ∀ field ∈ fields, ∀ check, known.lookup field.1 = some check → check field.2 = .ok ()) :
    decodeRecord name known build (.ofFields fields) =
      build ⟨fun field => fields.reverse.lookup field, .missingField⟩ := by
  have hchecked : checkFields known (sortFields fields) = .ok () :=
    checkFields_eq_ok fun field hmem => h field (mem_sortFields hmem)
  have hslots : (fun field => (sortFields fields).lookup field) =
      fun field => fields.reverse.lookup field :=
    funext fun name => lookup_sortFields name fields
  rw [Value.ofFields, decodeRecord, hchecked, hslots]
  rfl

theorem toRange_of_le {n : Nat} {high : Int} (expected : String) (h : n ≤ high) :
    (Number.integer n).toRange 0 high expected = .ok (n : Int) := by
  rw [Number.toRange, if_pos ⟨Int.natCast_nonneg n, h⟩]

theorem decodeWord8_ofNat (w : UInt8) : decodeWord8 (.ofNat w.toNat) = .ok w := by
  have hrange : (w.toNat : Int) ≤ 255 := by
    have hbound := w.toNat_lt
    omega
  change ((Number.integer w.toNat).toRange 0 255 "u8").map _ = _
  rw [toRange_of_le "u8" hrange]
  simp [Except.map]

theorem decodeWord16_ofNat (w : UInt16) : decodeWord16 (.ofNat w.toNat) = .ok w := by
  have hrange : (w.toNat : Int) ≤ 65535 := by
    have hbound := w.toNat_lt
    omega
  change ((Number.integer w.toNat).toRange 0 65535 "u16").map _ = _
  rw [toRange_of_le "u16" hrange]
  simp [Except.map]

theorem decodeWord32_ofNat (w : UInt32) : decodeWord32 (.ofNat w.toNat) = .ok w := by
  have hrange : (w.toNat : Int) ≤ 4294967295 := by
    have hbound := w.toNat_lt
    omega
  change ((Number.integer w.toNat).toRange 0 4294967295 "u32").map _ = _
  rw [toRange_of_le "u32" hrange]
  simp [Except.map]

theorem mapM_eq_ok {α β : Type} {decode : β → Except Mismatch α} {encode : α → β}
    (h : ∀ a, decode (encode a) = .ok a) (items : List α) :
    (items.map encode).mapM decode = .ok items := by
  induction items with
  | nil => rfl
  | cons item items ih =>
      rw [List.map_cons, List.mapM_cons, h, ih]
      rfl

theorem decodeList_map {α : Type} {decode : Decoder α} {encode : α → Value}
    (h : ∀ a, decode (encode a) = .ok a) (items : List α) :
    decodeList decode (.array (items.map encode)) = .ok items :=
  mapM_eq_ok h items

theorem decodeArray_map {α : Type} {decode : Decoder α} {encode : α → Value}
    (h : ∀ a, decode (encode a) = .ok a) (items : List α) :
    decodeArray items.length decode (.array (items.map encode)) = .ok items := by
  have hall : ((items.map encode).take items.length).mapM decode = .ok items := by
    rw [List.take_of_length_le (List.length_map encode).le, mapM_eq_ok h]
  rw [decodeArray, hall]
  simp [bind, Except.bind, pure, Except.pure]

end VoiceCall.Proofs.Json.Records
