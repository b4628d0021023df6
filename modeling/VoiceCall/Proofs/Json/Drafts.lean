import VoiceCall.Proofs.Json.Kinds
import VoiceCall.Proofs.Json.Objects

namespace VoiceCall.Proofs.Json.Drafts

open VoiceCall.Json
open VoiceCall.Proofs.Json.Tokens
open VoiceCall.Proofs.Json.Characters
open VoiceCall.Proofs.Json.Numerals
open VoiceCall.Proofs.Json.Skipping (readColon_eq_ok_iff exists_spells_of_readString)
open VoiceCall.Proofs.Json.Objects
open VoiceCall.Proofs.Json.Grammar
open VoiceCall.Proofs.Json.Kinds

variable {σ α : Type} {fields : List (Json.Field σ)} {names : List String}

section Grammar

variable (Sets : String → List Char → σ → σ → Prop)

/-- The members of an object from one of them on, behind those that were seen. -/
inductive Members (names : List String) : Bool → List String → σ → List Char → σ → Prop where
  | close {first : Bool} {seen : List String} {draft : σ} {gap : List Char} (hgap : Blank gap) :
      Members names first seen draft (gap ++ ['\x7d']) draft
  | known {first : Bool} {seen : List String} {draft held result : σ} {name : String}
      {lead spelled before gap value later : List Char} (hlead : Lead first lead)
      (hname : Spells spelled name.toList) (hnew : name ∉ seen) (hbefore : Blank before)
      (hgap : Blank gap) (hset : Sets name value draft held)
      (hlater : Members names false (name :: seen) held later result) :
      Members names first seen draft
        (lead ++ '"' :: (spelled ++ '"' :: (before ++ ':' :: (gap ++ (value ++ later))))) result
  | unknown {first : Bool} {seen : List String} {draft result : σ} {name : String}
      {lead spelled before gap value later : List Char} (hlead : Lead first lead)
      (hname : Spells spelled name.toList) (hother : name ∉ names) (hbefore : Blank before)
      (hgap : Blank gap) (hvalue : WellFormed .value value)
      (hlater : Members names false seen draft later result) :
      Members names first seen draft
        (lead ++ '"' :: (spelled ++ '"' :: (before ++ ':' :: (gap ++ (value ++ later))))) result

/-- The elements of an array from one of them on, for the fields of these names. -/
inductive Elements : List String → Bool → σ → List Char → σ → Prop where
  | close {names : List String} {first : Bool} {draft : σ} {gap : List Char} (hgap : Blank gap) :
      Elements names first draft (gap ++ [']']) draft
  | element {name : String} {names : List String} {first : Bool} {draft held result : σ}
      {lead value later : List Char} (hlead : Lead first lead) (hset : Sets name value draft held)
      (hlater : Elements names false held later result) :
      Elements (name :: names) first draft (lead ++ (value ++ later)) result

inductive RecordOf (names : List String) (draft : σ) : List Char → σ → Prop where
  | object {members : List Char} {result : σ}
      (h : Members Sets names true [] draft members result) :
      RecordOf names draft ('\x7b' :: members) result
  | array {elements : List Char} {result : σ} (h : Elements Sets names true draft elements result) :
      RecordOf names draft ('[' :: elements) result

/-- A field that may be left out, and reads what it is said to be spelled as. -/
structure Optional (field : Json.Field σ) : Prop where
  not_required : field.required = false
  reads (draft : σ) :
    Reads (field.read draft) fun spelled held => Sets field.name spelled draft held

structure Describes (fields : List (Json.Field σ)) : Prop where
  optional {field : Json.Field σ} (h : field ∈ fields) : Optional Sets field
  known {name : String} {spelled : List Char} {draft held : σ} (h : Sets name spelled draft held) :
    name ∈ fields.map Field.name

end Grammar

variable {Sets : String → List Char → σ → σ → Prop}

theorem reads_of {reader : TextReader α} {Spelled : List Char → α → Prop} (h : Reads reader Spelled)
    (name : String) (required : Bool) (put : σ → α → σ) (draft : σ) :
    Reads ((Field.of name required reader put).read draft)
      fun spelled held => ∃ value, Spelled spelled value ∧ put draft value = held where
  sound {text rest held} hread := by
    obtain ⟨⟨value, _⟩, hvalue, ⟨⟩⟩ := exists_of_map_eq_ok hread
    obtain ⟨gap, spelled, htext, hgap, hspelled⟩ := h.sound hvalue
    exact ⟨gap, spelled, htext, hgap, value, hspelled, rfl⟩
  complete {gap spelled rest held} hgap hheld hrest := by
    obtain ⟨value, hspelled, rfl⟩ := hheld
    unfold Field.of
    dsimp only
    rw [h.complete hgap hspelled hrest]
    rfl
  opens {spelled held} hheld rest := by
    obtain ⟨value, hspelled, -⟩ := hheld
    exact h.opens hspelled rest

theorem members_of_reading (hdescribes : Describes Sets fields) {first : Bool} {seen : List String}
    {draft result : σ} {text rest : List Char}
    (h : Reading fields first seen draft text result rest) :
    ∃ members, text = members ++ rest ∧
      Members Sets (fields.map Field.name) first seen draft members result := by
  induction h with
  | done hnext _ =>
      obtain ⟨gap, rfl, hgap⟩ := end_of_nextField hnext
      exact ⟨gap ++ ['\x7d'], by simp, .close hgap⟩
  | known hnext hname hfield hnew hcolon hread _ ih =>
      obtain ⟨later, rfl, hlater⟩ := ih
      obtain ⟨lead, rfl, hlead⟩ := lead_of_nextField hnext
      obtain ⟨spelled, rfl, hspelled⟩ := exists_spells_of_readString hname
      obtain ⟨before, rfl, hbefore⟩ := readColon_eq_ok_iff.mp hcolon
      obtain ⟨gap, value, rfl, hgap, hset⟩ := ((hdescribes.optional hfield).reads _).sound hread
      exact ⟨_, by simp, .known hlead hspelled hnew hbefore hgap hset hlater⟩
  | unknown hnext hname hfield hcolon hskip _ ih =>
      obtain ⟨later, rfl, hlater⟩ := ih
      obtain ⟨lead, rfl, hlead⟩ := lead_of_nextField hnext
      obtain ⟨spelled, rfl, hspelled⟩ := exists_spells_of_readString hname
      obtain ⟨before, rfl, hbefore⟩ := readColon_eq_ok_iff.mp hcolon
      obtain ⟨gap, value, rfl, hgap, hvalue⟩ := wellFormed_of_skipValue hskip
      exact ⟨_, by simp, .unknown hlead hspelled (by simpa using hfield) hbefore hgap hvalue hlater⟩

theorem missing_eq_none (hdescribes : Describes Sets fields) (seen : List String) :
    missing fields seen = none := by
  rw [missing, Option.map_eq_none_iff, List.find?_eq_none]
  intro field hmem
  simp [(hdescribes.optional hmem).not_required]

theorem stops_of_members {seen : List String} {draft result : σ} {members : List Char}
    (h : Members Sets names false seen draft members result) (rest : List Char) :
    Stops (members ++ rest) := by
  cases h with
  | close hgap =>
      rw [List.append_assoc]
      exact stops_append hgap (stops_cons (by simp) rest)
  | known hlead _ _ _ _ _ _ =>
      rw [List.append_assoc]
      exact hlead.stops _
  | unknown hlead _ _ _ _ _ _ =>
      rw [List.append_assoc]
      exact hlead.stops _

theorem exists_field {name : String} (h : name ∈ fields.map Field.name) :
    ∃ field ∈ fields, field.name = name ∧
      fields.find? (fun field => field.name = name) = some field := by
  obtain ⟨field, hfind⟩ := Option.isSome_iff_exists.mp
    (show (fields.find? fun field => field.name = name).isSome by simpa using h)
  exact ⟨field, List.mem_of_find?_eq_some hfind, by simpa using List.find?_some hfind, hfind⟩

theorem Members.read (hdescribes : Describes Sets fields) {first : Bool} {seen : List String}
    {draft result : σ} {members : List Char}
    (h : Members Sets (fields.map Field.name) first seen draft members result) {fuel : Nat}
    (hfuel : members.length ≤ fuel) (rest : List Char) :
    readObjectFuel fields fuel first seen draft (members ++ rest) = .ok (result, rest) := by
  induction h generalizing fuel with
  | @close first seen draft gap hgap =>
      cases fuel with
      | zero => simp at hfuel
      | succ fuel =>
          rw [List.append_assoc]
          exact readObjectFuel_done (nextField_end first hgap rest)
            (missing_eq_none hdescribes seen)
  | @known first seen draft held result name lead spelled before gap value later hlead hname hnew
      hbefore hgap hset hlater ih =>
      simp only [List.length_append, List.length_cons] at hfuel
      cases fuel with
      | zero => omega
      | succ fuel =>
          obtain ⟨field, hmem, rfl, hfind⟩ := exists_field (hdescribes.known hset)
          simp only [List.append_assoc, List.cons_append]
          rw [readObjectFuel_known (nextField_of_lead hlead _) (readString_of_spells hname _) hfind
            (by simpa using hnew) (readColon_eq_ok_iff.mpr ⟨before, rfl, hbefore⟩)
            (((hdescribes.optional hmem).reads draft).complete hgap hset
              (stops_of_members hlater rest))]
          exact ih (by omega)
  | @unknown first seen draft result name lead spelled before gap value later hlead hname hother
      hbefore hgap hvalue hlater ih =>
      simp only [List.length_append, List.length_cons] at hfuel
      cases fuel with
      | zero => omega
      | succ fuel =>
          simp only [List.append_assoc, List.cons_append]
          rw [readObjectFuel_unknown (nextField_of_lead hlead _) (readString_of_spells hname _)
            (by simpa using hother) (readColon_eq_ok_iff.mpr ⟨before, rfl, hbefore⟩)
            (hvalue.skipValue hgap (stops_of_members hlater rest))]
          exact ih (by omega)

theorem elements_of_readArray {name : String} {count index : Nat} {first : Bool}
    {draft result : σ} {text rest : List Char} (hfields : ∀ field ∈ fields, Optional Sets field)
    (h : readArray name count fields index first draft text = .ok (result, rest)) :
    ∃ elements, text = elements ++ rest ∧
      Elements Sets (fields.map Field.name) first draft elements result := by
  induction fields generalizing index first draft text with
  | nil =>
      obtain ⟨_, hclose, ⟨⟩⟩ := exists_of_map_eq_ok h
      unfold closeArray at hclose
      split at hclose
      · rename_i hblank
        cases hclose
        obtain ⟨gap, rfl, hgap⟩ := exists_blank_of_skipBlank_eq hblank
        exact ⟨gap ++ [']'], by simp, .close hgap⟩
      · cases hclose
      · cases hclose
  | cons field fields ih =>
      rw [readArray] at h
      obtain ⟨⟨more, behind⟩, hnext, h⟩ := exists_of_bind_eq_ok h
      cases more with
      | false =>
          dsimp only at h
          split at h
          · contradiction
          · split at h
            · cases h
            · cases h
              obtain ⟨gap, rfl, hgap⟩ := end_of_nextItem hnext
              exact ⟨gap ++ [']'], by simp, .close hgap⟩
      | true =>
          obtain ⟨⟨held, later⟩, hread, h⟩ := exists_of_bind_eq_ok h
          obtain ⟨elements, rfl, helements⟩ :=
            ih (fun other hmem => hfields other (List.mem_cons_of_mem _ hmem)) h
          obtain ⟨lead, rfl, hlead⟩ := lead_of_nextItem hnext
          obtain ⟨gap, value, rfl, hgap, hset⟩ :=
            ((hfields field List.mem_cons_self).reads _).sound hread
          exact ⟨lead ++ gap ++ (value ++ elements), by simp,
            .element (hlead.append hgap) hset helements⟩

theorem stops_of_elements {draft result : σ} {elements : List Char}
    (h : Elements Sets names false draft elements result) (rest : List Char) :
    Stops (elements ++ rest) := by
  cases h with
  | close hgap =>
      rw [List.append_assoc]
      exact stops_append hgap (stops_cons (by simp) rest)
  | element hlead _ _ =>
      rw [List.append_assoc]
      exact hlead.stops _

theorem Elements.read {first : Bool} {draft result : σ} {elements : List Char}
    (hfields : ∀ field ∈ fields, Optional Sets field)
    (h : Elements Sets (fields.map Field.name) first draft elements result) (name : String)
    (count index : Nat) (rest : List Char) :
    readArray name count fields index first draft (elements ++ rest) = .ok (result, rest) := by
  induction fields generalizing first draft elements index with
  | nil =>
      obtain ⟨hgap⟩ | _ := h
      rw [readArray, closeArray, List.append_assoc, skipBlank_append hgap]
      rfl
  | cons field fields ih =>
      rw [readArray]
      rcases h with ⟨hgap⟩ | ⟨hlead, hset, hlater⟩
      · have hoptional : (field :: fields).findIdx? Field.required = none := by
          rw [List.findIdx?_eq_none_iff]
          exact fun other hmem => (hfields other hmem).not_required
        rw [List.append_assoc, List.singleton_append, nextItem_end first hgap]
        simp only [bind, Except.bind, Bool.false_eq_true, if_false, hoptional]
        rfl
      · rename_i held lead value later
        have hreads := (hfields field List.mem_cons_self).reads draft
        have hread : field.read draft (value ++ (later ++ rest)) = .ok (held, later ++ rest) :=
          hreads.complete blank_nil hset (stops_of_elements hlater rest)
        simp only [List.append_assoc, nextItem_of_lead hlead (hreads.opens hset _), bind,
          Except.bind, if_true, hread]
        exact ih (fun other hmem => hfields other (List.mem_cons_of_mem _ hmem)) hlater (index + 1)

theorem reads_record (hdescribes : Describes Sets fields) (name : String) (draft : σ) :
    Reads (readRecord name fields draft) (RecordOf Sets (fields.map Field.name) draft) where
  sound {text rest result} h := by
    unfold readRecord at h
    split at h
    all_goals rename_i hblank
    · cases h
    · obtain ⟨gap, rfl, hgap⟩ := exists_blank_of_skipBlank_eq hblank
      obtain ⟨elements, rfl, helements⟩ :=
        elements_of_readArray (fun _ hmem => hdescribes.optional hmem) h
      exact ⟨gap, '[' :: elements, rfl, hgap, .array helements⟩
    · obtain ⟨gap, rfl, hgap⟩ := exists_blank_of_skipBlank_eq hblank
      obtain ⟨members, rfl, hmembers⟩ :=
        members_of_reading hdescribes (reading_of_readObjectFuel h)
      exact ⟨gap, '\x7b' :: members, rfl, hgap, .object hmembers⟩
    · cases h
  complete {gap spelled rest result} hgap h hrest := by
    rw [readRecord, skipBlank_append hgap]
    cases h with
    | @object members _ hmembers =>
        rw [List.cons_append, skipBlank_cons (by decide)]
        exact hmembers.read hdescribes (by simp only [List.length_append]; omega) rest
    | @array elements _ helements =>
        rw [List.cons_append, skipBlank_cons (by decide)]
        exact helements.read (fun _ hmem => hdescribes.optional hmem) name _ 0 rest
  opens {spelled result} h rest := by
    cases h with
    | object _ => exact ⟨'\x7b', _, rfl, by decide⟩
    | array _ => exact ⟨'[', _, rfl, by decide⟩

theorem skipBlank_eq_nil_iff {text : List Char} : skipBlank text = [] ↔ Blank text := by
  constructor
  · intro h
    obtain ⟨gap, rfl, hgap⟩ := exists_blank_of_skipBlank_eq h
    rwa [List.append_nil]
  · intro h
    rw [← List.append_nil text, skipBlank_append h]
    rfl

section Invariant

variable {kept : σ → Prop}
  (hset : ∀ name spelled draft held, Sets name spelled draft held → kept draft → kept held)
include hset

theorem Members.invariant {first : Bool} {seen : List String} {draft result : σ}
    {members : List Char} (h : Members Sets names first seen draft members result)
    (hdraft : kept draft) : kept result := by
  induction h with
  | close _ => exact hdraft
  | known _ _ _ _ _ h _ ih => exact ih (hset _ _ _ _ h hdraft)
  | unknown _ _ _ _ _ _ _ ih => exact ih hdraft

theorem Elements.invariant {first : Bool} {draft result : σ} {elements : List Char}
    (h : Elements Sets names first draft elements result) (hdraft : kept draft) : kept result := by
  induction h with
  | close _ => exact hdraft
  | element _ h _ ih => exact ih (hset _ _ _ _ h hdraft)

/-- What setting a field keeps, the whole record keeps. -/
theorem RecordOf.invariant {draft result : σ} {spelled : List Char}
    (h : RecordOf Sets names draft spelled result) (hdraft : kept draft) : kept result := by
  cases h with
  | object h => exact h.invariant hset hdraft
  | array h => exact h.invariant hset hdraft

end Invariant

/-- A whole text holds one value, and blanks around it. -/
theorem readWhole_eq_ok_iff {reader : TextReader α} {Spelled : List Char → α → Prop}
    (h : Reads reader Spelled) {text : String} {a : α} :
    readWhole reader text = .ok a ↔
      ∃ gap spelled behind, text.toList = gap ++ (spelled ++ behind) ∧ Blank gap ∧ Blank behind ∧
        Spelled spelled a := by
  constructor
  · intro hread
    obtain ⟨⟨value, rest⟩, hvalue, hread⟩ := exists_of_bind_eq_ok hread
    obtain ⟨⟨⟩, hfinish, ⟨⟩⟩ := exists_of_bind_eq_ok hread
    obtain ⟨gap, spelled, htext, hgap, hspelled⟩ := h.sound hvalue
    refine ⟨gap, spelled, rest, htext, hgap, ?_, hspelled⟩
    unfold finish at hfinish
    split at hfinish
    · rename_i hempty
      exact skipBlank_eq_nil_iff.mp (List.isEmpty_iff.mp hempty)
    · cases hfinish
  · rintro ⟨gap, spelled, behind, htext, hgap, hbehind, hspelled⟩
    have hstops : Stops behind := by
      rw [← List.append_nil behind]
      exact stops_append hbehind (by simp [Stops, Undigited])
    rw [readWhole, htext, h.complete hgap hspelled hstops]
    simp only [bind, Except.bind, finish, skipBlank_eq_nil_iff.mpr hbehind, List.isEmpty_nil,
      if_true]
    rfl

end VoiceCall.Proofs.Json.Drafts
