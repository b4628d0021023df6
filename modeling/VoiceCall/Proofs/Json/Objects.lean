import VoiceCall.Json.Record
import VoiceCall.Proofs.Json.Skipping

namespace VoiceCall.Proofs.Json.Objects

open VoiceCall.Json
open VoiceCall.Proofs.Json.Tokens
open VoiceCall.Proofs.Json.Characters
open VoiceCall.Proofs.Json.Places
open VoiceCall.Proofs.Json.Skipping

variable {σ : Type} {fields : List (Json.Field σ)}

/-- The fields of an object one after the other, up to the bracket that closes it. -/
inductive Reading (fields : List (Json.Field σ)) :
    Bool → List String → σ → List Char → σ → List Char → Prop where
  | done {first : Bool} {seen : List String} {draft : σ} {text rest : List Char}
      (hnext : nextField first text = .ok (false, rest)) (hall : missing fields seen = none) :
      Reading fields first seen draft text draft rest
  | known {first : Bool} {seen : List String} {draft held result : σ}
      {text named colon value later rest : List Char} {field : Json.Field σ}
      (hnext : nextField first text = .ok (true, named))
      (hname : readString named = .ok (field.name, colon)) (hfield : field ∈ fields)
      (hnew : field.name ∉ seen) (hcolon : readColon colon = .ok value)
      (hread : field.read draft value = .ok (held, later))
      (hlater : Reading fields false (field.name :: seen) held later result rest) :
      Reading fields first seen draft text result rest
  | unknown {first : Bool} {seen : List String} {draft result : σ}
      {text named colon value later rest : List Char} {name : String}
      (hnext : nextField first text = .ok (true, named))
      (hname : readString named = .ok (name, colon)) (hfield : ∀ field ∈ fields, field.name ≠ name)
      (hcolon : readColon colon = .ok value) (hskip : skipValue value = .ok later)
      (hlater : Reading fields false seen draft later result rest) :
      Reading fields first seen draft text result rest

theorem reading_of_readObjectFuel {fuel : Nat} {first : Bool} {seen : List String}
    {draft result : σ} {text rest : List Char}
    (h : readObjectFuel fields fuel first seen draft text = .ok (result, rest)) :
    Reading fields first seen draft text result rest := by
  induction fuel generalizing first seen draft text with
  | zero => cases h
  | succ fuel ih =>
      rw [readObjectFuel] at h
      obtain ⟨⟨more, named⟩, hnext, h⟩ := exists_of_bind_eq_ok h
      cases more with
      | false =>
          simp only [Bool.false_eq_true, if_false] at h
          split at h
          · cases h
          · rename_i hall
            cases h
            exact .done hnext hall
      | true =>
          simp only [if_true] at h
          obtain ⟨⟨name, colon⟩, hname, h⟩ := exists_of_bind_eq_ok h
          dsimp only at h
          split at h
          · rename_i field hfind
            obtain rfl : field.name = name := by simpa using List.find?_some hfind
            split at h
            · cases h
            · rename_i hnew
              obtain ⟨value, hcolon, h⟩ := exists_of_bind_eq_ok h
              obtain ⟨⟨held, later⟩, hread, h⟩ := exists_of_bind_eq_ok h
              exact .known hnext hname (List.mem_of_find?_eq_some hfind) (by simpa using hnew)
                hcolon hread (ih h)
          · rename_i hfind
            obtain ⟨value, hcolon, h⟩ := exists_of_bind_eq_ok h
            obtain ⟨later, hskip, h⟩ := exists_of_bind_eq_ok h
            exact .unknown hnext hname (by simpa using hfind) hcolon hskip (ih h)

theorem readObjectFuel_known {fuel : Nat} {first : Bool} {seen : List String} {draft held : σ}
    {text named colon value later : List Char} {field : Json.Field σ} {name : String}
    (hnext : nextField first text = .ok (true, named))
    (hname : readString named = .ok (name, colon))
    (hfield : fields.find? (fun field => field.name = name) = some field)
    (hnew : seen.contains name = false) (hcolon : readColon colon = .ok value)
    (hread : field.read draft value = .ok (held, later)) :
    readObjectFuel fields (fuel + 1) first seen draft text =
      readObjectFuel fields fuel false (name :: seen) held later := by
  rw [readObjectFuel, hnext]
  simp only [bind, Except.bind, if_true, hname, hfield, hnew, Bool.false_eq_true, if_false, hcolon,
    hread]

theorem readObjectFuel_unknown {fuel : Nat} {first : Bool} {seen : List String} {draft : σ}
    {text named colon value later : List Char} {name : String}
    (hnext : nextField first text = .ok (true, named))
    (hname : readString named = .ok (name, colon)) (hfield : ∀ field ∈ fields, field.name ≠ name)
    (hcolon : readColon colon = .ok value) (hskip : skipValue value = .ok later) :
    readObjectFuel fields (fuel + 1) first seen draft text =
      readObjectFuel fields fuel false seen draft later := by
  have hfind : fields.find? (fun field => field.name = name) = none := by
    simpa using hfield
  rw [readObjectFuel, hnext]
  simp only [bind, Except.bind, if_true, hname, hfind, hcolon, hskip]

theorem readObjectFuel_done {fuel : Nat} {first : Bool} {seen : List String} {draft : σ}
    {text rest : List Char} (hnext : nextField first text = .ok (false, rest))
    (hall : missing fields seen = none) :
    readObjectFuel fields (fuel + 1) first seen draft text = .ok (draft, rest) := by
  rw [readObjectFuel, hnext]
  simp only [bind, Except.bind, Bool.false_eq_true, if_false, hall]
  rfl

theorem Reading.not_colon {first : Bool} {seen : List String} {draft result : σ}
    {text rest : List Char} (h : Reading fields first seen draft text result rest)
    {gap behind : List Char} (hgap : Blank gap) : text ≠ gap ++ ':' :: behind := by
  rintro rfl
  cases h with
  | done hnext _ => cases (nextField_colon first hgap behind).symm.trans hnext
  | known hnext => cases (nextField_colon first hgap behind).symm.trans hnext
  | unknown hnext => cases (nextField_colon first hgap behind).symm.trans hnext

theorem not_hasField_of_nextField {first : Bool} {text rest : List Char}
    (hnext : nextField first text = .ok (false, rest)) (name : String) (behind : List Char) :
    ¬ HasField text name behind := by
  obtain ⟨lead, rfl, hlead⟩ := skims_of_nextField hnext
  intro hfield
  exact not_hasField_closing (.inr rfl) (hfield.of_quiet hlead)

/-- The fields of a text are the one that it begins with and those behind its value. -/
theorem hasField_iff {first : Bool} {text named colon value later : List Char} {name : String}
    (hnext : nextField first text = .ok (true, named))
    (hname : readString named = .ok (name, colon)) (hcolon : readColon colon = .ok value)
    (hvalue : Over value later)
    (hlater : ∀ gap behind, Blank gap → later ≠ gap ++ ':' :: behind) (other : String)
    (behind : List Char) :
    HasField text other behind ↔ other = name ∧ behind = value ∨ HasField later other behind := by
  have hbehind : HasField later other behind → HasField text other behind := by
    obtain ⟨between, rfl, hbetween⟩ :=
      passes_field hnext (over_of_readString hname) hcolon hvalue
    exact HasField.append hbetween
  obtain ⟨lead, rfl, hlead⟩ := skims_of_nextField hnext
  obtain ⟨spelled, rfl, hspelled⟩ := exists_spells_of_readString hname
  obtain ⟨gap, rfl, hgap⟩ := readColon_eq_ok_iff.mp hcolon
  constructor
  · intro hfield
    rcases (hfield.of_quiet hlead).of_quoted (inside_of_spells hspelled) with
      ⟨hother, gap', heq, hgap'⟩ | hfield
    · refine .inl ⟨?_, ?_⟩
      · have hread := (readCharacters_of_spells hspelled []).symm.trans
          (readCharacters_of_spells hother [])
        exact (String.toList_inj.mp (Prod.mk.inj (Except.ok.inj hread)).1).symm
      · have hread := readColon_eq_ok_iff.mpr ⟨gap', heq, hgap'⟩
        exact Except.ok.inj (hread.symm.trans hcolon)
    · have hquiet : ∀ c ∈ gap ++ [':'], Quiet c := by
        intro c hmem
        rcases List.mem_append.mp hmem with hmem | hmem
        · exact Blank.quiet hgap c hmem
        · obtain rfl := List.mem_singleton.mp hmem
          decide
      rw [List.append_cons] at hfield
      exact .inr (hasField_of_over hvalue (fun gap => hlater gap behind) (hfield.of_quiet hquiet))
  · rintro (⟨rfl, rfl⟩ | hfield)
    · exact ⟨lead, spelled, gap, rfl, paired_of_quiet hlead, hspelled, hgap⟩
    · exact hbehind hfield

end VoiceCall.Proofs.Json.Objects
