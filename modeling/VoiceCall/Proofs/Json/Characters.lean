import VoiceCall.Json.Printer
import VoiceCall.Proofs.Json.Tokens

namespace VoiceCall.Proofs.Json.Characters

open VoiceCall.Json
open VoiceCall.Proofs.Json.Tokens

/-- How characters are spelled between quotes: as themselves, by a letter behind a backslash, by a
unit of 16 bits, or by a pair of units. -/
inductive Spells : List Char → List Char → Prop where
  | nil : Spells [] []
  | plain {c : Char} {spelled cs : List Char} (hquote : c ≠ '"') (hescape : c ≠ '\\')
      (hcontrol : 0x20 ≤ c.toNat) (htail : Spells spelled cs) : Spells (c :: spelled) (c :: cs)
  | letter {e c : Char} {spelled cs : List Char} (hletter : simpleEscape? e = some c)
      (htail : Spells spelled cs) : Spells ('\\' :: e :: spelled) (c :: cs)
  | unit {a b c d : Char} {n : Nat} {spelled cs : List Char} (hunit : hexUnit? a b c d = some n)
      (hscalar : n < 0xd800 ∨ 0xe000 ≤ n) (htail : Spells spelled cs) :
      Spells ('\\' :: 'u' :: a :: b :: c :: d :: spelled) (Char.ofNat n :: cs)
  | pair {a b c d a' b' c' d' : Char} {high low : Nat} {spelled cs : List Char}
      (hhigh : hexUnit? a b c d = some high) (hupper : 0xd800 ≤ high ∧ high < 0xdc00)
      (hlow : hexUnit? a' b' c' d' = some low) (hlower : 0xdc00 ≤ low ∧ low < 0xe000)
      (htail : Spells spelled cs) :
      Spells ('\\' :: 'u' :: a :: b :: c :: d :: '\\' :: 'u' :: a' :: b' :: c' :: d' :: spelled)
        (Char.ofNat (0x10000 + (high - 0xd800) * 0x400 + (low - 0xdc00)) :: cs)

theorem readCharacters_of_spells {spelled cs : List Char} (h : Spells spelled cs)
    (rest : List Char) : readCharacters (spelled ++ '"' :: rest) = .ok (cs, rest) := by
  induction h with
  | nil => rfl
  | plain hquote hescape hcontrol _ ih =>
      have hprintable : ¬ _ := Nat.not_lt.mpr hcontrol
      simp [readCharacters, hescape, hprintable, ih, Except.map]
  | @letter e c spelled cs hletter _ ih =>
      have hunit : e ≠ 'u' := by
        rintro rfl
        cases hletter
      simp [readCharacters, hunit, hletter, ih, Except.map]
  | @unit _ _ _ _ n _ _ hunit hscalar _ ih =>
      have hupper : ¬ (0xd800 ≤ n ∧ n < 0xdc00) := by omega
      have hlower : ¬ (0xdc00 ≤ n ∧ n < 0xe000) := by omega
      simp only [List.cons_append, readCharacters, hunit, if_neg hupper, if_neg hlower, ih]
      rfl
  | pair hhigh hupper hlow hlower _ ih =>
      simp only [List.cons_append, readCharacters, hhigh, hlow, if_pos hupper, if_pos hlower, ih]
      rfl

theorem spells_of_readCharacters {text cs rest : List Char}
    (h : readCharacters text = .ok (cs, rest)) :
    ∃ spelled, text = spelled ++ '"' :: rest ∧ Spells spelled cs := by
  fun_induction readCharacters text generalizing cs rest with
  | case2 text =>
      cases h
      exact ⟨[], rfl, .nil⟩
  | case5 a b c d high hhigh hupper a' b' c' d' text low hlow hlower code =>
      rename_i ih
      obtain ⟨⟨cs, rest⟩, hread, ⟨⟩⟩ := exists_of_map_eq_ok h
      obtain ⟨spelled, rfl, hspells⟩ := ih hread
      exact ⟨_, rfl, .pair hhigh hupper hlow hlower hspells⟩
  | case12 a b c d text n hunit hupper hlower ih =>
      obtain ⟨⟨cs, rest⟩, hread, ⟨⟩⟩ := exists_of_map_eq_ok h
      obtain ⟨spelled, rfl, hspells⟩ := ih hread
      exact ⟨_, rfl, .unit hunit (by omega) hspells⟩
  | case15 e text hlong hunit c hletter ih =>
      obtain ⟨⟨cs, rest⟩, hread, ⟨⟩⟩ := exists_of_map_eq_ok h
      obtain ⟨spelled, rfl, hspells⟩ := ih hread
      exact ⟨_, rfl, .letter hletter hspells⟩
  | case18 c text hquote hlong hshort hletter hend hcontrol ih =>
      obtain ⟨⟨cs, rest⟩, hread, ⟨⟩⟩ := exists_of_map_eq_ok h
      obtain ⟨spelled, rfl, hspells⟩ := ih hread
      have hescape : c ≠ '\\' := by
        rintro rfl
        cases spelled with
        | nil => exact hletter _ _ rfl rfl
        | cons e spelled => exact hletter _ _ rfl rfl
      exact ⟨_, rfl, .plain hquote hescape (Nat.le_of_not_lt hcontrol) hspells⟩
  | _ => cases h

theorem hexUnit?_control :
    ∀ n < 0x20, hexUnit? '0' '0' (Nat.digitChar (n / 16)) (Nat.digitChar (n % 16)) = some n := by
  decide

theorem spells_escapeChar (c : Char) {spelled cs : List Char} (htail : Spells spelled cs) :
    Spells (escapeChar c ++ spelled) (c :: cs) := by
  rw [escapeChar.eq_def]
  split
  · exact .letter rfl htail
  · exact .letter rfl htail
  · exact .letter rfl htail
  · exact .letter rfl htail
  · exact .letter rfl htail
  · exact .letter rfl htail
  · exact .letter rfl htail
  · rename_i hquote hescape _ _ _ _ _
    split
    · rename_i hcontrol
      have hspells := Spells.unit (hexUnit?_control c.toNat hcontrol) (.inl (by omega)) htail
      rwa [Char.ofNat_toNat] at hspells
    · rename_i hcontrol
      exact .plain hquote hescape (Nat.le_of_not_lt hcontrol) htail

theorem spells_flatMap_escapeChar (cs : List Char) : Spells (cs.flatMap escapeChar) cs := by
  induction cs with
  | nil => exact .nil
  | cons c cs ih => exact spells_escapeChar c ih

theorem readString_printString (s : String) (rest : List Char) :
    ∃ spelled, printString s ++ rest = '"' :: spelled ∧ readString spelled = .ok (s, rest) := by
  refine ⟨s.toList.flatMap escapeChar ++ '"' :: rest, by simp [printString], ?_⟩
  rw [readString, readCharacters_of_spells (spells_flatMap_escapeChar s.toList)]
  exact congrArg _ (congrArg (·, rest) String.ofList_toList)

end VoiceCall.Proofs.Json.Characters
