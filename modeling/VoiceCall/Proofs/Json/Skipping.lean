import VoiceCall.Proofs.Json.Numerals
import VoiceCall.Proofs.Json.Places

/-!
What stands in front of the text that a reader leaves behind. Main statement: reading a value or
skipping it passes over blanks and then over plain characters, over one string, or over what stands
between two brackets; whatever it opens it also closes.
-/

namespace VoiceCall.Proofs.Json.Skipping

open VoiceCall.Json
open VoiceCall.Proofs.Json.Tokens
open VoiceCall.Proofs.Json.Characters
open VoiceCall.Proofs.Json.Numerals
open VoiceCall.Proofs.Json.Places

variable {text behind rest : List Char}

/-- Nothing that opens or closes stands between the two texts. -/
def Skims (text rest : List Char) : Prop :=
  ∃ between, text = between ++ rest ∧ ∀ c ∈ between, Quiet c

/-- Whatever opens between the two texts also closes there. -/
def Passes (text rest : List Char) : Prop :=
  ∃ between, text = between ++ rest ∧ Paired between

/-- One value stands between the two texts. -/
inductive Over (text rest : List Char) : Prop where
  | plain (h : Skims text rest)
  | quoted {string : List Char} (h : Skims text ('"' :: (string ++ '"' :: rest)))
      (hstring : Inside string)
  | bracketed {opening closing : Char} {content : List Char}
      (h : Skims text (opening :: (content ++ closing :: rest)))
      (hopening : opening = '[' ∨ opening = '\x7b') (hclosing : closing = ']' ∨ closing = '\x7d')
      (hcontent : Paired content)

theorem Skims.refl (text : List Char) : Skims text text :=
  ⟨[], rfl, nofun⟩

theorem Skims.trans (h : Skims text behind) (hrest : Skims behind rest) : Skims text rest := by
  obtain ⟨one, rfl, hone⟩ := h
  obtain ⟨other, rfl, hother⟩ := hrest
  refine ⟨one ++ other, (List.append_assoc _ _ _).symm, fun c hmem => ?_⟩
  exact (List.mem_append.mp hmem).elim (hone c) (hother c)

theorem Skims.cons {c : Char} (hc : Quiet c) (h : Skims text rest) : Skims (c :: text) rest := by
  obtain ⟨between, rfl, hbetween⟩ := h
  refine ⟨c :: between, rfl, fun d hmem => ?_⟩
  rcases List.mem_cons.mp hmem with rfl | hmem
  · exact hc
  · exact hbetween d hmem

theorem Skims.passes (h : Skims text rest) : Passes text rest := by
  obtain ⟨between, rfl, hbetween⟩ := h
  exact ⟨between, rfl, paired_of_quiet hbetween⟩

theorem Passes.trans (h : Passes text behind) (hrest : Passes behind rest) : Passes text rest := by
  obtain ⟨one, rfl, hone⟩ := h
  obtain ⟨other, rfl, hother⟩ := hrest
  exact ⟨one ++ other, (List.append_assoc _ _ _).symm, paired_append hone hother⟩

theorem passes_quoted {string : List Char} (h : Inside string) :
    Passes ('"' :: (string ++ '"' :: rest)) rest :=
  ⟨'"' :: (string ++ ['"']), by simp, paired_quoted h⟩

theorem paired_bracketed {opening closing : Char} {content : List Char}
    (hopening : opening = '[' ∨ opening = '\x7b') (hclosing : closing = ']' ∨ closing = '\x7d')
    (h : Paired content) : Paired (opening :: (content ++ [closing])) := by
  have hopen : (Place.outside 0).next opening = .outside 1 := by
    rcases hopening with rfl | rfl <;> rfl
  have hclose : (Place.outside 1).walk [closing] = .outside 0 := by
    rcases hclosing with rfl | rfl <;> rfl
  rw [Paired, Place.walk_cons, hopen, Place.walk_append, h.walk_outside, hclose]

theorem Over.passes (h : Over text rest) : Passes text rest := by
  cases h with
  | plain h => exact h.passes
  | quoted h hstring => exact h.passes.trans (passes_quoted hstring)
  | @bracketed opening closing content h hopening hclosing hcontent =>
      refine h.passes.trans ⟨opening :: (content ++ [closing]), by simp, ?_⟩
      exact paired_bracketed hopening hclosing hcontent

theorem Over.of_skims (h : Skims text behind) (hover : Over behind rest) : Over text rest := by
  cases hover with
  | plain hplain => exact .plain (h.trans hplain)
  | quoted hquoted hstring => exact .quoted (h.trans hquoted) hstring
  | bracketed hbracketed hopening hclosing hcontent =>
      exact .bracketed (h.trans hbracketed) hopening hclosing hcontent

theorem Over.of_passes {opening closing : Char} (hopening : opening = '[' ∨ opening = '\x7b')
    (hclosing : closing = ']' ∨ closing = '\x7d') (h : Passes text (closing :: rest)) :
    Over (opening :: text) rest := by
  obtain ⟨content, rfl, hcontent⟩ := h
  exact .bracketed (.refl _) hopening hclosing hcontent

/-- A field behind a value does not stand in it, unless the value is a string that is its name. -/
theorem hasField_of_over {name : String} (h : Over text rest)
    (hcolon : ∀ gap, Blank gap → rest ≠ gap ++ ':' :: behind) (hfield : HasField text name behind) :
    HasField rest name behind := by
  cases h with
  | plain h =>
      obtain ⟨between, rfl, hbetween⟩ := h
      exact hfield.of_quiet hbetween
  | quoted h hstring =>
      obtain ⟨between, rfl, hbetween⟩ := h
      rcases (hfield.of_quiet hbetween).of_quoted hstring with ⟨-, gap, heq, hgap⟩ | hfield
      · exact absurd heq (hcolon gap hgap)
      · exact hfield
  | bracketed h hopening hclosing hcontent =>
      obtain ⟨between, rfl, hbetween⟩ := h
      exact (hfield.of_quiet hbetween).of_bracketed hopening hclosing hcontent

theorem Blank.quiet {blanks : List Char} (h : Blank blanks) : ∀ c ∈ blanks, Quiet c :=
  fun c hmem => quiet_of_isBlank (h c hmem)

theorem skims_skipBlank (text : List Char) : Skims text (skipBlank text) := by
  obtain ⟨blanks, heq, hblanks⟩ := exists_blank_append_skipBlank text
  exact ⟨blanks, heq, Blank.quiet hblanks⟩

theorem skims_of_skipBlank_eq (h : skipBlank text = behind) : Skims text behind :=
  h ▸ skims_skipBlank text

theorem skims_of_expectWord {word : List Char} (hword : ∀ c ∈ word, Quiet c)
    (h : expectWord word text = .ok rest) : Skims text rest :=
  ⟨word, expectWord_eq_ok_iff.mp h, hword⟩

theorem over_of_expectWord {c : Char} {word : List Char} (hword : ∀ d ∈ c :: word, Quiet d)
    (h : expectWord word text = .ok rest) : Over (c :: text) rest :=
  .plain (.cons (hword c List.mem_cons_self)
    (skims_of_expectWord (fun d hmem => hword d (List.mem_cons_of_mem c hmem)) h))

theorem quiet_of_isDigit {c : Char} (h : c.isDigit) : Quiet c := by
  refine ⟨?_, ?_, ?_, ?_, ?_⟩ <;>
    · rintro rfl
      cases h

theorem skims_of_scanDigits {short : Json.Fault} {digits : List Char}
    (h : scanDigits short text = .ok (digits, rest)) : Skims text rest := by
  obtain ⟨rfl, -, hdigits, -⟩ := scanDigits_eq_ok_iff.mp h
  exact ⟨digits, rfl, fun c hmem => quiet_of_isDigit (hdigits c hmem)⟩

theorem skims_of_scanFraction {short : Json.Fault} {digits : List Char}
    (h : scanFraction short text = .ok (digits, rest)) : Skims text rest := by
  unfold scanFraction at h
  split at h
  · exact .cons (by decide) (skims_of_scanDigits h)
  · cases h
    exact .refl _

theorem skims_of_scanExponent {short : Json.Fault} {exponent : Option (Bool × List Char)}
    (h : scanExponent short text = .ok (exponent, rest)) : Skims text rest := by
  unfold scanExponent at h
  split at h
  · rename_i c behind
    split at h
    · rename_i hmark
      obtain ⟨⟨digits, _⟩, hdigits, ⟨⟩⟩ := exists_of_map_eq_ok h
      refine .cons (by rcases hmark with rfl | rfl <;> decide) ?_
      split at hdigits
      · exact .cons (by decide) (skims_of_scanDigits hdigits)
      · exact .cons (by decide) (skims_of_scanDigits hdigits)
      · exact skims_of_scanDigits hdigits
    · cases h
      exact .refl _
  · cases h
    exact .refl _

theorem skims_of_scan {short : Json.Fault} {n : Numeral}
    (h : Numeral.scan short text = .ok (n, rest)) : Skims text rest := by
  obtain ⟨body, pointed, marked, rfl, hwhole, hfraction, hexponent, -⟩ := parts_of_scan h
  obtain ⟨rfl, ⟨k, hk⟩, -⟩ := scanWhole_eq_ok_iff.mp hwhole
  have hsign : Skims (minus n.negative ++ (n.whole ++ pointed)) (n.whole ++ pointed) := by
    refine ⟨minus n.negative, rfl, ?_⟩
    cases n.negative <;> simp [minus, Quiet]
  have hdigits : Skims (n.whole ++ pointed) pointed := by
    refine ⟨n.whole, rfl, fun c hmem => quiet_of_isDigit ?_⟩
    exact Nat.isDigit_of_mem_toDigits (by decide) (by decide) (hk ▸ hmem)
  exact (hsign.trans hdigits).trans
    ((skims_of_scanFraction hfraction).trans (skims_of_scanExponent hexponent))

theorem exists_inside_of_skipString (h : skipString text = .ok rest) :
    ∃ string, text = string ++ '"' :: rest ∧ Inside string := by
  fun_induction skipString text generalizing rest with
  | case2 text =>
      cases h
      exact ⟨[], rfl, .nil⟩
  | case4 a b c d text n hunit ih =>
      obtain ⟨string, rfl, hstring⟩ := ih h
      exact ⟨_, rfl, inside_hexUnit hunit hstring⟩
  | case7 e text hlong hunit c hletter ih =>
      obtain ⟨string, rfl, hstring⟩ := ih h
      exact ⟨_, rfl, .escape e hstring⟩
  | case10 c text hquote hlong hshort hletter hend hcontrol ih =>
      obtain ⟨string, rfl, hstring⟩ := ih h
      have hescape : c ≠ '\\' := by
        rintro rfl
        cases string with
        | nil => exact hletter _ _ rfl rfl
        | cons e string => exact hletter _ _ rfl rfl
      exact ⟨_, rfl, .plain hquote hescape hstring⟩
  | _ => cases h

theorem exists_spells_of_readString {name : String} (h : readString text = .ok (name, rest)) :
    ∃ spelled, text = spelled ++ '"' :: rest ∧ Spells spelled name.toList := by
  obtain ⟨⟨cs, _⟩, hread, ⟨⟩⟩ := exists_of_map_eq_ok h
  rw [String.toList_ofList]
  exact spells_of_readCharacters hread

theorem over_of_skipString (h : skipString text = .ok rest) : Over ('"' :: text) rest := by
  obtain ⟨string, rfl, hstring⟩ := exists_inside_of_skipString h
  exact .quoted (.refl _) hstring

theorem over_of_readString {name : String} (h : readString text = .ok (name, rest)) :
    Over ('"' :: text) rest := by
  obtain ⟨spelled, rfl, hspelled⟩ := exists_spells_of_readString h
  exact .quoted (.refl _) (inside_of_spells hspelled)

theorem readColon_eq_ok_iff :
    readColon text = .ok rest ↔ ∃ gap, text = gap ++ ':' :: rest ∧ Blank gap := by
  constructor
  · intro h
    unfold readColon at h
    split at h
    · rename_i hblank
      cases h
      exact exists_blank_of_skipBlank_eq hblank
    · cases h
    · cases h
  · rintro ⟨gap, rfl, hgap⟩
    rw [readColon, skipBlank_append hgap, skipBlank_cons (by decide)]
    rfl

theorem skims_of_readColon (h : readColon text = .ok rest) : Skims text rest := by
  obtain ⟨gap, rfl, hgap⟩ := readColon_eq_ok_iff.mp h
  exact .trans ⟨gap, rfl, Blank.quiet hgap⟩ (.cons (by decide) (.refl rest))

theorem skims_of_nextItem {first more : Bool} (h : nextItem first text = .ok (more, rest)) :
    Skims text (if more then rest else ']' :: rest) := by
  unfold nextItem at h
  split at h
  · cases h
  · rename_i hblank
    cases h
    exact skims_of_skipBlank_eq hblank
  · rename_i hblank
    split at h
    · cases h
    · split at h
      · cases h
      · cases h
      · rename_i hnext
        cases h
        exact (skims_of_skipBlank_eq hblank).trans (.cons (by decide) (skims_skipBlank _))
  · rename_i hblank
    split at h
    · cases h
      exact skims_skipBlank text
    · cases h

theorem skims_of_nextField {first more : Bool} (h : nextField first text = .ok (more, rest)) :
    Skims text ((if more then '"' else '\x7d') :: rest) := by
  unfold nextField at h
  split at h
  · cases h
  · rename_i hblank
    cases h
    exact skims_of_skipBlank_eq hblank
  · rename_i hblank
    split at h
    · cases h
    · split at h
      · cases h
      · rename_i hnext
        cases h
        exact (skims_of_skipBlank_eq hblank).trans (.cons (by decide) (skims_of_skipBlank_eq hnext))
      · cases h
  · rename_i hblank
    split at h
    · cases h
      exact skims_of_skipBlank_eq hblank
    · cases h
  · cases h

theorem passes_item {first : Bool} (hnext : nextItem first text = .ok (true, behind))
    (hvalue : Over behind rest) : Passes text rest :=
  (skims_of_nextItem hnext).passes.trans hvalue.passes

theorem passes_field {first : Bool} {named colon : List Char}
    (hnext : nextField first text = .ok (true, named)) (hname : Over ('"' :: named) colon)
    (hcolon : readColon colon = .ok behind) (hvalue : Over behind rest) : Passes text rest :=
  (skims_of_nextField hnext).passes.trans
    (hname.passes.trans ((skims_of_readColon hcolon).passes.trans hvalue.passes))

/-- Neither a further field nor the end of an object begins with a colon. -/
theorem nextField_colon {gap : List Char} (first : Bool) (h : Blank gap) (behind : List Char) :
    nextField first (gap ++ ':' :: behind) = .error .malformed := by
  rw [nextField, skipBlank_append h, skipBlank_cons (by decide)]
  rfl

/-- What skipping with some fuel passes over. -/
structure Skips (fuel : Nat) : Prop where
  value {text rest : List Char} (h : skipValueFuel fuel text = .ok rest) : Over text rest
  items {first : Bool} {text rest : List Char} (h : skipItemsFuel fuel first text = .ok rest) :
    Passes text (']' :: rest)
  fields {first : Bool} {text rest : List Char} (h : skipFieldsFuel fuel first text = .ok rest) :
    Passes text ('\x7d' :: rest)

theorem skips (fuel : Nat) : Skips fuel := by
  -- all three at once, since each of them goes on with the others and less fuel
  induction fuel with
  | zero => exact ⟨nofun, nofun, nofun⟩
  | succ fuel ih =>
      refine ⟨fun {text rest} h => ?_, fun {first text rest} h => ?_, fun {first text rest} h => ?_⟩
      · refine .of_skims (skims_skipBlank text) ?_
        rw [skipValueFuel] at h
        split at h
        all_goals rename_i hblank
        · cases h
        · exact hblank ▸ over_of_expectWord (by simp [Quiet]) h
        · exact hblank ▸ over_of_expectWord (by simp [Quiet]) h
        · exact hblank ▸ over_of_expectWord (by simp [Quiet]) h
        · exact hblank ▸ over_of_skipString h
        · exact hblank ▸ .of_passes (.inl rfl) (.inl rfl) (ih.items h)
        · exact hblank ▸ .of_passes (.inr rfl) (.inr rfl) (ih.fields h)
        · split at h
          · obtain ⟨⟨n, _⟩, hscan, ⟨⟩⟩ := exists_of_map_eq_ok h
            exact hblank ▸ .plain (skims_of_scan hscan)
          · cases h
      · obtain ⟨⟨more, behind⟩, hnext, h⟩ := exists_of_bind_eq_ok h
        cases more with
        | false =>
            cases h
            exact (skims_of_nextItem hnext).passes
        | true =>
            obtain ⟨later, hvalue, hitems⟩ := exists_of_bind_eq_ok h
            exact (passes_item hnext (ih.value hvalue)).trans (ih.items hitems)
      · obtain ⟨⟨more, behind⟩, hnext, h⟩ := exists_of_bind_eq_ok h
        cases more with
        | false =>
            cases h
            exact (skims_of_nextField hnext).passes
        | true =>
            obtain ⟨named, hname, h⟩ := exists_of_bind_eq_ok h
            obtain ⟨assigned, hcolon, h⟩ := exists_of_bind_eq_ok h
            obtain ⟨later, hvalue, hfields⟩ := exists_of_bind_eq_ok h
            exact (passes_field hnext (over_of_skipString hname) hcolon (ih.value hvalue)).trans
              (ih.fields hfields)

/-- What reading with some fuel passes over. -/
structure Reads (fuel : Nat) : Prop where
  value {depth : Nat} {text rest : List Char} {v : Value}
    (h : readValueFuel fuel depth text = .ok (v, rest)) : Over text rest
  items {depth : Nat} {first : Bool} {text rest : List Char} {items : List Value}
    (h : readItemsFuel fuel depth first text = .ok (items, rest)) : Passes text (']' :: rest)
  fields {depth : Nat} {first : Bool} {text rest : List Char} {fields : List (String × Value)}
    (h : readFieldsFuel fuel depth first text = .ok (fields, rest)) : Passes text ('\x7d' :: rest)

theorem skims_of_readNumber {n : Number} (h : readNumber text = .ok (n, rest)) :
    Skims text rest := by
  obtain ⟨⟨numeral, behind⟩, hscan, h⟩ := exists_of_bind_eq_ok h
  dsimp only at h
  split at h
  · cases h
    exact skims_of_scan hscan
  · cases h

theorem reads (fuel : Nat) : Reads fuel := by
  induction fuel with
  | zero => exact ⟨nofun, nofun, nofun⟩
  | succ fuel ih =>
      refine ⟨fun {depth text rest v} h => ?_, fun {depth first text rest items} h => ?_,
        fun {depth first text rest fields} h => ?_⟩
      · refine .of_skims (skims_skipBlank text) ?_
        rw [readValueFuel] at h
        split at h
        all_goals rename_i hblank
        · cases h
        · obtain ⟨_, hword, ⟨⟩⟩ := exists_of_map_eq_ok h
          exact hblank ▸ over_of_expectWord (by simp [Quiet]) hword
        · obtain ⟨_, hword, ⟨⟩⟩ := exists_of_map_eq_ok h
          exact hblank ▸ over_of_expectWord (by simp [Quiet]) hword
        · obtain ⟨_, hword, ⟨⟩⟩ := exists_of_map_eq_ok h
          exact hblank ▸ over_of_expectWord (by simp [Quiet]) hword
        · obtain ⟨_, hstring, ⟨⟩⟩ := exists_of_map_eq_ok h
          exact hblank ▸ over_of_readString hstring
        · split at h
          · cases h
          · obtain ⟨_, hitems, ⟨⟩⟩ := exists_of_map_eq_ok h
            exact hblank ▸ .of_passes (.inl rfl) (.inl rfl) (ih.items hitems)
        · split at h
          · cases h
          · obtain ⟨_, hfields, ⟨⟩⟩ := exists_of_map_eq_ok h
            exact hblank ▸ .of_passes (.inr rfl) (.inr rfl) (ih.fields hfields)
        · split at h
          · obtain ⟨_, hnumber, ⟨⟩⟩ := exists_of_map_eq_ok h
            exact hblank ▸ .plain (skims_of_readNumber hnumber)
          · cases h
      · obtain ⟨⟨more, behind⟩, hnext, h⟩ := exists_of_bind_eq_ok h
        cases more with
        | false =>
            cases h
            exact (skims_of_nextItem hnext).passes
        | true =>
            obtain ⟨⟨item, later⟩, hvalue, h⟩ := exists_of_bind_eq_ok h
            obtain ⟨⟨items, _⟩, hitems, ⟨⟩⟩ := exists_of_bind_eq_ok h
            exact (passes_item hnext (ih.value hvalue)).trans (ih.items hitems)
      · obtain ⟨⟨more, behind⟩, hnext, h⟩ := exists_of_bind_eq_ok h
        cases more with
        | false =>
            cases h
            exact (skims_of_nextField hnext).passes
        | true =>
            obtain ⟨⟨name, named⟩, hname, h⟩ := exists_of_bind_eq_ok h
            obtain ⟨assigned, hcolon, h⟩ := exists_of_bind_eq_ok h
            obtain ⟨⟨value, later⟩, hvalue, h⟩ := exists_of_bind_eq_ok h
            obtain ⟨⟨fields, _⟩, hfields, ⟨⟩⟩ := exists_of_bind_eq_ok h
            exact (passes_field hnext (over_of_readString hname) hcolon (ih.value hvalue)).trans
              (ih.fields hfields)

theorem over_of_skipValue (h : skipValue text = .ok rest) : Over text rest :=
  (skips _).value h

theorem over_of_readValue {depth : Nat} {v : Value} (h : readValue depth text = .ok (v, rest)) :
    Over text rest :=
  (reads _).value h

end VoiceCall.Proofs.Json.Skipping
