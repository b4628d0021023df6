import VoiceCall.Proofs.Json.RoundTrip
import VoiceCall.Proofs.Json.Skipping

namespace VoiceCall.Proofs.Json.Grammar

open VoiceCall.Json
open VoiceCall.Proofs.Json.Tokens
open VoiceCall.Proofs.Json.Numerals
open VoiceCall.Proofs.Json.RoundTrip (Opens nextItem_of_opens isBlank_of_startsNumber
  exists_toDigits_eq_cons)
open VoiceCall.Proofs.Json.Skipping (readColon_eq_ok_iff)

variable {short : Json.Fault} {text rest : List Char}

theorem blank_append {gap blanks : List Char} (h : Blank gap) (h' : Blank blanks) :
    Blank (gap ++ blanks) :=
  fun c hmem => (List.mem_append.mp hmem).elim (h c) (h' c)

structure Digits (digits : List Char) : Prop where
  ne_nil : digits ≠ []
  isDigit : ∀ c ∈ digits, c.isDigit

/-- A point and the digits behind it, or neither. -/
inductive Fraction : List Char → List Char → Prop where
  | none : Fraction [] []
  | digits {digits : List Char} (h : Digits digits) : Fraction ('.' :: digits) digits

/-- A letter and the digits behind it with or without a sign, or nothing. -/
inductive Exponent : List Char → Option (Bool × List Char) → Prop where
  | none : Exponent [] none
  | unsigned {mark : Char} {digits : List Char} (hmark : mark = 'e' ∨ mark = 'E')
      (h : Digits digits) : Exponent (mark :: digits) (some (false, digits))
  | plus {mark : Char} {digits : List Char} (hmark : mark = 'e' ∨ mark = 'E')
      (h : Digits digits) : Exponent (mark :: '+' :: digits) (some (false, digits))
  | minus {mark : Char} {digits : List Char} (hmark : mark = 'e' ∨ mark = 'E')
      (h : Digits digits) : Exponent (mark :: '-' :: digits) (some (true, digits))

/-- How a numeral is spelled: a whole number without needless zeros, its fraction and its
exponent. -/
inductive Numeric : List Char → Numeral → Prop where
  | intro (negative : Bool) (n : Nat) {pointed marked fraction : List Char}
      {exponent : Option (Bool × List Char)} (hfraction : Fraction pointed fraction)
      (hexponent : Exponent marked exponent) :
      Numeric (minus negative ++ (Nat.toDigits 10 n ++ (pointed ++ marked)))
        ⟨negative, Nat.toDigits 10 n, fraction, exponent, fraction.isEmpty && exponent.isNone⟩

theorem fraction_of_scanFraction {fraction : List Char}
    (h : scanFraction short text = .ok (fraction, rest)) :
    ∃ pointed, text = pointed ++ rest ∧ Fraction pointed fraction := by
  unfold scanFraction at h
  split at h
  · obtain ⟨rfl, hne, hdigits, -⟩ := scanDigits_eq_ok_iff.mp h
    exact ⟨'.' :: fraction, rfl, .digits ⟨hne, hdigits⟩⟩
  · cases h
    exact ⟨[], rfl, .none⟩

theorem exponent_of_scanExponent {exponent : Option (Bool × List Char)}
    (h : scanExponent short text = .ok (exponent, rest)) :
    ∃ marked, text = marked ++ rest ∧ Exponent marked exponent := by
  unfold scanExponent at h
  split at h
  · rename_i c behind
    split at h
    · rename_i hmark
      obtain ⟨⟨digits, _⟩, hscan, ⟨⟩⟩ := exists_of_map_eq_ok h
      split at hscan
      · obtain ⟨rfl, hne, hdigits, -⟩ := scanDigits_eq_ok_iff.mp hscan
        exact ⟨c :: '-' :: digits, rfl, .minus hmark ⟨hne, hdigits⟩⟩
      · obtain ⟨rfl, hne, hdigits, -⟩ := scanDigits_eq_ok_iff.mp hscan
        exact ⟨c :: '+' :: digits, rfl, .plus hmark ⟨hne, hdigits⟩⟩
      · obtain ⟨rfl, hne, hdigits, -⟩ := scanDigits_eq_ok_iff.mp hscan
        exact ⟨c :: digits, rfl, .unsigned hmark ⟨hne, hdigits⟩⟩
    · cases h
      exact ⟨[], rfl, .none⟩
  · cases h
    exact ⟨[], rfl, .none⟩

theorem numeric_of_scan {n : Numeral} (h : Numeral.scan short text = .ok (n, rest)) :
    ∃ spelled, text = spelled ++ rest ∧ Numeric spelled n := by
  obtain ⟨body, pointed, marked, rfl, hwhole, hfraction, hexponent, hplain⟩ := parts_of_scan h
  obtain ⟨rfl, ⟨k, hk⟩, -⟩ := scanWhole_eq_ok_iff.mp hwhole
  obtain ⟨point, rfl, hpoint⟩ := fraction_of_scanFraction hfraction
  obtain ⟨mark, rfl, hmark⟩ := exponent_of_scanExponent hexponent
  refine ⟨minus n.negative ++ (Nat.toDigits 10 k ++ (point ++ mark)), by simp [hk], ?_⟩
  rcases n with ⟨negative, whole, fraction, exponent, plain⟩
  dsimp only at hk hplain hpoint hmark
  rw [hk, hplain]
  exact .intro negative k hpoint hmark

theorem Fraction.scanFraction {pointed fraction : List Char} (h : Fraction pointed fraction)
    (hdigit : Undigited rest) (hpoint : '.' ∉ rest.head?) :
    scanFraction short (pointed ++ rest) = .ok (fraction, rest) := by
  cases h with
  | none => exact scanFraction_eq_nil_iff.mpr ⟨rfl, hpoint⟩
  | digits h => exact scanDigits_eq_ok_iff.mpr ⟨rfl, h.ne_nil, h.isDigit, hdigit⟩

theorem Exponent.scanExponent {marked : List Char} {exponent : Option (Bool × List Char)}
    (h : Exponent marked exponent) (hrest : Stops rest) :
    scanExponent short (marked ++ rest) = .ok (exponent, rest) := by
  have hscan {digits : List Char} (h : Digits digits) :
      scanDigits short (digits ++ rest) = .ok (digits, rest) :=
    scanDigits_eq_ok_iff.mpr ⟨rfl, h.ne_nil, h.isDigit, hrest.1⟩
  cases h with
  | none => exact scanExponent_eq_none_iff.mpr ⟨rfl, hrest.2.2⟩
  | @unsigned mark digits hmark h =>
      have hsign (sign : Char) (hdigit : sign.isDigit = false) (behind : List Char) :
          digits ++ rest ≠ sign :: behind := by
        obtain ⟨c, tail, rfl⟩ := List.exists_cons_of_ne_nil h.ne_nil
        rintro heq
        obtain ⟨rfl, -⟩ := List.cons.inj heq
        exact absurd (h.isDigit c List.mem_cons_self) (by simp [hdigit])
      rw [List.cons_append, Json.scanExponent, if_pos hmark, hscan h]
      · rfl
      · exact hsign '-' rfl
      · exact hsign '+' rfl
  | plus hmark h =>
      simp only [List.cons_append, Json.scanExponent, if_pos hmark, hscan h]
      rfl
  | minus hmark h =>
      simp only [List.cons_append, Json.scanExponent, if_pos hmark, hscan h]
      rfl

theorem Exponent.undigited {marked : List Char} {exponent : Option (Bool × List Char)}
    (h : Exponent marked exponent) (hrest : Stops rest) :
    Undigited (marked ++ rest) ∧ '.' ∉ (marked ++ rest).head? := by
  have hletter {mark : Char} {behind : List Char} (hmark : mark = 'e' ∨ mark = 'E') :
      Undigited (mark :: behind) ∧ '.' ∉ (mark :: behind).head? := by
    rcases hmark with rfl | rfl <;> simp [Undigited]
  cases h with
  | none => exact ⟨hrest.1, hrest.2.1⟩
  | unsigned hmark _ => exact hletter hmark
  | plus hmark _ => exact hletter hmark
  | minus hmark _ => exact hletter hmark

theorem Fraction.undigited {pointed fraction : List Char} (h : Fraction pointed fraction)
    (hrest : Undigited rest) : Undigited (pointed ++ rest) := by
  cases h with
  | none => exact hrest
  | digits h =>
      rintro c ⟨⟩
      rfl

theorem Numeric.scan {spelled : List Char} {n : Numeral} (h : Numeric spelled n)
    (hrest : Stops rest) : Numeral.scan short (spelled ++ rest) = .ok (n, rest) := by
  obtain ⟨negative, k, hfraction, hexponent⟩ := h
  rename_i pointed marked fraction exponent
  obtain ⟨hdigit, hpoint⟩ := hexponent.undigited hrest
  refine Parts.scan ⟨Nat.toDigits 10 k ++ (pointed ++ (marked ++ rest)),
    pointed ++ (marked ++ rest), marked ++ rest, by simp, ?_, hfraction.scanFraction hdigit hpoint,
    hexponent.scanExponent hrest, rfl⟩
  exact scanWhole_eq_ok_iff.mpr ⟨rfl, ⟨k, rfl⟩, hfraction.undigited hdigit⟩

theorem Numeric.startsNumber {spelled : List Char} {n : Numeral} (h : Numeric spelled n) :
    ∃ c behind, spelled = c :: behind ∧ startsNumber c := by
  obtain ⟨negative, k, -, -⟩ := h
  cases negative with
  | true => exact ⟨'-', _, rfl, rfl⟩
  | false =>
      obtain ⟨c, behind, hdigits, hc⟩ := exists_toDigits_eq_cons k
      exact ⟨c, _, by rw [hdigits]; rfl, hc⟩

/-- What may stand between quotes where nobody reads it: escapes need not make characters. -/
inductive Quotable : List Char → Prop where
  | nil : Quotable []
  | plain {c : Char} {quoted : List Char} (hquote : c ≠ '"') (hescape : c ≠ '\\')
      (hcontrol : 0x20 ≤ c.toNat) (htail : Quotable quoted) : Quotable (c :: quoted)
  | letter {e c : Char} {quoted : List Char} (hletter : simpleEscape? e = some c)
      (htail : Quotable quoted) : Quotable ('\\' :: e :: quoted)
  | unit {a b c d : Char} {n : Nat} {quoted : List Char} (hunit : hexUnit? a b c d = some n)
      (htail : Quotable quoted) : Quotable ('\\' :: 'u' :: a :: b :: c :: d :: quoted)

theorem quotable_of_skipString (h : skipString text = .ok rest) :
    ∃ quoted, text = quoted ++ '"' :: rest ∧ Quotable quoted := by
  fun_induction skipString text generalizing rest with
  | case2 text =>
      cases h
      exact ⟨[], rfl, .nil⟩
  | case4 a b c d text n hunit ih =>
      obtain ⟨quoted, rfl, hquoted⟩ := ih h
      exact ⟨_, rfl, .unit hunit hquoted⟩
  | case7 e text hlong hunit c hletter ih =>
      obtain ⟨quoted, rfl, hquoted⟩ := ih h
      exact ⟨_, rfl, .letter hletter hquoted⟩
  | case10 c text hquote hlong hshort hletter hend hcontrol ih =>
      obtain ⟨quoted, rfl, hquoted⟩ := ih h
      have hescape : c ≠ '\\' := by
        rintro rfl
        cases quoted with
        | nil => exact hletter _ _ rfl rfl
        | cons e quoted => exact hletter _ _ rfl rfl
      exact ⟨_, rfl, .plain hquote hescape (Nat.le_of_not_lt hcontrol) hquoted⟩
  | _ => cases h

theorem Quotable.skipString {quoted : List Char} (h : Quotable quoted) (rest : List Char) :
    skipString (quoted ++ '"' :: rest) = .ok rest := by
  induction h with
  | nil => rfl
  | plain hquote hescape hcontrol _ ih =>
      have hprintable : ¬ _ := Nat.not_lt.mpr hcontrol
      simp [Json.skipString, hescape, hprintable, ih]
  | @letter e c quoted hletter _ ih =>
      have hunit : e ≠ 'u' := by
        rintro rfl
        cases hletter
      simp [Json.skipString, hunit, hletter, ih]
  | unit hunit _ ih => simp only [List.cons_append, Json.skipString, hunit, ih]

/-- What leads to an element: blanks, and a comma unless it is the first. -/
inductive Lead : Bool → List Char → Prop where
  | first {gap : List Char} (hgap : Blank gap) : Lead true gap
  | later {before gap : List Char} (hbefore : Blank before) (hgap : Blank gap) :
      Lead false (before ++ ',' :: gap)

/-- The parts of a text: a value, or what is left of an array or an object from one of its elements
on. -/
inductive Part where
  | value
  | items (first : Bool)
  | members (first : Bool)

inductive WellFormed : Part → List Char → Prop where
  | null : WellFormed .value "null".toList
  | boolean (b : Bool) : WellFormed .value (printBoolean b)
  | string {quoted : List Char} (h : Quotable quoted) : WellFormed .value ('"' :: (quoted ++ ['"']))
  | number {spelled : List Char} {n : Numeral} (h : Numeric spelled n) : WellFormed .value spelled
  | array {items : List Char} (h : WellFormed (.items true) items) :
      WellFormed .value ('[' :: items)
  | object {members : List Char} (h : WellFormed (.members true) members) :
      WellFormed .value ('\x7b' :: members)
  | endArray {first : Bool} {gap : List Char} (hgap : Blank gap) :
      WellFormed (.items first) (gap ++ [']'])
  | item {first : Bool} {lead value items : List Char} (hlead : Lead first lead)
      (hvalue : WellFormed .value value) (hitems : WellFormed (.items false) items) :
      WellFormed (.items first) (lead ++ (value ++ items))
  | endObject {first : Bool} {gap : List Char} (hgap : Blank gap) :
      WellFormed (.members first) (gap ++ ['\x7d'])
  | member {first : Bool} {lead name before gap value members : List Char} (hlead : Lead first lead)
      (hname : Quotable name) (hbefore : Blank before) (hgap : Blank gap)
      (hvalue : WellFormed .value value) (hmembers : WellFormed (.members false) members) :
      WellFormed (.members first)
        (lead ++ '"' :: (name ++ '"' :: (before ++ ':' :: (gap ++ (value ++ members)))))

theorem Lead.append {first : Bool} {lead gap : List Char} (h : Lead first lead) (hgap : Blank gap) :
    Lead first (lead ++ gap) := by
  cases h with
  | first h => exact .first (blank_append h hgap)
  | later hbefore h =>
      rw [List.append_assoc, List.cons_append]
      exact .later hbefore (blank_append h hgap)

theorem lead_of_nextItem {first : Bool} {behind : List Char}
    (h : nextItem first text = .ok (true, behind)) :
    ∃ lead, text = lead ++ behind ∧ Lead first lead := by
  unfold nextItem at h
  split at h
  · cases h
  · cases h
  · rename_i later hblank
    obtain ⟨before, rfl, hbefore⟩ := exists_blank_of_skipBlank_eq hblank
    split at h
    · cases h
    · rename_i hlater
      split at h
      · cases h
      · cases h
      · cases h
        obtain ⟨gap, hgap, hblank⟩ := exists_blank_append_skipBlank later
        rw [Bool.not_eq_true] at hlater
        subst hlater
        exact ⟨before ++ ',' :: gap, by rw [List.append_assoc, List.cons_append, ← hgap],
          .later hbefore hblank⟩
  · split at h
    · rename_i hfirst
      cases h
      obtain ⟨gap, hgap, hblank⟩ := exists_blank_append_skipBlank text
      subst hfirst
      exact ⟨gap, hgap, .first hblank⟩
    · cases h

theorem end_of_nextItem {first : Bool} (h : nextItem first text = .ok (false, rest)) :
    ∃ gap, text = gap ++ ']' :: rest ∧ Blank gap := by
  unfold nextItem at h
  split at h
  · cases h
  · rename_i hblank
    cases h
    exact exists_blank_of_skipBlank_eq hblank
  · split at h
    · cases h
    · split at h <;> cases h
  · split at h <;> cases h

theorem lead_of_nextField {first : Bool} {named : List Char}
    (h : nextField first text = .ok (true, named)) :
    ∃ lead, text = lead ++ '"' :: named ∧ Lead first lead := by
  unfold nextField at h
  split at h
  · cases h
  · cases h
  · rename_i later hblank
    obtain ⟨before, rfl, hbefore⟩ := exists_blank_of_skipBlank_eq hblank
    split at h
    · cases h
    · rename_i hlater
      split at h
      · cases h
      · rename_i hquote
        cases h
        obtain ⟨gap, rfl, hgap⟩ := exists_blank_of_skipBlank_eq hquote
        rw [Bool.not_eq_true] at hlater
        subst hlater
        exact ⟨before ++ ',' :: gap, by simp, .later hbefore hgap⟩
      · cases h
  · rename_i hblank
    split at h
    · rename_i hfirst
      cases h
      obtain ⟨gap, rfl, hgap⟩ := exists_blank_of_skipBlank_eq hblank
      subst hfirst
      exact ⟨gap, rfl, .first hgap⟩
    · cases h
  · cases h

theorem end_of_nextField {first : Bool} (h : nextField first text = .ok (false, rest)) :
    ∃ gap, text = gap ++ '\x7d' :: rest ∧ Blank gap := by
  unfold nextField at h
  split at h
  · cases h
  · rename_i hblank
    cases h
    exact exists_blank_of_skipBlank_eq hblank
  · split at h
    · cases h
    · split at h <;> cases h
  · split at h <;> cases h
  · cases h

/-- What skipping with some fuel passes over. -/
structure Skipped (fuel : Nat) : Prop where
  value {text rest : List Char} (h : skipValueFuel fuel text = .ok rest) :
    ∃ gap value, text = gap ++ (value ++ rest) ∧ Blank gap ∧ WellFormed .value value
  items {first : Bool} {text rest : List Char} (h : skipItemsFuel fuel first text = .ok rest) :
    ∃ items, text = items ++ rest ∧ WellFormed (.items first) items
  members {first : Bool} {text rest : List Char} (h : skipFieldsFuel fuel first text = .ok rest) :
    ∃ members, text = members ++ rest ∧ WellFormed (.members first) members

theorem skipped_value {fuel : Nat} (ih : Skipped fuel)
    (h : skipValueFuel (fuel + 1) text = .ok rest) :
    ∃ value, skipBlank text = value ++ rest ∧ WellFormed .value value := by
  rw [skipValueFuel] at h
  split at h
  all_goals rename_i hblank
  · cases h
  · exact ⟨_, hblank.trans (congrArg _ (expectWord_eq_ok_iff.mp h)), .null⟩
  · exact ⟨_, hblank.trans (congrArg _ (expectWord_eq_ok_iff.mp h)), .boolean true⟩
  · exact ⟨_, hblank.trans (congrArg _ (expectWord_eq_ok_iff.mp h)), .boolean false⟩
  · obtain ⟨quoted, rfl, hquoted⟩ := quotable_of_skipString h
    exact ⟨_, by simpa using hblank, .string hquoted⟩
  · obtain ⟨items, rfl, hitems⟩ := ih.items h
    exact ⟨_, hblank, .array hitems⟩
  · obtain ⟨members, rfl, hmembers⟩ := ih.members h
    exact ⟨_, hblank, .object hmembers⟩
  · split at h
    · obtain ⟨⟨n, _⟩, hscan, ⟨⟩⟩ := exists_of_map_eq_ok h
      obtain ⟨spelled, hspelled, hnumeric⟩ := numeric_of_scan hscan
      exact ⟨spelled, hblank.trans hspelled, .number hnumeric⟩
    · cases h

theorem skipped (fuel : Nat) : Skipped fuel := by
  -- all three at once, since each of them goes on with the others and less fuel
  induction fuel with
  | zero => exact ⟨nofun, nofun, nofun⟩
  | succ fuel ih =>
      refine ⟨fun {text rest} h => ?_, fun {first text rest} h => ?_, fun {first text rest} h => ?_⟩
      · obtain ⟨gap, heq, hgap⟩ := exists_blank_append_skipBlank text
        obtain ⟨value, hvalue, hformed⟩ := skipped_value ih h
        exact ⟨gap, value, hvalue ▸ heq, hgap, hformed⟩
      · obtain ⟨⟨more, behind⟩, hnext, h⟩ := exists_of_bind_eq_ok h
        cases more with
        | false =>
            cases h
            obtain ⟨gap, rfl, hgap⟩ := end_of_nextItem hnext
            exact ⟨gap ++ [']'], by simp, .endArray hgap⟩
        | true =>
            obtain ⟨later, hskip, hrest⟩ := exists_of_bind_eq_ok h
            obtain ⟨lead, rfl, hlead⟩ := lead_of_nextItem hnext
            obtain ⟨gap, value, rfl, hgap, hvalue⟩ := ih.value hskip
            obtain ⟨items, rfl, hitems⟩ := ih.items hrest
            exact ⟨lead ++ gap ++ (value ++ items), by simp,
              .item (hlead.append hgap) hvalue hitems⟩
      · obtain ⟨⟨more, behind⟩, hnext, h⟩ := exists_of_bind_eq_ok h
        cases more with
        | false =>
            cases h
            obtain ⟨gap, rfl, hgap⟩ := end_of_nextField hnext
            exact ⟨gap ++ ['\x7d'], by simp, .endObject hgap⟩
        | true =>
            obtain ⟨named, hstring, h⟩ := exists_of_bind_eq_ok h
            obtain ⟨assigned, hcolon, h⟩ := exists_of_bind_eq_ok h
            obtain ⟨later, hskip, hrest⟩ := exists_of_bind_eq_ok h
            obtain ⟨lead, rfl, hlead⟩ := lead_of_nextField hnext
            obtain ⟨name, rfl, hname⟩ := quotable_of_skipString hstring
            obtain ⟨before, rfl, hbefore⟩ := readColon_eq_ok_iff.mp hcolon
            obtain ⟨gap, value, rfl, hgap, hvalue⟩ := ih.value hskip
            obtain ⟨members, rfl, hmembers⟩ := ih.members hrest
            exact ⟨lead ++ '"' :: (name ++ '"' :: (before ++ ':' :: (gap ++ (value ++ members)))),
              by simp, .member hlead hname hbefore hgap hvalue hmembers⟩

theorem wellFormed_of_skipValue (h : skipValue text = .ok rest) :
    ∃ gap value, text = gap ++ (value ++ rest) ∧ Blank gap ∧ WellFormed .value value :=
  (skipped _).value h

theorem skipBlank_comma (rest : List Char) : skipBlank (',' :: rest) = ',' :: rest :=
  skipBlank_cons (by decide) rest

theorem skipBlank_quote (rest : List Char) : skipBlank ('"' :: rest) = '"' :: rest :=
  skipBlank_cons (by decide) rest

theorem nextItem_append {gap : List Char} (first : Bool) (hgap : Blank gap) (text : List Char) :
    nextItem first (gap ++ text) = nextItem first text := by
  rw [nextItem, skipBlank_append hgap]
  rfl

theorem nextField_append {gap : List Char} (first : Bool) (hgap : Blank gap) (text : List Char) :
    nextField first (gap ++ text) = nextField first text := by
  rw [nextField, skipBlank_append hgap]
  rfl

theorem nextItem_of_lead {first : Bool} {lead : List Char} (h : Lead first lead)
    (hopens : Opens text) : nextItem first (lead ++ text) = .ok (true, text) := by
  cases h with
  | first hgap => rw [nextItem_append true hgap, (nextItem_of_opens hopens).1]
  | @later before gap hbefore hgap =>
      rw [List.append_assoc, List.cons_append, nextItem_append false hbefore,
        ← (nextItem_of_opens hopens).2]
      simp [nextItem, skipBlank_comma, skipBlank_append hgap]

theorem nextItem_end {gap : List Char} (first : Bool) (hgap : Blank gap) (rest : List Char) :
    nextItem first (gap ++ (']' :: rest)) = .ok (false, rest) := by
  rw [nextItem_append first hgap]
  rfl

theorem nextField_of_lead {first : Bool} {lead : List Char} (h : Lead first lead)
    (named : List Char) : nextField first (lead ++ '"' :: named) = .ok (true, named) := by
  cases h with
  | first hgap =>
      rw [nextField_append true hgap]
      rfl
  | @later before gap hbefore hgap =>
      rw [List.append_assoc, List.cons_append, nextField_append false hbefore]
      simp [nextField, skipBlank_comma, skipBlank_append hgap, skipBlank_quote]

theorem nextField_end {gap : List Char} (first : Bool) (hgap : Blank gap) (rest : List Char) :
    nextField first (gap ++ ('\x7d' :: rest)) = .ok (false, rest) := by
  rw [nextField_append first hgap]
  rfl

theorem opens_of_startsNumber {c : Char} {behind : List Char} (hc : startsNumber c) :
    Opens (c :: behind) := by
  refine ⟨c, behind, rfl, isBlank_of_startsNumber hc, ?_, ?_⟩
  · rintro rfl
    cases hc
  · rintro rfl
    cases hc

theorem WellFormed.opens {value : List Char} (h : WellFormed .value value) (rest : List Char) :
    Opens (value ++ rest) := by
  cases h with
  | null => exact ⟨'n', _, rfl, by decide⟩
  | boolean b =>
      cases b with
      | false => exact ⟨'f', _, rfl, by decide⟩
      | true => exact ⟨'t', _, rfl, by decide⟩
  | string _ => exact ⟨'"', _, rfl, by decide⟩
  | number h =>
      obtain ⟨c, behind, rfl, hc⟩ := h.startsNumber
      exact opens_of_startsNumber hc
  | array _ => exact ⟨'[', _, rfl, by decide⟩
  | object _ => exact ⟨'\x7b', _, rfl, by decide⟩

/-- What a numeral can stand in front of: blanks and punctuation. -/
theorem stops_cons {c : Char} (hc : isBlank c ∨ c = ',' ∨ c = ':' ∨ c = ']' ∨ c = '\x7d')
    (behind : List Char) : Stops (c :: behind) := by
  simp only [isBlank, Bool.or_eq_true, decide_eq_true_eq, or_assoc] at hc
  rcases hc with rfl | rfl | rfl | rfl | rfl | rfl | rfl | rfl <;> simp [Stops, Undigited]

theorem stops_append {gap : List Char} (hgap : Blank gap) (h : Stops rest) :
    Stops (gap ++ rest) := by
  cases gap with
  | nil => exact h
  | cons c gap => exact stops_cons (.inl (hgap c List.mem_cons_self)) _

theorem Lead.stops {lead : List Char} (h : Lead false lead) (rest : List Char) :
    Stops (lead ++ rest) := by
  obtain ⟨⟩ | ⟨hbefore, hgap⟩ := h
  rw [List.append_assoc]
  exact stops_append hbefore (stops_cons (by simp) _)

theorem stops_items {items : List Char} (h : WellFormed (.items false) items) (rest : List Char) :
    Stops (items ++ rest) := by
  cases h with
  | endArray hgap =>
      rw [List.append_assoc]
      exact stops_append hgap (stops_cons (by simp) rest)
  | item hlead _ _ =>
      rw [List.append_assoc]
      exact hlead.stops _

theorem stops_members {members : List Char} (h : WellFormed (.members false) members)
    (rest : List Char) : Stops (members ++ rest) := by
  cases h with
  | endObject hgap =>
      rw [List.append_assoc]
      exact stops_append hgap (stops_cons (by simp) rest)
  | member hlead _ _ _ _ _ =>
      rw [List.append_assoc]
      exact hlead.stops _

theorem WellFormed.length_pos {part : Part} (h : WellFormed part text) : 0 < text.length := by
  induction h with
  | null => decide
  | boolean b => cases b <;> decide
  | number h =>
      obtain ⟨c, behind, rfl, -⟩ := h.startsNumber
      exact Nat.succ_pos _
  | item _ _ _ hvalue _ => simp [hvalue]
  | _ => simp

/-- How a part is passed over with some fuel. -/
def skipPart (fuel : Nat) : Part → List Char → Except Json.Fault (List Char)
  | .value => skipValueFuel fuel
  | .items first => skipItemsFuel fuel first
  | .members first => skipFieldsFuel fuel first

theorem skipValueFuel_append {gap : List Char} (fuel : Nat) (hgap : Blank gap) (text : List Char) :
    skipValueFuel fuel (gap ++ text) = skipValueFuel fuel text := by
  cases fuel with
  | zero => rfl
  | succ fuel => rw [skipValueFuel, skipValueFuel, skipBlank_append hgap]

theorem skipValueFuel_number {c : Char} (hc : startsNumber c) (fuel : Nat) (behind : List Char) :
    skipValueFuel (fuel + 1) (c :: behind) = skipNumber (c :: behind) := by
  have hother : c ≠ 'n' ∧ c ≠ 't' ∧ c ≠ 'f' ∧ c ≠ '"' ∧ c ≠ '[' ∧ c ≠ '\x7b' := by
    refine ⟨?_, ?_, ?_, ?_, ?_, ?_⟩ <;>
      · rintro rfl
        cases hc
  simp [skipValueFuel, skipBlank_cons (isBlank_of_startsNumber hc), hother, hc]

theorem Numeric.skipNumber {spelled : List Char} {n : Numeral} (h : Numeric spelled n)
    (hrest : Stops rest) : skipNumber (spelled ++ rest) = .ok rest := by
  rw [Json.skipNumber, h.scan hrest]
  rfl

/-- With as much fuel as a part is long it is passed over. -/
theorem WellFormed.skipPart {part : Part} (h : WellFormed part text) {fuel : Nat}
    (hfuel : text.length ≤ fuel + 1) (hrest : Stops rest) :
    skipPart (fuel + 1) part (text ++ rest) = .ok rest := by
  induction h generalizing fuel rest with
  | null => rfl
  | boolean b => cases b <;> rfl
  | string h =>
      rw [Grammar.skipPart, List.cons_append, skipValueFuel, skipBlank_quote]
      simpa using h.skipString rest
  | number h =>
      obtain ⟨c, behind, rfl, hc⟩ := h.startsNumber
      exact (skipValueFuel_number hc fuel _).trans (h.skipNumber hrest)
  | array h ih =>
      have hitems := h.length_pos
      rw [List.length_cons] at hfuel
      cases fuel with
      | zero => omega
      | succ fuel => exact ih (by omega) hrest
  | object h ih =>
      have hmembers := h.length_pos
      rw [List.length_cons] at hfuel
      cases fuel with
      | zero => omega
      | succ fuel => exact ih (by omega) hrest
  | @endArray first gap hgap =>
      rw [Grammar.skipPart, skipItemsFuel, List.append_assoc, List.singleton_append,
        nextItem_end first hgap]
      rfl
  | @item first lead value items hlead hvalue hitems ihvalue ihitems =>
      have hposvalue := hvalue.length_pos
      have hpositems := hitems.length_pos
      simp only [List.length_append] at hfuel
      cases fuel with
      | zero => omega
      | succ fuel =>
          have hskip : skipValueFuel (fuel + 1) (value ++ (items ++ rest)) = .ok (items ++ rest) :=
            ihvalue (by omega) (stops_items hitems rest)
          rw [Grammar.skipPart, skipItemsFuel]
          simp only [List.append_assoc, nextItem_of_lead hlead (hvalue.opens _), bind, Except.bind,
            if_true, hskip]
          exact ihitems (by omega) hrest
  | @endObject first gap hgap =>
      rw [Grammar.skipPart, skipFieldsFuel, List.append_assoc, List.singleton_append,
        nextField_end first hgap]
      rfl
  | @member first lead name before gap value members hlead hname hbefore hgap hvalue hmembers
      ihvalue ihmembers =>
      have hposvalue := hvalue.length_pos
      have hposmembers := hmembers.length_pos
      simp only [List.length_append, List.length_cons] at hfuel
      cases fuel with
      | zero => omega
      | succ fuel =>
          have hskip : skipValueFuel (fuel + 1) (value ++ (members ++ rest)) =
              .ok (members ++ rest) :=
            ihvalue (by omega) (stops_members hmembers rest)
          rw [Grammar.skipPart, skipFieldsFuel]
          simp only [List.append_assoc, List.cons_append, nextField_of_lead hlead, bind,
            Except.bind, if_true, hname.skipString, readColon_eq_ok_iff.mpr ⟨before, rfl, hbefore⟩,
            skipValueFuel_append _ hgap, hskip]
          exact ihmembers (by omega) hrest

theorem WellFormed.skipValue {gap value : List Char} (h : WellFormed .value value)
    (hgap : Blank gap) (hrest : Stops rest) :
    skipValue (gap ++ (value ++ rest)) = .ok rest := by
  rw [Json.skipValue, skipValueFuel_append _ hgap]
  refine skipPart h ?_ hrest
  simp only [List.length_append]
  omega

end VoiceCall.Proofs.Json.Grammar
