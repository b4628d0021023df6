import VoiceCall.Json.Scalar
import VoiceCall.Proofs.Json.Grammar

namespace VoiceCall.Proofs.Json.Kinds

open VoiceCall.Json
open VoiceCall.Proofs.Json.Tokens
open VoiceCall.Proofs.Json.Characters
open VoiceCall.Proofs.Json.Numerals
open VoiceCall.Proofs.Json.RoundTrip (Opens isBlank_of_startsNumber)
open VoiceCall.Proofs.Json.Skipping (readColon_eq_ok_iff exists_spells_of_readString)
open VoiceCall.Proofs.Json.Grammar

variable {α : Type}

/-- A reader takes what is spelled so, and nothing else. -/
structure Reads (reader : TextReader α) (Spelled : List Char → α → Prop) : Prop where
  sound {text rest : List Char} {a : α} (h : reader text = .ok (a, rest)) :
    ∃ gap spelled, text = gap ++ (spelled ++ rest) ∧ Blank gap ∧ Spelled spelled a
  complete {gap spelled rest : List Char} {a : α} (hgap : Blank gap) (h : Spelled spelled a)
    (hrest : Stops rest) : reader (gap ++ (spelled ++ rest)) = .ok (a, rest)
  opens {spelled : List Char} {a : α} (h : Spelled spelled a) (rest : List Char) :
    Opens (spelled ++ rest)

theorem Reads.of_iff {reader : TextReader α} {Spelled Spelled' : List Char → α → Prop}
    (h : Reads reader Spelled) (hiff : ∀ spelled a, Spelled spelled a ↔ Spelled' spelled a) :
    Reads reader Spelled' := by
  have heq : Spelled = Spelled' := funext fun spelled => funext fun a => propext (hiff spelled a)
  exact heq ▸ h

def TextOf (spelled : List Char) (s : String) : Prop :=
  ∃ chars, spelled = '"' :: (chars ++ ['"']) ∧ Spells chars s.toList

theorem textOf_printString (s : String) : TextOf (printString s) s :=
  ⟨s.toList.flatMap escapeChar, rfl, spells_flatMap_escapeChar s.toList⟩

theorem readString_of_spells {chars : List Char} {s : String} (h : Spells chars s.toList)
    (rest : List Char) : readString (chars ++ '"' :: rest) = .ok (s, rest) := by
  rw [readString, readCharacters_of_spells h]
  exact congrArg _ (congrArg (·, rest) String.ofList_toList)

theorem reads_string (expected : String) : Reads (readStringAs expected) TextOf where
  sound {text rest a} h := by
    unfold readStringAs at h
    split at h
    · cases h
    · rename_i hblank
      obtain ⟨gap, rfl, hgap⟩ := exists_blank_of_skipBlank_eq hblank
      obtain ⟨chars, rfl, hchars⟩ := exists_spells_of_readString h
      exact ⟨gap, '"' :: (chars ++ ['"']), by simp, hgap, chars, rfl, hchars⟩
    · cases h
  complete {gap spelled rest a} hgap h hrest := by
    obtain ⟨chars, rfl, hchars⟩ := h
    rw [readStringAs, skipBlank_append hgap, List.cons_append, skipBlank_quote]
    simpa using readString_of_spells hchars rest
  opens {spelled a} h rest := by
    obtain ⟨chars, rfl, -⟩ := h
    exact ⟨'"', _, rfl, by decide⟩

def BooleanOf (spelled : List Char) (b : Bool) : Prop :=
  spelled = printBoolean b

theorem booleanOf_printBoolean (b : Bool) : BooleanOf (printBoolean b) b :=
  rfl

theorem reads_boolean : Reads readBoolean BooleanOf where
  sound {text rest a} h := by
    unfold readBoolean at h
    split at h
    · cases h
    · rename_i hblank
      obtain ⟨gap, rfl, hgap⟩ := exists_blank_of_skipBlank_eq hblank
      obtain ⟨_, hword, ⟨⟩⟩ := exists_of_map_eq_ok h
      obtain rfl := expectWord_eq_ok_iff.mp hword
      exact ⟨gap, printBoolean true, rfl, hgap, rfl⟩
    · rename_i hblank
      obtain ⟨gap, rfl, hgap⟩ := exists_blank_of_skipBlank_eq hblank
      obtain ⟨_, hword, ⟨⟩⟩ := exists_of_map_eq_ok h
      obtain rfl := expectWord_eq_ok_iff.mp hword
      exact ⟨gap, printBoolean false, rfl, hgap, rfl⟩
    · cases h
  complete {gap spelled rest b} hgap h hrest := by
    obtain rfl := h
    rw [readBoolean, skipBlank_append hgap]
    cases b <;> rfl
  opens {spelled b} h rest := by
    obtain rfl := h
    cases b with
    | false => exact ⟨'f', _, rfl, by decide⟩
    | true => exact ⟨'t', _, rfl, by decide⟩

/-- A numeral in the range of doubles whose number converts. -/
def NumberOf (convert : Number → Except Mismatch α) (spelled : List Char) (a : α) : Prop :=
  ∃ n number, Numeric spelled n ∧ n.value = some number ∧ convert number = .ok a

theorem ofMismatch_eq_ok_iff {read : Except Mismatch α} {a : α} :
    ofMismatch read = .ok a ↔ read = .ok a := by
  cases read with
  | error m => exact ⟨nofun, nofun⟩
  | ok b => exact ⟨fun h => congrArg _ (Except.ok.inj h), fun h => congrArg _ (Except.ok.inj h)⟩

theorem numeric_of_readNumber {text rest : List Char} {number : Number}
    (h : readNumber text = .ok (number, rest)) :
    ∃ spelled n, text = spelled ++ rest ∧ Numeric spelled n ∧ n.value = some number := by
  obtain ⟨⟨n, later⟩, hscan, h⟩ := exists_of_bind_eq_ok h
  obtain ⟨spelled, hspelled, hnumeric⟩ := numeric_of_scan hscan
  dsimp only at h
  split at h
  · rename_i hvalue
    cases h
    exact ⟨spelled, n, hspelled, hnumeric, hvalue⟩
  · cases h

theorem readNumber_of_numeric {spelled rest : List Char} {n : Numeral} {number : Number}
    (h : Numeric spelled n) (hvalue : n.value = some number) (hrest : Stops rest) :
    readNumber (spelled ++ rest) = .ok (number, rest) := by
  rw [readNumber, h.scan hrest]
  simp only [bind, Except.bind, hvalue]
  rfl

theorem reads_number (expected : String) (convert : Number → Except Mismatch α) :
    Reads (readNumberAs expected convert) (NumberOf convert) where
  sound {text rest a} h := by
    unfold readNumberAs at h
    split at h
    · cases h
    · rename_i c behind hblank
      obtain ⟨gap, rfl, hgap⟩ := exists_blank_of_skipBlank_eq hblank
      split at h
      · obtain ⟨⟨number, later⟩, hread, h⟩ := exists_of_bind_eq_ok h
        obtain ⟨value, hconvert, ⟨⟩⟩ := exists_of_bind_eq_ok h
        obtain ⟨spelled, n, hspelled, hnumeric, hvalue⟩ := numeric_of_readNumber hread
        exact ⟨gap, spelled, hspelled ▸ rfl, hgap, n, number, hnumeric, hvalue,
          ofMismatch_eq_ok_iff.mp hconvert⟩
      · cases h
  complete {gap spelled rest a} hgap h hrest := by
    obtain ⟨n, number, hnumeric, hvalue, hconvert⟩ := h
    have hread := readNumber_of_numeric hnumeric hvalue hrest
    obtain ⟨c, behind, rfl, hc⟩ := hnumeric.startsNumber
    rw [List.cons_append] at hread
    rw [readNumberAs, skipBlank_append hgap, List.cons_append,
      skipBlank_cons (isBlank_of_startsNumber hc)]
    simp only [hc, if_true, hread, bind, Except.bind, ofMismatch_eq_ok_iff.mpr hconvert]
    rfl
  opens {spelled a} h rest := by
    obtain ⟨n, number, hnumeric, -⟩ := h
    obtain ⟨c, behind, rfl, hc⟩ := hnumeric.startsNumber
    exact opens_of_startsNumber hc

theorem numeric_integer_iff {spelled : List Char} {k : Int} :
    (∃ n, Numeric spelled n ∧ n.value = some (.integer k)) ↔
      Number.fitsWord k ∧ spelled = printInteger k := by
  have hstops : Stops [] := by simp [Stops, Undigited]
  constructor
  · rintro ⟨n, hnumeric, hvalue⟩
    obtain ⟨hfits, htext, -⟩ :=
      readNumber_eq_integer_iff.mp (readNumber_of_numeric hnumeric hvalue hstops)
    exact ⟨hfits, by simpa using htext⟩
  · rintro ⟨hfits, rfl⟩
    obtain ⟨spelled, n, hspelled, hnumeric, hvalue⟩ :=
      numeric_of_readNumber (readNumber_eq_integer_iff.mpr ⟨hfits, rfl, hstops⟩)
    obtain rfl : printInteger k = spelled := by simpa using hspelled
    exact ⟨n, hnumeric, hvalue⟩

/-- Words that stand for the whole numbers up to a bound. -/
structure Words (ofNat : Nat → α) (toNat : α → Nat) (high : Nat) : Prop where
  lt_size : high < UInt64.size
  toNat_le (a : α) : toNat a ≤ high
  ofNat_toNat (a : α) : ofNat (toNat a) = a
  toNat_ofNat {k : Nat} (h : k ≤ high) : toNat (ofNat k) = k

theorem fitsWord_natCast {k : Nat} (h : k < UInt64.size) : Number.fitsWord k := by
  simp only [Number.fitsWord, Bool.and_eq_true, decide_eq_true_eq]
  exact ⟨le_trans (by decide) (Int.natCast_nonneg k), by exact_mod_cast h⟩

/-- A word has one spelling. -/
theorem numberOf_word_iff {ofNat : Nat → α} {toNat : α → Nat} {high : Nat}
    (hwords : Words ofNat toNat high) (expected : String) (spelled : List Char) (a : α) :
    NumberOf (fun n => (n.toRange 0 high expected).map fun k => ofNat k.toNat) spelled a ↔
      spelled = Nat.toDigits 10 (toNat a) := by
  constructor
  · rintro ⟨n, number, hnumeric, hvalue, hconvert⟩
    obtain ⟨k, hrange, rfl⟩ := exists_of_map_eq_ok hconvert
    cases number with
    | real x => cases hrange
    | integer m =>
        rw [Number.toRange] at hrange
        split at hrange
        · rename_i hbounds
          cases hrange
          obtain ⟨-, rfl⟩ := numeric_integer_iff.mp ⟨n, hnumeric, hvalue⟩
          lift k to Nat using hbounds.1
          rw [printInteger_natCast, Int.toNat_natCast, hwords.toNat_ofNat (by omega)]
        · cases hrange
  · rintro rfl
    have hle := hwords.toNat_le a
    obtain ⟨n, hnumeric, hvalue⟩ := numeric_integer_iff.mpr
      ⟨fitsWord_natCast (hle.trans_lt hwords.lt_size), rfl⟩
    rw [printInteger_natCast] at hnumeric
    refine ⟨n, _, hnumeric, hvalue, ?_⟩
    dsimp only
    rw [Number.toRange, if_pos (by omega)]
    exact congrArg Except.ok ((congrArg ofNat (Int.toNat_natCast _)).trans (hwords.ofNat_toNat a))

def WordOf (toNat : α → Nat) (spelled : List Char) (a : α) : Prop :=
  spelled = Nat.toDigits 10 (toNat a)

theorem wordOf_toDigits (toNat : α → Nat) (a : α) : WordOf toNat (Nat.toDigits 10 (toNat a)) a :=
  rfl

theorem reads_word16 : Reads readWord16 (WordOf UInt16.toNat) := by
  have hwords : Words UInt16.ofNat UInt16.toNat 65535 :=
    ⟨by decide, fun a => Nat.le_of_lt_succ a.toNat_lt, fun a => UInt16.ofNat_toNat,
      fun h => UInt16.toNat_ofNat_of_lt' (Nat.lt_succ_of_le h)⟩
  exact (reads_number _ _).of_iff (numberOf_word_iff hwords "u16")

theorem reads_word32 : Reads readWord32 (WordOf UInt32.toNat) := by
  have hwords : Words UInt32.ofNat UInt32.toNat 4294967295 :=
    ⟨by decide, fun a => Nat.le_of_lt_succ a.toNat_lt, fun a => UInt32.ofNat_toNat,
      fun h => UInt32.toNat_ofNat_of_lt' (Nat.lt_succ_of_le h)⟩
  exact (reads_number _ _).of_iff (numberOf_word_iff hwords "u32")

theorem reads_word64 : Reads readWord64 (WordOf UInt64.toNat) := by
  have hwords : Words UInt64.ofNat UInt64.toNat 18446744073709551615 :=
    ⟨by decide, fun a => Nat.le_of_lt_succ a.toNat_lt, fun a => UInt64.ofNat_toNat,
      fun h => UInt64.toNat_ofNat_of_lt' (Nat.lt_succ_of_le h)⟩
  exact (reads_number _ _).of_iff (numberOf_word_iff hwords "usize")

/-- A numeral in the range of doubles, and the single next to it. -/
def SingleOf (spelled : List Char) (x : Float32) : Prop :=
  ∃ n number, Numeric spelled n ∧ n.value = some number ∧ number.toSingle = x

theorem reads_single : Reads readSingle SingleOf := by
  refine (reads_number "f32" _).of_iff fun spelled x => ?_
  simp only [NumberOf, SingleOf, Except.ok.injEq]

theorem reads_null : Reads readUnit fun spelled _ => spelled = "null".toList where
  sound {text rest a} h := by
    unfold readUnit at h
    split at h
    · cases h
    · rename_i hblank
      obtain ⟨gap, rfl, hgap⟩ := exists_blank_of_skipBlank_eq hblank
      obtain ⟨_, hword, ⟨⟩⟩ := exists_of_map_eq_ok h
      obtain rfl := expectWord_eq_ok_iff.mp hword
      exact ⟨gap, "null".toList, rfl, hgap, rfl⟩
    · cases h
  complete {gap spelled rest a} hgap h hrest := by
    obtain rfl := h
    rw [readUnit, skipBlank_append hgap]
    rfl
  opens {spelled a} h rest := by
    obtain rfl := h
    exact ⟨'n', _, rfl, by decide⟩

/-- One of some named values: its name, or an object of its name and null. -/
inductive ChoiceOf (choices : List (String × α)) : List Char → α → Prop where
  | name {spelled : List Char} {name : String} {a : α} (hname : TextOf spelled name)
      (ha : choices.lookup name = some a) : ChoiceOf choices spelled a
  | tagged {lead spelled before gap behind : List Char} {name : String} {a : α}
      (hlead : Blank lead) (hname : TextOf spelled name) (ha : choices.lookup name = some a)
      (hbefore : Blank before) (hgap : Blank gap) (hbehind : Blank behind) :
      ChoiceOf choices
        ('\x7b' :: (lead ++ (spelled ++ (before ++ ':' :: (gap ++ ("null".toList ++
          (behind ++ ['\x7d']))))))) a

theorem ofName_eq_ok_iff {choices : List (String × α)} {name : String} {a : α} :
    ofName choices name = .ok a ↔ choices.lookup name = some a := by
  unfold ofName
  split
  · rename_i b hlookup
    rw [hlookup]
    exact ⟨fun h => congrArg _ (Except.ok.inj h), fun h => congrArg _ (Option.some.inj h)⟩
  · rename_i hlookup
    rw [hlookup]
    exact ⟨nofun, nofun⟩

theorem reads_choice (choices : List (String × α)) :
    Reads (readChoice choices) (ChoiceOf choices) where
  sound {text rest a} h := by
    unfold readChoice at h
    split at h
    · cases h
    · rename_i hblank
      obtain ⟨gap, rfl, hgap⟩ := exists_blank_of_skipBlank_eq hblank
      obtain ⟨⟨name, later⟩, hstring, h⟩ := exists_of_bind_eq_ok h
      obtain ⟨value, hname, ⟨⟩⟩ := exists_of_bind_eq_ok h
      obtain ⟨chars, rfl, hchars⟩ := exists_spells_of_readString hstring
      exact ⟨gap, '"' :: (chars ++ ['"']), by simp, hgap,
        .name ⟨chars, rfl, hchars⟩ (ofName_eq_ok_iff.mp hname)⟩
    · rename_i hblank
      obtain ⟨gap, rfl, hgap⟩ := exists_blank_of_skipBlank_eq hblank
      obtain ⟨⟨name, colon⟩, hstring, h⟩ := exists_of_bind_eq_ok h
      obtain ⟨value, hvalue, h⟩ := exists_of_bind_eq_ok h
      obtain ⟨assigned, hcolon, h⟩ := exists_of_bind_eq_ok h
      obtain ⟨⟨⟨⟩, closing⟩, hnull, h⟩ := exists_of_bind_eq_ok h
      dsimp only at h
      split at h
      · cases h
      · rename_i hclose
        cases h
        obtain ⟨lead, spelled, rfl, hlead, hname⟩ := (reads_string _).sound hstring
        obtain ⟨before, rfl, hbefore⟩ := readColon_eq_ok_iff.mp hcolon
        obtain ⟨inner, null, rfl, hinner, rfl⟩ := reads_null.sound hnull
        obtain ⟨behind, rfl, hbehind⟩ := exists_blank_of_skipBlank_eq hclose
        exact ⟨gap, _, by simp, hgap,
          .tagged hlead hname (ofName_eq_ok_iff.mp hvalue) hbefore hinner hbehind⟩
      · cases h
    · cases h
  complete {gap spelled rest a} hgap h hrest := by
    rw [readChoice, skipBlank_append hgap]
    cases h with
    | name hname ha =>
        obtain ⟨chars, rfl, hchars⟩ := hname
        rw [List.cons_append, skipBlank_quote]
        simp only [List.append_assoc, List.singleton_append, readString_of_spells hchars, bind,
          Except.bind, ofName_eq_ok_iff.mpr ha]
        rfl
    | @tagged lead spelled before inner behind name a hlead hname ha hbefore hinner hbehind =>
        have hcolon : Stops (before ++ ':' :: (inner ++ ("null".toList ++
            (behind ++ '\x7d' :: rest)))) :=
          stops_append hbefore (stops_cons (by simp) _)
        have hnull : readUnit (inner ++ ("null".toList ++ (behind ++ '\x7d' :: rest))) =
            .ok ((), behind ++ '\x7d' :: rest) :=
          reads_null.complete hinner rfl (stops_append hbehind (stops_cons (by simp) _))
        rw [List.cons_append, skipBlank_cons (by decide)]
        simp only [List.append_assoc, List.cons_append, List.nil_append, bind, Except.bind,
          (reads_string "variant identifier").complete hlead hname hcolon, ofName_eq_ok_iff.mpr ha,
          readColon_eq_ok_iff.mpr ⟨before, rfl, hbefore⟩, hnull, skipBlank_append hbehind]
        rfl
  opens {spelled a} h rest := by
    cases h with
    | name hname _ => exact (reads_string "").opens hname rest
    | tagged _ _ _ _ _ _ => exact ⟨'\x7b', _, rfl, by decide⟩

end VoiceCall.Proofs.Json.Kinds
