import VoiceCall.Proofs.Json.Characters
import VoiceCall.Proofs.Json.Fields
import VoiceCall.Proofs.Json.Numerals

namespace VoiceCall.Proofs.Json.RoundTrip

open VoiceCall.Json
open VoiceCall.Proofs.Json.Tokens
open VoiceCall.Proofs.Json.Characters
open VoiceCall.Proofs.Json.Fields
open VoiceCall.Proofs.Json.Numerals

/-- Values in which at most so many arrays and objects are open at once, all numbers are whole and
fit 64 bits, and the fields of objects are sorted. -/
inductive Portable : Nat → Value → Prop where
  | null {depth : Nat} : Portable depth .null
  | boolean {depth : Nat} (b : Bool) : Portable depth (.boolean b)
  | integer {depth : Nat} {n : Int} (hfits : Number.fitsWord n) :
      Portable depth (.number (.integer n))
  | string {depth : Nat} (s : String) : Portable depth (.string s)
  | array {depth : Nat} {items : List Value} (hitems : ∀ item ∈ items, Portable depth item) :
      Portable (depth + 1) (.array items)
  | object {depth : Nat} {fields : List (String × Value)} (hsorted : Sorted fields)
      (hfields : ∀ field ∈ fields, Portable depth field.2) : Portable (depth + 1) (.object fields)

/-- A value begins here. -/
def Opens (text : List Char) : Prop :=
  ∃ c behind, text = c :: behind ∧ isBlank c = false ∧ c ≠ ']' ∧ c ≠ ','

/-- A value has ended here. -/
def Closes (text : List Char) : Prop :=
  ∃ c behind, text = c :: behind ∧ (c = ',' ∨ c = ']' ∨ c = '\x7d')

theorem Closes.stops {text : List Char} (h : Closes text) : Stops text := by
  obtain ⟨c, behind, rfl, hc⟩ := h
  rcases hc with rfl | rfl | rfl <;> simp [Stops, Undigited]

theorem isBlank_of_startsNumber {c : Char} (h : startsNumber c) : isBlank c = false := by
  by_contra hblank
  simp only [isBlank, Bool.or_eq_false_iff, decide_eq_false_iff_not, not_and_or, not_not,
    or_assoc] at hblank
  rcases hblank with rfl | rfl | rfl | rfl <;> cases h

theorem exists_toDigits_eq_cons (n : Nat) :
    ∃ c behind, Nat.toDigits 10 n = c :: behind ∧ startsNumber c := by
  cases hdigits : Nat.toDigits 10 n with
  | nil => exact absurd hdigits Nat.toDigits_ne_nil
  | cons c behind =>
      have hc : c.isDigit := Nat.isDigit_of_mem_toDigits (by decide) (by decide)
        (hdigits ▸ List.mem_cons_self)
      exact ⟨c, behind, rfl, by simp [startsNumber, hc]⟩

theorem exists_printInteger_eq_cons (n : Int) :
    ∃ c behind, printInteger n = c :: behind ∧ startsNumber c := by
  unfold printInteger
  split
  · exact ⟨'-', _, rfl, rfl⟩
  · exact exists_toDigits_eq_cons n.toNat

theorem opens_print {depth : Nat} {v : Value} (h : Portable depth v) (rest : List Char) :
    Opens (v.print ++ rest) := by
  cases h with
  | null => exact ⟨'n', _, rfl, by decide⟩
  | boolean b =>
      cases b with
      | false => exact ⟨'f', _, rfl, by decide⟩
      | true => exact ⟨'t', _, rfl, by decide⟩
  | @integer _ n hfits =>
      obtain ⟨c, behind, hprint, hc⟩ := exists_printInteger_eq_cons n
      refine ⟨c, behind ++ rest, ?_, isBlank_of_startsNumber hc, ?_, ?_⟩
      · rw [Value.print, Number.print, hprint, List.cons_append]
      · rintro rfl
        cases hc
      · rintro rfl
        cases hc
  | string s => exact ⟨'"', _, rfl, by decide⟩
  | @array _ items _ =>
      cases items with
      | nil => exact ⟨'[', _, rfl, by decide⟩
      | cons item items => exact ⟨'[', _, rfl, by decide⟩
  | @object _ fields _ _ =>
      cases fields with
      | nil => exact ⟨'\x7b', _, rfl, by decide⟩
      | cons field fields => exact ⟨'\x7b', _, rfl, by decide⟩

theorem closes_printItems (items : List Value) (rest : List Char) :
    Closes (printItems items ++ rest) := by
  cases items with
  | nil => exact ⟨']', rest, rfl, by decide⟩
  | cons item items => exact ⟨',', _, rfl, by decide⟩

theorem closes_printFields (fields : List (String × Value)) (rest : List Char) :
    Closes (printFields fields ++ rest) := by
  cases fields with
  | nil => exact ⟨'\x7d', rest, rfl, by decide⟩
  | cons field fields => exact ⟨',', _, rfl, by decide⟩

theorem length_print_pos {depth : Nat} {v : Value} (h : Portable depth v) :
    0 < v.print.length := by
  obtain ⟨c, behind, hprint, -⟩ := opens_print h []
  rw [← List.append_nil v.print, hprint]
  exact Nat.succ_pos _

theorem length_printItems_pos (items : List Value) : 0 < (printItems items).length := by
  cases items <;> simp [printItems]

theorem length_printFields_pos (fields : List (String × Value)) :
    0 < (printFields fields).length := by
  cases fields <;> simp [printFields]

theorem nextItem_of_opens {text : List Char} (h : Opens text) :
    nextItem true text = .ok (true, text) ∧ nextItem false (',' :: text) = .ok (true, text) := by
  obtain ⟨c, behind, rfl, hblank, hclose, hcomma⟩ := h
  constructor
  · simp [nextItem, skipBlank_cons hblank, hclose, hcomma]
  · rw [nextItem, skipBlank_cons (by decide)]
    simp [skipBlank_cons hblank, hclose]

/-- A value is read back from its text, with as much fuel as its text is long. -/
def ReadsBack (depth : Nat) (v : Value) : Prop :=
  ∀ fuel rest, v.print.length ≤ fuel → Closes rest →
    readValueFuel fuel depth (v.print ++ rest) = .ok (v, rest)

theorem readItemsFuel_cons {depth fuel : Nat} {first : Bool} {item : Value} {items : List Value}
    {text rest : List Char} (hnext : nextItem first text = .ok (true, item.print ++ rest))
    (hitem : ReadsBack depth item) (hfuel : item.print.length ≤ fuel) (hrest : Closes rest)
    {behind : List Char} (hitems : readItemsFuel fuel depth false rest = .ok (items, behind)) :
    readItemsFuel (fuel + 1) depth first text = .ok (item :: items, behind) := by
  rw [readItemsFuel, hnext]
  simp only [bind, Except.bind, if_true, hitem fuel rest hfuel hrest, hitems]
  rfl

theorem readItemsFuel_printItems {depth : Nat} {items : List Value}
    (hitems : ∀ item ∈ items, Portable depth item ∧ ReadsBack depth item) {fuel : Nat}
    (hfuel : (printItems items).length ≤ fuel) (rest : List Char) :
    readItemsFuel fuel depth false (printItems items ++ rest) = .ok (items, rest) := by
  induction items generalizing fuel with
  | nil =>
      cases fuel with
      | zero => simp [printItems] at hfuel
      | succ fuel => rfl
  | cons item items ih =>
      obtain ⟨hportable, hreads⟩ := hitems item List.mem_cons_self
      simp only [printItems, List.length_cons, List.length_append] at hfuel
      cases fuel with
      | zero => omega
      | succ fuel =>
          have hnext := (nextItem_of_opens (opens_print hportable (printItems items ++ rest))).2
          rw [← List.append_assoc] at hnext
          refine readItemsFuel_cons ?_ hreads (by omega) (closes_printItems items rest)
            (ih (fun item hmem => hitems item (List.mem_cons_of_mem _ hmem)) (by omega))
          simpa [printItems] using hnext

theorem readFieldsFuel_cons {depth fuel : Nat} {first : Bool} {name : String} {value : Value}
    {fields : List (String × Value)} {text named rest : List Char}
    (hnext : nextField first text = .ok (true, named))
    (hname : readString named = .ok (name, ':' :: (value.print ++ rest)))
    (hvalue : ReadsBack depth value) (hfuel : value.print.length ≤ fuel) (hrest : Closes rest)
    {behind : List Char} (hfields : readFieldsFuel fuel depth false rest = .ok (fields, behind)) :
    readFieldsFuel (fuel + 1) depth first text = .ok ((name, value) :: fields, behind) := by
  have hcolon : readColon (':' :: (value.print ++ rest)) = .ok (value.print ++ rest) := rfl
  rw [readFieldsFuel, hnext]
  simp only [bind, Except.bind, if_true, hname, hcolon, hvalue fuel rest hfuel hrest, hfields]
  rfl

theorem readFieldsFuel_printFields {depth : Nat} {fields : List (String × Value)}
    (hfields : ∀ field ∈ fields, ReadsBack depth field.2) {fuel : Nat}
    (hfuel : (printFields fields).length ≤ fuel) (rest : List Char) :
    readFieldsFuel fuel depth false (printFields fields ++ rest) = .ok (fields, rest) := by
  induction fields generalizing fuel with
  | nil =>
      cases fuel with
      | zero => simp [printFields] at hfuel
      | succ fuel => rfl
  | cons field fields ih =>
      rcases field with ⟨name, value⟩
      simp only [printFields, List.length_cons, List.length_append] at hfuel
      cases fuel with
      | zero => omega
      | succ fuel =>
          obtain ⟨spelled, hname, hread⟩ := readString_printString name
            (':' :: (value.print ++ (printFields fields ++ rest)))
          have hnext : nextField false (printFields ((name, value) :: fields) ++ rest) =
              .ok (true, spelled) := by
            simp only [printFields, List.cons_append, List.append_assoc, hname]
            rfl
          exact readFieldsFuel_cons hnext hread (hfields (name, value) List.mem_cons_self)
            (by omega) (closes_printFields fields rest)
            (ih (fun field hmem => hfields field (List.mem_cons_of_mem _ hmem)) (by omega))

theorem readValueFuel_number {fuel depth : Nat} {c : Char} (hc : startsNumber c)
    (rest : List Char) :
    readValueFuel (fuel + 1) depth (c :: rest) =
      (readNumber (c :: rest)).map fun (n, rest) => (.number n, rest) := by
  have hother : c ≠ 'n' ∧ c ≠ 't' ∧ c ≠ 'f' ∧ c ≠ '"' ∧ c ≠ '[' ∧ c ≠ '\x7b' := by
    refine ⟨?_, ?_, ?_, ?_, ?_, ?_⟩ <;>
      · rintro rfl
        cases hc
  simp [readValueFuel, skipBlank_cons (isBlank_of_startsNumber hc), hother, hc]

theorem readsBack_scalar {depth : Nat} {v : Value} (h : Portable depth v)
    (hread : ∀ fuel rest, Closes rest →
      readValueFuel (fuel + 1) depth (v.print ++ rest) = .ok (v, rest)) : ReadsBack depth v := by
  intro fuel rest hfuel hrest
  cases fuel with
  | zero => exact absurd (length_print_pos h) (by omega)
  | succ fuel => exact hread fuel rest hrest

theorem readsBack_integer {depth : Nat} {n : Int} (hfits : Number.fitsWord n) :
    ReadsBack depth (.number (.integer n)) := by
  refine readsBack_scalar (.integer hfits) fun fuel rest hrest => ?_
  obtain ⟨c, behind, hprint, hc⟩ := exists_printInteger_eq_cons n
  have hread : readNumber (printInteger n ++ rest) = .ok (.integer n, rest) :=
    readNumber_eq_integer_iff.mpr ⟨hfits, rfl, hrest.stops⟩
  rw [Value.print, Number.print]
  rw [hprint, List.cons_append] at hread ⊢
  rw [readValueFuel_number hc, hread]
  rfl

theorem readsBack_string {depth : Nat} (s : String) : ReadsBack depth (.string s) := by
  refine readsBack_scalar (.string s) fun fuel rest _ => ?_
  obtain ⟨spelled, hprint, hread⟩ := readString_printString s rest
  rw [Value.print, hprint, readValueFuel, skipBlank_cons (by decide)]
  simp only [hread]
  rfl

theorem readsBack_array {depth : Nat} {items : List Value}
    (hitems : ∀ item ∈ items, Portable depth item ∧ ReadsBack depth item) :
    ReadsBack (depth + 1) (.array items) := by
  intro fuel rest hfuel hrest
  cases items with
  | nil =>
      simp only [Value.print, List.length_cons] at hfuel
      rcases fuel with _ | _ | fuel
      · omega
      · omega
      · rfl
  | cons item items =>
      obtain ⟨hportable, hreads⟩ := hitems item List.mem_cons_self
      have hitem := length_print_pos hportable
      have hrest' := length_printItems_pos items
      simp only [Value.print, List.length_cons, List.length_append] at hfuel
      -- one step of fuel goes into the bracket and one into the first item
      rcases fuel with _ | _ | fuel
      · omega
      · omega
      · have hread : readItemsFuel (fuel + 1) depth true
            (item.print ++ (printItems items ++ rest)) = .ok (item :: items, rest) :=
          readItemsFuel_cons (nextItem_of_opens (opens_print hportable _)).1 hreads (by omega)
            (closes_printItems items rest)
            (readItemsFuel_printItems
              (fun item hmem => hitems item (List.mem_cons_of_mem _ hmem)) (by omega) rest)
        simp only [Value.print, List.cons_append, List.append_assoc, readValueFuel,
          skipBlank_cons (c := '[') (by decide), Nat.add_one_sub_one, hread]
        rfl

theorem readsBack_object {depth : Nat} {fields : List (String × Value)} (hsorted : Sorted fields)
    (hfields : ∀ field ∈ fields, ReadsBack depth field.2) :
    ReadsBack (depth + 1) (.object fields) := by
  intro fuel rest hfuel hrest
  cases fields with
  | nil =>
      simp only [Value.print, List.length_cons] at hfuel
      rcases fuel with _ | _ | fuel
      · omega
      · omega
      · rfl
  | cons field fields =>
      rcases field with ⟨name, value⟩
      have hrest' := length_printFields_pos fields
      simp only [Value.print, List.length_cons, List.length_append] at hfuel
      rcases fuel with _ | _ | fuel
      · omega
      · omega
      · obtain ⟨spelled, hname, hspelled⟩ := readString_printString name
          (':' :: (value.print ++ (printFields fields ++ rest)))
        have hread : readFieldsFuel (fuel + 1) depth true ('"' :: spelled) =
            .ok ((name, value) :: fields, rest) :=
          readFieldsFuel_cons rfl hspelled (hfields (name, value) List.mem_cons_self) (by omega)
            (closes_printFields fields rest)
            (readFieldsFuel_printFields
              (fun field hmem => hfields field (List.mem_cons_of_mem _ hmem)) (by omega) rest)
        simp only [Value.print, List.cons_append, List.append_assoc, hname, readValueFuel,
          skipBlank_cons (c := '\x7b') (by decide), Nat.add_one_sub_one, hread]
        exact congrArg (fun sorted => Except.ok (Value.object sorted, rest))
          (sortFields_of_sorted hsorted)

theorem readsBack {depth : Nat} {v : Value} (h : Portable depth v) : ReadsBack depth v := by
  induction h with
  | array hitems ih =>
      exact readsBack_array fun item hmem => ⟨hitems item hmem, ih item hmem⟩
  | object hsorted hfields ih => exact readsBack_object hsorted ih
  | null => exact readsBack_scalar .null fun _ _ _ => rfl
  | boolean b =>
      refine readsBack_scalar (.boolean b) fun _ _ _ => ?_
      cases b <;> rfl
  | integer hfits => exact readsBack_integer hfits
  | string s => exact readsBack_string s

/-- The text of a portable value reads as that value where something closes it. -/
theorem readValue_print {depth : Nat} {v : Value} (h : Portable depth v) {rest : List Char}
    (hrest : Closes rest) : readValue depth (v.print ++ rest) = .ok (v, rest) := by
  refine readsBack h _ rest ?_ hrest
  rw [List.length_append]
  omega

end VoiceCall.Proofs.Json.RoundTrip
