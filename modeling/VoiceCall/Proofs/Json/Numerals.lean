import Mathlib.Data.List.Induction
import VoiceCall.Json.Printer
import VoiceCall.Proofs.Json.Tokens

namespace VoiceCall.Proofs.Json.Numerals

open VoiceCall.Json
open VoiceCall.Proofs.Json.Tokens

variable {short : Json.Fault} {text rest : List Char}

/-- No digit goes on with what was read. -/
def Undigited (rest : List Char) : Prop :=
  ∀ c ∈ rest.head?, c.isDigit = false

theorem takeWhile_dropWhile_of_undigited {digits : List Char} (hdigits : ∀ c ∈ digits, c.isDigit)
    (hrest : Undigited rest) :
    (digits ++ rest).takeWhile Char.isDigit = digits ∧
      (digits ++ rest).dropWhile Char.isDigit = rest := by
  rw [List.takeWhile_append_of_pos hdigits, List.dropWhile_append_of_pos hdigits]
  cases rest with
  | nil => simp
  | cons c rest => simp [hrest c rfl]

theorem scanDigits_eq_ok_iff {digits : List Char} :
    scanDigits short text = .ok (digits, rest) ↔
      text = digits ++ rest ∧ digits ≠ [] ∧ (∀ c ∈ digits, c.isDigit) ∧ Undigited rest := by
  constructor
  · intro h
    cases text with
    | nil => cases h
    | cons c text =>
        rw [scanDigits] at h
        split at h
        · rename_i hc
          cases h
          refine ⟨?_, List.cons_ne_nil _ _, ?_, ?_⟩
          · rw [List.cons_append, List.takeWhile_append_dropWhile]
          · intro d hmem
            rcases List.mem_cons.mp hmem with rfl | hmem
            · exact hc
            · exact List.all_eq_true.mp List.all_takeWhile d hmem
          · intro d hhead
            have hstop := List.head?_dropWhile_not Char.isDigit text
            rwa [Option.mem_def.mp hhead] at hstop
        · cases h
  · rintro ⟨rfl, hne, hdigits, hrest⟩
    cases digits with
    | nil => exact absurd rfl hne
    | cons c digits =>
        obtain ⟨htake, hdrop⟩ := takeWhile_dropWhile_of_undigited
          (fun d hmem => hdigits d (List.mem_cons_of_mem c hmem)) hrest
        rw [List.cons_append, scanDigits, if_pos (hdigits c List.mem_cons_self), htake, hdrop]

theorem exists_digitChar_of_isDigit {c : Char} (h : c.isDigit) : ∃ d < 10, c = Nat.digitChar d := by
  have hall : ∀ n < 58, 48 ≤ n → Char.ofNat n = Nat.digitChar (n - 48) := by decide
  have hrange : 48 ≤ c.toNat ∧ c.toNat ≤ 57 := by
    simpa [Char.isDigit, UInt32.le_iff_toNat_le] using h
  refine ⟨c.toNat - 48, by omega, ?_⟩
  rw [← hall c.toNat (by omega) hrange.1, Char.ofNat_toNat]

theorem toDigits_eq_zero_cons {n : Nat} {tail : List Char} (h : Nat.toDigits 10 n = '0' :: tail) :
    tail = [] := by
  induction n using Nat.strongRecOn generalizing tail with
  | ind n ih =>
      rw [Nat.toDigits_eq_if (by decide)] at h
      split at h
      · exact (List.cons.inj h).2.symm
      · rename_i hlarge
        cases hfirst : Nat.toDigits 10 (n / 10) with
        | nil => exact absurd hfirst Nat.toDigits_ne_nil
        | cons c first =>
            rw [hfirst] at h
            obtain ⟨rfl, -⟩ := List.cons.inj h
            have hzero : Nat.toDigits 10 (n / 10) = Nat.toDigits 10 0 := by
              rw [hfirst, ih (n / 10) (by omega) hfirst, Nat.toDigits_zero]
            have hvalue := congrArg (Nat.ofDigitChars 10 · 0) hzero
            simp only [Nat.ofDigitChars_ten_toDigits] at hvalue
            omega

/-- Digits spell a number if there are any and a zero leads no other. -/
theorem exists_toDigits_iff {digits : List Char} :
    (∃ n, digits = Nat.toDigits 10 n) ↔
      digits ≠ [] ∧ (∀ c ∈ digits, c.isDigit) ∧ ∀ tail, digits = '0' :: tail → tail = [] := by
  constructor
  · rintro ⟨n, rfl⟩
    exact ⟨Nat.toDigits_ne_nil, fun c => Nat.isDigit_of_mem_toDigits (by decide) (by decide),
      fun tail => toDigits_eq_zero_cons⟩
  · rintro ⟨hne, hdigits, hlead⟩
    induction digits using List.reverseRecOn with
    | nil => exact absurd rfl hne
    | append_singleton digits c ih =>
        obtain ⟨d, hd, rfl⟩ := exists_digitChar_of_isDigit (hdigits c (by simp))
        rcases eq_or_ne digits [] with rfl | hbefore
        · exact ⟨d, (Nat.toDigits_of_lt_base hd).symm⟩
        · obtain ⟨n, rfl⟩ := ih hbefore (fun c hmem => hdigits c (List.mem_append_left _ hmem))
            fun tail htail => by
              have := hlead (tail ++ [Nat.digitChar d]) (by rw [htail]; rfl)
              simp at this
          have hpositive : 0 < n := by
            rw [Nat.pos_iff_ne_zero]
            rintro rfl
            have := hlead [Nat.digitChar d] (by rw [Nat.toDigits_zero]; rfl)
            simp at this
          refine ⟨10 * n + d, ?_⟩
          rw [← Nat.toDigits_append_toDigits (by decide) hpositive hd, Nat.toDigits_of_lt_base hd]

theorem scanWhole_eq_ok_iff {whole : List Char} :
    scanWhole short text = .ok (whole, rest) ↔
      text = whole ++ rest ∧ (∃ n, whole = Nat.toDigits 10 n) ∧ Undigited rest := by
  rw [exists_toDigits_iff]
  unfold scanWhole
  split
  · rename_i c behind
    constructor
    · intro h
      split at h
      · cases h
      · rename_i hc
        cases h
        refine ⟨rfl, ⟨by simp, by simp, ?_⟩, ?_⟩
        · rintro tail ⟨⟩
          rfl
        · rintro d ⟨⟩
          simpa using hc
    · rintro ⟨htext, ⟨hne, hdigits, hlead⟩, hrest⟩
      cases whole with
      | nil => exact absurd rfl hne
      | cons d whole =>
          obtain ⟨rfl, hbehind⟩ := List.cons.inj htext
          obtain rfl := hlead whole rfl
          obtain rfl : c :: behind = rest := hbehind
          rw [if_neg (by simp [hrest c rfl])]
  · rename_i hzero
    rw [scanDigits_eq_ok_iff]
    constructor
    · rintro ⟨rfl, hne, hdigits, hrest⟩
      refine ⟨rfl, ⟨hne, hdigits, ?_⟩, hrest⟩
      rintro tail rfl
      cases tail with
      | nil => rfl
      | cons c tail => exact absurd rfl (hzero c (tail ++ rest))
    · rintro ⟨htext, ⟨hne, hdigits, -⟩, hrest⟩
      exact ⟨htext, hne, hdigits, hrest⟩

def minus : Bool → List Char
  | true => ['-']
  | false => []

theorem exists_cons_of_scanWhole {whole : List Char}
    (h : scanWhole short text = .ok (whole, rest)) :
    ∃ c behind, text = c :: behind ∧ c.isDigit := by
  obtain ⟨rfl, hwhole, -⟩ := scanWhole_eq_ok_iff.mp h
  obtain ⟨hne, hdigits, -⟩ := exists_toDigits_iff.mp hwhole
  cases whole with
  | nil => exact absurd rfl hne
  | cons c whole => exact ⟨c, whole ++ rest, rfl, hdigits c List.mem_cons_self⟩

/-- The parts of a numeral in front of a text, one behind the other. -/
structure Parts (short : Json.Fault) (text : List Char) (n : Numeral) (rest : List Char) where
  body : List Char
  pointed : List Char
  marked : List Char
  sign : text = minus n.negative ++ body
  whole : scanWhole short body = .ok (n.whole, pointed)
  fraction : scanFraction short pointed = .ok (n.fraction, marked)
  exponent : scanExponent short marked = .ok (n.exponent, rest)
  plain : n.plain = (n.fraction.isEmpty && n.exponent.isNone)

theorem parts_of_scan {n : Numeral} (h : Numeral.scan short text = .ok (n, rest)) :
    Nonempty (Parts short text n rest) := by
  unfold Numeral.scan at h
  obtain ⟨⟨whole, pointed⟩, hwhole, h⟩ := exists_of_bind_eq_ok h
  obtain ⟨⟨fraction, marked⟩, hfraction, h⟩ := exists_of_bind_eq_ok h
  obtain ⟨⟨exponent, behind⟩, hexponent, h⟩ := exists_of_bind_eq_ok h
  cases h
  split at hwhole
  · exact ⟨⟨_, pointed, marked, rfl, hwhole, hfraction, hexponent, rfl⟩⟩
  · exact ⟨⟨_, pointed, marked, rfl, hwhole, hfraction, hexponent, rfl⟩⟩

theorem Parts.scan {n : Numeral} (p : Parts short text n rest) :
    Numeral.scan short text = .ok (n, rest) := by
  rcases n with ⟨negative, whole, fraction, exponent, plain⟩
  rcases p with ⟨body, pointed, marked, hsign, hwhole, hfraction, hexponent, hplain⟩
  dsimp only at hsign hwhole hfraction hexponent hplain
  subst hsign hplain
  cases negative with
  | true =>
      change Numeral.scan short ('-' :: body) = _
      simp only [Numeral.scan, bind, Except.bind, hwhole, hfraction, hexponent]
      rfl
  | false =>
      obtain ⟨c, behind, rfl, hc⟩ := exists_cons_of_scanWhole hwhole
      have hsign : c ≠ '-' := by
        rintro rfl
        cases hc
      change Numeral.scan short (c :: behind) = _
      simp [Numeral.scan, bind, Except.bind, hsign, hwhole, hfraction, hexponent]
      rfl

theorem scanFraction_eq_nil_iff :
    scanFraction short text = .ok ([], rest) ↔ text = rest ∧ '.' ∉ rest.head? := by
  unfold scanFraction
  split
  · rw [scanDigits_eq_ok_iff]
    constructor
    · rintro ⟨-, hne, -⟩
      exact absurd rfl hne
    · rintro ⟨rfl, hpoint⟩
      exact absurd rfl hpoint
  · rename_i hpoint
    constructor
    · rintro ⟨⟩
      refine ⟨rfl, fun hhead => ?_⟩
      obtain ⟨behind, rfl⟩ := List.head?_eq_some_iff.mp hhead
      exact hpoint behind rfl
    · rintro ⟨rfl, -⟩
      rfl

theorem scanExponent_eq_none_iff :
    scanExponent short text = .ok (none, rest) ↔
      text = rest ∧ 'e' ∉ rest.head? ∧ 'E' ∉ rest.head? := by
  unfold scanExponent
  split
  · rename_i c behind
    split
    · rename_i hmark
      constructor
      · intro h
        obtain ⟨_, -, ⟨⟩⟩ := exists_of_map_eq_ok h
      · rintro ⟨rfl, hsmall, hlarge⟩
        rcases hmark with rfl | rfl
        · exact absurd rfl hsmall
        · exact absurd rfl hlarge
    · rename_i hmark
      rw [not_or] at hmark
      constructor
      · rintro ⟨⟩
        simpa using hmark
      · rintro ⟨rfl, -⟩
        rfl
  · constructor
    · rintro ⟨⟩
      simp
    · rintro ⟨rfl, -⟩
      rfl

/-- Nothing goes on with a numeral that stands in front. -/
def Stops (rest : List Char) : Prop :=
  Undigited rest ∧ '.' ∉ rest.head? ∧ 'e' ∉ rest.head? ∧ 'E' ∉ rest.head?

def wholeNumeral (negative : Bool) (n : Nat) : Numeral :=
  ⟨negative, Nat.toDigits 10 n, [], none, true⟩

theorem scan_eq_wholeNumeral_iff {negative : Bool} {n : Nat} :
    Numeral.scan short text = .ok (wholeNumeral negative n, rest) ↔
      text = minus negative ++ Nat.toDigits 10 n ++ rest ∧ Stops rest := by
  constructor
  · intro h
    obtain ⟨body, pointed, marked, rfl, hwhole, hfraction, hexponent, -⟩ := parts_of_scan h
    obtain ⟨rfl, -, hdigit⟩ := scanWhole_eq_ok_iff.mp hwhole
    obtain ⟨rfl, hpoint⟩ := scanFraction_eq_nil_iff.mp hfraction
    obtain ⟨rfl, hmark⟩ := scanExponent_eq_none_iff.mp hexponent
    exact ⟨(List.append_assoc _ _ _).symm, hdigit, hpoint, hmark⟩
  · rintro ⟨rfl, hdigit, hpoint, hmark⟩
    refine Parts.scan ⟨Nat.toDigits 10 n ++ rest, rest, rest, List.append_assoc _ _ _, ?_, ?_, ?_,
      rfl⟩
    · exact scanWhole_eq_ok_iff.mpr ⟨rfl, ⟨n, rfl⟩, hdigit⟩
    · exact scanFraction_eq_nil_iff.mpr ⟨rfl, hpoint⟩
    · exact scanExponent_eq_none_iff.mpr ⟨rfl, hmark⟩

def signed (negative : Bool) (n : Nat) : Int :=
  if negative then -n else n

theorem value_eq_integer_iff {n : Numeral} {k : Int} :
    n.value = some (.integer k) ↔
      n.plain ∧ Number.fitsWord k ∧ ¬ (n.negative ∧ k = 0) ∧
        k = signed n.negative (Nat.ofDigitChars 10 n.whole 0) := by
  unfold Numeral.value
  change (if n.plain ∧ Number.fitsWord (signed _ _) ∧ ¬ (n.negative ∧ signed _ _ = 0) then
    some (Number.integer (signed _ _)) else _) = _ ↔ _
  generalize signed n.negative (Nat.ofDigitChars 10 n.whole 0) = integer
  split
  · rename_i hplain
    constructor
    · rintro ⟨⟩
      exact ⟨hplain.1, hplain.2.1, hplain.2.2, rfl⟩
    · rintro ⟨-, -, -, rfl⟩
      rfl
  · rename_i hplain
    constructor
    · intro h
      obtain ⟨x, -, ⟨⟩⟩ := Option.map_eq_some_iff.mp h
    · rintro ⟨h, hfits, hzero, rfl⟩
      exact absurd ⟨h, hfits, hzero⟩ hplain

theorem printInteger_natCast (n : Nat) : printInteger n = Nat.toDigits 10 n := by
  rw [printInteger, if_neg (by omega), Int.toNat_natCast]

theorem printInteger_signed {negative : Bool} {n : Nat} (h : ¬ (negative ∧ signed negative n = 0)) :
    printInteger (signed negative n) = minus negative ++ Nat.toDigits 10 n := by
  cases negative with
  | false => simp [signed, printInteger, minus]
  | true =>
      have hpositive : n ≠ 0 := by
        simpa [signed] using h
      simp [signed, printInteger, minus, Nat.pos_iff_ne_zero, hpositive]

theorem exists_signed (k : Int) :
    ∃ negative n, k = signed negative n ∧ ¬ (negative = true ∧ k = 0) := by
  by_cases hneg : k < 0
  · refine ⟨true, k.natAbs, ?_, by omega⟩
    rw [signed, if_pos rfl]
    omega
  · refine ⟨false, k.natAbs, ?_, by simp⟩
    rw [signed, if_neg Bool.false_ne_true]
    omega

theorem eq_wholeNumeral_of_plain {n : Numeral} (h : Numeral.scan short text = .ok (n, rest))
    (hplain : n.plain) :
    n = wholeNumeral n.negative (Nat.ofDigitChars 10 n.whole 0) := by
  obtain ⟨_, _, _, -, hwhole, -, -, hparts⟩ := parts_of_scan h
  obtain ⟨-, ⟨k, hk⟩, -⟩ := scanWhole_eq_ok_iff.mp hwhole
  rcases n with ⟨negative, whole, fraction, exponent, plain⟩
  obtain rfl : whole = Nat.toDigits 10 k := hk
  obtain rfl : plain = true := hplain
  obtain ⟨hfraction, hexponent⟩ := Bool.and_eq_true_iff.mp hparts.symm
  obtain rfl : fraction = [] := List.isEmpty_iff.mp hfraction
  obtain rfl : exponent = none := Option.isNone_iff_eq_none.mp hexponent
  rw [wholeNumeral, Nat.ofDigitChars_ten_toDigits]

theorem readNumber_eq_integer_iff {k : Int} :
    readNumber text = .ok (.integer k, rest) ↔
      Number.fitsWord k ∧ text = printInteger k ++ rest ∧ Stops rest := by
  constructor
  · intro h
    obtain ⟨⟨n, behind⟩, hscan, h⟩ := exists_of_bind_eq_ok h
    dsimp only at h
    split at h
    · rename_i number hvalue
      cases h
      obtain ⟨hplain, hfits, hzero, hk⟩ := value_eq_integer_iff.mp hvalue
      rw [eq_wholeNumeral_of_plain hscan hplain] at hscan
      obtain ⟨htext, hstops⟩ := scan_eq_wholeNumeral_iff.mp hscan
      rw [hk] at hzero
      rw [hk, printInteger_signed hzero]
      exact ⟨hk ▸ hfits, htext, hstops⟩
    · cases h
  · rintro ⟨hfits, rfl, hstops⟩
    obtain ⟨negative, n, hk, hzero⟩ := exists_signed k
    have hscan : Numeral.scan .ended (printInteger k ++ rest) =
        .ok (wholeNumeral negative n, rest) := by
      rw [scan_eq_wholeNumeral_iff, hk, printInteger_signed (hk ▸ hzero)]
      exact ⟨rfl, hstops⟩
    have hvalue : (wholeNumeral negative n).value = some (.integer k) :=
      value_eq_integer_iff.mpr ⟨rfl, hfits, hzero, by
        rw [hk, wholeNumeral, Nat.ofDigitChars_ten_toDigits]⟩
    rw [readNumber, hscan]
    simp only [bind, Except.bind, hvalue]
    rfl

end VoiceCall.Proofs.Json.Numerals
