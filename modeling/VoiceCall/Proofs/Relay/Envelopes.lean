import Mathlib.Data.List.DropRight
import VoiceCall.Proofs.Json.Objects
import VoiceCall.Proofs.Json.RoundTrip
import VoiceCall.Relay.Decoding

namespace VoiceCall.Proofs.Relay.Envelopes

open VoiceCall.Json
open VoiceCall.Relay.Message
open VoiceCall.Proofs.Json.Tokens
open VoiceCall.Proofs.Json.Numerals
open VoiceCall.Proofs.Json.RoundTrip
open VoiceCall.Proofs.Json.Places
open VoiceCall.Proofs.Json.Skipping
open VoiceCall.Proofs.Json.Objects

/-- A text begins with this number, behind blanks. -/
def WritesNumber (n : Nat) (text : List Char) : Prop :=
  ∃ rest, skipBlank text = Nat.toDigits 10 n ++ rest ∧ Stops rest

/-- A text writes this opcode: as the field of that name in an object, but not in a value there, or
as the first element of an array. -/
inductive WritesOpcode (n : Nat) (text : List Char) : Prop where
  | object {inner behind : List Char} (htext : skipBlank text = '\x7b' :: inner)
      (hfield : HasField inner "op" behind) (hnumber : WritesNumber n behind)
  | array {inner : List Char} (htext : skipBlank text = '[' :: inner)
      (hnumber : WritesNumber n inner)

theorem WritesNumber.inj {text : List Char} {n k : Nat} (hn : WritesNumber n text)
    (hk : WritesNumber k text) : n = k := by
  obtain ⟨rest, htext, hstops⟩ := hn
  obtain ⟨rest', htext', hstops'⟩ := hk
  have hscan : Numeral.scan .ended (skipBlank text) = .ok (wholeNumeral false n, rest) :=
    scan_eq_wholeNumeral_iff.mpr ⟨htext, hstops⟩
  have hscan' : Numeral.scan .ended (skipBlank text) = .ok (wholeNumeral false k, rest') :=
    scan_eq_wholeNumeral_iff.mpr ⟨htext', hstops'⟩
  have hsame : Nat.toDigits 10 n = Nat.toDigits 10 k :=
    congrArg Numeral.whole (Prod.mk.inj (Except.ok.inj (hscan.symm.trans hscan'))).1
  rw [← Nat.ofDigitChars_ten_toDigits (n := n), hsame, Nat.ofDigitChars_ten_toDigits]

theorem toWord8_eq_ok_iff {n : Number} {w : UInt8} :
    n.toWord8 = .ok w ↔ n = .integer w.toNat := by
  constructor
  · intro h
    obtain ⟨k, hrange, rfl⟩ := exists_of_map_eq_ok h
    cases n with
    | integer n =>
        rw [Number.toRange] at hrange
        split at hrange
        · cases hrange
          congr 1
          rw [UInt8.toNat_ofNat']
          omega
        · cases hrange
    | real x => cases hrange
  · rintro rfl
    have hbound := w.toNat_lt
    rw [Number.toWord8, Number.toRange, if_pos (by omega)]
    simp [Except.map]

theorem readWord8_eq_ok_iff {text rest : List Char} {w : UInt8} :
    readWord8 text = .ok (w, rest) ↔
      skipBlank text = Nat.toDigits 10 w.toNat ++ rest ∧ Stops rest := by
  constructor
  · intro h
    unfold readWord8 readNumberAs at h
    split at h
    · cases h
    · rename_i c behind hblank
      split at h
      · obtain ⟨⟨number, later⟩, hnumber, h⟩ := exists_of_bind_eq_ok h
        obtain ⟨value, hvalue, ⟨⟩⟩ := exists_of_bind_eq_ok h
        obtain rfl : number = .integer w.toNat := by
          rw [← toWord8_eq_ok_iff]
          generalize number.toWord8 = word at hvalue
          cases word with
          | ok word => exact congrArg Except.ok (Except.ok.inj hvalue)
          | error mismatch => cases hvalue
        obtain ⟨-, htext, hstops⟩ := readNumber_eq_integer_iff.mp hnumber
        rw [hblank, htext, printInteger_natCast]
        exact ⟨rfl, hstops⟩
      · cases h
  · rintro ⟨htext, hstops⟩
    obtain ⟨c, behind, hdigits, hc⟩ := exists_toDigits_eq_cons w.toNat
    have hfits : Number.fitsWord w.toNat := by
      have hbound := w.toNat_lt
      simp only [Number.fitsWord, Bool.and_eq_true, decide_eq_true_eq]
      exact ⟨le_trans (by decide) (Int.natCast_nonneg _), by simp [UInt64.size]; omega⟩
    have hnumber : readNumber (c :: (behind ++ rest)) = .ok (.integer w.toNat, rest) := by
      rw [readNumber_eq_integer_iff, printInteger_natCast, hdigits]
      exact ⟨hfits, rfl, hstops⟩
    rw [readWord8, readNumberAs, htext, hdigits, List.cons_append]
    dsimp only
    rw [if_pos hc, hnumber]
    simp only [bind, Except.bind, toWord8_eq_ok_iff.mpr rfl]
    rfl

theorem over_of_readWord8 {text rest : List Char} {w : UInt8}
    (h : readWord8 text = .ok (w, rest)) : Over text rest := by
  obtain ⟨htext, -⟩ := readWord8_eq_ok_iff.mp h
  refine .plain ((skims_of_skipBlank_eq htext).trans ⟨_, rfl, fun c hmem => quiet_of_isDigit ?_⟩)
  exact Nat.isDigit_of_mem_toDigits (by decide) (by decide) hmem

/-- A number that is read is the one that is written. -/
theorem writesNumber_iff {text rest : List Char} {w : UInt8} (h : readWord8 text = .ok (w, rest))
    (n : Nat) : WritesNumber n text ↔ n = w.toNat := by
  have hw : WritesNumber w.toNat text := ⟨rest, readWord8_eq_ok_iff.mp h⟩
  constructor
  · intro hn
    exact hn.inj hw
  · rintro rfl
    exact hw

def opcodeField : Json.Field Envelope :=
  .of "op" true readWord8 fun e opcode => { e with opcode := opcode }

def payloadField : Json.Field Envelope :=
  .of "d" false (readValue (maxDepth - 1)) fun e payload => { e with payload := payload }

theorem readEnvelope_eq :
    readEnvelope = readRecord "RawMessage" [opcodeField, payloadField] ⟨0, .null⟩ :=
  rfl

theorem read_opcodeField_eq_ok {draft held : Envelope} {text rest : List Char}
    (h : opcodeField.read draft text = .ok (held, rest)) :
    readWord8 text = .ok (held.opcode, rest) := by
  obtain ⟨⟨opcode, _⟩, hread, ⟨⟩⟩ := exists_of_map_eq_ok h
  exact hread

theorem read_payloadField_eq_ok {draft held : Envelope} {text rest : List Char}
    (h : payloadField.read draft text = .ok (held, rest)) :
    held.opcode = draft.opcode ∧ Over text rest := by
  obtain ⟨⟨payload, _⟩, hread, ⟨⟩⟩ := exists_of_map_eq_ok h
  exact ⟨rfl, over_of_readValue hread⟩

/-- The one field of an object with the opcode, if it was not seen before. -/
theorem opcode_of_reading {first : Bool} {seen : List String} {draft result : Envelope}
    {text rest : List Char}
    (h : Reading [opcodeField, payloadField] first seen draft text result rest) :
    ("op" ∈ seen → result.opcode = draft.opcode ∧ ∀ behind, ¬ HasField text "op" behind) ∧
      ("op" ∉ seen → ∃ value later, readWord8 value = .ok (result.opcode, later) ∧
        ∀ behind, HasField text "op" behind ↔ behind = value) := by
  induction h with
  | @done first seen draft text rest hnext hall =>
      refine ⟨fun _ => ⟨rfl, not_hasField_of_nextField hnext "op"⟩, fun hnew => ?_⟩
      simp [missing, opcodeField, Json.Field.of, hnew] at hall
  | @known first seen draft held result text named colon value later rest field
      hnext hname hfield hnew hcolon hread hlater ih =>
      simp only [List.mem_cons, List.not_mem_nil, or_false] at hfield
      rcases hfield with rfl | rfl
      · -- the opcode is read here and nowhere behind, since it would be refused there
        have hopcode := read_opcodeField_eq_ok hread
        obtain ⟨hkept, hnone⟩ := ih.1 List.mem_cons_self
        refine ⟨fun hseen => absurd hseen hnew, fun _ => ⟨value, later, ?_, fun behind => ?_⟩⟩
        · rw [hkept]
          exact hopcode
        · rw [hasField_iff hnext hname hcolon (over_of_readWord8 hopcode)
            (fun gap behind hgap => hlater.not_colon hgap)]
          simp [hnone, opcodeField, Json.Field.of]
      · obtain ⟨hkept, hover⟩ := read_payloadField_eq_ok hread
        have hiff (behind : List Char) :
            HasField text "op" behind ↔ HasField later "op" behind := by
          rw [hasField_iff hnext hname hcolon hover
            (fun gap behind hgap => hlater.not_colon hgap)]
          simp [payloadField, Json.Field.of]
        simp only [hiff, ← hkept]
        refine ⟨fun hseen => ih.1 (List.mem_cons_of_mem _ hseen), fun hseen => ih.2 ?_⟩
        simpa [payloadField, Json.Field.of] using hseen
  | @unknown first seen draft result text named colon value later rest name
      hnext hname hfield hcolon hskip hlater ih =>
      have hother : "op" ≠ name := hfield opcodeField List.mem_cons_self
      have hiff (behind : List Char) : HasField text "op" behind ↔ HasField later "op" behind := by
        rw [hasField_iff hnext hname hcolon (over_of_skipValue hskip)
          (fun gap behind hgap => hlater.not_colon hgap)]
        simp [hother]
      simpa only [hiff] using ih

theorem writesNumber_skipBlank {n : Nat} {text : List Char} :
    WritesNumber n (skipBlank text) ↔ WritesNumber n text := by
  have hsame : skipBlank (skipBlank text) = skipBlank text :=
    List.dropWhile_idempotent isBlank text
  rw [WritesNumber, hsame, WritesNumber]

theorem eq_skipBlank_of_nextItem {text rest : List Char}
    (h : nextItem true text = .ok (true, rest)) : rest = skipBlank text := by
  unfold nextItem at h
  split at h
  · cases h
  · cases h
  · cases h
  · cases h
    rfl

/-- The first element of an array is the opcode. -/
theorem opcode_of_readArray {draft envelope : Envelope} {text rest : List Char}
    (h : readArray "RawMessage" 2 [opcodeField, payloadField] 0 true draft text =
      .ok (envelope, rest)) :
    ∃ later, readWord8 (skipBlank text) = .ok (envelope.opcode, later) := by
  rw [readArray] at h
  obtain ⟨⟨more, value⟩, hnext, h⟩ := exists_of_bind_eq_ok h
  cases more with
  | false => cases h
  | true =>
      obtain rfl := eq_skipBlank_of_nextItem hnext
      obtain ⟨⟨held, later⟩, hread, h⟩ := exists_of_bind_eq_ok h
      refine ⟨later, ?_⟩
      rw [read_opcodeField_eq_ok hread]
      dsimp only at h
      rw [readArray] at h
      obtain ⟨⟨more, value⟩, -, h⟩ := exists_of_bind_eq_ok h
      cases more with
      | false =>
          cases h
          rfl
      | true =>
          obtain ⟨⟨last, behind⟩, hpayload, h⟩ := exists_of_bind_eq_ok h
          obtain ⟨closed, -, ⟨⟩⟩ := exists_of_map_eq_ok h
          rw [(read_payloadField_eq_ok hpayload).1]

theorem writesOpcode_iff {text rest : List Char} {envelope : Envelope}
    (h : readEnvelope text = .ok (envelope, rest)) (n : Nat) :
    WritesOpcode n text ↔ n = envelope.opcode.toNat := by
  rw [readEnvelope_eq, readRecord] at h
  split at h
  · cases h
  · rename_i inner htext
    obtain ⟨later, hopcode⟩ := opcode_of_readArray h
    rw [← writesNumber_iff hopcode, writesNumber_skipBlank]
    constructor
    · rintro (⟨htext', -⟩ | ⟨htext', hnumber⟩)
      · cases htext.symm.trans htext'
      · obtain ⟨-, rfl⟩ := List.cons.inj (htext.symm.trans htext')
        exact hnumber
    · intro hnumber
      exact .array htext hnumber
  · rename_i inner htext
    obtain ⟨value, later, hvalue, honly⟩ :=
      (opcode_of_reading (reading_of_readObjectFuel h)).2 List.not_mem_nil
    rw [← writesNumber_iff hvalue]
    constructor
    · rintro (⟨htext', hfield, hnumber⟩ | ⟨htext', -⟩)
      · obtain ⟨-, rfl⟩ := List.cons.inj (htext.symm.trans htext')
        exact (honly _).mp hfield ▸ hnumber
      · cases htext.symm.trans htext'
    · intro hnumber
      exact .object htext ((honly value).mpr rfl) hnumber
  · cases h

end VoiceCall.Proofs.Relay.Envelopes
