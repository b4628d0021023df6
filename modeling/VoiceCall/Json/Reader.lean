import VoiceCall.Json.Numeral

/-!
Reading JSON values from text. Every reader takes the text in front of it and gives back what it
read and the text behind. Values nest to a bounded depth; what is skipped may nest deeper.
-/

namespace VoiceCall.Json

def isBlank (c : Char) : Bool :=
  c = ' ' || c = '\t' || c = '\n' || c = '\r'

def skipBlank (text : List Char) : List Char :=
  text.dropWhile isBlank

def expectWord : List Char → List Char → Except Fault (List Char)
  | [], text => .ok text
  | _ :: _, [] => .error .ended
  | c :: word, d :: text => if c = d then expectWord word text else .error .malformed

def hexDigit? (c : Char) : Option Nat :=
  if '0' ≤ c ∧ c ≤ '9' then some (c.toNat - 48)
  else if 'a' ≤ c ∧ c ≤ 'f' then some (c.toNat - 87)
  else if 'A' ≤ c ∧ c ≤ 'F' then some (c.toNat - 55)
  else none

/-- The 16-bit unit that four digits in base sixteen spell. -/
def hexUnit? (a b c d : Char) : Option Nat := do
  let a ← hexDigit? a
  let b ← hexDigit? b
  let c ← hexDigit? c
  let d ← hexDigit? d
  return ((a * 16 + b) * 16 + c) * 16 + d

/-- Fewer than four characters follow an escape. The text has ended before the escape has, unless
four bytes follow and cannot be its digits. -/
def brokenUnit (rest : List Char) : Fault :=
  if 4 ≤ (String.ofList rest).utf8ByteSize then .malformed else .ended

def simpleEscape? (c : Char) : Option Char :=
  match c with
  | '"' => some '"'
  | '\\' => some '\\'
  | '/' => some '/'
  | 'b' => some '\x08'
  | 'f' => some '\x0c'
  | 'n' => some '\n'
  | 'r' => some '\r'
  | 't' => some '\t'
  | _ => none

/-- The characters up to the closing quote. A unit of the upper half of a pair must be followed by
one of the lower half. -/
def readCharacters : List Char → Except Fault (List Char × List Char)
  | [] => .error .ended
  | '"' :: rest => .ok ([], rest)
  | '\\' :: 'u' :: a :: b :: c :: d :: rest =>
    match hexUnit? a b c d with
    | none => .error .malformed
    | some high =>
      if 0xd800 ≤ high ∧ high < 0xdc00 then
        match rest with
        | '\\' :: 'u' :: a :: b :: c :: d :: rest =>
          match hexUnit? a b c d with
          | none => .error .malformed
          | some low =>
            if 0xdc00 ≤ low ∧ low < 0xe000 then
              let code := 0x10000 + (high - 0xd800) * 0x400 + (low - 0xdc00)
              (readCharacters rest).map fun (cs, rest) => (Char.ofNat code :: cs, rest)
            else
              .error .malformed
        | '\\' :: 'u' :: rest => .error (brokenUnit rest)
        | ['\\'] => .error .ended
        | [] => .error .ended
        | _ => .error .malformed
      else if 0xdc00 ≤ high ∧ high < 0xe000 then
        .error .malformed
      else
        (readCharacters rest).map fun (cs, rest) => (Char.ofNat high :: cs, rest)
  | '\\' :: 'u' :: rest => .error (brokenUnit rest)
  | '\\' :: c :: rest =>
    match simpleEscape? c with
    | none => .error .malformed
    | some c => (readCharacters rest).map fun (cs, rest) => (c :: cs, rest)
  | ['\\'] => .error .ended
  | c :: rest =>
    if c.toNat < 0x20 then
      .error .malformed
    else
      (readCharacters rest).map fun (cs, rest) => (c :: cs, rest)

def readString (text : List Char) : Except Fault (String × List Char) :=
  (readCharacters text).map fun (cs, rest) => (String.ofList cs, rest)

/-- The text behind a string that nobody reads; its escapes need not make characters. -/
def skipString : List Char → Except Fault (List Char)
  | [] => .error .ended
  | '"' :: rest => .ok rest
  | '\\' :: 'u' :: a :: b :: c :: d :: rest =>
    match hexUnit? a b c d with
    | none => .error .malformed
    | some _ => skipString rest
  | '\\' :: 'u' :: rest => .error (brokenUnit rest)
  | '\\' :: c :: rest =>
    match simpleEscape? c with
    | none => .error .malformed
    | some _ => skipString rest
  | ['\\'] => .error .ended
  | c :: rest => if c.toNat < 0x20 then .error .malformed else skipString rest

/-- Whether a number may start with this character. -/
def startsNumber (c : Char) : Bool :=
  c = '-' || c.isDigit

def readNumber (text : List Char) : Except Fault (Number × List Char) := do
  let (numeral, rest) ← Numeral.scan .ended text
  match numeral.value with
  | some number => return (number, rest)
  | none => .error .malformed

def skipNumber (text : List Char) : Except Fault (List Char) :=
  (Numeral.scan .malformed text).map Prod.snd

def readColon (text : List Char) : Except Fault (List Char) :=
  match skipBlank text with
  | ':' :: rest => .ok rest
  | [] => .error .ended
  | _ => .error .malformed

/-- Stands at an element of an array, or behind the end of the array. -/
def nextItem (first : Bool) (text : List Char) : Except Fault (Bool × List Char) :=
  match skipBlank text with
  | [] => .error .ended
  | ']' :: rest => .ok (false, rest)
  | ',' :: rest =>
    if first then
      .error .malformed
    else
      match skipBlank rest with
      | [] => .error .ended
      | ']' :: _ => .error .malformed
      | rest => .ok (true, rest)
  | rest => if first then .ok (true, rest) else .error .malformed

/-- Stands behind the opening quote of a field's name, or behind the end of the object. -/
def nextField (first : Bool) (text : List Char) : Except Fault (Bool × List Char) :=
  match skipBlank text with
  | [] => .error .ended
  | '\x7d' :: rest => .ok (false, rest)
  | ',' :: rest =>
    if first then
      .error .malformed
    else
      match skipBlank rest with
      | [] => .error .ended
      | '"' :: rest => .ok (true, rest)
      | _ => .error .malformed
  | '"' :: rest => if first then .ok (true, rest) else .error .malformed
  | _ => .error .malformed

/-- Arrays and objects that may be open at once. -/
def maxDepth : Nat := 127

mutual

/-- Reads a value in which `depth` arrays and objects may be open at once. -/
def readValueFuel : Nat → Nat → List Char → Except Fault (Value × List Char)
  | 0, _, _ => .error .malformed
  | fuel + 1, depth, text =>
    match skipBlank text with
    | [] => .error .ended
    | 'n' :: rest => (expectWord ['u', 'l', 'l'] rest).map (.null, ·)
    | 't' :: rest => (expectWord ['r', 'u', 'e'] rest).map (.boolean true, ·)
    | 'f' :: rest => (expectWord ['a', 'l', 's', 'e'] rest).map (.boolean false, ·)
    | '"' :: rest => (readString rest).map fun (s, rest) => (.string s, rest)
    | '[' :: rest =>
      if depth = 0 then
        .error .malformed
      else
        (readItemsFuel fuel (depth - 1) true rest).map fun (items, rest) => (.array items, rest)
    | '\x7b' :: rest =>
      if depth = 0 then
        .error .malformed
      else
        (readFieldsFuel fuel (depth - 1) true rest).map fun (fields, rest) =>
          (.ofFields fields, rest)
    | c :: rest =>
      if startsNumber c then
        (readNumber (c :: rest)).map fun (n, rest) => (.number n, rest)
      else
        .error .malformed

def readItemsFuel : Nat → Nat → Bool → List Char → Except Fault (List Value × List Char)
  | 0, _, _, _ => .error .malformed
  | fuel + 1, depth, first, text => do
    let (more, text) ← nextItem first text
    if more then
      let (item, text) ← readValueFuel fuel depth text
      let (items, text) ← readItemsFuel fuel depth false text
      return (item :: items, text)
    else
      return ([], text)

def readFieldsFuel :
    Nat → Nat → Bool → List Char → Except Fault (List (String × Value) × List Char)
  | 0, _, _, _ => .error .malformed
  | fuel + 1, depth, first, text => do
    let (more, text) ← nextField first text
    if more then
      let (name, text) ← readString text
      let text ← readColon text
      let (value, text) ← readValueFuel fuel depth text
      let (fields, text) ← readFieldsFuel fuel depth false text
      return ((name, value) :: fields, text)
    else
      return ([], text)

end

/-- Reads a value; the length of the text is bound enough for its recursion. -/
def readValue (depth : Nat) (text : List Char) : Except Fault (Value × List Char) :=
  readValueFuel (2 * text.length + 1) depth text

mutual

/-- Passes over a value that nobody reads: any depth, numbers of any size. -/
def skipValueFuel : Nat → List Char → Except Fault (List Char)
  | 0, _ => .error .malformed
  | fuel + 1, text =>
    match skipBlank text with
    | [] => .error .ended
    | 'n' :: rest => expectWord ['u', 'l', 'l'] rest
    | 't' :: rest => expectWord ['r', 'u', 'e'] rest
    | 'f' :: rest => expectWord ['a', 'l', 's', 'e'] rest
    | '"' :: rest => skipString rest
    | '[' :: rest => skipItemsFuel fuel true rest
    | '\x7b' :: rest => skipFieldsFuel fuel true rest
    | c :: rest => if startsNumber c then skipNumber (c :: rest) else .error .malformed

def skipItemsFuel : Nat → Bool → List Char → Except Fault (List Char)
  | 0, _, _ => .error .malformed
  | fuel + 1, first, text => do
    let (more, text) ← nextItem first text
    if more then
      let text ← skipValueFuel fuel text
      skipItemsFuel fuel false text
    else
      return text

def skipFieldsFuel : Nat → Bool → List Char → Except Fault (List Char)
  | 0, _, _ => .error .malformed
  | fuel + 1, first, text => do
    let (more, text) ← nextField first text
    if more then
      let text ← skipString text
      let text ← readColon text
      let text ← skipValueFuel fuel text
      skipFieldsFuel fuel false text
    else
      return text

end

def skipValue (text : List Char) : Except Fault (List Char) :=
  skipValueFuel (2 * text.length + 1) text

def finish (text : List Char) : Except Fault Unit :=
  if (skipBlank text).isEmpty then .ok () else .error .malformed

end VoiceCall.Json
