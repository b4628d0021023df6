namespace VoiceCall.Media

def splitAt (separator : Char) : List Char → List (List Char)
  | [] => [[]]
  | c :: rest =>
    if c = separator then
      [] :: splitAt separator rest
    else
      match splitAt separator rest with
      | part :: parts => (c :: part) :: parts
      | [] => [[c]]

def decimalValue (digits : List Char) : Nat :=
  digits.foldl (fun n c => n * 10 + (c.toNat - '0'.toNat)) 0

def isByteNumeral (digits : List Char) : Bool :=
  !digits.isEmpty && digits.length ≤ 3 && digits.all Char.isDigit &&
    (digits.length = 1 || digits.head? != some '0') && decimalValue digits < 256

/-- Four bytes between dots. -/
def isShortAddress (text : List Char) : Bool :=
  let parts := splitAt '.' text
  parts.length = 4 && parts.all isByteNumeral

def isHexDigit (c : Char) : Bool :=
  c.isDigit || ('a' ≤ c && c ≤ 'f') || ('A' ≤ c && c ≤ 'F')

/-- Up to four digits in base sixteen. -/
def isGroup (digits : List Char) : Bool :=
  !digits.isEmpty && digits.length ≤ 4 && digits.all isHexDigit

/-- The count of 16-bit groups in a list of parts, of which the last may be a short address. -/
def groupCount (lastMayBeShort : Bool) : List (List Char) → Option Nat
  | [] => some 0
  | [part] =>
    if isGroup part then some 1
    else if lastMayBeShort && isShortAddress part then some 2
    else none
  | part :: parts =>
    if isGroup part then (groupCount lastMayBeShort parts).map (· + 1) else none

def sideCount (lastMayBeShort : Bool) (text : List Char) : Option Nat :=
  if text.isEmpty then some 0 else groupCount lastMayBeShort (splitAt ':' text)

/-- What stands before and behind the first double colon. -/
def splitGap : List Char → Option (List Char × List Char)
  | ':' :: ':' :: rest => some ([], rest)
  | c :: rest => (splitGap rest).map fun (head, tail) => (c :: head, tail)
  | [] => none

/-- Eight groups between colons, or fewer around one double colon that stands for the others. -/
def isLongAddress (text : List Char) : Bool :=
  match splitGap text with
  | none => groupCount true (splitAt ':' text) = some 8
  | some (head, tail) =>
    match sideCount false head, sideCount true tail with
    | some before, some behind => before + behind ≤ 7
    | _, _ => false

def isNumericAddress (text : String) : Bool :=
  isShortAddress text.toList || isLongAddress text.toList

end VoiceCall.Media
