import VoiceCall.Json.Value

namespace VoiceCall.Json

/-- A character inside a string: quotes, backslashes and controls are escaped, nothing else is. -/
def escapeChar (c : Char) : List Char :=
  match c with
  | '"' => ['\\', '"']
  | '\\' => ['\\', '\\']
  | '\x08' => ['\\', 'b']
  | '\x0c' => ['\\', 'f']
  | '\n' => ['\\', 'n']
  | '\r' => ['\\', 'r']
  | '\t' => ['\\', 't']
  | c =>
    if c.toNat < 0x20 then
      ['\\', 'u', '0', '0', Nat.digitChar (c.toNat / 16), Nat.digitChar (c.toNat % 16)]
    else
      [c]

def printString (s : String) : List Char :=
  '"' :: s.toList.flatMap escapeChar ++ ['"']

def printInteger (n : Int) : List Char :=
  if n < 0 then '-' :: Nat.toDigits 10 n.natAbs else Nat.toDigits 10 n.toNat

/-- A double; one that is not finite has no numeral and is null. -/
def printDouble (x : Float) : List Char :=
  if x.isFinite then doubleText x else "null".toList

/-- A single; one that is not finite has no numeral and is null. -/
def printSingle (x : Float32) : List Char :=
  if x.isFinite then singleText x else "null".toList

def printBoolean (b : Bool) : List Char :=
  if b then "true".toList else "false".toList

def Number.print : Number → List Char
  | integer n => printInteger n
  | real x => printDouble x

mutual

def Value.print : Value → List Char
  | .null => "null".toList
  | .boolean b => printBoolean b
  | .number n => n.print
  | .string s => printString s
  | .array [] => ['[', ']']
  | .array (item :: items) => '[' :: (item.print ++ printItems items)
  | .object [] => ['\x7b', '\x7d']
  | .object ((name, value) :: fields) =>
    '\x7b' :: (printString name ++ ':' :: (value.print ++ printFields fields))

def printItems : List Value → List Char
  | [] => [']']
  | item :: items => ',' :: (item.print ++ printItems items)

def printFields : List (String × Value) → List Char
  | [] => ['\x7d']
  | (name, value) :: fields =>
    ',' :: (printString name ++ ':' :: (value.print ++ printFields fields))

end

end VoiceCall.Json
