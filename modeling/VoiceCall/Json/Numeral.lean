import VoiceCall.Json.Value

namespace VoiceCall.Json

/-- The digits of a numeral by their places; the exponent comes with its sign. -/
structure Numeral where
  negative : Bool
  whole : List Char
  fraction : List Char
  exponent : Option (Bool × List Char)
  /-- Whether the numeral has neither a point nor an exponent. -/
  plain : Bool
deriving DecidableEq, Repr

/-- At least one digit and all that follow it; `short` says what it means that the text ends
before. -/
def scanDigits (short : Fault) : List Char → Except Fault (List Char × List Char)
  | [] => .error short
  | c :: rest =>
    if c.isDigit then
      .ok (c :: rest.takeWhile Char.isDigit, rest.dropWhile Char.isDigit)
    else
      .error .malformed

/-- The digits before the point: a zero stands alone. -/
def scanWhole (short : Fault) : List Char → Except Fault (List Char × List Char)
  | '0' :: c :: rest => if c.isDigit then .error .malformed else .ok (['0'], c :: rest)
  | text => scanDigits short text

def scanFraction (short : Fault) : List Char → Except Fault (List Char × List Char)
  | '.' :: rest => scanDigits short rest
  | text => .ok ([], text)

def scanExponent (short : Fault) :
    List Char → Except Fault (Option (Bool × List Char) × List Char)
  | c :: rest =>
    if c = 'e' ∨ c = 'E' then
      let (negative, rest) :=
        match rest with
        | '-' :: rest => (true, rest)
        | '+' :: rest => (false, rest)
        | rest => (false, rest)
      (scanDigits short rest).map fun (digits, rest) => (some (negative, digits), rest)
    else
      .ok (none, c :: rest)
  | [] => .ok (none, [])

def Numeral.scan (short : Fault) (text : List Char) : Except Fault (Numeral × List Char) := do
  let (negative, text) :=
    match text with
    | '-' :: rest => (true, rest)
    | text => (false, text)
  let (whole, text) ← scanWhole short text
  let (fraction, text) ← scanFraction short text
  let (exponent, text) ← scanExponent short text
  return (⟨negative, whole, fraction, exponent, fraction.isEmpty && exponent.isNone⟩, text)

namespace Numeral

/-- The largest significand kept of a numeral. -/
def maxSignificand : Nat := UInt64.size - 1

/-- The largest exponent that is looked at digit by digit. -/
def maxExponent : Nat := 0x7fffffff

/-- Appends digits to a number as long as it stays under a bound; the digits left over come
second. -/
def accumulate (bound : Nat) : Nat → List Char → Nat × List Char
  | n, [] => (n, [])
  | n, c :: rest =>
    let next := n * 10 + (c.toNat - 48)
    if next ≤ bound then accumulate bound next rest else (n, c :: rest)

def powerOfTen (n : Nat) : Float :=
  Float.ofScientific 1 false n

/-- A double divided by a power of ten, in steps that the range of doubles allows. -/
def scaleDown (x : Float) (n : Nat) : Float :=
  if n ≤ 308 then
    x / powerOfTen n
  else if x == 0 then
    x
  else
    scaleDown (x / powerOfTen 308) (n - 308)
termination_by n

/-- The double of a significand and a power of ten, rounded once for the significand and once for
each step of scaling; none if it is out of range. -/
def scale (significand : Nat) (exponent : Int) : Option Float :=
  let x := significand.toUInt64.toFloat
  if exponent < 0 then
    some (scaleDown x (-exponent).toNat)
  else if exponent ≤ 308 then
    let y := x * powerOfTen exponent.toNat
    if y.isInf then none else some y
  else if x == 0 then
    some x
  else
    none

/-- The magnitude as a double; none if it is out of range. -/
def magnitude (n : Numeral) : Option Float :=
  let (head, rest) := accumulate maxSignificand 0 n.whole
  let (significand, unused) := accumulate maxSignificand head n.fraction
  let shift : Int := rest.length - (n.fraction.length - unused.length : Nat)
  match n.exponent with
  | none => scale significand shift
  | some (negative, digits) =>
    match accumulate maxExponent 0 digits with
    | (e, []) => scale significand (if negative then shift - e else shift + e)
    | (_, _ :: _) => if significand = 0 ∨ negative then some 0 else none

/-- The number that a numeral stands for; none if it is out of range. -/
def value (n : Numeral) : Option Number :=
  let integer : Int :=
    if n.negative then -(Nat.ofDigitChars 10 n.whole 0 : Int) else Nat.ofDigitChars 10 n.whole 0
  if n.plain ∧ Number.fitsWord integer ∧ ¬(n.negative ∧ integer = 0) then
    some (.integer integer)
  else
    n.magnitude.map fun x => .real (if n.negative then -x else x)

end Numeral

end VoiceCall.Json
