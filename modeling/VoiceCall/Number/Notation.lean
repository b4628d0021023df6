import VoiceCall.Number.Shortest

namespace VoiceCall

/-- The exponents of the leading digit that are written positionally, from the first to before the
second. -/
structure FloatStyle where
  format : Binary.Format
  lowest : Int
  limit : Int

namespace FloatStyle

/-- Singles are positional from a millionth. -/
def single : FloatStyle := ⟨Binary.single, -6, 16⟩

/-- Doubles are positional from a hundred thousandth. -/
def double : FloatStyle := ⟨Binary.double, -5, 16⟩

def positional (digits : List Char) (leading : Int) : List Char :=
  if leading < 0 then
    '0' :: '.' :: (List.replicate (-leading - 1).toNat '0' ++ digits)
  else
    let whole := leading.toNat + 1
    if digits.length ≤ whole then
      digits ++ List.replicate (whole - digits.length) '0' ++ ['.', '0']
    else
      digits.take whole ++ '.' :: digits.drop whole

/-- One digit, the others behind a point if there are any, and the exponent with its sign. -/
def scientific (digits : List Char) (leading : Int) : List Char :=
  let mantissa :=
    match digits with
    | first :: second :: rest => first :: '.' :: second :: rest
    | short => short
  let sign := if leading < 0 then '-' else '+'
  mantissa ++ 'e' :: sign :: Nat.toDigits 10 leading.natAbs

/-- The text of a finite magnitude. -/
def magnitude (style : FloatStyle) (pattern : Nat) : List Char :=
  if pattern = 0 then
    ['0', '.', '0']
  else
    let (c, k) := Shortest.decimal style.format pattern
    let digits := Nat.toDigits 10 c
    let leading := k + (digits.length - 1 : Nat)
    if style.lowest ≤ leading ∧ leading < style.limit then
      positional digits leading
    else
      scientific digits leading

end FloatStyle

def doubleText (x : Float) : List Char :=
  let text := FloatStyle.double.magnitude (x.toBits.toNat % Nat.pow 2 63)
  if x.toBits.toNat / Nat.pow 2 63 = 1 then '-' :: text else text

def singleText (x : Float32) : List Char :=
  let text := FloatStyle.single.magnitude (x.toBits.toNat % Nat.pow 2 31)
  if x.toBits.toNat / Nat.pow 2 31 = 1 then '-' :: text else text

end VoiceCall
