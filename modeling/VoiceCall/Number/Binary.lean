/-!
Binary floating point as exact arithmetic: the value of a bit pattern, and the pattern nearest
to a quotient of natural numbers.
-/

namespace VoiceCall.Binary

/-- The quotient rounded to the nearest natural number, an exact half to the even neighbour. -/
def roundDiv (n d : Nat) : Nat :=
  let q := n / d
  let r := n % d
  if 2 * r < d then q else if d < 2 * r then q + 1 else q + q % 2

/-- A format by its significant bits, the exponent of its smallest step and its count of exponent
codes. -/
structure Format where
  precision : Nat
  minExponent : Int
  exponentCodes : Nat

def single : Format := ⟨24, -149, 256⟩

def double : Format := ⟨53, -1074, 2048⟩

namespace Format

variable (f : Format)

/-- The pattern of infinity, which is the first one past all finite magnitudes. -/
def infinity : Nat :=
  (f.exponentCodes - 1) * Nat.pow 2 (f.precision - 1)

/-- The finite magnitude of a pattern without its sign, as a significand and an exponent. -/
def decode (pattern : Nat) : Nat × Int :=
  let fraction := pattern % Nat.pow 2 (f.precision - 1)
  let code := pattern / Nat.pow 2 (f.precision - 1)
  if code = 0 then
    (fraction, f.minExponent)
  else
    (fraction + Nat.pow 2 (f.precision - 1), f.minExponent + code - 1)

def shiftRatio (n d : Nat) (e : Int) : Nat × Nat :=
  if 0 ≤ e then (n, d * Nat.pow 2 e.toNat) else (n * Nat.pow 2 (-e).toNat, d)

/-- The largest `e` with `2 ^ e ≤ n / d`. -/
def magnitude (n d : Nat) : Int :=
  let e : Int := n.log2 - d.log2
  let (a, b) := shiftRatio n d e
  if b ≤ a then e else e - 1

/-- The pattern nearest to `n / d`, an exact half to the even one, past the largest finite magnitude
infinity. -/
def ofRatio (n d : Nat) : Nat :=
  if n = 0 then
    0
  else
    let e := max f.minExponent (magnitude n d - (f.precision - 1 : Nat))
    let (a, b) := shiftRatio n d e
    min f.infinity ((e - f.minExponent).toNat * Nat.pow 2 (f.precision - 1) + roundDiv a b)

end Format

def ofDouble (x : Float) : Nat × Int :=
  double.decode (x.toBits.toNat % Nat.pow 2 63)

def ratio (x : Float) : Nat × Nat :=
  let (m, e) := ofDouble x
  if 0 ≤ e then (m * Nat.pow 2 e.toNat, 1) else (m, Nat.pow 2 (-e).toNat)

def narrow (x : Float) : Float32 :=
  if x.isNaN then
    Float32.ofBits 0x7fc00000
  else
    let sign : Nat := x.toBits.toNat / Nat.pow 2 63 * Nat.pow 2 31
    if x.isFinite then
      let (n, d) := ratio x
      Float32.ofBits (UInt32.ofNat (sign + single.ofRatio n d))
    else
      Float32.ofBits (UInt32.ofNat (sign + single.infinity))

end VoiceCall.Binary
