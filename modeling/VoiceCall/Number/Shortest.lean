import VoiceCall.Number.Binary

namespace VoiceCall.Shortest

open VoiceCall.Binary

/-- A positive magnitude between the bounds of the reals that round to it, all three in units of
`scale / unit`. -/
structure Interval where
  low : Nat
  value : Nat
  high : Nat
  unit : Nat
  /-- Whether the bounds themselves round to the value. -/
  closed : Bool

/-- The interval of a finite pattern other than zero. Below a power of two the gap is half as
wide. -/
def intervalOf (f : Format) (pattern : Nat) : Interval :=
  let (m, e) := f.decode pattern
  let narrowBelow := m = Nat.pow 2 (f.precision - 1) ∧ f.minExponent < e
  let low := if narrowBelow then 4 * m - 1 else 4 * m - 2
  let shift := e - 2
  let scale := Nat.pow 2 shift.toNat
  { low := low * scale
    value := 4 * m * scale
    high := (4 * m + 2) * scale
    unit := Nat.pow 2 (-shift).toNat
    closed := m % 2 = 0 }

namespace Interval

variable (i : Interval)

/-- Whether `c * 10 ^ k` rounds to the value. -/
def holds (c : Nat) (k : Int) : Bool :=
  let point := c * Nat.pow 10 k.toNat * i.unit
  let scale := Nat.pow 10 (-k).toNat
  if i.closed then
    i.low * scale ≤ point && point ≤ i.high * scale
  else
    i.low * scale < point && point < i.high * scale

/-- The value as a fraction of `10 ^ k`. -/
def fraction (k : Int) : Nat × Nat :=
  (i.value * Nat.pow 10 (-k).toNat, i.unit * Nat.pow 10 k.toNat)

/-- The nearer of the two grid points around the value that reads back, on the grid `10 ^ k`. -/
def onGrid (k : Int) : Option Nat :=
  let (n, d) := i.fraction k
  let below := n / d
  let nearest := roundDiv n d
  if i.holds nearest k then
    some nearest
  else if i.holds below k then
    some below
  else if i.holds (below + 1) k then
    some (below + 1)
  else
    none

/-- The exponent of the leading digit of the value, found by trying downwards from a bound. -/
def leading (i : Interval) : Nat → Int → Int
  | 0, k => k
  | fuel + 1, k =>
    let (n, d) := i.fraction k
    if d ≤ n then k else leading i fuel (k - 1)

/-- The first grid with a hit, from the coarsest downwards. -/
def search (i : Interval) : Nat → Int → Nat × Int
  | 0, k => ((i.onGrid k).getD 0, k)
  | fuel + 1, k =>
    match i.onGrid k with
    | some c => (c, k)
    | none => search i fuel (k - 1)

end Interval

def trim : Nat → Nat → Int → Nat × Int
  | 0, c, k => (c, k)
  | fuel + 1, c, k => if c ≠ 0 ∧ c % 10 = 0 then trim fuel (c / 10) (k + 1) else (c, k)

/-- The digits `c` and the exponent `k` of the shortest decimal `c * 10 ^ k` of a pattern. -/
def decimal (f : Format) (pattern : Nat) : Nat × Int :=
  let i := intervalOf f pattern
  let top := i.leading 700 310
  let (c, k) := i.search 20 top
  trim 20 c k

end VoiceCall.Shortest
