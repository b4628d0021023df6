import VoiceCall.Number.Binary

namespace VoiceCall

abbrev Nanoseconds := Nat

namespace Nanoseconds

def perSecond : Nat := 1000000000

/-- The first span that is too long. -/
def limit : Nat := UInt64.size * perSecond

/-- The span of a finite count of seconds that is not negative, rounded to the nearest nanosecond,
an exact half to the even one; none if it is too long. -/
def ofSeconds? (seconds : Float) : Option Nanoseconds :=
  let (n, d) := Binary.ratio seconds
  let span := Binary.roundDiv (n * perSecond) d
  if span < limit then some span else none

end Nanoseconds

end VoiceCall
