namespace VoiceCall

abbrev Sample := Float32

namespace Sample

def zero : Sample := Float32.ofBits 0

def one : Sample := Float32.ofBits 0x3f800000

def half : Sample := Float32.ofBits 0x3f000000

/-- The value kept between two bounds; a sample that is not a number stays as it is. -/
def limit (low high s : Sample) : Sample :=
  let raised := if s < low then low else s
  if high < raised then high else raised

def fullScale (s : Sample) : Sample :=
  limit (-one) one s

/-- A gain as it is stored: negative gains and gains that are not numbers count as zero. -/
def gain (g : Sample) : Sample :=
  if zero < g then g else zero

/-- The larger of two samples; a second one that is not a number is passed over. -/
def larger (s t : Sample) : Sample :=
  if s < t then t else s

/-- A peak raised to the magnitude of a sample. -/
def raisePeak (peak s : Sample) : Sample :=
  larger peak s.abs

def mean (left right : Sample) : Sample :=
  (left + right) * half

/-- The sample of a whole number of 1/32768 steps, for magnitudes of at most 32768. -/
def ofSteps (steps : Int) : Sample :=
  let magnitude := steps.natAbs.toUInt64.toFloat32 / Float32.ofBits 0x47000000
  if steps < 0 then -magnitude else magnitude

/-- Steps of 1/32768, cut toward zero and held within 16 bits; what is not a number is zero. -/
def toSteps (s : Sample) : Int :=
  let scaled := s * Float32.ofBits 0x47000000
  if scaled < zero then
    -(min (-scaled).toUInt32.toNat 32768 : Nat)
  else
    (min scaled.toUInt32.toNat 32767 : Nat)

end Sample

def peakLevel (samples : List Sample) : Sample :=
  samples.foldl Sample.raisePeak Sample.zero

end VoiceCall
