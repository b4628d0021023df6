import VoiceCall.Audio.Format

namespace VoiceCall.Sound

inductive SampleFormat where
  | i8
  | u8
  | i16
  | u16
  | i24
  | u24
  | i32
  | u32
  | i64
  | u64
  | f32
  | f64
  | dsdU8
  | dsdU16
  | dsdU32
deriving DecidableEq, Repr

/-- A count of channels, a format and the sample rates at which a device offers them. -/
structure Range where
  channels : UInt16
  lowest : UInt32
  highest : UInt32
  format : SampleFormat
deriving DecidableEq, Repr

/-- What a stream was opened with. -/
structure Layout where
  channels : UInt16
  format : SampleFormat
deriving DecidableEq, Repr

/-- The formats that a call can exchange with a device, the best first. -/
def usableFormats : List SampleFormat := [.f32, .i16, .u16]

namespace Range

def includesVoiceRate (r : Range) : Bool :=
  r.lowest.toNat ≤ Audio.sampleRate && Audio.sampleRate ≤ r.highest.toNat

def qualifies (r : Range) : Bool :=
  usableFormats.contains r.format && r.includesVoiceRate

/-- Stereo is better than mono, and mono than anything wider. -/
def channelRank (r : Range) : Nat :=
  if r.channels = 2 then 0 else if r.channels = 1 then 1 else 2

def formatRank (r : Range) : Nat :=
  usableFormats.idxOf r.format

/-- Whether a range is better than another: channels count first, then the format. -/
def precedes (r s : Range) : Bool :=
  r.channelRank < s.channelRank || (r.channelRank = s.channelRank && r.formatRank < s.formatRank)

def layout (r : Range) : Layout :=
  ⟨r.channels, r.format⟩

def describe (r : Range) : String :=
  if r.lowest = r.highest then s!"{r.lowest}Hz" else s!"{r.lowest}-{r.highest}Hz"

end Range

/-- The best of some ranges, of equals the first. -/
def best : List Range → Option Range
  | [] => none
  | r :: rest =>
    match best rest with
    | none => some r
    | some s => if s.precedes r then some s else some r

def chooseLayout (ranges : List Range) : Option Layout :=
  (best (ranges.filter Range.qualifies)).map Range.layout

def describeRates (ranges : List Range) : String :=
  if ranges.isEmpty then "unknown" else ", ".intercalate (ranges.map Range.describe)

end VoiceCall.Sound
