import VoiceCall.Sound.Device

namespace VoiceCall.Sound

/-- What a card refuses to do. -/
inductive CardFault where
  | opening
  | query
  | building
deriving DecidableEq, Repr

structure Card where
  id : String
  /-- Lines that describe the card; the first one is its name. -/
  description : Option String
  /-- None if the card works in both directions. -/
  direction : Option Direction
  formats : List SampleFormat
  channels : List Nat
  /-- The rates that the card supports, in ascending order. -/
  rates : List Nat
  /-- Whether the card supports all rates between its lowest and its highest. -/
  everyRate : Bool
  period : Nat
  fault : Option CardFault
deriving DecidableEq, Repr

namespace Card

/-- The rates that a system tries one by one. -/
def commonRates : List Nat :=
  [5512, 8000, 11025, 12000, 16000, 22050, 24000, 32000, 44100, 48000, 64000, 88200, 96000, 176400,
    192000, 352800, 384000, 705600, 768000, 1411200, 1536000]

/-- The formats that a system tries one by one. -/
def allFormats : List SampleFormat :=
  [.i8, .u8, .i16, .u16, .i24, .u24, .i32, .u32, .f32, .f64]

def maxChannels : Nat := 32

/-- The text in front of the first line break, which is a line feed with or without a carriage
return. -/
def firstLine : List Char → List Char
  | [] => []
  | '\n' :: _ => []
  | '\r' :: '\n' :: _ => []
  | c :: rest => c :: firstLine rest

/-- The first line of the description, or else the identifier. An empty description has no first
line; one that begins with a line break has an empty one. -/
def name (c : Card) : String :=
  match c.description.map String.toList with
  | none | some [] => c.id
  | some lines => String.ofList (firstLine lines)

/-- The spans of rates that a system finds. Unless it may take all rates between the lowest and the
highest to be supported, it tries the common ones. -/
def rateSpans (c : Card) : List (Nat × Nat) :=
  match c.rates.head?, c.rates.getLast? with
  | some lowest, some highest =>
    if lowest = highest || c.everyRate || c.rates.contains (lowest + 1) then
      [(lowest, highest)]
    else
      match commonRates.filter c.rates.contains with
      | [] => [(lowest, highest)]
      | rates => rates.map fun rate => (rate, rate)
  | _, _ => []

/-- The ranges of a card: format by format, within it by channels, within them by rates. -/
def ranges (c : Card) : List Range :=
  (allFormats.filter c.formats.contains).flatMap fun format =>
    ((List.range' 1 maxChannels).filter c.channels.contains).flatMap fun channels =>
      c.rateSpans.map fun (lowest, highest) =>
        ⟨UInt16.ofNat channels, UInt32.ofNat lowest, UInt32.ofNat highest, format⟩

def toDevice (c : Card) : Device where
  name := some c.name
  ranges :=
    match c.fault with
    | some .opening | some .query => none
    | _ => some c.ranges
  buildable := c.fault ≠ some .building
  period := c.period

def serves (direction : Direction) (c : Card) : Bool :=
  c.direction.all (· = direction)

def defaultId : String := "default"

/-- A device that is there by name only. -/
def absent : Device := ⟨none, none, false, 0⟩

end Card

/-- The system with these cards. Its default device is the card with the identifier for that,
whatever its direction; without one it can be found but not asked. -/
def Host.ofCards (cards : List Card) : Host where
  devices direction := some ((cards.filter (Card.serves direction)).map Card.toDevice)
  default _ :=
    some (((cards.find? (·.id = Card.defaultId)).map Card.toDevice).getD Card.absent)

end VoiceCall.Sound
