namespace VoiceCall

inductive Quality where
  | low
  | medium
  | high
  | veryHigh
deriving DecidableEq, Repr

namespace Quality

/-- Bits per second. -/
def bitrate : Quality → Int
  | low => 24000
  | medium => 48000
  | high => 64000
  | veryHigh => 128000

def all : List Quality :=
  [low, medium, high, veryHigh]

def name : Quality → String
  | low => "Low"
  | medium => "Medium"
  | high => "High"
  | veryHigh => "VeryHigh"

def display (q : Quality) : String :=
  toString (q.bitrate / 1000) ++ " kbps"

end Quality

end VoiceCall
