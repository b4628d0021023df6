namespace VoiceCall.Packet

/-- The last sequence number and timestamp handed out, and the timestamp's step per unit. -/
structure Sequencer where
  sequence : UInt16
  timestamp : UInt32
  step : UInt32
deriving DecidableEq, Repr

namespace Sequencer

def start (step : UInt32) : Sequencer :=
  ⟨0, 0, step⟩

def nextPacket (s : Sequencer) : Sequencer :=
  { s with sequence := s.sequence + 1 }

def nextUnit (s : Sequencer) : Sequencer :=
  { s with timestamp := s.timestamp + s.step }

end Sequencer

end VoiceCall.Packet
