import VoiceCall.Buffer.Jitter
import VoiceCall.Opus.Decoder

namespace VoiceCall

structure Speaker where
  ssrc : UInt32
  user : Option String
  /-- Tells speakers apart that had the same source number at different times. -/
  serial : Nat
  decoder : Opus.Decoder
  buffer : Buffer.Jitter
  muted : Bool
  gain : Sample
  /-- The peak of the last stretch that was mixed. -/
  level : Sample
deriving DecidableEq

namespace Speaker

/-- A speaker that has not been heard, with the desired and the maximal latency of its buffer. -/
def create (ssrc : UInt32) (user : Option String) (serial : Nat) (desired most : UInt32) :
    Speaker where
  ssrc := ssrc
  user := user
  serial := serial
  decoder := .fresh
  buffer := .create desired most
  muted := false
  gain := Sample.one
  level := Sample.zero

/-- Muting drops what is buffered. -/
def setMuted (s : Speaker) (muted : Bool) : Speaker :=
  { s with muted := muted, buffer := if muted then s.buffer.clear else s.buffer }

def setGain (s : Speaker) (gain : Sample) : Speaker :=
  { s with gain := Sample.gain gain }

/-- Queues samples in the buffer; the count is of older samples that were dropped for them. -/
def write (s : Speaker) (samples : List Sample) (now : Nat) : Speaker × Nat :=
  let (buffer, dropped) := s.buffer.write samples now
  ({ s with buffer := buffer }, dropped)

end Speaker

end VoiceCall
