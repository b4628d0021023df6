import VoiceCall.Audio.Format
import VoiceCall.Dsp
import VoiceCall.Fault

namespace VoiceCall.Opus

/-- A decoder is the packets that it has taken, the latest first. -/
structure Decoder where
  taken : List Octets
deriving DecidableEq, Repr

namespace Decoder

def fresh : Decoder := ⟨[]⟩

/-- Room for the longest packet, in interleaved samples. -/
def maxDecoded : Nat := Audio.maxPacketFrames * Audio.channels

def fault (f : Opus.Fault) : VoiceCall.Fault :=
  .codec ("Opus decode error: opus_decode_float: " ++ f.message)

/-- The samples of a packet, at most as many as there is room. -/
def decode (dsp : Dsp) (d : Decoder) (packet : Octets) (room : Nat) :
    Except VoiceCall.Fault (List Sample × Decoder) :=
  match dsp.measure packet room with
  | .ok count => .ok ((List.range count).map (dsp.synthesize d.taken packet), ⟨packet :: d.taken⟩)
  | .error f => .error (fault f)

end Decoder

end VoiceCall.Opus
