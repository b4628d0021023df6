import VoiceCall.Dsp
import VoiceCall.Fault

namespace VoiceCall.Opus

/-- The tuning in force, and the frames taken under it, the latest first. -/
structure Encoder where
  tuning : Tuning
  taken : List (List Sample)

namespace Encoder

/-- One channel, or else two. -/
def channelsOf (channels : UInt16) : UInt16 :=
  if channels = 1 then 1 else 2

def bitrateRefused (detail : String) : VoiceCall.Fault :=
  .codec ("Failed to set bitrate: " ++ detail)

def build (dsp : Dsp) (tuning : Tuning) : Except VoiceCall.Fault Encoder :=
  match dsp.encoderFault tuning.channels tuning.signal with
  | some detail => .error (.codec ("Failed to create Opus encoder: " ++ detail))
  | none =>
    match dsp.bitrateFault tuning.bitrate with
    | some detail => .error (bitrateRefused detail)
    | none => .ok ⟨tuning, []⟩

def create (dsp : Dsp) (channels : UInt16) (bitrate : Int) (signal : SignalHint) :
    Except VoiceCall.Fault Encoder :=
  build dsp ⟨channelsOf channels, bitrate, signal⟩

def setBitrate (dsp : Dsp) (e : Encoder) (bitrate : Int) : Except VoiceCall.Fault Encoder :=
  if bitrate = e.tuning.bitrate then
    .ok e
  else
    match dsp.bitrateFault bitrate with
    | some detail => .error (bitrateRefused detail)
    | none => .ok { e with tuning := { e.tuning with bitrate := bitrate } }

def setChannels (dsp : Dsp) (e : Encoder) (channels : UInt16) : Except VoiceCall.Fault Encoder :=
  if channelsOf channels = e.tuning.channels then
    .ok e
  else
    build dsp { e.tuning with channels := channelsOf channels }

def setSignal (dsp : Dsp) (e : Encoder) (signal : SignalHint) : Except VoiceCall.Fault Encoder :=
  if signal = e.tuning.signal then .ok e else build dsp { e.tuning with signal := signal }

/-- The frame lengths in samples per channel that can be encoded: 2.5 to 60 milliseconds. -/
def frameLengths : List Nat := [120, 240, 480, 960, 1920, 2880]

def encode (dsp : Dsp) (e : Encoder) (pcm : List Sample) :
    Except VoiceCall.Fault (Octets × Encoder) :=
  let channels := e.tuning.channels.toNat
  if pcm.length % channels = 0 ∧ frameLengths.contains (pcm.length / channels) then
    match dsp.compress e.tuning e.taken pcm with
    | .ok packet => .ok (packet, { e with taken := pcm :: e.taken })
    | .error detail => .error (.codec ("Opus encode error: " ++ detail))
  else
    .error (.codec s!"Invalid frame length: {pcm.length} samples for {channels} channel(s)")

end Encoder

end VoiceCall.Opus
