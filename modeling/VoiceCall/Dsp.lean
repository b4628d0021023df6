import VoiceCall.Audio.Sample
import VoiceCall.Opus.Packet
import VoiceCall.Settings.Basic

/-!
The signal processing that a call leaves to others: what Opus encoders and decoders take and what
they make of it, and what a denoiser makes of a frame. All of it is a parameter; `Dsp.quiet` keeps
to the counts and limits that the formats fix, and knows no sound.
-/

namespace VoiceCall

/-- How an encoder is tuned. -/
structure Tuning where
  channels : UInt16
  bitrate : Int
  signal : SignalHint
deriving DecidableEq, Repr

/-- Every function is given what went before, since codecs and denoisers remember. -/
structure Dsp where
  /-- What speaks against an encoder for so many channels and such a signal, if anything does. -/
  encoderFault : UInt16 → SignalHint → Option String
  /-- What speaks against a bit rate, if anything does. -/
  bitrateFault : Int → Option String
  /-- The packet that an encoder makes of a frame after the frames before it, or why it does not. -/
  compress : Tuning → List (List Sample) → List Sample → Except String Octets
  /-- The count of interleaved samples that a decoder makes of a packet in a room for so many. -/
  measure : Octets → Nat → Except Opus.Fault Nat
  /-- The samples that a decoder makes of a packet, by their index, after the packets before it. -/
  synthesize : List Octets → Octets → Nat → Sample
  /-- The speech probability of one channel's frame and its denoised samples by their index, after
  the frames before it. -/
  denoise : List (List Sample) → List Sample → Sample × (Nat → Sample)

namespace Dsp

/-- Two special rates stand for automatic and for the largest rate; else a rate is positive. -/
def isBitrate (bitrate : Int) : Bool :=
  0 < bitrate || bitrate = -1000 || bitrate = -1

/-- A packet of empty frames that lasts as long as so many samples of one channel. -/
def emptyPacket (frames : Nat) : Octets :=
  if frames = 120 then [0xe4]
  else if frames = 240 then [0xec]
  else if frames = 480 then [0xf4]
  else if frames = 960 then [0xfc]
  else if frames = 1920 then [0xfd]
  else [0xff, 3]

/-- A stand-in that knows no sound: packets decode to silence, frames encode to empty packets of
their length, and a frame is half likely to be speech as soon as anything was heard. -/
def quiet : Dsp where
  encoderFault _ _ := none
  bitrateFault bitrate :=
    if isBitrate bitrate then none
    else some "opus_encoder_ctl(ffi :: OPUS_SET_BITRATE_REQUEST): invalid argument"
  compress tuning _ pcm := .ok (emptyPacket (pcm.length / tuning.channels.toNat))
  measure := Opus.decodedLength
  synthesize _ _ _ := Sample.zero
  denoise before frame :=
    if (frame :: before).all fun f => f.all (· == Sample.zero) then
      (Sample.zero, fun i => frame.getD i Sample.zero)
    else
      (Sample.half, fun _ => Sample.zero)

theorem measure_quiet : quiet.measure = Opus.decodedLength := rfl

end Dsp

end VoiceCall
