import VoiceCall.Audio.Format
import VoiceCall.Dsp

namespace VoiceCall.Microphone

def peakGate (peak threshold : Sample) : Bool :=
  threshold < peak

/-- The frames that the denoiser of each channel has taken, the latest first. -/
structure Denoiser where
  left : List (List Sample)
  right : List (List Sample)

namespace Denoiser

def fresh : Denoiser := ⟨[], []⟩

/-- Denoisers work on samples in the range of 16 bits. -/
def scale : Sample := Float32.ofBits 0x46fffe00

def everySecond : List Sample → List Sample
  | [] => []
  | [s] => [s]
  | s :: _ :: rest => s :: everySecond rest

def interleave (left right : List Sample) : List Sample :=
  (left.zip right).flatMap fun (l, r) => [l, r]

def scaled (channel : List Sample) : List Sample :=
  channel.map (· * scale)

def unscaled (count : Nat) (samples : Nat → Sample) : List Sample :=
  (List.range count).map fun i => (samples i / scale).fullScale

/-- The highest speech probability of the channels of a period, and the period, replaced by its
denoised form if that is wanted. A period of another length scores zero and is left alone. -/
def process (dsp : Dsp) (d : Denoiser) (pcm : List Sample) (suppress : Bool) :
    Denoiser × Sample × List Sample :=
  if pcm.length = Audio.periodLength then
    let left := scaled (everySecond pcm)
    let right := scaled (everySecond pcm.tail)
    let (p, l) := dsp.denoise d.left left
    let (q, r) := dsp.denoise d.right right
    let probability := (Sample.zero.larger p).larger q
    let denoised :=
      interleave (unscaled Audio.periodFrames l) (unscaled Audio.periodFrames r)
    (⟨left :: d.left, right :: d.right⟩, probability, if suppress then denoised else pcm)
  else
    (d, Sample.zero, pcm)

end Denoiser

end VoiceCall.Microphone
