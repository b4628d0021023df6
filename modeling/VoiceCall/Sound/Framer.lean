import VoiceCall.Audio.Format
import VoiceCall.Sound.Conversion

namespace VoiceCall.Sound

/-- The device's count of channels, and the stereo samples of the period that is not yet full. -/
structure Framer where
  channels : Nat
  pending : List Sample
deriving DecidableEq

namespace Framer

variable {α : Type} [DeviceSample α]

def create (channels : UInt16) : Framer :=
  ⟨max channels.toNat 1, []⟩

/-- The stereo pair of one device frame: its first two channels, or the only one twice. -/
def pair : List α → List Sample
  | [] => []
  | [only] => [DeviceSample.toSample only, DeviceSample.toSample only]
  | left :: right :: _ => [DeviceSample.toSample left, DeviceSample.toSample right]

def stereo (channels : Nat) (data : List α) : List Sample :=
  match _h : data.drop (channels - 1) with
  | [] => []
  | _ :: rest => pair (data.take channels) ++ stereo channels rest
termination_by data.length
decreasing_by
  have := congrArg List.length _h
  simp only [List.length_drop, List.length_cons] at this
  omega

/-- The full periods at the front of a run, and what is left. -/
def periods (samples : List Sample) : List (List Sample) × List Sample :=
  if Audio.periodLength ≤ samples.length then
    let (full, rest) := periods (samples.drop Audio.periodLength)
    (samples.take Audio.periodLength :: full, rest)
  else
    ([], samples)
termination_by samples.length
decreasing_by simp only [List.length_drop, Audio.periodLength] at *; omega

def push (f : Framer) (data : List α) : Framer × List (List Sample) :=
  let (full, rest) := periods (f.pending ++ stereo f.channels data)
  ({ f with pending := rest }, full)

def reset (f : Framer) : Framer :=
  { f with pending := [] }

end Framer

end VoiceCall.Sound
