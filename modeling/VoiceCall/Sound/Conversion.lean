import VoiceCall.Audio.Sample
import VoiceCall.Sound.Config

namespace VoiceCall.Sound

class DeviceSample (α : Type) where
  toSample : α → Sample
  ofSample : Sample → α
  /-- The value at rest. -/
  silence : α

instance : DeviceSample Float32 where
  toSample s := s
  ofSample s := s
  silence := Sample.zero

instance : DeviceSample Int16 where
  toSample n := Sample.ofSteps n.toInt
  ofSample s := Int16.ofInt s.toSteps
  silence := 0

instance : DeviceSample UInt16 where
  toSample n := Sample.ofSteps ((n.toNat : Int) - 32768)
  ofSample s := UInt16.ofNat (s.toSteps + 32768).toNat
  silence := 32768

/-- A run of samples in one of the formats that a call can exchange. -/
inductive Block where
  | f32 (samples : List Float32)
  | i16 (samples : List Int16)
  | u16 (samples : List UInt16)

end VoiceCall.Sound
