import VoiceCall.Packet.Octets
import VoiceCall.Settings.Printer
import VoiceCall.Settings.Reader

namespace VoiceCall.Settings

/-- The settings of a file's content, none for a file that cannot be read. A file that holds no
settings counts as the defaults. -/
def load (content : Option Octets) : Settings :=
  match content.bind fun bytes => String.fromUTF8? ⟨bytes.toArray⟩ with
  | none => {}
  | some text =>
    match ofJson text with
    | .ok settings => settings.sanitized
    | .error _ => {}

def save (s : Settings) : Octets :=
  s.toJson.toUTF8.data.toList

/-- Whether two settings are equal field by field, gains and thresholds as numbers: the two zeros
are the same, and what is not a number is the same as nothing. -/
def agrees (s t : Settings) : Bool :=
  s.vadThreshold == t.vadThreshold && s.speechProbability == t.speechProbability &&
    s.captureGain == t.captureGain && s.playbackGain == t.playbackGain &&
    { s with
      vadThreshold := t.vadThreshold
      speechProbability := t.speechProbability
      captureGain := t.captureGain
      playbackGain := t.playbackGain } = t

end VoiceCall.Settings
