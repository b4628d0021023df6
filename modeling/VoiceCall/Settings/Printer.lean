import VoiceCall.Json.Printer
import VoiceCall.Settings.Basic

namespace VoiceCall.Settings

open Json

def written (s : Settings) : List (String × List Char) :=
  [("input_device", printString s.inputDevice),
    ("output_device", printString s.outputDevice),
    ("quality", printString s.quality.name),
    ("vad_method", printString s.vadMethod.name),
    ("vad_threshold", printSingle s.vadThreshold),
    ("speech_probability", printSingle s.speechProbability),
    ("capture_gain", printSingle s.captureGain),
    ("playback_gain", printSingle s.playbackGain),
    ("mix_mono", printBoolean s.mixMono),
    ("noise_suppression", printBoolean s.noiseSuppression),
    ("signal", printString s.signal.name),
    ("encoder_channels", Nat.toDigits 10 s.encoderChannels.toNat),
    ("jitter_desired_ms", Nat.toDigits 10 s.jitterDesired.toNat),
    ("jitter_max_ms", Nat.toDigits 10 s.jitterMax.toNat),
    ("max_decode_workers", Nat.toDigits 10 s.maxDecodeWorkers.toNat),
    ("decode_queue_capacity", Nat.toDigits 10 s.decodeQueueCapacity.toNat)]

def line (field : String × List Char) : List Char :=
  ' ' :: ' ' :: (printString field.1 ++ ':' :: ' ' :: field.2)

/-- The lines of an object, all but the last with a comma at the end. -/
def lines : List (String × List Char) → List Char
  | [] => []
  | [field] => line field ++ ['\n']
  | field :: fields => line field ++ ',' :: '\n' :: lines fields

def toJson (s : Settings) : String :=
  String.ofList ('\x7b' :: '\n' :: (lines s.written ++ ['\x7d']))

end VoiceCall.Settings
