import VoiceCall.Json.Record
import VoiceCall.Settings.Basic

namespace VoiceCall.Settings

open Json

def qualityNames : List (String × Quality) :=
  Quality.all.map fun q => (q.name, q)

def vadMethodNames : List (String × VadMethod) :=
  VadMethod.all.map fun m => (m.name, m)

def signalHintNames : List (String × SignalHint) :=
  SignalHint.all.map fun h => (h.name, h)

/-- The fields of the file, in the order in which they are written. -/
def fields : List (Json.Field Settings) :=
  [.of "input_device" false readText fun s v => { s with inputDevice := v },
    .of "output_device" false readText fun s v => { s with outputDevice := v },
    .of "quality" false (readChoice qualityNames) fun s v => { s with quality := v },
    .of "vad_method" false (readChoice vadMethodNames) fun s v => { s with vadMethod := v },
    .of "vad_threshold" false readSingle fun s v => { s with vadThreshold := v },
    .of "speech_probability" false readSingle fun s v => { s with speechProbability := v },
    .of "capture_gain" false readSingle fun s v => { s with captureGain := v },
    .of "playback_gain" false readSingle fun s v => { s with playbackGain := v },
    .of "mix_mono" false readBoolean fun s v => { s with mixMono := v },
    .of "noise_suppression" false readBoolean fun s v => { s with noiseSuppression := v },
    .of "signal" false (readChoice signalHintNames) fun s v => { s with signal := v },
    .of "encoder_channels" false readWord16 fun s v => { s with encoderChannels := v },
    .of "jitter_desired_ms" false readWord32 fun s v => { s with jitterDesired := v },
    .of "jitter_max_ms" false readWord32 fun s v => { s with jitterMax := v },
    .of "max_decode_workers" false readWord64 fun s v => { s with maxDecodeWorkers := v },
    .of "decode_queue_capacity" false readWord64 fun s v => { s with decodeQueueCapacity := v }]

/-- Settings as the text has them, not yet brought into their ranges. -/
def ofJson (text : String) : Except Json.Fault Settings :=
  readWhole (readRecord "VoiceSettings" fields {}) text

end VoiceCall.Settings
