import VoiceCall.Audio.Quality
import VoiceCall.Audio.Sample

namespace VoiceCall

/-- How the microphone side decides whether a period is worth sending. -/
inductive VadMethod where
  /-- The peak of the period exceeds a threshold. -/
  | peakGate
  /-- The speech probability of the period exceeds a threshold. -/
  | rnnoise
deriving DecidableEq, Repr

namespace VadMethod

def all : List VadMethod := [peakGate, rnnoise]

def name : VadMethod → String
  | peakGate => "PeakGate"
  | rnnoise => "Rnnoise"

def toWord : VadMethod → UInt8
  | peakGate => 0
  | rnnoise => 1

/-- The method of a word; words without a method count as the peak gate. -/
def ofWord (w : UInt8) : VadMethod :=
  if w = 1 then rnnoise else peakGate

end VadMethod

/-- What the encoder optimises for. -/
inductive SignalHint where
  | voice
  | music
  | lowDelay
deriving DecidableEq, Repr

namespace SignalHint

def all : List SignalHint := [voice, music, lowDelay]

def name : SignalHint → String
  | voice => "Voice"
  | music => "Music"
  | lowDelay => "LowDelay"

end SignalHint

/-- An empty device name stands for the system's default device. -/
structure Settings where
  inputDevice : String := ""
  outputDevice : String := ""
  quality : Quality := .high
  vadMethod : VadMethod := .peakGate
  /-- The peak that the gate must see exceeded. -/
  vadThreshold : Sample := Float32.ofBits 0x3ca3d70a
  /-- The speech probability that must be exceeded. -/
  speechProbability : Sample := Sample.half
  captureGain : Sample := Sample.one
  playbackGain : Sample := Sample.one
  /-- Whether both captured channels are replaced by their mean. -/
  mixMono : Bool := false
  noiseSuppression : Bool := true
  signal : SignalHint := .voice
  encoderChannels : UInt16 := 2
  /-- Audio that is gathered from a speaker before any of it is played. -/
  jitterDesired : UInt32 := 60
  /-- Audio of a speaker that is held before the oldest is dropped. -/
  jitterMax : UInt32 := 400
  maxDecodeWorkers : UInt64 := 4
  decodeQueueCapacity : UInt64 := 256
deriving DecidableEq

namespace Settings

def maxGain : Sample := Float32.ofBits 0x40800000

/-- The settings with every value brought into the range that a call can run with. -/
def sanitized (s : Settings) : Settings :=
  { s with
    vadThreshold := Sample.limit Sample.zero Sample.one s.vadThreshold
    speechProbability := Sample.limit Sample.zero Sample.one s.speechProbability
    captureGain := Sample.limit Sample.zero maxGain s.captureGain
    playbackGain := Sample.limit Sample.zero maxGain s.playbackGain
    encoderChannels := min (max s.encoderChannels 1) 2
    jitterMax := max s.jitterMax s.jitterDesired
    maxDecodeWorkers := max s.maxDecodeWorkers 1
    decodeQueueCapacity := max s.decodeQueueCapacity 1 }

def usesDefaultInput (s : Settings) : Bool := s.inputDevice.isEmpty

def usesDefaultOutput (s : Settings) : Bool := s.outputDevice.isEmpty

end Settings

end VoiceCall
