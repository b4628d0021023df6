import VoiceCall.Microphone.Activity
import VoiceCall.Opus.Encoder

namespace VoiceCall.Microphone

/-- Settings of the microphone side and what can be read off it. -/
structure Controls where
  gain : Sample
  vadMethod : VadMethod
  vadThreshold : Sample
  speechProbability : Sample
  mixMono : Bool
  noiseSuppression : Bool
  /-- Nothing is sent while this is not set. -/
  transmitting : Bool
  bitrate : Int
  encoderChannels : UInt16
  signal : SignalHint
  /-- The peak of the last period, after the gain. -/
  level : Sample
  /-- Whether the last period was worth sending. -/
  active : Bool
  /-- Periods that could not be encoded. -/
  encodeErrors : Nat
deriving DecidableEq

namespace Controls

/-- Takes over the settings; meters and the transmission stay as they are. -/
def apply (c : Controls) (s : Settings) : Controls :=
  { c with
    gain := s.captureGain
    vadMethod := s.vadMethod
    vadThreshold := s.vadThreshold
    speechProbability := s.speechProbability
    mixMono := s.mixMono
    noiseSuppression := s.noiseSuppression
    bitrate := s.quality.bitrate
    encoderChannels := s.encoderChannels
    signal := s.signal }

def ofSettings (s : Settings) : Controls :=
  apply {
    gain := Sample.one
    vadMethod := .peakGate
    vadThreshold := Sample.zero
    speechProbability := Sample.zero
    mixMono := false
    noiseSuppression := false
    transmitting := true
    bitrate := 0
    encoderChannels := 2
    signal := .voice
    level := Sample.zero
    active := false
    encodeErrors := 0 } s

def setGain (c : Controls) (gain : Sample) : Controls :=
  { c with gain := Sample.gain gain }

end Controls

/-- What became of a period. -/
inductive Outcome where
  /-- The frame that goes out. -/
  | sent (frame : Octets)
  /-- The period was not worth sending. -/
  | suppressed
  /-- Nothing is being sent, the period has another length, or the pipeline was busy. -/
  | skipped
  | encodeFailed
deriving DecidableEq, Repr

/-- The state that one period leaves to the next. -/
structure Pipeline where
  encoder : Opus.Encoder
  denoiser : Denoiser

def downmix : List Sample → List Sample
  | left :: right :: rest =>
    let mean := Sample.mean left right
    mean :: mean :: downmix rest
  | rest => rest

def toMono : List Sample → List Sample
  | left :: right :: rest => Sample.mean left right :: toMono rest
  | _ => []

/-- A gain of one leaves the samples alone, any other limits them to full scale. -/
def amplify (gain : Sample) (pcm : List Sample) : List Sample :=
  if gain == Sample.one then pcm else pcm.map fun s => (s * gain).fullScale

namespace Pipeline

def create (dsp : Dsp) (c : Controls) : Except Fault Pipeline :=
  (Opus.Encoder.create dsp c.encoderChannels c.bitrate c.signal).map (⟨·, .fresh⟩)

/-- Brings an encoder in line with the controls. -/
def retune (dsp : Dsp) (e : Opus.Encoder) (c : Controls) : Except Fault Opus.Encoder := do
  let e ← e.setBitrate dsp c.bitrate
  let e ← e.setChannels dsp c.encoderChannels
  e.setSignal dsp c.signal

/-- Whether a period is processed at all. -/
def accepts (c : Controls) (input : List Sample) : Bool :=
  c.transmitting && input.length = Audio.periodLength

/-- A period that comes while another one is being processed. -/
def pass (c : Controls) (input : List Sample) : Controls × Outcome :=
  (if accepts c input then c else { c with active := false }, .skipped)

def prepare (c : Controls) (input : List Sample) : List Sample :=
  amplify c.gain (if c.mixMono then downmix input else input)

/-- The encoder's frame of a period, in the encoder's count of channels. -/
def encode (dsp : Dsp) (e : Opus.Encoder) (pcm : List Sample) :
    Except Fault (Octets × Opus.Encoder) :=
  e.encode dsp (if e.tuning.channels = 1 then toMono pcm else pcm)

/-- Whether a prepared period is worth sending, and the period, denoised if that is asked for. -/
def detect (dsp : Dsp) (c : Controls) (d : Denoiser) (pcm : List Sample) :
    Denoiser × Bool × List Sample :=
  match c.vadMethod with
  | .peakGate => (d, peakGate (peakLevel pcm) c.vadThreshold, pcm)
  | .rnnoise =>
    let (d, probability, pcm) := d.process dsp pcm c.noiseSuppression
    (d, c.speechProbability < probability, pcm)

def process (dsp : Dsp) (p : Pipeline) (c : Controls) (input : List Sample) :
    Pipeline × Controls × Outcome :=
  if accepts c input then
    let work := prepare c input
    let (denoiser, active, work') := detect dsp c p.denoiser work
    let c := { c with level := peakLevel work, active := active }
    let p := { p with denoiser := denoiser }
    if active then
      let failed := { c with encodeErrors := c.encodeErrors + 1 }
      match retune dsp p.encoder c with
      | .error _ => (p, failed, .encodeFailed)
      | .ok encoder =>
        match encode dsp encoder work' with
        | .error _ => ({ p with encoder := encoder }, failed, .encodeFailed)
        | .ok (frame, encoder) => ({ p with encoder := encoder }, c, .sent frame)
    else
      (p, c, .suppressed)
  else
    (p, { c with active := false }, .skipped)

end Pipeline

end VoiceCall.Microphone
