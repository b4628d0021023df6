import VoiceCall.Audio.Format
import VoiceCall.Sound.Conversion

namespace VoiceCall.Sound

/-- A source of interleaved stereo: it gives as many samples as it is asked for. -/
abbrev Renderer (σ : Type) := σ → Nat → List Sample × σ

/-- A buffer after it was filled, the counts of samples that were asked for, and the source. -/
structure Filled (α σ : Type) where
  data : List α
  requests : List Nat
  source : σ

namespace Adapter

variable {α σ : Type} [DeviceSample α]

/-- Frames that are asked for at a time. -/
def chunkFrames : Nat := 2048

/-- One device frame of a stereo pair: the mean on mono, else both and silence behind them. -/
def frame (channels : Nat) (left right : Sample) : List α :=
  if channels = 1 then
    [DeviceSample.ofSample (Sample.mean left right)]
  else
    DeviceSample.ofSample left :: DeviceSample.ofSample right ::
      List.replicate (channels - 2) DeviceSample.silence

def frames (channels : Nat) : List Sample → List α
  | left :: right :: rest => frame channels left right ++ frames channels rest
  | _ => []

/-- Fills a buffer chunk by chunk. Samples behind the last whole frame of a chunk stay as they
are. -/
def fillChunks (render : Renderer σ) (channels : Nat) (data : List α) (source : σ) : Filled α σ :=
  if data.length = 0 ∨ channels = 0 then
    ⟨data, [], source⟩
  else
    let chunk := data.take (chunkFrames * channels)
    let count := chunk.length / channels
    let (pcm, source) := render source (count * Audio.channels)
    let rest := fillChunks render channels (data.drop (chunkFrames * channels)) source
    { rest with
      data := frames channels pcm ++ chunk.drop (count * channels) ++ rest.data
      requests := count * Audio.channels :: rest.requests }
termination_by data.length
decreasing_by
  simp only [List.length_drop, chunkFrames]
  omega

def fill (render : Renderer σ) (channels : UInt16) (data : List α) (source : σ) : Filled α σ :=
  fillChunks render (max channels.toNat 1) data source

end Adapter

end VoiceCall.Sound
