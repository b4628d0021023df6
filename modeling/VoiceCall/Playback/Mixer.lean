import VoiceCall.Speaker.Roster

/-!
Mixing what the speakers have buffered into the output. Nothing waits: a speaker whose buffer is
busy is silent for the moment, and all are while the roster is busy.
-/

namespace VoiceCall.Playback

structure Controls where
  masterGain : Sample
  deafened : Bool
  /-- The peak of the last output, after the master gain. -/
  level : Sample
deriving DecidableEq

namespace Controls

def create (masterGain : Sample) : Controls :=
  ⟨Sample.gain masterGain, false, Sample.zero⟩

def setMasterGain (c : Controls) (gain : Sample) : Controls :=
  { c with masterGain := Sample.gain gain }

end Controls

/-- What is in use by somebody else while a mix runs. -/
structure Contention where
  roster : Bool
  buffers : List UInt32
deriving DecidableEq, Repr

def Contention.none : Contention := ⟨false, []⟩

/-- The speaker with its audio thrown away, unless its buffer is busy. -/
def discard (busy : Bool) (s : Speaker) : Speaker :=
  { s with
    buffer := if busy || s.buffer.isEmpty then s.buffer else s.buffer.clear
    level := Sample.zero }

/-- The next samples of a speaker, if its buffer gives any, after its gain. -/
def contribute (busy : Bool) (count now : Nat) (s : Speaker) : Speaker × Option (List Sample) :=
  let (read, buffer) := if busy then (none, s.buffer) else s.buffer.read count now
  match read with
  | none => ({ s with buffer := buffer, level := Sample.zero }, none)
  | some samples =>
    let scaled := if s.gain == Sample.one then samples else samples.map (· * s.gain)
    ({ s with buffer := buffer, level := peakLevel scaled }, some scaled)

def mixSpeaker (deafened : Bool) (busy : List UInt32) (count now : Nat) (s : Speaker) :
    Speaker × Option (List Sample) :=
  let busy := busy.contains s.ssrc
  if deafened || s.muted then (discard busy s, none) else contribute busy count now s

/-- The sum of the given samples, on top of silence and in order. -/
def sum (count : Nat) (parts : List (List Sample)) : List Sample :=
  parts.foldl (List.zipWith (· + ·)) (List.replicate count Sample.zero)

/-- One pass of the mixer, over at most as many samples as it has scratch space for. -/
def mixChunk (c : Controls) (contention : Contention) (count now : Nat) (speakers : List Speaker) :
    List Speaker × List Sample :=
  if contention.roster then
    (speakers, List.replicate count Sample.zero)
  else
    let mixed := speakers.map (mixSpeaker c.deafened contention.buffers count now)
    (mixed.map Prod.fst,
      (sum count (mixed.filterMap Prod.snd)).map fun s => (s * c.masterGain).fullScale)

/-- The passes over an output of so many samples. -/
def chunks (scratch length : Nat) : List Nat :=
  List.replicate (length / scratch) scratch ++
    if length % scratch = 0 then [] else [length % scratch]

def mixChunks (c : Controls) (contention : Contention) (now : Nat) :
    List Nat → List Speaker → List Speaker × List Sample
  | [], speakers => (speakers, [])
  | count :: counts, speakers =>
    let (speakers, first) := mixChunk c contention count now speakers
    let (speakers, rest) := mixChunks c contention now counts speakers
    (speakers, first ++ rest)

section
variable {α : Type} {f : Speaker → α}
  (hf : ∀ s buffer level, f { s with buffer := buffer, level := level } = f s)
include hf

theorem eq_mixSpeaker (deafened : Bool) (busy : List UInt32) (count now : Nat) (s : Speaker) :
    f (mixSpeaker deafened busy count now s).1 = f s := by
  rw [mixSpeaker]
  split
  · exact hf s _ _
  · rw [contribute]
    repeat' split
    all_goals exact hf s _ _

/-- A mix changes nothing of a speaker but its buffer and its level. -/
theorem map_mixChunks (c : Controls) (contention : Contention) (now : Nat) (counts : List Nat)
    (speakers : List Speaker) :
    (mixChunks c contention now counts speakers).1.map f = speakers.map f := by
  induction counts generalizing speakers with
  | nil => rfl
  | cons count counts ih =>
      rw [mixChunks]
      refine (ih _).trans ?_
      rw [mixChunk]
      split
      · rfl
      · simp only [List.map_map]
        exact List.map_congr_left fun s _ => eq_mixSpeaker hf _ _ _ _ s

end

/-- A mixer is the scratch space it has, at least one sample. -/
structure Mixer where
  scratch : Nat
deriving DecidableEq, Repr

namespace Mixer

def create (scratch : Nat) : Mixer := ⟨max scratch 1⟩

def mix (m : Mixer) (r : Roster) (c : Controls) (contention : Contention) (length now : Nat) :
    Roster × Controls × List Sample :=
  let counts := chunks m.scratch length
  let mixed := mixChunks c contention now counts r.speakers
  (r.replace mixed.1 (map_mixChunks (fun _ _ _ => rfl) c contention now counts r.speakers),
    { c with level := peakLevel mixed.2 }, mixed.2)

end Mixer

end VoiceCall.Playback
