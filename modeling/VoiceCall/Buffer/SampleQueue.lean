import VoiceCall.Audio.Sample

namespace VoiceCall.Buffer

structure SampleQueue where
  samples : List Sample
  capacity : Nat
deriving DecidableEq

namespace SampleQueue

/-- An empty queue that holds at least one sample. -/
def ofCapacity (capacity : Nat) : SampleQueue :=
  ⟨[], max capacity 1⟩

def length (q : SampleQueue) : Nat := q.samples.length

def isEmpty (q : SampleQueue) : Bool := q.samples.isEmpty

/-- Appends samples; the oldest ones make room. The count is of samples that had been queued. -/
def push (q : SampleQueue) (input : List Sample) : SampleQueue × Nat :=
  let newest := input.drop (input.length - q.capacity)
  let overflow := q.length + newest.length - q.capacity
  ({ q with samples := q.samples.drop overflow ++ newest }, overflow)

/-- Takes the given count from the front, or nothing if there are fewer. -/
def pop (q : SampleQueue) (count : Nat) : Option (List Sample × SampleQueue) :=
  if q.length < count then
    none
  else
    some (q.samples.take count, { q with samples := q.samples.drop count })

/-- Drops up to the given count from the front, and says how many that were. -/
def dropFront (q : SampleQueue) (count : Nat) : SampleQueue × Nat :=
  let count := min count q.length
  ({ q with samples := q.samples.drop count }, count)

def clear (q : SampleQueue) : SampleQueue :=
  { q with samples := [] }

end SampleQueue

end VoiceCall.Buffer
