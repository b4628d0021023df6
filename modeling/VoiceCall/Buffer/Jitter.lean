import VoiceCall.Audio.Format
import VoiceCall.Buffer.SampleQueue

/-!
The jitter buffer of one remote speaker: decoded audio is held back until enough has been gathered
to ride out the unevenness of the network. Clocks count milliseconds, or finer ticks.
-/

namespace VoiceCall.Buffer

structure Jitter where
  queue : SampleQueue
  /-- While set, nothing is read. -/
  gathering : Bool
  /-- Samples that end the gathering. -/
  desired : Nat
  /-- Ticks since the last write that end the gathering. -/
  patience : Nat
  lastWrite : Option Nat
deriving DecidableEq

namespace Jitter

/-- An empty buffer for a desired and a maximal latency; the maximum is at least the desired one.
The resolution of its clocks is their ticks in a millisecond. -/
def create (desired most : UInt32) (resolution : Nat := 1) : Jitter :=
  let most := max most desired
  { queue := .ofCapacity (Audio.samplesOfMillis most)
    gathering := true
    desired := Audio.samplesOfMillis desired
    patience := most.toNat * resolution
    lastWrite := none }

/-- Queues samples; the count is of older samples that were dropped for them. -/
def write (b : Jitter) (samples : List Sample) (now : Nat) : Jitter × Nat :=
  let (queue, dropped) := b.queue.push samples
  ({ b with queue := queue, lastWrite := some now }, dropped)

/-- Whether the last write is too long ago to wait for more. -/
def stalled (b : Jitter) (now : Nat) : Bool :=
  b.lastWrite.any fun written => b.patience < now - written

/-- Whether a read at this clock would find the gate open. -/
def released (b : Jitter) (now : Nat) : Bool :=
  !(b.gathering || b.queue.isEmpty) || b.desired ≤ b.queue.length || b.stalled now

/-- Reads exactly the given count, or nothing. An empty buffer starts to gather again. -/
def read (b : Jitter) (count now : Nat) : Option (List Sample) × Jitter :=
  if b.released now then
    match b.queue.pop count with
    | some (samples, queue) => (some samples, { b with queue := queue, gathering := false })
    | none => (none, { b with gathering := false })
  else
    (none, { b with gathering := true })

def clear (b : Jitter) : Jitter :=
  { b with queue := b.queue.clear, gathering := true }

def length (b : Jitter) : Nat := b.queue.length

def isEmpty (b : Jitter) : Bool := b.queue.isEmpty

def bufferedMillis (b : Jitter) : UInt32 :=
  Audio.millisOfSamples b.length

variable (b : Jitter) (samples : List Sample) (count now : Nat)

@[simp] theorem gathering_write : (b.write samples now).1.gathering = b.gathering := rfl

@[simp] theorem desired_write : (b.write samples now).1.desired = b.desired := rfl

@[simp] theorem patience_write : (b.write samples now).1.patience = b.patience := rfl

@[simp] theorem lastWrite_write : (b.write samples now).1.lastWrite = some now := rfl

/-- A read gets what it asks for when the gate is open and enough is queued. -/
theorem isSome_read :
    (b.read count now).1.isSome = (b.released now && decide (count ≤ b.length)) := by
  unfold read SampleQueue.pop
  by_cases hopen : b.released now
  · by_cases hshort : b.queue.length < count
    · simp [hopen, hshort, length, Nat.not_le.mpr hshort]
    · simp [hopen, hshort, length, Nat.le_of_not_lt hshort]
  · simp [hopen]

@[simp] theorem gathering_read : (b.read count now).2.gathering = !b.released now := by
  unfold read
  by_cases hopen : b.released now
  · cases b.queue.pop count <;> simp [hopen]
  · simp [hopen]

theorem exists_read_eq :
    ∃ queue gathering,
      (b.read count now).2 = { b with queue := queue, gathering := gathering } := by
  unfold read
  split
  · cases hpop : b.queue.pop count with
    | none => exact ⟨b.queue, false, rfl⟩
    | some popped => exact ⟨popped.2, false, rfl⟩
  · exact ⟨b.queue, true, rfl⟩

end Jitter

end VoiceCall.Buffer
