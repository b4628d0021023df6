import VoiceCall.Sound.Adapter
import VoiceCall.Sound.Device
import VoiceCall.Sound.Framer

/-!
Open streams. A stream works in device periods, delivers or takes nothing but silence while it is
stopped, and keeps the faults that happen on it until somebody asks for them.
-/

namespace VoiceCall.Sound

/-- What can happen to a stream in place of an ordinary device period. -/
inductive Trouble where
  /-- The stream woke up before a period was ready, which is no fault. -/
  | early
  /-- Nothing was exchanged. -/
  | exchangeFailed
  /-- The first attempt to write a period failed, the second one succeeded. -/
  | writeFailed
deriving DecidableEq, Repr

/-- What all open streams have. -/
structure Line where
  layout : Layout
  /-- Frames of a device period. -/
  period : Nat
  active : Bool
  /-- Faults that nobody has asked for, the oldest first. -/
  faults : List String
deriving DecidableEq, Repr

namespace Line

def create (layout : Layout) (period : Nat) : Line :=
  ⟨layout, period, false, []⟩

def start (l : Line) : Line :=
  { l with active := true }

def stop (l : Line) : Line :=
  { l with active := false }

def addFault (l : Line) (message : String) : Line :=
  { l with faults := l.faults ++ [message] }

def checkFault (l : Line) : Line × Option String :=
  ({ l with faults := l.faults.tail }, l.faults.head?)

end Line

structure CaptureStream where
  line : Line
  framer : Framer
deriving DecidableEq

namespace CaptureStream

def create (layout : Layout) (period : Nat) : CaptureStream :=
  ⟨.create layout period, .create layout.channels⟩

/-- Opens the device of a name. -/
def openOn (h : Host) (name : String) : Except Fault CaptureStream :=
  (h.open? .input name).map fun (layout, period) => create layout period

/-- Takes what the device has captured: the periods that it completes. A stopped stream drops it,
together with the period that was not yet full. -/
def feed (s : CaptureStream) (data : Block) : CaptureStream × List (List Sample) :=
  if s.line.active then
    let (framer, full) :=
      match data with
      | .f32 samples => s.framer.push samples
      | .i16 samples => s.framer.push samples
      | .u16 samples => s.framer.push samples
    ({ s with framer := framer }, full)
  else
    ({ s with framer := s.framer.reset }, [])

def faultMessage : String := "Audio capture error"

def suffer (s : CaptureStream) : Trouble → CaptureStream
  | .early => s
  | _ => { s with line := s.line.addFault faultMessage }

end CaptureStream

structure PlaybackStream where
  line : Line
deriving DecidableEq

/-- What a device was given, what the source was asked for, and the source. -/
structure Played (σ : Type) where
  data : Option Block
  requests : List Nat
  source : σ

namespace PlaybackStream

variable {σ : Type}

def create (layout : Layout) (period : Nat) : PlaybackStream :=
  ⟨.create layout period⟩

/-- Opens the device of a name. -/
def openOn (h : Host) (name : String) : Except Fault PlaybackStream :=
  (h.open? .output name).map fun (layout, period) => create layout period

/-- One device period in the samples of a format. A stopped stream gives silence and does not ask
the source. -/
def renderAs (α : Type) [DeviceSample α] (render : Renderer σ) (l : Line) (source : σ) :
    Filled α σ :=
  let data := List.replicate (l.period * l.layout.channels.toNat) (DeviceSample.silence : α)
  if l.active then Adapter.fill render l.layout.channels data source else ⟨data, [], source⟩

def pull (render : Renderer σ) (s : PlaybackStream) (source : σ) : Played σ :=
  match s.line.layout.format with
  | .i16 =>
    let filled := renderAs Int16 render s.line source
    ⟨some (.i16 filled.data), filled.requests, filled.source⟩
  | .u16 =>
    let filled := renderAs UInt16 render s.line source
    ⟨some (.u16 filled.data), filled.requests, filled.source⟩
  | _ =>
    let filled := renderAs Float32 render s.line source
    ⟨some (.f32 filled.data), filled.requests, filled.source⟩

def faultMessage : String := "Audio playback error"

/-- Something happens to the stream. A period whose first write failed was asked for all the
same. -/
def suffer (render : Renderer σ) (s : PlaybackStream) (trouble : Trouble) (source : σ) :
    PlaybackStream × Played σ :=
  let faulty := { s with line := s.line.addFault faultMessage }
  match trouble with
  | .early => (s, ⟨none, [], source⟩)
  | .exchangeFailed => (faulty, ⟨none, [], source⟩)
  | .writeFailed => (faulty, s.pull render source)

end PlaybackStream

end VoiceCall.Sound
