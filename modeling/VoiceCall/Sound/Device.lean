import VoiceCall.Fault
import VoiceCall.Sound.Config

namespace VoiceCall.Sound

inductive Direction where
  | input
  | output
deriving DecidableEq, Repr

def Direction.word : Direction → String
  | input => "input"
  | output => "output"

def Direction.title : Direction → String
  | input => "Input"
  | output => "Output"

/-- A device for one direction. -/
structure Device where
  /-- None if the name cannot be read. -/
  name : Option String
  /-- None if the device cannot be asked. -/
  ranges : Option (List Range)
  /-- Whether a stream can be built once a layout is chosen. -/
  buildable : Bool
  /-- Frames that the device exchanges at a time. -/
  period : Nat
deriving DecidableEq, Repr

/-- The devices of a system. -/
structure Host where
  /-- None if the devices cannot be listed. -/
  devices : Direction → Option (List Device)
  /-- The default device, if there is one. -/
  default : Direction → Option Device

def defaultName : String := "System Default"

/-- The empty name stands for the default device, too. -/
def isDefaultName (name : String) : Bool :=
  name.isEmpty || name = defaultName

def shownName (name : String) : String :=
  if isDefaultName name then defaultName else name

/-- An entry in a list of devices. -/
structure Listing where
  name : String
  isDefault : Bool
deriving DecidableEq, Repr

/-- Two entries are the same device if they have the same name. -/
def Listing.sameDevice (a b : Listing) : Bool :=
  a.name = b.name

def Listing.systemDefault : Listing := ⟨defaultName, true⟩

def addName (list : List Listing) (name : String) : List Listing :=
  if list.any (·.name = name) then list else list ++ [⟨name, false⟩]

/-- The names of some devices, after the entry for the default device. -/
def listNames (devices : List Device) : List Listing :=
  (devices.filterMap Device.name).foldl addName [.systemDefault]

namespace Host

/-- A system without sound. -/
def silent : Host := ⟨fun _ => some [], fun _ => none⟩

def list (h : Host) (direction : Direction) : List Listing :=
  match h.devices direction with
  | some devices => listNames devices
  | none => [.systemDefault]

/-- The first device of a name, or else the default device. -/
def find? (h : Host) (direction : Direction) (name : String) : Option Device :=
  if isDefaultName name then
    h.default direction
  else
    match h.devices direction with
    | none => none
    | some devices => (devices.find? (·.name = some name)).or (h.default direction)

/-- The layout and the device period of the device that is opened under a name. -/
def open? (h : Host) (direction : Direction) (name : String) : Except Fault (Layout × Nat) :=
  match h.find? direction name with
  | none => .error (.device (direction.title ++ " device not found"))
  | some device =>
    match device.ranges with
    | none => .error (.device "Failed to get supported configs")
    | some ranges =>
      match chooseLayout ranges with
      | none =>
        .error (.device (direction.title ++ " device doesn't support 48kHz. Device supports: " ++
          describeRates ranges))
      | some layout =>
        if device.buildable then
          .ok (layout, device.period)
        else
          .error (.device ("Failed to build " ++ direction.word ++ " stream"))

end Host

end VoiceCall.Sound
