import VoiceCall.Json.Scalar

namespace VoiceCall.Json

abbrev Decoder (α : Type) := Value → Except Mismatch α

def wrongType {α : Type} (v : Value) (expected : String) : Except Mismatch α :=
  .error (.invalidType v.found expected)

def decodeNumber {α : Type} (expected : String) (convert : Number → Except Mismatch α) : Decoder α
  | .number n => convert n
  | v => wrongType v expected

def decodeWord8 : Decoder UInt8 := decodeNumber "u8" Number.toWord8

def decodeWord16 : Decoder UInt16 := decodeNumber "u16" Number.toWord16

def decodeWord32 : Decoder UInt32 := decodeNumber "u32" Number.toWord32

def decodeDouble : Decoder Float := decodeNumber "f64" fun n => .ok n.toDouble

def decodeText : Decoder String
  | .string s => .ok s
  | v => wrongType v "a string"

/-- A string, or null for none. -/
def decodeTextOrNull : Decoder (Option String)
  | .null => .ok none
  | v => (decodeText v).map some

def decodeList {α : Type} (item : Decoder α) : Decoder (List α)
  | .array items => items.mapM item
  | v => wrongType v "a sequence"

def decodeArray {α : Type} (count : Nat) (item : Decoder α) : Decoder (List α)
  | .array items => do
    let elements ← (items.take count).mapM item
    if items.length < count then
      .error (.invalidLength items.length s!"an array of length {count}")
    else if count < items.length then
      .error (.invalidLength items.length "fewer elements in array")
    else
      return elements
  | v => wrongType v s!"an array of length {count}"

/-- The fields of a record by name, and what it means that one is absent. -/
structure Slots where
  lookup : String → Option Value
  absent : String → Mismatch

namespace Slots

def required {α : Type} (slots : Slots) (name : String) (decoder : Decoder α) :
    Except Mismatch α :=
  match slots.lookup name with
  | some v => decoder v
  | none => .error (slots.absent name)

def optional {α : Type} (slots : Slots) (name : String) (decoder : Decoder α) (default : α) :
    Except Mismatch α :=
  match slots.lookup name with
  | some v => decoder v
  | none => .ok default

end Slots

/-- A decoder that only says whether a value has the type. -/
def Decoder.check {α : Type} (decoder : Decoder α) : Decoder Unit := fun v =>
  (decoder v).map fun _ => ()

/-- Checks the fields that are known, in the order in which they stand. -/
def checkFields (known : List (String × Decoder Unit)) :
    List (String × Value) → Except Mismatch Unit
  | [] => .ok ()
  | (name, v) :: rest => do
    match known.lookup name with
    | some check => check v
    | none => .ok ()
    checkFields known rest

/-- What is expected of an array that stands for a record of some length. -/
def elementsOf (name : String) (count : Nat) : String :=
  s!"struct {name} with {count} element" ++ (if count = 1 then "" else "s")

/-- Reads a record: from an object, whose fields are checked as they stand before one is found
missing, or from an array in the order of declaration. -/
def decodeRecord {α : Type} (name : String) (known : List (String × Decoder Unit))
    (build : Slots → Except Mismatch α) : Decoder α
  | .object fields => do
    checkFields known fields
    build ⟨fun field => fields.lookup field, .missingField⟩
  | .array items => do
    let names := known.map Prod.fst
    let record ← build
      ⟨fun field => (names.zip items).lookup field,
        fun field => .invalidLength (names.idxOf field) (elementsOf name known.length)⟩
    if known.length < items.length then
      .error (.invalidLength items.length "fewer elements in array")
    else
      return record
  | v => wrongType v ("struct " ++ name)

end VoiceCall.Json
