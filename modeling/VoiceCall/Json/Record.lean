import VoiceCall.Json.Decoder

/-!
Reading a record from text, field by field as they come: an object in any order, or an array in the
order of declaration. Fields that are not known are skipped.
-/

namespace VoiceCall.Json

/-- A field of a record under construction. -/
structure Field (σ : Type) where
  name : String
  required : Bool
  read : σ → TextReader σ

/-- A field whose value is put into the record as it is read. -/
def Field.of {σ α : Type} (name : String) (required : Bool) (reader : TextReader α)
    (put : σ → α → σ) : Field σ where
  name := name
  required := required
  read draft text := (reader text).map fun (value, rest) => (put draft value, rest)

/-- The first field that is required and was not seen. -/
def missing {σ : Type} (fields : List (Field σ)) (seen : List String) : Option String :=
  (fields.find? fun field => field.required && !seen.contains field.name).map Field.name

def readObjectFuel {σ : Type} (fields : List (Field σ)) :
    Nat → Bool → List String → σ → TextReader σ
  | 0, _, _, _, _ => .error .malformed
  | fuel + 1, first, seen, draft, text => do
    let (more, text) ← nextField first text
    if more then
      let (name, text) ← readString text
      match fields.find? fun field => field.name = name with
      | some field =>
        if seen.contains name then
          .error (.mismatch (.duplicateField name))
        else
          let text ← readColon text
          let (draft, text) ← field.read draft text
          readObjectFuel fields fuel false (name :: seen) draft text
      | none =>
        let text ← readColon text
        let text ← skipValue text
        readObjectFuel fields fuel false seen draft text
    else
      match missing fields seen with
      | some name => .error (.mismatch (.missingField name))
      | none => return (draft, text)

def closeArray (text : List Char) : Except Fault (List Char) :=
  match skipBlank text with
  | ']' :: rest => .ok rest
  | [] => .error .ended
  | _ => .error .malformed

/-- Reads the elements of an array as fields in their order; the last ones may be left out if they
are not required. -/
def readArray {σ : Type} (name : String) (count : Nat) :
    List (Field σ) → Nat → Bool → σ → TextReader σ
  | [], _, _, draft, text => (closeArray text).map (draft, ·)
  | field :: fields, index, first, draft, text => do
    let (more, rest) ← nextItem first text
    if more then
      let (draft, rest) ← field.read draft rest
      readArray name count fields (index + 1) false draft rest
    else
      match (field :: fields).findIdx? Field.required with
      | some offset => .error (.mismatch (.invalidLength (index + offset) (elementsOf name count)))
      | none => return (draft, rest)

def readRecord {σ : Type} (name : String) (fields : List (Field σ)) (draft : σ) : TextReader σ :=
  fun text =>
    match skipBlank text with
    | [] => .error .ended
    | '[' :: rest => readArray name fields.length fields 0 true draft rest
    | '\x7b' :: rest => readObjectFuel fields (rest.length + 1) true [] draft rest
    | rest => .error (unexpected ("struct " ++ name) rest)

end VoiceCall.Json
