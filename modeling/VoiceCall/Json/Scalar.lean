import VoiceCall.Json.Reader

namespace VoiceCall.Json

def Number.toRange (low high : Int) (expected : String) : Number → Except Mismatch Int
  | integer n =>
    if low ≤ n ∧ n ≤ high then .ok n else .error (.invalidValue n expected)
  | real x => .error (.invalidType (.real x) expected)

def Number.toWord8 (n : Number) : Except Mismatch UInt8 :=
  (n.toRange 0 255 "u8").map fun n => UInt8.ofNat n.toNat

def Number.toWord16 (n : Number) : Except Mismatch UInt16 :=
  (n.toRange 0 65535 "u16").map fun n => UInt16.ofNat n.toNat

def Number.toWord32 (n : Number) : Except Mismatch UInt32 :=
  (n.toRange 0 4294967295 "u32").map fun n => UInt32.ofNat n.toNat

def Number.toWord64 (n : Number) : Except Mismatch UInt64 :=
  (n.toRange 0 18446744073709551615 "usize").map fun n => UInt64.ofNat n.toNat

def Number.toDouble : Number → Float
  | integer n =>
    let magnitude := n.natAbs.toUInt64.toFloat
    if n < 0 then -magnitude else magnitude
  | real x => x

/-- The single of a number: of a whole number directly, of a double by a second rounding. -/
def Number.toSingle : Number → Float32
  | integer n =>
    let magnitude := n.natAbs.toUInt64.toFloat32
    if n < 0 then -magnitude else magnitude
  | real x => Binary.narrow x

/-- What stands at the front of a text, as a fault where something else was expected. -/
def unexpected (expected : String) (text : List Char) : Fault :=
  let found : Except Fault Found :=
    match text with
    | 'n' :: rest => (expectWord ['u', 'l', 'l'] rest).map fun _ => .null
    | 't' :: rest => (expectWord ['r', 'u', 'e'] rest).map fun _ => .boolean true
    | 'f' :: rest => (expectWord ['a', 'l', 's', 'e'] rest).map fun _ => .boolean false
    | '"' :: rest => (readString rest).map fun (s, _) => .string s
    | '[' :: _ => .ok .sequence
    | '\x7b' :: _ => .ok .map
    | c :: rest =>
      if startsNumber c then
        (readNumber (c :: rest)).map fun (n, _) => n.found
      else
        .error .malformed
    | [] => .error .ended
  match found with
  | .ok found => .mismatch (.invalidType found expected)
  | .error fault => fault

def ofMismatch {α : Type} : Except Mismatch α → Except Fault α
  | .ok a => .ok a
  | .error m => .error (.mismatch m)

abbrev TextReader (α : Type) := List Char → Except Fault (α × List Char)

def readNumberAs {α : Type} (expected : String) (convert : Number → Except Mismatch α) :
    TextReader α := fun text =>
  match skipBlank text with
  | [] => .error .ended
  | c :: rest =>
    if startsNumber c then do
      let (number, rest) ← readNumber (c :: rest)
      let value ← ofMismatch (convert number)
      return (value, rest)
    else
      .error (unexpected expected (c :: rest))

def readWord8 : TextReader UInt8 := readNumberAs "u8" Number.toWord8

def readWord16 : TextReader UInt16 := readNumberAs "u16" Number.toWord16

def readWord32 : TextReader UInt32 := readNumberAs "u32" Number.toWord32

def readWord64 : TextReader UInt64 := readNumberAs "usize" Number.toWord64

def readSingle : TextReader Float32 := readNumberAs "f32" fun n => .ok n.toSingle

def readBoolean : TextReader Bool := fun text =>
  match skipBlank text with
  | [] => .error .ended
  | 't' :: rest => (expectWord ['r', 'u', 'e'] rest).map (true, ·)
  | 'f' :: rest => (expectWord ['a', 'l', 's', 'e'] rest).map (false, ·)
  | rest => .error (unexpected "a boolean" rest)

def readStringAs (expected : String) : TextReader String := fun text =>
  match skipBlank text with
  | [] => .error .ended
  | '"' :: rest => readString rest
  | rest => .error (unexpected expected rest)

def readText : TextReader String := readStringAs "a string"

def ofName {α : Type} (choices : List (String × α)) (name : String) : Except Fault α :=
  match choices.lookup name with
  | some value => .ok value
  | none => .error (.mismatch (.unknownVariant name (choices.map Prod.fst)))

/-- The null that stands for the content of a value without content. -/
def readUnit : TextReader Unit := fun text =>
  match skipBlank text with
  | [] => .error .ended
  | 'n' :: rest => (expectWord ['u', 'l', 'l'] rest).map ((), ·)
  | rest => .error (unexpected "unit" rest)

/-- One of some named values: its name, or an object with the name and null. -/
def readChoice {α : Type} (choices : List (String × α)) : TextReader α := fun text =>
  match skipBlank text with
  | [] => .error .ended
  | '"' :: rest => do
    let (name, rest) ← readString rest
    let value ← ofName choices name
    return (value, rest)
  | '\x7b' :: rest => do
    let (name, rest) ← readStringAs "variant identifier" rest
    let value ← ofName choices name
    let rest ← readColon rest
    let ((), rest) ← readUnit rest
    match skipBlank rest with
    | [] => .error .ended
    | '\x7d' :: rest => return (value, rest)
    | _ => .error .malformed
  | _ => .error .malformed

def readWhole {α : Type} (reader : TextReader α) (text : String) : Except Fault α := do
  let (value, rest) ← reader text.toList
  finish rest
  return value

end VoiceCall.Json
