import VoiceCall.Json.Fault

/-!
JSON values. Whole numbers that fit 64 bits stay whole, all others are doubles; the fields of an
object are sorted by their names and each name occurs once.
-/

namespace VoiceCall.Json

inductive Number where
  | integer (n : Int)
  | real (x : Float)
deriving DecidableEq

inductive Value where
  | null
  | boolean (b : Bool)
  | number (n : Number)
  | string (s : String)
  | array (items : List Value)
  | object (fields : List (String × Value))

namespace Number

/-- The whole numbers that fit 64 bits, with or without a sign. -/
def fitsWord (n : Int) : Bool :=
  Int64.minValue.toInt ≤ n && n < UInt64.size

def found : Number → Found
  | integer n => .integer n
  | real x => .real x

end Number

/-- Puts a field in its place among sorted fields, replacing one of the same name. -/
def insertField (name : String) (value : Value) : List (String × Value) → List (String × Value)
  | [] => [(name, value)]
  | (other, held) :: rest =>
    if name < other then
      (name, value) :: (other, held) :: rest
    else if name = other then
      (name, value) :: rest
    else
      (other, held) :: insertField name value rest

/-- The sorted fields of a list in which a later field replaces an earlier one. -/
def sortFields (fields : List (String × Value)) : List (String × Value) :=
  fields.foldl (fun sorted (name, value) => insertField name value sorted) []

namespace Value

def ofNat (n : Nat) : Value :=
  .number (.integer n)

/-- The number of a double; only finite doubles are numbers in JSON. -/
def ofDouble (x : Float) : Value :=
  if x.isFinite then .number (.real x) else .null

def ofStrings (items : List String) : Value :=
  .array (items.map .string)

def ofFields (fields : List (String × Value)) : Value :=
  .object (sortFields fields)

def field? (name : String) : Value → Option Value
  | .object fields => fields.lookup name
  | _ => none

def found : Value → Found
  | null => .null
  | boolean b => .boolean b
  | number n => n.found
  | string s => .string s
  | array _ => .sequence
  | object _ => .map

end Value

end VoiceCall.Json
