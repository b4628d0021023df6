import VoiceCall.Number.Notation
import VoiceCall.Text.Quoted

namespace VoiceCall.Json

/-- What was found in place of what was expected. -/
inductive Found where
  | null
  | boolean (b : Bool)
  | integer (n : Int)
  | real (x : Float)
  | string (s : String)
  | sequence
  | map
deriving DecidableEq

def Found.describe : Found → String
  | null => "null"
  | boolean b => "boolean \x60" ++ (if b then "true" else "false") ++ "\x60"
  | integer n => "integer \x60" ++ toString n ++ "\x60"
  | real x => "floating point \x60" ++ String.ofList (doubleText x) ++ "\x60"
  | string s => "string " ++ Text.quoted s
  | sequence => "sequence"
  | map => "map"

/-- A value of the wrong shape. -/
inductive Mismatch where
  | invalidType (found : Found) (expected : String)
  | invalidValue (found : Int) (expected : String)
  | invalidLength (length : Nat) (expected : String)
  | unknownVariant (name : String) (known : List String)
  | duplicateField (name : String)
  | missingField (name : String)
deriving DecidableEq

def marked (name : String) : String :=
  "\x60" ++ name ++ "\x60"

def alternatives : List String → String
  | [first, second] => marked first ++ " or " ++ marked second
  | [only] => marked only
  | names => "one of " ++ ", ".intercalate (names.map marked)

def Mismatch.message : Mismatch → String
  | invalidType found expected => "invalid type: " ++ found.describe ++ ", expected " ++ expected
  | invalidValue n expected =>
      "invalid value: " ++ (Found.integer n).describe ++ ", expected " ++ expected
  | invalidLength n expected => s!"invalid length {n}, expected " ++ expected
  | unknownVariant name known =>
      "unknown variant " ++ marked name ++ ", expected " ++ alternatives known
  | duplicateField name => "duplicate field " ++ marked name
  | missingField name => "missing field " ++ marked name

inductive Fault where
  | malformed
  | ended
  | mismatch (m : Mismatch)
deriving DecidableEq

def Fault.message : Fault → String
  | malformed => "malformed text"
  | ended => "unexpected end of text"
  | mismatch m => m.message

end VoiceCall.Json
