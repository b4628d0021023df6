import VoiceCall.Relay.Message

/-!
The arguments of the command line: options in any order, each at most once. An option's value is the
next argument, or stands behind an equals sign; behind a short option it may follow directly.
-/

namespace VoiceCall.CommandLine

/-- What can be given as an option. -/
inductive Key where
  | endpoint
  | token
  | session
  | server
  | user
  | config
  | listDevices
  | debug
  | help
  | version
deriving DecidableEq, Repr

/-- What is wrong with the arguments. -/
inductive Fault where
  | unknownOption (argument : String)
  | strayArgument (argument : String)
  | missingValue (option : String)
  | unexpectedValue (option : String)
  | repeatedOption (option : String)
  | missingOption (option : String)
deriving DecidableEq, Repr

def Fault.message : Fault → String
  | unknownOption argument => "unknown option: " ++ argument
  | strayArgument argument => "unexpected argument: " ++ argument
  | missingValue option => "a value is required for " ++ option
  | unexpectedValue option => "no value is expected for " ++ option
  | repeatedOption option => option ++ " cannot be used more than once"
  | missingOption option => option ++ " is required"

namespace Key

def all : List Key :=
  [endpoint, token, session, server, user, config, listDevices, debug, help, version]

def name : Key → String
  | endpoint => "endpoint"
  | token => "token"
  | session => "session-id"
  | server => "server-id"
  | user => "user-id"
  | config => "config"
  | listDevices => "list-devices"
  | debug => "debug"
  | help => "help"
  | version => "version"

def letter : Key → Option Char
  | endpoint => some 'e'
  | token => some 't'
  | user => some 'u'
  | config => some 'c'
  | help => some 'h'
  | version => some 'V'
  | _ => none

def takesValue : Key → Bool
  | listDevices | debug | help | version => false
  | _ => true

/-- A path must not be empty; any other value may be. -/
def acceptsValue (k : Key) (value : String) : Bool :=
  k ≠ config || !value.isEmpty

def ofName? (name : String) : Option Key :=
  all.find? (·.name = name)

def ofLetter? (letter : Char) : Option Key :=
  all.find? (·.letter = some letter)

def display (k : Key) : String :=
  "--" ++ k.name

end Key

abbrev Given := List (Key × String)

/-- How an argument reads. -/
inductive Reading where
  /-- An option, and the value that is attached to it. -/
  | option (key : Key) (attached : Option String)
  /-- The mark behind which no options follow. -/
  | endOfOptions
  | wrong (fault : Fault)

def splitEquals (text : List Char) : String × Option String :=
  match text.dropWhile (· ≠ '=') with
  | _ :: value => (String.ofList (text.takeWhile (· ≠ '=')), some (String.ofList value))
  | [] => (String.ofList text, none)

def attachedToLetter : List Char → Option String
  | [] => none
  | '=' :: value => some (String.ofList value)
  | value => some (String.ofList value)

def readArgument (argument : String) : Reading :=
  match argument.toList with
  | ['-', '-'] => .endOfOptions
  | '-' :: '-' :: text =>
    let (name, attached) := splitEquals text
    match Key.ofName? name with
    | some key => .option key attached
    | none => .wrong (.unknownOption argument)
  | '-' :: letter :: rest =>
    match Key.ofLetter? letter with
    | some key => .option key (if key.takesValue then attachedToLetter rest else none)
    | none => .wrong (.unknownOption argument)
  | _ => .wrong (.strayArgument argument)

/-- Whether an argument can be the value of the option before it: it must not look like an
option. -/
def isValue (argument : String) : Bool :=
  match argument.toList with
  | '-' :: _ :: _ => false
  | _ => true

def add (given : Given) (key : Key) (value : String) : Except Fault Given :=
  if given.any (·.1 = key) then
    .error (.repeatedOption key.display)
  else if key.acceptsValue value then
    .ok (given ++ [(key, value)])
  else
    .error (.missingValue key.display)

/-- Reads the arguments one after the other, up to a request for help or for the version. -/
def readArguments : List String → Given → Except Fault Given
  | [], given => .ok given
  | argument :: rest, given =>
    match readArgument argument with
    | .wrong fault => .error fault
    | .endOfOptions =>
      match rest with
      | [] => .ok given
      | stray :: _ => .error (.strayArgument stray)
    | .option key attached =>
      if key.takesValue then
        match attached, rest with
        | some value, rest => do readArguments rest (← add given key value)
        | none, value :: rest =>
          if isValue value then do
            readArguments rest (← add given key value)
          else
            .error (.missingValue key.display)
        | none, [] => .error (.missingValue key.display)
      else if attached.isSome then
        .error (.unexpectedValue key.display)
      else
        match add given key "" with
        | .error fault => .error fault
        | .ok given =>
          if key = .help ∨ key = .version then .ok given else readArguments rest given

/-- What the program is asked to do. -/
inductive Invocation where
  /-- Say how the program is used, or which version it is. -/
  | inform (key : Key)
  | listDevices
  /-- Join a call, with the settings of a file if one is named. -/
  | join (endpoint : String) (identity : Relay.Identity) (config : Option String)

def require (given : Given) (key : Key) : Except Fault String :=
  match given.lookup key with
  | some value => .ok value
  | none => .error (.missingOption key.display)

def interpret (given : Given) : Except Fault Invocation :=
  match given.find? fun (key, _) => key = .help ∨ key = .version with
  | some (key, _) => .ok (.inform key)
  | none =>
    if given.any (·.1 = .listDevices) then
      .ok .listDevices
    else do
      let endpoint ← require given .endpoint
      let token ← require given .token
      let session ← require given .session
      let server ← require given .server
      let user ← require given .user
      return .join endpoint ⟨server, user, session, token⟩ (given.lookup .config)

def parse (arguments : List String) : Except Fault Invocation := do
  interpret (← readArguments arguments [])

end VoiceCall.CommandLine
