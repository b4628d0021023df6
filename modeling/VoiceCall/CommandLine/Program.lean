import VoiceCall.CommandLine.Arguments
import VoiceCall.Relay.Endpoint
import VoiceCall.Session.Run
import VoiceCall.Settings.File

namespace VoiceCall.CommandLine

/-- The status of a program that was used wrongly. -/
def usageStatus : UInt8 := 2

/-- The status after a failed call. -/
def failureStatus : UInt8 := 1

def deviceLines (host : Sound.Host) : List String :=
  let names (direction : Sound.Direction) :=
    (host.list direction).map fun entry => "  " ++ entry.name
  "Input devices:" :: names .input ++ "Output devices:" :: names .output

/-- The status after a call: it has failed if it ended with a reason. -/
def statusOfEvents : List Event → UInt8
  | [] => 0
  | .disconnected reason :: _ => if reason.isSome then failureStatus else 0
  | _ :: events => statusOfEvents events

/-- What the user sees of the program. -/
structure Outcome where
  status : UInt8
  /-- The lines on standard output. -/
  output : List String
  /-- What is wrong with the arguments. -/
  complaint : Option String
deriving DecidableEq, Repr

def usage : String :=
  "usage: voicecall -e ENDPOINT -t TOKEN -u USER-ID --session-id ID --server-id ID [-c FILE] " ++
    "[--debug]"

/-- The call that the arguments ask for, with the settings of the user. -/
def call (env : Surroundings) (settings : Settings) (identity : Relay.Identity)
    (stimuli : List Stimulus) : Session :=
  (Session.start (.create settings) identity).run env stimuli

/-- The program on a system. The contents of files are given, and what happens to a call that is
joined. -/
def execute (env : Surroundings) (content : Option String → Option Octets)
    (stimuli : List Stimulus) (arguments : List String) : Outcome :=
  match parse arguments with
  | .error fault => ⟨usageStatus, [], some fault.message⟩
  | .ok (.inform .version) => ⟨0, ["voicecall"], none⟩
  | .ok (.inform _) => ⟨0, [usage], none⟩
  | .ok .listDevices => ⟨0, deviceLines env.host, none⟩
  | .ok (.join _ identity config) =>
    let session := call env (Settings.load (content config)) identity stimuli
    ⟨statusOfEvents session.hub.events, [], none⟩

end VoiceCall.CommandLine
