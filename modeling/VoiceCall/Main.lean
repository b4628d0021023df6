import VoiceCall.CommandLine.Program

/-!
The program as it is started. It runs without a network and without sound cards, so that a call that
is joined ends as soon as its relay was found to be out of reach.
-/

namespace VoiceCall

/-- The settings file of the user, in the directory for settings: the one that the environment names
by its full path, or else the usual one. -/
def settingsPath : IO String := do
  let directory ←
    match (← IO.getEnv "XDG_CONFIG_HOME").filter (·.startsWith "/") with
    | some directory => pure directory
    | none => pure (((← IO.getEnv "HOME").getD "") ++ "/.config")
  return directory ++ "/voicecall/voice.json"

def readFile (path : String) : IO (Option Octets) := do
  try
    return some (← IO.FS.readBinFile path).data.toList
  catch _ =>
    return none

end VoiceCall

open VoiceCall in
def main (arguments : List String) : IO UInt32 := do
  let config :=
    match CommandLine.parse arguments with
    | .ok (.join _ _ config) => config
    | _ => none
  let path ← match config with
    | some path => pure path
    | none => settingsPath
  let content ← readFile path
  let outcome := CommandLine.execute .bare (fun _ => content)
    [.broken "the relay is out of reach"] arguments
  for line in outcome.output do
    IO.println line
  match outcome.complaint with
  | some complaint => IO.eprintln complaint
  | none => pure ()
  return outcome.status.toUInt32
