import VoiceCall.Session.Basic

namespace VoiceCall.Session

/-- A speaker speaks while its level is above this. -/
def activityThreshold : Sample := Float32.ofBits 0x3c23d70a

def isSpeaking (s : Speaker) : Bool :=
  activityThreshold < s.level

def putActivity (activity : List (UInt32 × Bool)) (ssrc : UInt32) (speaking : Bool) :
    List (UInt32 × Bool) :=
  (ssrc, speaking) :: activity.filter (·.1 ≠ ssrc)

/-- Gives a source number to a user, in place of whoever had the number and of the number that the
user had. -/
def mapSpeaker (dsp : Dsp) (h : Hub) (ssrc : UInt32) (user : String) : Hub :=
  let replace (h : Hub) : Hub :=
    let h :=
      match h.roster.ssrcOfUser user with
      | some previous => (h.removeSpeaker dsp previous).1
      | none => h
    (h.addSpeaker dsp ssrc (some user)).1
  match h.roster.find? ssrc with
  | some existing =>
    if existing.user = some user then h else replace (h.removeSpeaker dsp ssrc).1
  | none => replace h

def speakerSilent (s : Session) (ssrc : UInt32) : Session :=
  match s.hub.roster.find? ssrc with
  | none => s
  | some speaker =>
    let before := s.activity.lookup ssrc
    let s := { s with activity := putActivity s.activity ssrc false }
    if before = some false then s else s.emit (.speakerActivity ssrc speaker.user false)

def userLeft (dsp : Dsp) (s : Session) (user : String) : Session :=
  let activity :=
    match s.hub.roster.ssrcOfUser user with
    | some ssrc => s.activity.filter (·.1 ≠ ssrc)
    | none => s.activity
  { s with activity := activity, hub := (s.hub.removeUser dsp user).1 }

/-- Looks at one speaker, and tells if it has begun or ceased to speak. -/
def pollSpeaker (s : Session) (speaker : Speaker) : Session :=
  let speaking := isSpeaking speaker
  let before := (s.activity.lookup speaker.ssrc).getD false
  let s := { s with activity := putActivity s.activity speaker.ssrc speaking }
  if speaking = before then s else s.emit (.speakerActivity speaker.ssrc speaker.user speaking)

def pollSpeakers (s : Session) : Session :=
  let speakers := s.hub.roster.speakers
  let known := s.activity.filter fun entry => speakers.any (·.ssrc = entry.1)
  speakers.foldl pollSpeaker { s with activity := known }

def onNotice (dsp : Dsp) (s : Session) : Notice → Session × Option Fault
  | .unknownSource ssrc => ({ s with hub := (s.hub.admitUnknown dsp ssrc).1 }, none)
  | .transportFailed reason => (s, some (.transportFailed reason))

end VoiceCall.Session
