import VoiceCall.Relay.Decoding
import VoiceCall.Session.Media
import VoiceCall.Session.Speakers

/-!
The course of a session as a machine: everything that can happen to it is a stimulus, and a run is a
list of them.
-/

namespace VoiceCall

/-- Everything that can happen to a session. Clocks count milliseconds. -/
inductive Stimulus where
  /-- The connection to the relay is made. -/
  | opened
  /-- The connection to the relay could not be made, or is broken. -/
  | broken (detail : String)
  /-- The relay has ended the connection. -/
  | closed
  /-- The connection to the relay takes no more messages, which shows when one is sent. -/
  | severed
  /-- A text from the relay, and what arrives on the media path while the session acts on it. -/
  | text (content : String) (meanwhile : List Media.Arrival) (now : Nat)
  /-- Bytes from the relay that are no text. -/
  | binary (data : Octets)
  /-- Another heartbeat is due. -/
  | beat (nonce : UInt64)
  /-- Something arrives on the media path. -/
  | arrived (arrivals : List Media.Arrival) (now : Nat)
  /-- The decoding worker at a place of the pool's list goes a step further. -/
  | decode (place : Nat)
  /-- The oldest report of the receiving side is at hand. -/
  | noticed
  /-- It is time to look at devices and speakers. -/
  | poll
  /-- The microphone has heard something. -/
  | captured (data : Sound.Block)
  /-- The sound device asks for a period. -/
  | pulled (now : Nat)
  | captureTrouble (trouble : Sound.Trouble)
  | playbackTrouble (trouble : Sound.Trouble) (now : Nat)
  /-- The user changes something. -/
  | control (change : Control)
  /-- The network changes. -/
  | network (network : Media.Network)
  /-- The user leaves the call, or has lost the means to say so. -/
  | disconnect

namespace Session

/-- How long a reply to the discovery probe is waited for, in milliseconds. -/
def discoveryTimeout : Nat := 5000

/-- Opens the media path, finds out our public address, and selects the protocol with it. -/
def connectMedia (env : Surroundings) (meanwhile : List Media.Arrival) (s : Session) (ip : String)
    (ssrc : UInt32) : Session × Option Fault :=
  match Media.Link.connect env.sockets ip ssrc with
  | .error fault => (s, some fault)
  | .ok link =>
    let (link, datagrams, found) := (link.arrive meanwhile).discover s.network discoveryTimeout
    let s := { s with datagrams := s.datagrams ++ datagrams }
    match found with
    | .error fault => (s, some fault)
    | .ok address =>
      let s := { s with hub := s.hub.setLocalSsrc ssrc, link := some link }
      match s.handshake.onDiscovered address with
      | (handshake, .actions [.send message]) =>
        { s with handshake := handshake }.send message
      | (handshake, .failed fault) => ({ s with handshake := handshake }, some fault)
      | (handshake, _) => ({ s with handshake := handshake }, none)

def perform (env : Surroundings) (meanwhile : List Media.Arrival) (s : Session) :
    Relay.Action → Session × Option Fault
  | .startHeartbeat interval =>
    match env.startThread .heartbeat with
    | .error fault => (s, some fault)
    | .ok () => ({ s with heartbeat := some interval }, none)
  | .send message => s.send message
  | .connectMedia ip _ ssrc => connectMedia env meanwhile s ip ssrc
  | .installKey key =>
    match s.link with
    | some link => ({ s with link := some (link.installKey key) }, none)
    | none => (s, some .notConnected)
  | .sendSilence => sendSilence silenceCount s
  | .startMedia =>
    match startMedia env s with
    | (s, none) => (s.emit (.connected s.hub.localSsrc), none)
    | failed => failed
  | .speakerMapped ssrc user => ({ s with hub := mapSpeaker env.dsp s.hub ssrc user }, none)
  | .speakerSilent ssrc => (s.speakerSilent ssrc, none)
  | .userLeft user => (s.userLeft env.dsp user, none)

def performAll (env : Surroundings) (meanwhile : List Media.Arrival) (s : Session) :
    List Relay.Action → Session × Option Fault
  | [] => (s, none)
  | action :: actions =>
    match perform env meanwhile s action with
    | (s, none) => performAll env meanwhile s actions
    | failed => failed

/-- Acts on a message of the relay. A change of state is told when all that it asks for is done. -/
def onMessage (env : Surroundings) (meanwhile : List Media.Arrival) (s : Session)
    (message : Relay.Message) : Session :=
  let before := s.handshake.state
  let (handshake, reply) := s.handshake.onMessage message
  let s := { s with handshake := handshake }
  match reply with
  | .overflowed => { s with standing := .crashed }
  | .failed fault => s.finish env fault
  | .actions todo =>
    match performAll env meanwhile s todo with
    | (s, none) => s.emitStateChange before
    | (s, some fault) => s.finish env fault

def respond (env : Surroundings) (s : Session) : Stimulus → Session
  | .opened => s
  | .broken detail => s.finish env (some (.webSocket detail))
  | .closed => s.finish env (some .disconnected)
  | .severed => { s with wired := false }
  | .text content meanwhile now =>
    match Relay.Message.ofJson content with
    | .ok message => (s.onMessage env meanwhile message).receive now
    | .error _ => s
  | .binary _ => s
  | .beat nonce => if s.heartbeat.isSome then proceed env (s.send (.heartbeat nonce)) else s
  | .arrived arrivals now =>
    let link := s.link.map (·.arrive arrivals)
    { s with link := link }.receive now
  | .decode place => { s with hub := s.hub.decode env.dsp place }
  | .noticed =>
    match s.notices with
    | [] => s
    | notice :: notices => proceed env ({ s with notices := notices }.onNotice env.dsp notice)
  | .poll => s.pollDevices.pollSpeakers
  | .captured data => (s.captured env.dsp data).1
  | .pulled now => (s.pulled now).1
  | .captureTrouble trouble => (s.captureTrouble trouble).1
  | .playbackTrouble trouble now => (s.playbackTrouble trouble now).1
  | .control change => { s with hub := s.hub.control env.dsp change }
  | .network network => { s with network := network }
  | .disconnect => s.finish env none

/-- What a session does on a stimulus while it is still connecting: only the connection, the user
and the workers can move it. -/
def respondDialing (env : Surroundings) (s : Session) : Stimulus → Session
  | .opened =>
    let before := s.handshake.state
    { s with handshake := s.handshake.opened, standing := .running }.emitStateChange before
  | .broken detail => s.finish env (some (.webSocket detail))
  | .decode place => { s with hub := s.hub.decode env.dsp place }
  | .control change => { s with hub := s.hub.control env.dsp change }
  | .network network => { s with network := network }
  | .disconnect => s.finish env none
  | _ => s

/-- One step of a session. A session that is over, or has crashed, is not moved by anything. -/
def step (env : Surroundings) (s : Session) (stimulus : Stimulus) : Session :=
  match s.standing with
  | .dialing => s.respondDialing env stimulus
  | .running => s.respond env stimulus
  | .over _ => s
  | .crashed => s

def run (env : Surroundings) (s : Session) (stimuli : List Stimulus) : Session :=
  stimuli.foldl (step env) s

/-- Acts on so many reports of the receiving side, or on all if there are fewer. -/
def noticeFor (env : Surroundings) (s : Session) (count : Nat) : Session :=
  s.run env (List.replicate count .noticed)

def isLive (s : Session) : Bool :=
  s.standing = .dialing || s.standing = .running

end Session

end VoiceCall
