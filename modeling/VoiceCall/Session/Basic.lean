import VoiceCall.Hub.Control
import VoiceCall.Hub.Receiver
import VoiceCall.Media.Outbox
import VoiceCall.Sound.Stream

/-!
One call: the handshake with the relay, the media path, the sound devices and the hub. What the
session tells its owner, the relay and the network is kept in order.
-/

namespace VoiceCall

/-- A thread that a session starts. -/
inductive Thread where
  | heartbeat
  /-- Receives on the media path. -/
  | receiver
  /-- Sends what the microphone gives. -/
  | sender
deriving DecidableEq, Repr

/-- What a session finds on the system it runs on. -/
structure Surroundings where
  dsp : Dsp
  host : Sound.Host
  sockets : Media.Sockets
  /-- Why a thread cannot be started, if it cannot. -/
  threadFault : Thread → Option String

/-- A system without sound and names. -/
def Surroundings.bare : Surroundings where
  dsp := .quiet
  host := .silent
  sockets := .nameless
  threadFault _ := none

def Surroundings.startThread (env : Surroundings) (thread : Thread) : Except Fault Unit :=
  match env.threadFault thread with
  | some detail => .error (.socket detail)
  | none => .ok ()

inductive Standing where
  /-- The connection to the relay is being made. -/
  | dialing
  | running
  /-- The call has ended, with a reason unless that was asked for. -/
  | over (reason : Option String)
  /-- The session broke down without a word. -/
  | crashed
deriving DecidableEq, Repr

/-- An open microphone, and the pipeline behind it. -/
structure Intake where
  stream : Sound.CaptureStream
  pipeline : Microphone.Pipeline

structure Session where
  hub : Hub
  handshake : Relay.Handshake
  standing : Standing
  /-- The period of the heartbeat, as soon as the relay has asked for one. -/
  heartbeat : Option Nanoseconds
  link : Option Media.Link
  receiver : Receiver
  /-- What the receiving side has reported and nobody has acted on, the oldest first. -/
  notices : List Notice
  intake : Option Intake
  playback : Option Sound.PlaybackStream
  /-- Whether each speaker was last told to be speaking. -/
  activity : List (UInt32 × Bool)
  network : Media.Network
  /-- Whether the connection to the relay takes messages. -/
  wired : Bool
  /-- What was sent to the relay. -/
  sent : List Relay.Message
  /-- What was sent on the media path. -/
  datagrams : List Octets

namespace Session

def start (hub : Hub) (identity : Relay.Identity) : Session where
  hub := hub.emit (.stateChanged .connecting)
  handshake := .start identity
  standing := .dialing
  heartbeat := none
  link := none
  receiver := .fresh
  notices := []
  intake := none
  playback := none
  activity := []
  network := .up
  wired := true
  sent := []
  datagrams := []

def emit (s : Session) (event : Event) : Session :=
  { s with hub := s.hub.emit event }

/-- Tells of the handshake's state if it is not what it was before. -/
def emitStateChange (s : Session) (before : Relay.HandshakeState) : Session :=
  if s.handshake.state = before then s else s.emit (.stateChanged s.handshake.state)

/-- Nothing can be told to the relay any more. -/
def severedFault : Fault :=
  .webSocket "the connection takes no messages"

def send (s : Session) (message : Relay.Message) : Session × Option Fault :=
  if s.wired then ({ s with sent := s.sent ++ [message] }, none) else (s, some severedFault)

/-- Gives everything back: devices, media path, heartbeat and speakers. -/
def teardown (env : Surroundings) (s : Session) : Session :=
  { s with
    intake := none
    playback := none
    heartbeat := none
    link := none
    notices := []
    hub := s.hub.shutdown env.dsp
    activity := []
    handshake := s.handshake.close }

/-- Ends the call, because of a fault or because that was asked for. -/
def finish (env : Surroundings) (s : Session) (fault : Option Fault) : Session :=
  let reason := fault.map Fault.message
  let s := s.teardown env
  let s := (s.emit (.stateChanged .disconnected)).emit (.disconnected reason)
  { s with standing := .over reason }

def proceed (env : Surroundings) : Session × Option Fault → Session
  | (s, none) => s
  | (s, some fault) => s.finish env fault

end Session

end VoiceCall
