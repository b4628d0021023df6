import VoiceCall.Fault
import VoiceCall.Number.Nanoseconds
import VoiceCall.Packet.Discovery
import VoiceCall.Relay.Message

/-!
The handshake with the relay as a machine without effects: every message is answered with the
actions to carry out, in order.
-/

namespace VoiceCall.Relay

inductive HandshakeState where
  | connecting
  | awaitingHello
  | awaitingReady
  | awaitingSessionDescription
  | connected
  | disconnected
deriving DecidableEq, Repr

def HandshakeState.display : HandshakeState → String
  | connecting => "connecting"
  | awaitingHello => "awaiting hello"
  | awaitingReady => "awaiting ready"
  | awaitingSessionDescription => "awaiting session description"
  | connected => "connected"
  | disconnected => "disconnected"

inductive Action where
  | startHeartbeat (interval : Nanoseconds)
  | send (message : Message)
  /-- Open the media path to this endpoint, as this source, and find out our public address. -/
  | connectMedia (ip : String) (port : UInt16) (ssrc : UInt32)
  | installKey (key : Octets)
  /-- Send the silent frames that open the path back to us. -/
  | sendSilence
  | startMedia
  | speakerMapped (ssrc : UInt32) (user : String)
  | speakerSilent (ssrc : UInt32)
  | userLeft (user : String)

/-- How the machine answers. -/
inductive Reply where
  | actions (todo : List Action)
  | failed (fault : Fault)
  /-- A heartbeat interval was asked for that is longer than any clock counts. -/
  | overflowed

structure Handshake where
  state : HandshakeState
  identity : Identity
  /-- The source number that the relay assigned to us. -/
  ssrc : Option UInt32
  mode : Option String

def defaultHeartbeat : Nanoseconds := 5 * Nanoseconds.perSecond

/-- The interval of a count of milliseconds; none if it is too long. -/
def heartbeatInterval (millis : Float) : Option Nanoseconds :=
  if millis.isFinite && 0 < millis then
    Nanoseconds.ofSeconds? (millis / Float.ofBits 0x408f400000000000)
  else
    some defaultHeartbeat

def speakingMicrophone : UInt8 := 1

namespace Handshake

def start (identity : Identity) : Handshake :=
  ⟨.connecting, identity, none, none⟩

def opened (h : Handshake) : Handshake :=
  if h.state = .connecting then { h with state := .awaitingHello } else h

/-- The call is over; nothing is answered any more. -/
def close (h : Handshake) : Handshake :=
  { h with state := .disconnected }

def onHello (h : Handshake) (interval : Float) : Handshake × Reply :=
  match heartbeatInterval interval with
  | none => (h, .overflowed)
  | some interval =>
    ({ h with state := .awaitingReady },
      .actions [.startHeartbeat interval, .send (.identify h.identity)])

def onReady (h : Handshake) (ready : Ready) : Handshake × Reply :=
  match ready.selectMode with
  | none => (h, .failed .unsupportedEncryption)
  | some mode =>
    ({ h with state := .awaitingSessionDescription, ssrc := some ready.ssrc, mode := some mode },
      .actions [.connectMedia ready.ip ready.port ready.ssrc])

def onSessionDescription (h : Handshake) (description : SessionKey) : Handshake × Reply :=
  if description.mode ≠ supportedMode then
    (h, .failed .unsupportedEncryption)
  else
    match h.ssrc with
    | none => (h, .failed (.protocol "session description before ready"))
    | some ssrc =>
      ({ h with state := .connected },
        .actions [.installKey description.key, .sendSilence,
          .send (.speaking ⟨speakingMicrophone, 0, ssrc, none⟩), .startMedia])

/-- What the relay says of other speakers; what it says of us is passed over. -/
def onSpeaking (h : Handshake) (s : Speaking) : Reply :=
  if h.ssrc = some s.ssrc then
    .actions []
  else
    let mapped :=
      match s.user with
      | some user => [Action.speakerMapped s.ssrc user]
      | none => []
    .actions (mapped ++ if s.flags = 0 then [.speakerSilent s.ssrc] else [])

/-- Whether the relay has assigned us a source and the call is not over. -/
def hasSource (h : Handshake) : Bool :=
  h.state = .awaitingSessionDescription || h.state = .connected

/-- Advances on one message; messages out of order are passed over. -/
def onMessage (h : Handshake) (message : Message) : Handshake × Reply :=
  match message with
  | .hello interval => if h.state = .awaitingHello then h.onHello interval else (h, .actions [])
  | .ready ready => if h.state = .awaitingReady then h.onReady ready else (h, .actions [])
  | .sessionDescription description =>
    if h.state = .awaitingSessionDescription then
      h.onSessionDescription description
    else
      (h, .actions [])
  | .speaking speaking => (h, if h.hasSource then h.onSpeaking speaking else .actions [])
  | .clientDisconnect user => (h, .actions (if h.hasSource then [.userLeft user] else []))
  | _ => (h, .actions [])

/-- Selects the protocol with our public address. -/
def onDiscovered (h : Handshake) (address : Packet.Discovery.Address) : Handshake × Reply :=
  if h.state ≠ .awaitingSessionDescription then
    (h, .actions [])
  else
    match h.mode with
    | none => (h, .failed .unsupportedEncryption)
    | some mode =>
      (h, .actions [.send (.selectProtocol (.udp address.ip address.port mode))])

end Handshake

end VoiceCall.Relay
