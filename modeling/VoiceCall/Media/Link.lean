import VoiceCall.Audio.Format
import VoiceCall.Cipher.Sealed
import VoiceCall.Media.Address
import VoiceCall.Packet.Discovery
import VoiceCall.Packet.Packetizer
import VoiceCall.Packet.Sequencer

/-!
Our end of the media path: a socket aimed at the relay. Before the session key has come nothing but
the discovery probe is ever sent; afterwards every datagram is a sealed packet.
-/

namespace VoiceCall.Media

/-- What a receive on the socket brings. -/
inductive Arrival where
  | datagram (fromRelay : Bool) (data : Octets)
  /-- A fault that passes, such as an interruption or the echo of an unreachable port. -/
  | disturbance
  /-- A fault that ends receiving. -/
  | failure (detail : String)
deriving DecidableEq, Repr

/-- What the receiving side hands on. -/
inductive Delivery where
  | packet (header : Packet.Header) (payload : Octets)
  | fault (fault : Fault)
deriving DecidableEq

/-- What the system gives to reach a relay with. -/
structure Sockets where
  /-- The addresses of a host, or why they are not known. -/
  lookup : String → Except String (List String)
  /-- What is wrong with a socket that is aimed at an address, if anything. -/
  bindFault : String → Option String

/-- No host has a name. -/
def Sockets.nameless : Sockets where
  lookup _ := .error "the host is not known"
  bindFault _ := none

/-- The address to send to. One that is numeric stands for itself. -/
def Sockets.resolve (sockets : Sockets) (host : String) : Except Fault String :=
  if isNumericAddress host then
    .ok host
  else
    match sockets.lookup host with
    | .error detail => .error (.socket detail)
    | .ok [] => .error (.protocol ("unresolvable relay address " ++ host))
    | .ok (address :: _) => .ok address

/-- Why the network does not take a datagram, by the count of those that were offered to it before;
nothing if it takes it. -/
abbrev Network := Nat → Option String

namespace Network

def up : Network := fun _ => none

def down : Network := fun _ => some "the network is down"

end Network

structure Link where
  ssrc : UInt32
  /-- The session key, as soon as it has come. -/
  key : Option Octets
  sequencer : Packet.Sequencer
  /-- What has arrived at the socket and was not received yet. -/
  inbox : List Arrival
  /-- Whether the receiving side runs. -/
  listening : Bool
  /-- The count of datagrams that were offered to the network. -/
  offered : Nat
deriving DecidableEq

namespace Link

/-- A longer datagram is cut to this many bytes when it is received. -/
def maxDatagram : Nat := 2048

/-- A link to a host. Timestamps count the samples of a period. -/
def connect (sockets : Sockets) (host : String) (ssrc : UInt32) : Except Fault Link :=
  match sockets.resolve host with
  | .error fault => .error fault
  | .ok address =>
    match sockets.bindFault address with
    | some detail => .error (.socket detail)
    | none => .ok ⟨ssrc, none, .start (UInt32.ofNat Audio.periodLength), [], false, 0⟩

def setSsrc (l : Link) (ssrc : UInt32) : Link :=
  { l with ssrc := ssrc }

def installKey (l : Link) (key : Octets) : Link :=
  { l with key := some key }

def arrive (l : Link) (arrivals : List Arrival) : Link :=
  { l with inbox := l.inbox ++ arrivals }

/-- Offers one more datagram to the network, and says why it is not taken. -/
def offer (l : Link) (network : Network) : Link × Option Fault :=
  ({ l with offered := l.offered + 1 }, (network l.offered).map .socket)

theorem offer_up (l : Link) : l.offer .up = ({ l with offered := l.offered + 1 }, none) := rfl

/-- The packets of a unit's pieces, up to the first one that cannot be sealed or that the network
does not take. Every packet that is built takes the next sequence number. -/
def sendPieces (network : Network) (key : Octets) :
    Link → List Octets → Link × List Octets × Option Fault
  | l, [] => (l, [], none)
  | l, piece :: pieces =>
    let l := { l with sequencer := l.sequencer.nextPacket }
    match Cipher.sealPacket key (.opus l.sequencer.sequence l.sequencer.timestamp l.ssrc) piece with
    | .error fault => (l, [], some fault)
    | .ok packet =>
      match l.offer network with
      | (l, some fault) => (l, [], some fault)
      | (l, none) =>
        let (l, packets, fault) := sendPieces network key l pieces
        (l, packet :: packets, fault)

/-- Seals and sends a unit, in as many packets of one timestamp as it needs: the datagrams that
went out, and their count or what went wrong. -/
def send (l : Link) (network : Network) (unit : Octets) : Link × List Octets × Except Fault Nat :=
  match l.key with
  | none => (l, [], .error .noSecretKey)
  | some key =>
    let l := { l with sequencer := l.sequencer.nextUnit }
    let (l, packets, fault) := sendPieces network key l (Packet.Packetizer.standard.fragment unit)
    (l, packets,
      match fault with
      | none => .ok packets.length
      | some fault => .error fault)

/-- The address in the first reply of the relay among what arrives, and what is left unreceived.
Strangers, other datagrams and passing faults are passed over. -/
def awaitReply : List Arrival → Except Fault Packet.Discovery.Address × List Arrival
  | [] => (.error .discoveryTimeout, [])
  | .datagram fromRelay data :: rest =>
    match fromRelay, Packet.Discovery.parseReply (data.take maxDatagram) with
    | true, .ok address => (.ok address, rest)
    | _, _ => awaitReply rest
  | .disturbance :: rest => awaitReply rest
  | .failure detail :: rest => (.error (.socket detail), rest)

/-- Sends one probe and waits for the reply: the datagrams that went out, and our public address.
What the inbox holds is there before the time is over, unless no time is given at all. -/
def discover (l : Link) (network : Network) (timeout : Nat) :
    Link × List Octets × Except Fault Packet.Discovery.Address :=
  match l.offer network with
  | (l, some fault) => (l, [], .error fault)
  | (l, none) =>
    let (address, inbox) :=
      if timeout = 0 then (.error .discoveryTimeout, l.inbox) else awaitReply l.inbox
    ({ l with inbox := inbox }, [Packet.Discovery.probe l.ssrc], address)

/-- What one arrival delivers under a key. A packet that does not come from the relay, does not open
under the key, or comes before the key delivers nothing. -/
def delivery? (key : Option Octets) : Arrival → Option Delivery
  | .datagram true data =>
    key.bind fun key =>
      match Cipher.openPacket key (data.take maxDatagram) with
      | .ok (header, payload) => some (.packet header payload)
      | .error _ => none
  | .datagram false _ => none
  | .disturbance => none
  | .failure detail => some (.fault (.socket detail))

def listen (l : Link) : Link :=
  { l with listening := true }

/-- Receives the next arrival, if there is one and the receiving side runs. A fault that ends
receiving stops it. -/
def receive (l : Link) : Option (Link × Option Delivery) :=
  match l.listening, l.inbox with
  | true, arrival :: rest =>
    let delivery := delivery? l.key arrival
    let goesOn :=
      match delivery with
      | some (.fault _) => false
      | _ => true
    some ({ l with inbox := rest, listening := goesOn }, delivery)
  | _, _ => none

def receiveFor : Nat → Link → Link × List Delivery
  | 0, l => (l, [])
  | count + 1, l =>
    match l.receive with
    | none => (l, [])
    | some (l, delivery) =>
      let (l, rest) := receiveFor count l
      (l, delivery.toList ++ rest)

def receiveAll (l : Link) : Link × List Delivery :=
  receiveFor l.inbox.length l

end Link

end VoiceCall.Media
