import VoiceCall.Hub.Basic
import VoiceCall.Packet.Header

/-!
The way of a received packet to the decoder of its speaker. The receiving side never registers
speakers itself; it reports sources that nobody owns, each one once until it has been heard.

A packet takes three steps between which others may change the hub: finding the speaker, asking
whether the source has departed, and reporting it.
-/

namespace VoiceCall

/-- What became of a packet. -/
inductive Route where
  | queued
  | dropped
  | unknownSpeaker
deriving DecidableEq, Repr

/-- Where a packet is to go. -/
inductive Destination where
  | nowhere
  | nobody
  | speaker (s : Speaker)

namespace Hub

/-- Finds the speaker of a packet. Packets that are not Opus audio go nowhere, nor do our own. -/
def destination (h : Hub) (header : Packet.Header) : Destination :=
  if header.payloadType ≠ Packet.Header.opusPayloadType then
    .nowhere
  else if header.ssrc = h.localSsrc then
    .nowhere
  else
    match h.roster.find? header.ssrc with
    | some s => .speaker s
    | none => .nobody

def routeUnknown (h : Hub) (ssrc : UInt32) : Route :=
  if h.isDeparted ssrc then .dropped else .unknownSpeaker

/-- Queues a payload for the decoder of a speaker, unless the speaker is muted or the queue full. -/
def deliver (h : Hub) (s : Speaker) (payload : Octets) (now : Nat) : Hub × Route :=
  if s.muted then
    (h, .dropped)
  else
    let (pool, accepted) := h.pool.submit ⟨s.serial, payload, now⟩
    ({ h with pool := pool }, if accepted then .queued else .dropped)

/-- The whole way of a packet, if nobody changes the hub meanwhile. -/
def handlePacket (h : Hub) (header : Packet.Header) (payload : Octets) (now : Nat) : Hub × Route :=
  match h.destination header with
  | .nowhere => (h, .dropped)
  | .nobody => (h, h.routeUnknown header.ssrc)
  | .speaker s => h.deliver s payload now

end Hub

/-- What the receiving side reports. -/
inductive Notice where
  /-- Audio is coming from a source that nobody owns. -/
  | unknownSource (ssrc : UInt32)
  /-- Receiving has failed for good. -/
  | transportFailed (reason : String)
deriving DecidableEq, Repr

/-- The sources that were reported and not heard since. -/
structure Receiver where
  announced : List UInt32
deriving DecidableEq, Repr

namespace Receiver

def fresh : Receiver := ⟨[]⟩

/-- Takes note of what became of a packet, and says what is to be reported. -/
def note (r : Receiver) (ssrc : UInt32) : Route → Receiver × Option Notice
  | .unknownSpeaker =>
    if r.announced.contains ssrc then
      (r, none)
    else
      (⟨ssrc :: r.announced⟩, some (.unknownSource ssrc))
  | .queued => (⟨r.announced.filter (· ≠ ssrc)⟩, none)
  | .dropped => (r, none)

def onPacket (r : Receiver) (h : Hub) (header : Packet.Header) (payload : Octets) (now : Nat) :
    Hub × Receiver × Option Notice :=
  let (h, route) := h.handlePacket header payload now
  (h, r.note header.ssrc route)

/-- The report of a fault that ends receiving. -/
def onFault (fault : Fault) : Notice :=
  .transportFailed fault.message

end Receiver

end VoiceCall
