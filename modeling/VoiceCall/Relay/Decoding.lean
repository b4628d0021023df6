import VoiceCall.Json.Record
import VoiceCall.Relay.Message

namespace VoiceCall.Relay

open Json

def Identity.decode : Decoder Identity :=
  decodeRecord "Identify"
    [("server_id", decodeText.check), ("user_id", decodeText.check),
      ("session_id", decodeText.check), ("token", decodeText.check)]
    fun slots => do
      let server ← slots.required "server_id" decodeText
      let user ← slots.required "user_id" decodeText
      let session ← slots.required "session_id" decodeText
      let token ← slots.required "token" decodeText
      return { server, user, session, token }

def Selection.decodeData : Decoder (String × UInt16 × String) :=
  decodeRecord "ProtocolData"
    [("address", decodeText.check), ("port", decodeWord16.check), ("mode", decodeText.check)]
    fun slots => do
      let address ← slots.required "address" decodeText
      let port ← slots.required "port" decodeWord16
      let mode ← slots.required "mode" decodeText
      return (address, port, mode)

def Selection.decode : Decoder Selection :=
  decodeRecord "SelectProtocol"
    [("protocol", decodeText.check), ("data", Selection.decodeData.check)]
    fun slots => do
      let protocol ← slots.required "protocol" decodeText
      let (address, port, mode) ← slots.required "data" Selection.decodeData
      return { protocol, address, port, mode }

/-- A relay that offers no modes may leave them out. -/
def Ready.decode : Decoder Ready :=
  decodeRecord "Ready"
    [("ssrc", decodeWord32.check), ("ip", decodeText.check), ("port", decodeWord16.check),
      ("modes", (decodeList decodeText).check)]
    fun slots => do
      let ssrc ← slots.required "ssrc" decodeWord32
      let ip ← slots.required "ip" decodeText
      let port ← slots.required "port" decodeWord16
      let modes ← slots.optional "modes" (decodeList decodeText) []
      return { ssrc, ip, port, modes }

def SessionKey.decode : Decoder SessionKey :=
  decodeRecord "SessionDescription"
    [("mode", decodeText.check), ("secret_key", (decodeArray 32 decodeWord8).check)]
    fun slots => do
      let mode ← slots.required "mode" decodeText
      let key ← slots.required "secret_key" (decodeArray 32 decodeWord8)
      return { mode, key }

/-- The delay is zero and the user unknown if they are left out. -/
def Speaking.decode : Decoder Speaking :=
  decodeRecord "Speaking"
    [("speaking", decodeWord8.check), ("delay", decodeWord32.check), ("ssrc", decodeWord32.check),
      ("user_id", decodeTextOrNull.check)]
    fun slots => do
      let flags ← slots.required "speaking" decodeWord8
      let delay ← slots.optional "delay" decodeWord32 0
      let ssrc ← slots.required "ssrc" decodeWord32
      let user ← slots.optional "user_id" decodeTextOrNull none
      return { flags, delay, ssrc, user }

def decodeInterval : Decoder Float :=
  decodeRecord "Hello" [("heartbeat_interval", decodeDouble.check)]
    fun slots => slots.required "heartbeat_interval" decodeDouble

def decodeUser : Decoder String :=
  decodeRecord "ClientDisconnect" [("user_id", decodeText.check)]
    fun slots => slots.required "user_id" decodeText

/-- A natural number that fits 64 bits. -/
def word64? : Value → Option UInt64
  | .number (.integer n) => if 0 ≤ n ∧ n < UInt64.size then some (UInt64.ofNat n.toNat) else none
  | _ => none

/-- The nonce of a heartbeat, bare or as a field of that name; zero if there is none. -/
def nonceOf (payload : Value) : UInt64 :=
  match word64? payload with
  | some nonce => nonce
  | none => ((payload.field? "nonce").bind word64?).getD 0

namespace Message

def ofPayload (opcode : UInt8) (payload : Value) : Except Mismatch Message :=
  if opcode = 0 then (Identity.decode payload).map identify
  else if opcode = 1 then (Selection.decode payload).map selectProtocol
  else if opcode = 2 then (Ready.decode payload).map ready
  else if opcode = 3 then .ok (heartbeat (nonceOf payload))
  else if opcode = 4 then (SessionKey.decode payload).map sessionDescription
  else if opcode = 5 then (Speaking.decode payload).map speaking
  else if opcode = 6 then .ok (heartbeatAck (nonceOf payload))
  else if opcode = 8 then (decodeInterval payload).map hello
  else if opcode = 13 then (decodeUser payload).map clientDisconnect
  else .ok (unknown opcode payload)

/-- What is read around every message: the opcode, and the payload or null. -/
structure Envelope where
  opcode : UInt8
  payload : Value

/-- An object with other fields beside them, or an array of the two. -/
def readEnvelope : TextReader Envelope :=
  readRecord "RawMessage"
    [.of "op" true readWord8 fun e opcode => { e with opcode := opcode },
      .of "d" false (readValue (maxDepth - 1)) fun e payload => { e with payload := payload }]
    ⟨0, .null⟩

def ofJson (text : String) : Except Json.Fault Message := do
  let envelope ← readWhole readEnvelope text
  ofMismatch (ofPayload envelope.opcode envelope.payload)

end Message

end VoiceCall.Relay
