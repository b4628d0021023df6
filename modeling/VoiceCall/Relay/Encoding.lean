import VoiceCall.Json.Printer
import VoiceCall.Relay.Message

namespace VoiceCall.Relay

open Json (Value)

def Identity.toValue (i : Identity) : Value :=
  .ofFields [("server_id", .string i.server), ("user_id", .string i.user),
    ("session_id", .string i.session), ("token", .string i.token)]

def Selection.toValue (s : Selection) : Value :=
  .ofFields [("protocol", .string s.protocol),
    ("data", .ofFields [("address", .string s.address), ("port", .ofNat s.port.toNat),
      ("mode", .string s.mode)])]

def Ready.toValue (r : Ready) : Value :=
  .ofFields [("ssrc", .ofNat r.ssrc.toNat), ("ip", .string r.ip), ("port", .ofNat r.port.toNat),
    ("modes", .ofStrings r.modes)]

def SessionKey.toValue (k : SessionKey) : Value :=
  .ofFields [("mode", .string k.mode),
    ("secret_key", .array (k.key.map fun b => .ofNat b.toNat))]

/-- A user that is not known is left out. -/
def Speaking.toValue (s : Speaking) : Value :=
  let user :=
    match s.user with
    | some user => [("user_id", Value.string user)]
    | none => []
  .ofFields <| [("speaking", .ofNat s.flags.toNat), ("delay", .ofNat s.delay.toNat),
    ("ssrc", .ofNat s.ssrc.toNat)] ++ user

namespace Message

def payload : Message → Value
  | identify i => i.toValue
  | selectProtocol s => s.toValue
  | ready r => r.toValue
  | heartbeat nonce => .ofNat nonce.toNat
  | sessionDescription k => k.toValue
  | speaking s => s.toValue
  | heartbeatAck nonce => .ofNat nonce.toNat
  | hello interval => .ofFields [("heartbeat_interval", .ofDouble interval)]
  | clientDisconnect user => .ofFields [("user_id", .string user)]
  | unknown _ d => d

def toJson (m : Message) : String :=
  String.ofList <| "\x7b\"op\":".toList ++ Nat.toDigits 10 m.opcode.toNat ++ ",\"d\":".toList ++
    m.payload.print ++ ['\x7d']

end Message

end VoiceCall.Relay
