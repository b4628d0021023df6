import VoiceCall.Json.Value
import VoiceCall.Packet.Octets

namespace VoiceCall.Relay

/-- Who joins which call. -/
structure Identity where
  server : String
  user : String
  session : String
  token : String
deriving DecidableEq

/-- The public address and the encryption mode that the client picked. -/
structure Selection where
  protocol : String
  address : String
  port : UInt16
  mode : String
deriving DecidableEq

/-- The relay's media endpoint, the source number assigned to us, and the modes on offer. -/
structure Ready where
  ssrc : UInt32
  ip : String
  port : UInt16
  modes : List String
deriving DecidableEq

/-- The encryption mode and the key of 32 bytes. -/
structure SessionKey where
  mode : String
  key : Octets
deriving DecidableEq

/-- Whether a source is speaking, and whose it is if that is known. -/
structure Speaking where
  flags : UInt8
  delay : UInt32
  ssrc : UInt32
  user : Option String
deriving DecidableEq

inductive Message where
  | identify (identity : Identity)
  | selectProtocol (selection : Selection)
  | ready (ready : Ready)
  | heartbeat (nonce : UInt64)
  | sessionDescription (key : SessionKey)
  | speaking (speaking : Speaking)
  | heartbeatAck (nonce : UInt64)
  | hello (interval : Float)
  | clientDisconnect (user : String)
  | unknown (opcode : UInt8) (payload : Json.Value)

def supportedMode : String := "aead_xchacha20_poly1305"

def Selection.udp (address : String) (port : UInt16) (mode : String) : Selection :=
  ⟨"udp", address, port, mode⟩

def Ready.selectMode (ready : Ready) : Option String :=
  ready.modes.find? (· = supportedMode)

namespace Message

def opcode : Message → UInt8
  | identify _ => 0
  | selectProtocol _ => 1
  | ready _ => 2
  | heartbeat _ => 3
  | sessionDescription _ => 4
  | speaking _ => 5
  | heartbeatAck _ => 6
  | hello _ => 8
  | clientDisconnect _ => 13
  | unknown opcode _ => opcode

def knownOpcodes : List UInt8 := [0, 1, 2, 3, 4, 5, 6, 8, 13]

end Message

end VoiceCall.Relay
