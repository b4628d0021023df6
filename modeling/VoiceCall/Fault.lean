import VoiceCall.Json.Fault
import VoiceCall.Packet.Fault

namespace VoiceCall

inductive Fault where
  /-- The relay sent something that cannot be acted on. -/
  | protocol (detail : String)
  /-- A message that is no gateway message, and where in its text that shows. -/
  | json (fault : Json.Fault) (line column : Nat)
  | webSocket (detail : String)
  | socket (detail : String)
  | packet (fault : Packet.Fault)
  /-- A packet that was not authentic, or was too long to seal. -/
  | crypto
  /-- A packet was to be sent before the session key had come. -/
  | noSecretKey
  | unsupportedEncryption
  | discoveryTimeout
  | codec (detail : String)
  | device (detail : String)
  | notConnected
  /-- The receiving side of the media path gave up. -/
  | transportFailed (detail : String)
  | disconnected
deriving DecidableEq

def Fault.message : Fault → String
  | protocol detail => "protocol error: " ++ detail
  | json fault line column =>
      "invalid gateway message: " ++ fault.message ++ s!" at line {line} column {column}"
  | webSocket detail => "websocket error: " ++ detail
  | socket detail => "socket error: " ++ detail
  | packet fault => "malformed packet: " ++ fault.message
  | crypto => "packet failed to decrypt"
  | noSecretKey => "no session key installed"
  | unsupportedEncryption => "relay offered no supported encryption mode"
  | discoveryTimeout => "no reply to IP discovery"
  | codec detail => "codec error: " ++ detail
  | device detail => "audio device error: " ++ detail
  | notConnected => "transport is not connected"
  | transportFailed detail => "voice transport failed: " ++ detail
  | disconnected => "session closed"

end VoiceCall
