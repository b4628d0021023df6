import VoiceCall.Packet.Fault
import VoiceCall.Packet.Octets

namespace VoiceCall.Packet.Discovery

def size : Nat := 74

def probeMarker : UInt16 := 1

def replyMarker : UInt16 := 2

/-- The length field: the size without marker and length. -/
def bodyLength : UInt16 := 70

def addressWidth : Nat := 64

/-- The address at which the relay sees us. -/
structure Address where
  ip : String
  port : UInt16
deriving DecidableEq, Repr

def probe (ssrc : UInt32) : Octets :=
  Octets.ofWord16 probeMarker ++ Octets.ofWord16 bodyLength ++ Octets.ofWord32 ssrc ++
    List.replicate (addressWidth + 2) 0

/-- The text in an address field: the bytes before the first zero, if they are UTF-8. -/
def addressText (field : Octets) : Option String :=
  String.fromUTF8? ⟨(field.takeWhile (· != 0)).toArray⟩

/-- Reads a reply; bytes after the fixed size are not looked at. -/
def parseReply (data : Octets) : Except Fault Address :=
  if data.length < size then
    .error (.tooShort data.length size)
  else
    let marker := word16 (data.getD 0 0) (data.getD 1 0)
    if marker ≠ replyMarker then
      .error (.unexpectedMarker marker)
    else
      match addressText ((data.drop 8).take addressWidth) with
      | none => .error .invalidAddress
      | some ip =>
        if ip.isEmpty then
          .error .invalidAddress
        else
          .ok ⟨ip, word16 (data.getD 72 0) (data.getD 73 0)⟩

end VoiceCall.Packet.Discovery
