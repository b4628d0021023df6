import VoiceCall.Packet.Fault
import VoiceCall.Packet.Octets

namespace VoiceCall.Packet

/-- The payload behind its header extension; a payload without the marker is all there is. -/
def stripExtension : Octets → Except Fault Octets
  | 0xbe :: 0xde :: high :: low :: rest =>
    let words := (word16 high low).toNat
    if words * 4 ≤ rest.length then
      .ok (rest.drop (words * 4))
    else
      .error (.extensionOverrun words (rest.length + 4))
  | payload => .ok payload

end VoiceCall.Packet
