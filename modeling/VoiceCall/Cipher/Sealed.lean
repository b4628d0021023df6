import VoiceCall.Cipher.Aead
import VoiceCall.Fault
import VoiceCall.Packet.Header

namespace VoiceCall.Cipher

open Packet (Header)

def minSealedSize : Nat := Header.size + Aead.tagSize

def nonceOf (header : Octets) : Octets :=
  header ++ List.replicate 12 0

/-- Builds the datagram of a header and a payload in a buffer, whatever that held before. If it
fails the buffer is left with the payload in the clear. -/
def sealInto (key : Octets) (header : Header) (payload buffer : Octets) :
    Octets × Except Fault Unit :=
  let buffer := buffer.take 0 ++ header.toOctets ++ payload
  match Aead.encrypt? key (nonceOf header.toOctets) (buffer.drop Header.size) with
  | some (ciphertext, tag) => (buffer.take Header.size ++ ciphertext ++ tag, .ok ())
  | none => (buffer, .error .crypto)

def sealPacket (key : Octets) (header : Header) (payload : Octets) : Except Fault Octets :=
  let (packet, outcome) := sealInto key header payload []
  outcome.map fun () => packet

/-- The header and the payload of a datagram that was sealed under the key. -/
def openPacket (key : Octets) (packet : Octets) : Except Fault (Header × Octets) :=
  if packet.length < minSealedSize then
    .error (.packet (.tooShort packet.length minSealedSize))
  else
    match Header.parse packet with
    | .error fault => .error (.packet fault)
    | .ok header =>
      let nonce := nonceOf (packet.take Header.size)
      let body := packet.drop Header.size
      let cut := body.length - Aead.tagSize
      match Aead.decrypt? key nonce (body.take cut) (body.drop cut) with
      | some payload => .ok (header, payload)
      | none => .error .crypto

end VoiceCall.Cipher
