import VoiceCall.Packet.Fault
import VoiceCall.Packet.Octets

namespace VoiceCall.Packet

/-- `flags` is the first byte as it stands: version, padding, extension and source count. -/
structure Header where
  flags : UInt8
  payloadType : UInt8
  marker : Bool
  sequence : UInt16
  timestamp : UInt32
  ssrc : UInt32
deriving DecidableEq, Repr

namespace Header

def size : Nat := 12

def opusPayloadType : UInt8 := 0x78

/-- A header of an Opus packet: version two and nothing else set. -/
def opus (sequence : UInt16) (timestamp ssrc : UInt32) : Header where
  flags := 0x80
  payloadType := opusPayloadType
  marker := false
  sequence := sequence
  timestamp := timestamp
  ssrc := ssrc

/-- The wire form. The marker has the top bit of the second byte to itself. -/
def toOctets (h : Header) : Octets :=
  [h.flags, (h.payloadType &&& 0x7f) ||| (if h.marker then 0x80 else 0)] ++
    Octets.ofWord16 h.sequence ++ Octets.ofWord32 h.timestamp ++ Octets.ofWord32 h.ssrc

def parse : Octets → Except Fault Header
  | flags :: kind :: s₀ :: s₁ :: t₀ :: t₁ :: t₂ :: t₃ :: r₀ :: r₁ :: r₂ :: r₃ :: _ =>
    let version := flags >>> 6
    if version = 2 then
      .ok {
        flags := flags
        payloadType := kind &&& 0x7f
        marker := kind &&& 0x80 != 0
        sequence := word16 s₀ s₁
        timestamp := word32 t₀ t₁ t₂ t₃
        ssrc := word32 r₀ r₁ r₂ r₃ }
    else
      .error (.unsupportedVersion version)
  | short => .error (.tooShort short.length size)

def hasExtension (h : Header) : Bool :=
  h.flags &&& 0x10 != 0

theorem length_toOctets (h : Header) : h.toOctets.length = size := rfl

end Header

end VoiceCall.Packet
