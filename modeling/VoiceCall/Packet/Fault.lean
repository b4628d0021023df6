namespace VoiceCall.Packet

inductive Fault where
  | tooShort (length needed : Nat)
  | unexpectedMarker (marker : UInt16)
  | invalidAddress
  | unsupportedVersion (version : UInt8)
  | extensionOverrun (words length : Nat)
deriving DecidableEq, Repr

/-- The lower-case digits of a 16-bit word in base sixteen, four of them. -/
def hexWord (w : UInt16) : String :=
  String.ofList <| [12, 8, 4, 0].map fun shift => Nat.digitChar (w.toNat >>> shift % 16)

def Fault.message : Fault → String
  | tooShort length needed => s!"packet too short: {length} bytes (need at least {needed})"
  | unexpectedMarker marker => "unexpected discovery marker 0x" ++ hexWord marker
  | invalidAddress => "invalid address in discovery reply"
  | unsupportedVersion version => s!"unsupported RTP version {version}"
  | extensionOverrun words length =>
      s!"header extension overruns payload ({words} words, {length} bytes)"

end VoiceCall.Packet
