import VoiceCall.Packet.Octets

namespace VoiceCall.Cipher.Poly1305

/-- The number of a byte string, low byte first. -/
def number : Octets → Nat
  | [] => 0
  | b :: rest => b.toNat + 256 * number rest

/-- The lowest `count` bytes of a number, low byte first. -/
def octets : Nat → Nat → Octets
  | 0, _ => []
  | count + 1, n => UInt8.ofNat n :: octets count (n / 256)

def prime : Nat := Nat.pow 2 130 - 5

/-- The bits of the multiplier that a key may set. -/
def clamp (r : Nat) : Nat :=
  r &&& 0x0ffffffc0ffffffc0ffffffc0fffffff

/-- Takes in the message in blocks of sixteen bytes, each with a one behind its last byte. -/
def accumulate (r : Nat) (sum : Nat) (message : Octets) : Nat :=
  if message.isEmpty then
    sum
  else
    accumulate r ((sum + number (message.take 16 ++ [1])) * r % prime) (message.drop 16)
termination_by message.length
decreasing_by
  cases message with
  | nil => contradiction
  | cons => simp only [List.length_drop, List.length_cons]; omega

/-- The tag of sixteen bytes that a key of 32 bytes gives a message. -/
def tag (key message : Octets) : Octets :=
  octets 16 (accumulate (clamp (number (key.take 16))) 0 message + number (key.drop 16))

end VoiceCall.Cipher.Poly1305
