import VoiceCall.Packet.Octets

/-!
The ChaCha20 stream cipher, and the XChaCha20 derivation that lets it take nonces of 24 bytes. The
state is a square of words; a round works on its four columns at once.
-/

namespace VoiceCall.Cipher

/-- The 32-bit word of four bytes, low byte first. -/
def littleWord (a b c d : UInt8) : UInt32 :=
  word32 d c b a

def littleOctets (w : UInt32) : Octets :=
  (Octets.ofWord32 w).reverse

namespace ChaCha20

structure Row where
  a : UInt32
  b : UInt32
  c : UInt32
  d : UInt32
deriving DecidableEq, Repr

namespace Row

def zip (f : UInt32 → UInt32 → UInt32) (x y : Row) : Row :=
  ⟨f x.a y.a, f x.b y.b, f x.c y.c, f x.d y.d⟩

def add : Row → Row → Row := zip (· + ·)

def mixed (bits : UInt32) : Row → Row → Row :=
  zip fun x y => ((x ^^^ y) <<< bits) ||| ((x ^^^ y) >>> (32 - bits))

/-- The row moved to the left by one word. -/
def turn (r : Row) : Row := ⟨r.b, r.c, r.d, r.a⟩

def ofOctets (b : Octets) : Row :=
  let w (i : Nat) :=
    littleWord (b.getD i 0) (b.getD (i + 1) 0) (b.getD (i + 2) 0) (b.getD (i + 3) 0)
  ⟨w 0, w 4, w 8, w 12⟩

def toOctets (r : Row) : Octets :=
  littleOctets r.a ++ littleOctets r.b ++ littleOctets r.c ++ littleOctets r.d

end Row

structure State where
  first : Row
  second : Row
  third : Row
  fourth : Row
deriving DecidableEq, Repr

/-- The words that open every state. -/
def constants : Row := ⟨0x61707865, 0x3320646e, 0x79622d32, 0x6b206574⟩

namespace State

/-- A quarter round on every column. -/
def round (s : State) : State :=
  let p := s.first.add s.second
  let t := s.fourth.mixed 16 p
  let r := s.third.add t
  let q := s.second.mixed 12 r
  let p := p.add q
  let t := t.mixed 8 p
  let r := r.add t
  let q := q.mixed 7 r
  ⟨p, q, r, t⟩

/-- Brings the diagonals into the columns. -/
def slant (s : State) : State :=
  ⟨s.first, s.second.turn, s.third.turn.turn, s.fourth.turn.turn.turn⟩

/-- Brings the columns back into the diagonals. -/
def straighten (s : State) : State :=
  ⟨s.first, s.second.turn.turn.turn, s.third.turn.turn, s.fourth.turn⟩

def doubleRound (s : State) : State :=
  s.round.slant.round.straighten

def permute (s : State) : State :=
  Nat.repeat doubleRound 10 s

def add (s t : State) : State :=
  ⟨s.first.add t.first, s.second.add t.second, s.third.add t.third, s.fourth.add t.fourth⟩

def toOctets (s : State) : Octets :=
  s.first.toOctets ++ s.second.toOctets ++ s.third.toOctets ++ s.fourth.toOctets

end State

/-- The block of a key of 32 bytes, a nonce of 12 bytes and a block number. -/
def block (key nonce : Octets) (number : UInt32) : Octets :=
  let s : State :=
    { first := constants
      second := .ofOctets (key.take 16)
      third := .ofOctets (key.drop 16)
      fourth := .ofOctets (littleOctets number ++ nonce) }
  (s.permute.add s).toOctets

def blocks (key nonce : Octets) : UInt32 → Nat → Octets
  | _, 0 => []
  | number, count + 1 => block key nonce number ++ blocks key nonce (number + 1) count

/-- The data combined with the key stream from the given block on; done twice, it gives the data
back. -/
def apply (key nonce : Octets) (number : UInt32) (data : Octets) : Octets :=
  data.zipWith (· ^^^ ·) (blocks key nonce number ((data.length + 63) / 64))

/-- The key that the first sixteen bytes of a long nonce derive from a key. -/
def deriveKey (key nonce : Octets) : Octets :=
  let s : State :=
    { first := constants
      second := .ofOctets (key.take 16)
      third := .ofOctets (key.drop 16)
      fourth := .ofOctets nonce }
  let t := s.permute
  t.first.toOctets ++ t.fourth.toOctets

end ChaCha20

end VoiceCall.Cipher
