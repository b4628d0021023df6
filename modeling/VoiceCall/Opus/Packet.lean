import VoiceCall.Packet.Octets

/-!
The framing of Opus packets: how many frames a packet holds and how long each lasts. The content of
a frame is never looked at.
-/

namespace VoiceCall.Opus

inductive Fault where
  | badArgument
  | bufferTooSmall
  | corrupted
deriving DecidableEq, Repr

def Fault.message : Fault → String
  | badArgument => "invalid argument"
  | bufferTooSmall => "buffer too small"
  | corrupted => "corrupted stream"

/-- The largest frame in bytes. -/
def maxFrame : Nat := 1275

/-- The longest packet in samples per channel. -/
def maxDuration : Nat := 5760

/-- Samples per channel in each frame of a packet, from its first byte. -/
def frameDuration (toc : UInt8) : Nat :=
  let config := toc.toNat / 8
  if config < 12 then [480, 960, 1920, 2880].getD (config % 4) 0
  else if config < 16 then [480, 960].getD (config % 2) 0
  else 120 * Nat.pow 2 (config % 4)

/-- A frame size written in one or two bytes, and what is behind it. -/
def readSize : Octets → Option (Nat × Octets)
  | [] => none
  | a :: rest =>
    if a < 252 then
      some (a.toNat, rest)
    else
      match rest with
      | b :: rest => some (a.toNat + 4 * b.toNat, rest)
      | [] => none

/-- Skips the count of padding bytes; `left` bytes remain when all padding is cut off. -/
def readPadding : Octets → Nat → Option (Octets × Nat)
  | [], _ => none
  | p :: rest, left =>
    if left = 0 then
      none
    else if p = 255 then
      if 254 ≤ left - 1 then readPadding rest (left - 1 - 254) else none
    else if p.toNat ≤ left - 1 then
      some (rest, left - 1 - p.toNat)
    else
      none

/-- Whether so many frame sizes stand in front of their frames and leave a last frame of a valid
size; `spent` bytes belong to frames already named. -/
def sizesFit : Nat → Nat → Octets → Bool
  | 0, spent, data => spent ≤ data.length && data.length - spent ≤ maxFrame
  | count + 1, spent, data =>
    match readSize data with
    | none => false
    | some (size, rest) => size ≤ rest.length && sizesFit count (spent + size) rest

/-- The number of frames of a packet that does not break the rules of framing. -/
def frameCount : Octets → Option Nat
  | [] => none
  | toc :: data =>
    let code := toc.toNat % 4
    if code = 0 then
      if data.length ≤ maxFrame then some 1 else none
    else if code = 1 then
      if data.length % 2 = 0 ∧ data.length / 2 ≤ maxFrame then some 2 else none
    else if code = 2 then
      if sizesFit 1 0 data then some 2 else none
    else
      match data with
      | [] => none
      | head :: rest =>
        let count := head.toNat % 64
        let padded := head.toNat / 64 % 2 = 1
        let sized := head.toNat / 128 = 1
        if count = 0 ∨ maxDuration < count * frameDuration toc then
          none
        else
          match if padded then readPadding rest rest.length else some (rest, rest.length) with
          | none => none
          | some (rest, left) =>
            let frames := rest.take left
            if sized then
              if sizesFit (count - 1) 0 frames then some count else none
            else if frames.length % count = 0 ∧ frames.length / count ≤ maxFrame then
              some count
            else
              none

/-- Interleaved stereo samples that a packet decodes to, in a room of so many samples. An empty
packet stands for as much concealed audio as the room takes; a room without a frame is refused. -/
def decodedLength (packet : Octets) (room : Nat) : Except Fault Nat :=
  let frames := room / 2
  if frames = 0 then
    .error .badArgument
  else
    match packet with
    | [] => if frames % 120 = 0 then .ok (2 * frames) else .error .badArgument
    | toc :: _ =>
      match frameCount packet with
      | none => .error .corrupted
      | some count =>
        let duration := count * frameDuration toc
        if frames < duration then .error .bufferTooSmall else .ok (2 * duration)

end VoiceCall.Opus
