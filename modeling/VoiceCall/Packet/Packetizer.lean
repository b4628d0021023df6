import VoiceCall.Packet.Octets

namespace VoiceCall.Packet

structure Packetizer where
  ceiling : Nat
deriving DecidableEq, Repr

namespace Packetizer

def ofCeiling (ceiling : Nat) : Packetizer :=
  ⟨max ceiling 1⟩

/-- Payloads of at most 1100 bytes stay well below usual path limits. -/
def standard : Packetizer :=
  ofCeiling 1100

/-- Packets needed for a unit of `length` bytes, at least one. -/
def packetCount (p : Packetizer) (length : Nat) : Nat :=
  max ((length + p.ceiling - 1) / p.ceiling) 1

/-- Pieces of `ceiling` bytes in order, the last one shorter if need be. -/
def pieces (ceiling : Nat) (unit : Octets) : List Octets :=
  if unit.length ≤ ceiling ∨ ceiling = 0 then
    [unit]
  else
    unit.take ceiling :: pieces ceiling (unit.drop ceiling)
termination_by unit.length
decreasing_by simp only [List.length_drop]; omega

/-- The payloads of a unit; an empty unit is one empty payload. -/
def fragment (p : Packetizer) (unit : Octets) : List Octets :=
  pieces p.ceiling unit

end Packetizer

end VoiceCall.Packet
