import Mathlib.Algebra.Ring.Nat
import VoiceCall.Proofs.Media.Numbering

namespace VoiceCall.Proofs.Media.Nonces

open VoiceCall.Media
open VoiceCall.Packet
open VoiceCall.Cipher
open VoiceCall.Proofs.Packet.Header
open VoiceCall.Proofs.Media.History
open VoiceCall.Proofs.Media.Numbering
open VoiceCall.Proofs.Media.Sending
open VoiceCall.Proofs.Packet.Pieces

/-- The nonce under which a datagram was sealed, as its receiver rebuilds it. -/
def nonce (datagram : Octets) : Octets :=
  nonceOf (datagram.take Header.size)

/-- What becomes of a unit: what sealing gives for its pieces, and the datagrams that go out. -/
structure Passage where
  given : List (Except Fault Octets)
  sent : List Octets

/-- The units that are sent in a history, in order. -/
def passages (l : Link) : List Call → List Passage
  | [] => []
  | call :: calls =>
    match call with
    | .send network unit =>
      ⟨sealing l unit, (l.send network unit).2.1⟩ :: passages (call.apply l) calls
    | _ => passages (call.apply l) calls

/-- A datagram is sealed for piece `j` of unit `i`. -/
def SealedFor (l : Link) (calls : List Call) (i j : Nat) (datagram : Octets) : Prop :=
  ∃ passage, (passages l calls)[i]? = some passage ∧ passage.given[j]? = some (.ok datagram)

/-- No unit makes more packets than there are sequence numbers. -/
def Moderate (calls : List Call) : Prop :=
  ∀ network unit, .send network unit ∈ calls →
    (Packetizer.standard.fragment unit).length ≤ UInt16.size

/-- What goes out was sealed. -/
theorem sent_isPrefix {l : Link} {packets units : Nat} {passage : Passage} {calls : List Call}
    (hcounted : l.sequencer = counted packets units) (hpassage : passage ∈ passages l calls) :
    passage.sent.map .ok <+: passage.given := by
  induction calls generalizing l packets units with
  | nil => cases hpassage
  | cons call calls ih =>
      obtain ⟨packets', units', hnext⟩ := exists_counted_apply hcounted call
      cases call with
      | send network unit =>
          rcases List.mem_cons.mp hpassage with rfl | hlater
          · exact map_send_isPrefix hcounted network unit
          · exact ih hnext hlater
      | _ => exact ih hnext hpassage

/-- The packets of each unit carry its own timestamp, and consecutive sequence numbers. -/
theorem exists_numbers {l : Link} {packets units i : Nat} {passage : Passage}
    {calls : List Call} (hkey : l.key.isSome) (hcounted : l.sequencer = counted packets units)
    (hcalls : Moderate calls) (hpassage : (passages l calls)[i]? = some passage) :
    passage.given.length ≤ UInt16.size ∧ ∃ first ssrc, ∀ (j : Nat) datagram,
      passage.given[j]? = some (.ok datagram) → datagram.take Header.size =
        (Header.opus (.ofNat (first + j + 1)) (.ofNat (Audio.periodLength * (units + i + 1)))
          ssrc).toOctets := by
  induction calls generalizing l packets units i with
  | nil => simp [passages] at hpassage
  | cons call calls ih =>
      have hrest : Moderate calls :=
        fun network unit hmem => hcalls network unit (List.mem_cons_of_mem _ hmem)
      have hkey' := isSome_key_apply hkey call
      by_cases hcall : ∃ network unit, call = .send network unit
      · obtain ⟨network, unit, rfl⟩ := hcall
        obtain ⟨key, hsome⟩ := Option.isSome_iff_exists.mp hkey
        rw [passages] at hpassage
        cases i with
        | zero =>
            rw [List.getElem?_cons_zero, Option.some.injEq] at hpassage
            subst hpassage
            simp only [sealing, hsome, hcounted, nextUnit_counted]
            refine ⟨?_, packets, l.ssrc, fun j datagram hj => getElem?_sealPieces hj⟩
            rw [length_sealPieces]
            exact hcalls network unit List.mem_cons_self
        | succ i =>
            rw [List.getElem?_cons_succ] at hpassage
            obtain ⟨datagrams, count, fault, hsent, -⟩ := send_counted hsome hcounted network unit
            have hnext := congrArg (fun sent => sent.1.sequencer) hsent
            obtain ⟨hlength, first, ssrc, hheader⟩ := ih hkey' hnext hrest hpassage
            refine ⟨hlength, first, ssrc, fun j datagram hj => ?_⟩
            rw [hheader j datagram hj, Nat.add_right_comm units 1 i, Nat.add_assoc units i 1]
      · have hother : ∀ network unit, call ≠ .send network unit :=
          fun network unit heq => hcall ⟨network, unit, heq⟩
        have hnext : (call.apply l).sequencer = counted packets units :=
          (sequencer_apply hother l).trans hcounted
        cases call with
        | send network unit => exact absurd rfl (hother network unit)
        | _ => exact ih hkey' hnext hrest hpassage

theorem timestamp_inj {a b : Nat} (hab : a < b + 2 ^ 26) (hba : b < a + 2 ^ 26)
    (heq : UInt32.ofNat (Audio.periodLength * a) = .ofNat (Audio.periodLength * b)) : a = b := by
  have hmod := congrArg UInt32.toNat heq
  simp only [UInt32.toNat_ofNat', Audio.periodLength] at hmod
  omega

theorem sequence_inj {first a b : Nat} (ha : a < UInt16.size) (hb : b < UInt16.size)
    (heq : UInt16.ofNat (first + a + 1) = .ofNat (first + b + 1)) : a = b := by
  have hmod := congrArg UInt16.toNat heq
  simp only [UInt16.toNat_ofNat', UInt16.size] at hmod ha hb
  omega

theorem nonce_inj {datagram datagram' : Octets} {sequence sequence' : UInt16}
    {timestamp timestamp' ssrc ssrc' : UInt32}
    (h : datagram.take Header.size = (Header.opus sequence timestamp ssrc).toOctets)
    (h' : datagram'.take Header.size = (Header.opus sequence' timestamp' ssrc').toOctets)
    (heq : nonce datagram = nonce datagram') :
    sequence = sequence' ∧ timestamp = timestamp' ∧ ssrc = ssrc' := by
  rw [nonce, nonce, h, h'] at heq
  exact toOctets_opus_inj (List.append_cancel_right heq)

/-- From the moment a link has a key on, no two packets of units that are less than 2 ^ 26 apart are
sealed under one nonce, though both counters wrap around many times in between. Timestamps are
multiples of 960, and 2 ^ 26 is the least count of units whose timestamps add up to a multiple of 2
^ 32; within one unit the sequence numbers tell the packets apart. -/
theorem nonces_differ {sockets : Sockets} {host : String} {ssrc : UInt32} {link : Link}
    (hlink : Link.connect sockets host ssrc = .ok link) (earlier : List Call) (key : Octets)
    (calls : List Call) (hcalls : Moderate calls) :
    let l := (after link earlier).installKey key
    (∀ passage ∈ passages l calls, passage.sent.map .ok <+: passage.given) ∧
      ∀ i j i' j' datagram datagram', SealedFor l calls i j datagram →
        SealedFor l calls i' j' datagram' → i < i' + 2 ^ 26 → i' < i + 2 ^ 26 →
          (i, j) ≠ (i', j') → nonce datagram ≠ nonce datagram' := by
  intro l
  obtain ⟨packets, units, hcounted⟩ :=
    exists_counted_after (congrArg Link.sequencer (eq_of_connect hlink)) earlier
  change l.sequencer = counted packets units at hcounted
  refine ⟨fun passage => sent_isPrefix hcounted, ?_⟩
  rintro i j i' j' datagram datagram' ⟨passage, hi, hj⟩ ⟨passage', hi', hj'⟩ hnear hnear' hother heq
  obtain ⟨hlength, first, own, hheader⟩ := exists_numbers rfl hcounted hcalls hi
  obtain ⟨-, first', own', hheader'⟩ := exists_numbers rfl hcounted hcalls hi'
  obtain ⟨-, htimestamp, -⟩ := nonce_inj (hheader j datagram hj) (hheader' j' datagram' hj') heq
  obtain rfl : i = i' := by
    have hunits := timestamp_inj (by omega) (by omega) htimestamp
    omega
  -- Both packets are of one unit, so their sequence numbers count from the same one on.
  obtain rfl : passage = passage' := Option.some.inj (hi.symm.trans hi')
  obtain ⟨hsequence, -⟩ := nonce_inj (hheader j datagram hj) (hheader j' datagram' hj') heq
  have hj := (List.getElem?_eq_some_iff.mp hj).1
  have hj' := (List.getElem?_eq_some_iff.mp hj').1
  exact hother (congrArg (i, ·) (sequence_inj (by omega) (by omega) hsequence))

theorem exists_sealedFor_zero {l : Link} {key : Octets} (hkey : l.key = some key) {unit : Octets}
    (hunit : unit.length ≤ Packetizer.standard.ceiling) (network : Network) (calls : List Call) :
    ∃ datagram, SealedFor l (.send network unit :: calls) 0 0 datagram := by
  obtain ⟨datagram, hsealed, -⟩ := exists_sealPacket_opus key
    l.sequencer.nextUnit.nextPacket.sequence l.sequencer.nextUnit.timestamp l.ssrc hunit
  refine ⟨datagram, _, rfl, ?_⟩
  simp only [sealing, hkey, Packetizer.fragment, pieces_of_le hunit, sealPieces, hsealed,
    List.getElem?_cons_zero]

/-- Two silent frames, and another source number in between. -/
theorem nonces_differ_silence :
    let sockets : Sockets := ⟨fun _ => .ok ["127.0.0.1"], fun _ => none⟩
    ∃ link datagram datagram', Link.connect sockets "relay" 42 = .ok link ∧
      let l := link.installKey (List.replicate 32 7)
      let calls : List Call := [.send .up [0xf8, 0xff, 0xfe], .setSsrc 43,
        .send .up [0xf8, 0xff, 0xfe]]
      Moderate calls ∧ SealedFor l calls 0 0 datagram ∧ SealedFor l calls 1 0 datagram' ∧
        nonce datagram ≠ nonce datagram' := by
  intro sockets
  let link : Link := ⟨42, none, .start 960, [], false, 0⟩
  have hlink : Link.connect sockets "relay" 42 = .ok link := by rfl
  let calls : List Call := [.send .up [0xf8, 0xff, 0xfe], .setSsrc 43,
    .send .up [0xf8, 0xff, 0xfe]]
  have hunit : ([0xf8, 0xff, 0xfe] : Octets).length ≤ Packetizer.standard.ceiling := by decide
  have hcalls : Moderate calls := by
    intro network unit hmem
    obtain ⟨-, rfl⟩ : network = .up ∧ unit = [0xf8, 0xff, 0xfe] := by simpa [calls] using hmem
    rw [Packetizer.fragment, pieces_of_le hunit]
    decide
  let l := link.installKey (List.replicate 32 7)
  obtain ⟨datagram, hfirst⟩ := exists_sealedFor_zero (l := l) rfl hunit .up calls.tail
  let behind := after l [.send .up [0xf8, 0xff, 0xfe], .setSsrc 43]
  have hkey : behind.key = some (List.replicate 32 7) := key_send l .up [0xf8, 0xff, 0xfe]
  obtain ⟨datagram', hsecond⟩ := exists_sealedFor_zero (l := behind) hkey hunit .up []
  refine ⟨link, datagram, datagram', hlink, hcalls, hfirst, hsecond, ?_⟩
  exact (nonces_differ hlink [] (List.replicate 32 7) calls hcalls).2 0 0 1 0 datagram datagram'
    hfirst hsecond (by decide) (by decide) (by decide)

end VoiceCall.Proofs.Media.Nonces
