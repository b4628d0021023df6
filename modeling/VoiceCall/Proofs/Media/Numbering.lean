import VoiceCall.Proofs.Media.History
import VoiceCall.Proofs.Media.Sending

namespace VoiceCall.Proofs.Media.Numbering

open VoiceCall.Media
open VoiceCall.Packet
open VoiceCall.Cipher
open VoiceCall.Proofs.Cipher.Sealed
open VoiceCall.Proofs.Packet.Pieces
open VoiceCall.Proofs.Media.History
open VoiceCall.Proofs.Media.Sending

/-- The counters behind so many packets of so many units. -/
def counted (packets units : Nat) : Sequencer where
  sequence := .ofNat packets
  timestamp := .ofNat (Audio.periodLength * units)
  step := .ofNat Audio.periodLength

theorem nextPacket_counted (packets units : Nat) :
    (counted packets units).nextPacket = counted (packets + 1) units := by
  simp [counted, Sequencer.nextPacket, UInt16.ofNat_add]

theorem nextUnit_counted (packets units : Nat) :
    (counted packets units).nextUnit = counted packets (units + 1) := by
  simp [counted, Sequencer.nextUnit, Nat.mul_add, UInt32.ofNat_add]

/-- What sealing gives for the pieces of one unit, numbered from a sequencer on. -/
def sealPieces (key : Octets) (ssrc : UInt32) : Sequencer → List Octets → List (Except Fault Octets)
  | _, [] => []
  | s, piece :: pieces =>
    sealPacket key (.opus s.nextPacket.sequence s.timestamp ssrc) piece ::
      sealPieces key ssrc s.nextPacket pieces

theorem length_sealPieces (key : Octets) (ssrc : UInt32) (s : Sequencer) (pieces : List Octets) :
    (sealPieces key ssrc s pieces).length = pieces.length := by
  induction pieces generalizing s with
  | nil => rfl
  | cons piece pieces ih => rw [sealPieces, List.length_cons, List.length_cons, ih]

theorem getElem?_sealPieces {key : Octets} {ssrc : UInt32} {packets units j : Nat}
    {pieces : List Octets} {datagram : Octets}
    (h : (sealPieces key ssrc (counted packets units) pieces)[j]? = some (.ok datagram)) :
    datagram.take Header.size =
      (Header.opus (.ofNat (packets + j + 1)) (.ofNat (Audio.periodLength * units))
        ssrc).toOctets := by
  induction pieces generalizing packets j with
  | nil => simp [sealPieces] at h
  | cons piece pieces ih =>
      rw [sealPieces, nextPacket_counted] at h
      cases j with
      | zero =>
          rw [List.getElem?_cons_zero, Option.some.injEq] at h
          exact take_of_sealPacket h
      | succ j =>
          rw [List.getElem?_cons_succ] at h
          rw [ih h, Nat.add_right_comm packets 1 j, Nat.add_assoc packets j 1]

/-- How far the network takes what sealing gives for the pieces of one unit: the datagrams that go
out, the count of those that are offered, and what goes wrong. -/
inductive Taken (network : Network) (offered : Nat) (whole : List (Except Fault Octets)) :
    List Octets → Nat → Option Fault → Prop where
  | all {datagrams : List Octets} :
    (∀ i < datagrams.length, network (offered + i) = none) → datagrams.map .ok = whole →
      Taken network offered whole datagrams datagrams.length none
  | cut {datagrams : List Octets} {detail : String} :
    (∀ i < datagrams.length, network (offered + i) = none) →
      network (offered + datagrams.length) = some detail → datagrams.map .ok <+: whole →
        datagrams.length < whole.length →
          Taken network offered whole datagrams (datagrams.length + 1) (some (.socket detail))

theorem Taken.isPrefix {network : Network} {offered count : Nat}
    {whole : List (Except Fault Octets)} {datagrams : List Octets} {fault : Option Fault}
    (h : Taken network offered whole datagrams count fault) : datagrams.map .ok <+: whole := by
  cases h with
  | all _ hall => exact hall ▸ List.prefix_rfl
  | cut _ _ hbegins _ => exact hbegins

theorem Taken.cons {network : Network} {offered count : Nat} {whole : List (Except Fault Octets)}
    {packet : Octets} {datagrams : List Octets} {fault : Option Fault}
    (htaken : network offered = none)
    (h : Taken network (offered + 1) whole datagrams count fault) :
    Taken network offered (.ok packet :: whole) (packet :: datagrams) (count + 1) fault := by
  have hbefore (hrest : ∀ i < datagrams.length, network (offered + 1 + i) = none) :
      ∀ i < (packet :: datagrams).length, network (offered + i) = none := by
    intro i hi
    cases i with
    | zero => exact htaken
    | succ i =>
        rw [Nat.add_comm i 1, ← Nat.add_assoc]
        exact hrest i (Nat.lt_of_succ_lt_succ hi)
  cases h with
  | all hrest hall => exact .all (hbefore hrest) (congrArg _ hall)
  | cut hrest hrefused hbegins hshort =>
      refine .cut (hbefore hrest) ?_ (List.prefix_cons_inj _ |>.mpr hbegins)
        (Nat.succ_lt_succ hshort)
      rw [List.length_cons, Nat.add_comm datagrams.length 1, ← Nat.add_assoc]
      exact hrefused

theorem sendPieces_counted (network : Network) (key : Octets) {l : Link} {packets units : Nat}
    (hcounted : l.sequencer = counted packets units) {pieces : List Octets}
    (hpieces : ∀ piece ∈ pieces, piece.length ≤ Packetizer.standard.ceiling) :
    ∃ datagrams count fault, Link.sendPieces network key l pieces =
        ({ l with
          sequencer := counted (packets + count) units
          offered := l.offered + count }, datagrams, fault) ∧
      Taken network l.offered (sealPieces key l.ssrc l.sequencer pieces) datagrams count fault := by
  induction pieces generalizing l packets with
  | nil =>
      refine ⟨[], 0, none, ?_, .all nofun rfl⟩
      rw [Nat.add_zero, Nat.add_zero, ← hcounted]
      rfl
  | cons piece pieces ih =>
      obtain ⟨packet, hpacket, -⟩ := exists_sealPacket_opus key l.sequencer.nextPacket.sequence
        l.sequencer.timestamp l.ssrc (hpieces piece List.mem_cons_self)
      have hnext : l.sequencer.nextPacket = counted (packets + 1) units := by
        rw [hcounted, nextPacket_counted]
      rw [Link.sendPieces, sealPieces, hpacket]
      simp only [timestamp_nextPacket, hpacket, Link.offer]
      cases hanswer : network l.offered with
      | some detail =>
          refine ⟨[], 1, some (.socket detail), ?_,
            .cut nofun hanswer List.nil_prefix (Nat.zero_lt_succ _)⟩
          rw [← hnext]
          rfl
      | none =>
          obtain ⟨datagrams, count, fault, hsent, htaken⟩ :=
            ih (l := { l with sequencer := l.sequencer.nextPacket, offered := l.offered + 1 }) hnext
              fun piece hpiece => hpieces piece (List.mem_cons_of_mem _ hpiece)
          refine ⟨packet :: datagrams, count + 1, fault, ?_, htaken.cons hanswer⟩
          simp only [Option.map_none, hsent, Nat.add_assoc, Nat.add_comm 1 count]

/-- What sealing gives for the pieces of a unit that a link is to send. -/
def sealing (l : Link) (unit : Octets) : List (Except Fault Octets) :=
  match l.key with
  | none => []
  | some key => sealPieces key l.ssrc l.sequencer.nextUnit (Packetizer.standard.fragment unit)

theorem length_sealing {l : Link} {key : Octets} (hkey : l.key = some key) (unit : Octets) :
    (sealing l unit).length = (Packetizer.standard.fragment unit).length := by
  rw [sealing, hkey, length_sealPieces]

/-- A unit takes one timestamp, and the number of each packet that is offered for it. -/
theorem send_counted {l : Link} {key : Octets} {packets units : Nat} (hkey : l.key = some key)
    (hcounted : l.sequencer = counted packets units) (network : Network) (unit : Octets) :
    ∃ datagrams count fault, l.send network unit =
        ({ l with
          sequencer := counted (packets + count) (units + 1)
          offered := l.offered + count }, datagrams,
          match fault with
          | none => .ok datagrams.length
          | some fault => .error fault) ∧
      Taken network l.offered (sealing l unit) datagrams count fault := by
  have hunit : l.sequencer.nextUnit = counted packets (units + 1) := by
    rw [hcounted, nextUnit_counted]
  have hshort : ∀ piece ∈ Packetizer.standard.fragment unit,
      piece.length ≤ Packetizer.standard.ceiling :=
    fun piece => length_le_of_mem_pieces (by decide)
  obtain ⟨datagrams, count, fault, hsent, htaken⟩ :=
    sendPieces_counted network key (l := { l with sequencer := l.sequencer.nextUnit }) hunit hshort
  refine ⟨datagrams, count, fault, ?_, ?_⟩
  · cases fault <;> simp only [send_of_key hkey, hsent]
  · rw [sealing, hkey]
    exact htaken

theorem map_send_isPrefix {l : Link} {packets units : Nat}
    (hcounted : l.sequencer = counted packets units) (network : Network) (unit : Octets) :
    (l.send network unit).2.1.map .ok <+: sealing l unit := by
  cases hkey : l.key with
  | none => simp [Link.send, sealing, hkey]
  | some key =>
      obtain ⟨datagrams, count, fault, hsent, htaken⟩ := send_counted hkey hcounted network unit
      rw [hsent]
      exact htaken.isPrefix

theorem receiveFor_sender (count : Nat) (l : Link) :
    (l.receiveFor count).1.sequencer = l.sequencer ∧ (l.receiveFor count).1.key = l.key ∧
      (l.receiveFor count).1.ssrc = l.ssrc := by
  induction count generalizing l with
  | zero => exact ⟨rfl, rfl, rfl⟩
  | succ count ih =>
      rw [Link.receiveFor]
      split
      · exact ⟨rfl, rfl, rfl⟩
      · rename_i received
        unfold Link.receive at received
        split at received
        · cases received
          exact ih _
        · cases received

theorem discover_sender (l : Link) (network : Network) (timeout : Nat) :
    (l.discover network timeout).1.sequencer = l.sequencer ∧
      (l.discover network timeout).1.key = l.key ∧
      (l.discover network timeout).1.ssrc = l.ssrc := by
  simp only [Link.discover, Link.offer]
  cases network l.offered with
  | none => exact ⟨rfl, rfl, rfl⟩
  | some detail => exact ⟨rfl, rfl, rfl⟩

/-- A key that is there stays, or makes way for another. -/
theorem isSome_key_apply {l : Link} (hkey : l.key.isSome) (call : Call) :
    (call.apply l).key.isSome := by
  cases call with
  | send network unit => rwa [Call.apply, key_send]
  | discover network timeout => rwa [Call.apply, (discover_sender l network timeout).2.1]
  | receive => rwa [Call.apply, Link.receiveAll, (receiveFor_sender _ l).2.1]
  | installKey key => rfl
  | setSsrc ssrc => exact hkey
  | arrive arrivals => exact hkey
  | listen => exact hkey

/-- Only sending moves the counters. -/
theorem sequencer_apply {call : Call} (hcall : ∀ network unit, call ≠ .send network unit)
    (l : Link) : (call.apply l).sequencer = l.sequencer := by
  cases call with
  | send network unit => exact absurd rfl (hcall network unit)
  | discover network timeout => exact (discover_sender l network timeout).1
  | receive => exact (receiveFor_sender _ l).1
  | installKey key => rfl
  | setSsrc ssrc => rfl
  | arrive arrivals => rfl
  | listen => rfl

theorem exists_counted_apply {l : Link} {packets units : Nat}
    (hcounted : l.sequencer = counted packets units) (call : Call) :
    ∃ packets units, (call.apply l).sequencer = counted packets units := by
  by_cases hcall : ∃ network unit, call = .send network unit
  · obtain ⟨network, unit, rfl⟩ := hcall
    cases hkey : l.key with
    | none => exact ⟨packets, units, by simpa [Call.apply, Link.send, hkey] using hcounted⟩
    | some key =>
        obtain ⟨datagrams, count, fault, hsent, -⟩ := send_counted hkey hcounted network unit
        rw [Call.apply, hsent]
        exact ⟨_, _, rfl⟩
  · refine ⟨packets, units, ?_⟩
    rw [sequencer_apply fun network unit heq => hcall ⟨network, unit, heq⟩, hcounted]

theorem exists_counted_after {l : Link} {packets units : Nat}
    (hcounted : l.sequencer = counted packets units) (calls : List Call) :
    ∃ packets units, (after l calls).sequencer = counted packets units := by
  induction calls generalizing l packets units with
  | nil => exact ⟨packets, units, hcounted⟩
  | cons call calls ih =>
      obtain ⟨packets, units, hnext⟩ := exists_counted_apply hcounted call
      exact ih hnext

/-- A link that has just been made. -/
theorem eq_of_connect {sockets : Sockets} {host : String} {ssrc : UInt32} {l : Link}
    (h : Link.connect sockets host ssrc = .ok l) :
    l = ⟨ssrc, none, counted 0 0, [], false, 0⟩ := by
  unfold Link.connect at h
  split at h
  · cases h
  · split at h
    · cases h
    · cases h
      rfl

end VoiceCall.Proofs.Media.Numbering
