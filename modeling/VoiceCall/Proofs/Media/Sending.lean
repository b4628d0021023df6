import VoiceCall.Media.Outbox
import VoiceCall.Proofs.Cipher.Sealed
import VoiceCall.Proofs.Packet.Pieces

namespace VoiceCall.Proofs.Media.Sending

open VoiceCall.Media
open VoiceCall.Packet
open VoiceCall.Cipher
open VoiceCall.Proofs.Cipher.Sealed
open VoiceCall.Proofs.Packet.Pieces

/-- Datagrams that open to the pieces of one unit, numbered from a sequencer on, and the sequencer
behind them. -/
inductive Carried (key : Octets) (ssrc : UInt32) :
    Sequencer → List Octets → List Octets → Sequencer → Prop where
  | nil (s : Sequencer) : Carried key ssrc s [] [] s
  | cons {s last : Sequencer} {datagram piece : Octets} {datagrams pieces : List Octets} :
    openPacket key datagram = .ok (.opus s.nextPacket.sequence s.timestamp ssrc, piece) →
      Carried key ssrc s.nextPacket datagrams pieces last →
        Carried key ssrc s (datagram :: datagrams) (piece :: pieces) last

theorem Carried.length_eq {key : Octets} {ssrc : UInt32} {s last : Sequencer}
    {datagrams pieces : List Octets} (h : Carried key ssrc s datagrams pieces last) :
    datagrams.length = pieces.length := by
  induction h with
  | nil s => rfl
  | cons hopened hrest ih => rw [List.length_cons, List.length_cons, ih]

theorem ceiling_standard : Packetizer.standard.ceiling = 1100 := rfl

theorem exists_sealPacket_opus (key : Octets) (sequence : UInt16) (timestamp ssrc : UInt32)
    {piece : Octets} (hpiece : piece.length ≤ Packetizer.standard.ceiling) :
    ∃ packet, sealPacket key (.opus sequence timestamp ssrc) piece = .ok packet ∧
      openPacket key packet = .ok (.opus sequence timestamp ssrc, piece) := by
  apply exists_sealPacket_eq_ok
  · exact (by decide : (0x80 : UInt8) >>> 6 = 2)
  · exact (by decide : Header.opusPayloadType < 128)
  · rw [ceiling_standard] at hpiece
    have hlimit : Aead.blockLimit = 4294967295 := rfl
    omega

/-- Only the counters of a link move when it sends. -/
theorem exists_sendPieces_eq (network : Network) (key : Octets) (l : Link) (pieces : List Octets) :
    ∃ sequencer offered, (Link.sendPieces network key l pieces).1 =
      { l with sequencer := sequencer, offered := offered } := by
  induction pieces generalizing l with
  | nil => exact ⟨l.sequencer, l.offered, rfl⟩
  | cons piece pieces ih =>
      rw [Link.sendPieces]
      dsimp only
      split
      · exact ⟨_, _, rfl⟩
      · simp only [Link.offer]
        cases network l.offered with
        | some detail => exact ⟨_, _, rfl⟩
        | none => exact ih _

theorem exists_send_eq (l : Link) (network : Network) (unit : Octets) :
    ∃ sequencer offered,
      (l.send network unit).1 = { l with sequencer := sequencer, offered := offered } := by
  rw [Link.send]
  split
  · exact ⟨_, _, rfl⟩
  · exact exists_sendPieces_eq network _ { l with sequencer := l.sequencer.nextUnit } _

theorem exists_sendAll_eq (l : Link) (network : Network) (frames : List Octets) :
    ∃ sequencer offered,
      (Outbox.sendAll l network frames).1 =
        { l with sequencer := sequencer, offered := offered } := by
  induction frames generalizing l with
  | nil => exact ⟨_, _, rfl⟩
  | cons frame frames ih =>
      obtain ⟨sequencer, offered, hfirst⟩ := exists_send_eq l network frame
      obtain ⟨sequencer', offered', hrest⟩ := ih (l.send network frame).1
      refine ⟨sequencer', offered', hrest.trans ?_⟩
      rw [hfirst]

theorem timestamp_nextPacket (s : Sequencer) : s.nextPacket.timestamp = s.timestamp := rfl

theorem sendPieces_up (key : Octets) (l : Link) (pieces : List Octets)
    (hpieces : ∀ piece ∈ pieces, piece.length ≤ Packetizer.standard.ceiling) :
    ∃ last offered datagrams, Link.sendPieces .up key l pieces =
        ({ l with sequencer := last, offered := offered }, datagrams, none) ∧
      Carried key l.ssrc l.sequencer datagrams pieces last := by
  induction pieces generalizing l with
  | nil => exact ⟨l.sequencer, l.offered, [], rfl, .nil l.sequencer⟩
  | cons piece pieces ih =>
      obtain ⟨packet, hsealed, hopened⟩ := exists_sealPacket_opus key
        l.sequencer.nextPacket.sequence l.sequencer.timestamp l.ssrc
        (hpieces piece List.mem_cons_self)
      obtain ⟨last, offered, datagrams, hrest, hcarried⟩ :=
        ih { l with sequencer := l.sequencer.nextPacket, offered := l.offered + 1 }
          fun piece hpiece => hpieces piece (List.mem_cons_of_mem _ hpiece)
      refine ⟨last, offered, packet :: datagrams, ?_, .cons hopened hcarried⟩
      rw [Link.sendPieces]
      simp only [timestamp_nextPacket, hsealed, Link.offer_up, hrest]

theorem send_of_key {l : Link} {key : Octets} (hkey : l.key = some key) (network : Network)
    (unit : Octets) :
    l.send network unit =
      let sent := Link.sendPieces network key { l with sequencer := l.sequencer.nextUnit }
        (Packetizer.standard.fragment unit)
      (sent.1, sent.2.1,
        match sent.2.2 with
        | none => .ok sent.2.1.length
        | some fault => .error fault) := by
  rw [Link.send]
  split
  · rename_i hnone
    rw [hkey] at hnone
    cases hnone
  · rename_i hsome
    obtain rfl := Option.some.inj (hkey.symm.trans hsome)
    rfl

theorem send_up {l : Link} {key : Octets} (hkey : l.key = some key) (unit : Octets) :
    ∃ last offered datagrams, l.send .up unit =
        ({ l with sequencer := last, offered := offered }, datagrams, .ok datagrams.length) ∧
      Carried key l.ssrc l.sequencer.nextUnit datagrams (Packetizer.standard.fragment unit)
        last := by
  obtain ⟨last, offered, datagrams, hsent, hcarried⟩ :=
    sendPieces_up key { l with sequencer := l.sequencer.nextUnit }
      (Packetizer.standard.fragment unit) fun piece => length_le_of_mem_pieces (by decide)
  refine ⟨last, offered, datagrams, ?_, hcarried⟩
  rw [send_of_key hkey, hsent]

theorem key_send (l : Link) (network : Network) (unit : Octets) :
    (l.send network unit).1.key = l.key := by
  obtain ⟨sequencer, offered, hsent⟩ := exists_send_eq l network unit
  rw [hsent]

theorem ssrc_send (l : Link) (network : Network) (unit : Octets) :
    (l.send network unit).1.ssrc = l.ssrc := by
  obtain ⟨sequencer, offered, hsent⟩ := exists_send_eq l network unit
  rw [hsent]

theorem key_sendAll (l : Link) (network : Network) (frames : List Octets) :
    (Outbox.sendAll l network frames).1.key = l.key := by
  obtain ⟨sequencer, offered, hsent⟩ := exists_sendAll_eq l network frames
  rw [hsent]

theorem sendAll_append (l : Link) (network : Network) (first rest : List Octets) :
    (Outbox.sendAll l network (first ++ rest)).2 =
      (Outbox.sendAll l network first).2 ++
        (Outbox.sendAll (Outbox.sendAll l network first).1 network rest).2 := by
  induction first generalizing l with
  | nil => rfl
  | cons frame first ih =>
      simp only [List.cons_append, Outbox.sendAll, ih, List.append_assoc]

theorem put_of_full {o : Outbox} (hfull : ¬ o.frames.length < Outbox.capacity) (frame : Octets) :
    o.put frame = o :=
  if_neg hfull

theorem flush_put {o : Outbox} {l : Link} {key : Octets} (hkey : l.key = some key)
    (hroom : o.frames.length < Outbox.capacity) (frame : Octets) :
    ∃ ssrc first datagrams last,
      ((o.put frame).flush l .up).2.1 = (o.flush l .up).2.1 ++ datagrams ∧
        Carried key ssrc first datagrams
          (Packetizer.standard.fragment (frame.take Audio.maxFrameBytes)) last := by
  let behind := (Outbox.sendAll l .up o.frames).1
  have hbehind : behind.key = some key := (key_sendAll l .up o.frames).trans hkey
  obtain ⟨last, offered, datagrams, hsent, hcarried⟩ :=
    send_up hbehind (frame.take Audio.maxFrameBytes)
  refine ⟨behind.ssrc, behind.sequencer.nextUnit, datagrams, last, ?_, hcarried⟩
  rw [Outbox.put, if_pos hroom]
  simp only [Outbox.flush, sendAll_append]
  change _ ++ (Outbox.sendAll behind .up [frame.take Audio.maxFrameBytes]).2 = _
  simp only [Outbox.sendAll, hsent, List.append_nil]

theorem delivery?_of_openPacket {key datagram payload : Octets} {header : Header}
    (hopened : openPacket key datagram = .ok (header, payload))
    (hshort : payload.length ≤ Packetizer.standard.ceiling) :
    Link.delivery? (some key) (.datagram true datagram) = some (.packet header payload) := by
  have hwhole : datagram.take Link.maxDatagram = datagram := by
    apply List.take_of_length_le
    rw [length_of_openPacket hopened]
    exact Nat.le_trans (Nat.add_le_add_left hshort minSealedSize) (by decide)
  simp only [Link.delivery?, Option.bind_some, hwhole, hopened]

/-- A frame travels whole, in a datagram of its own, exactly when the queue has room for it and its
length is under the ceiling of a payload. -/
theorem one_datagram_iff (o : Outbox) (l : Link) (key frame : Octets) :
    (∃ datagram header,
      ((o.put frame).flush (l.installKey key) .up).2.1 =
          (o.flush (l.installKey key) .up).2.1 ++ [datagram] ∧
        openPacket key datagram = .ok (header, frame) ∧
          Link.delivery? (some key) (.datagram true datagram) = some (.packet header frame)) ↔
      o.frames.length < Outbox.capacity ∧ frame.length ≤ Packetizer.standard.ceiling := by
  have hkey : (l.installKey key).key = some key := rfl
  constructor
  · rintro ⟨datagram, header, hsent, -, -⟩
    have hroom : o.frames.length < Outbox.capacity := by
      rcases Nat.lt_or_ge o.frames.length Outbox.capacity with hroom | hfull
      · exact hroom
      · rw [put_of_full (Nat.not_lt_of_ge hfull)] at hsent
        simp at hsent
    obtain ⟨ssrc, first, datagrams, last, hadded, hcarried⟩ := flush_put hkey hroom frame
    have hone : datagrams = [datagram] := List.append_cancel_left (hadded.symm.trans hsent)
    have hcount := hcarried.length_eq
    rw [hone, List.length_singleton, length_fragment (by decide), eq_comm,
      packetCount_eq_one_iff (by decide), List.length_take] at hcount
    have hlargest : Packetizer.standard.ceiling < Audio.maxFrameBytes := by decide
    exact ⟨hroom, by omega⟩
  · rintro ⟨hroom, hshort⟩
    obtain ⟨ssrc, first, datagrams, last, hadded, hcarried⟩ := flush_put hkey hroom frame
    have hwhole : frame.take Audio.maxFrameBytes = frame :=
      List.take_of_length_le (Nat.le_trans hshort (by decide))
    rw [hwhole, Packetizer.fragment, pieces_of_le hshort] at hcarried
    rcases hcarried with _ | ⟨hopened, ⟨⟩⟩
    exact ⟨_, _, hadded, hopened, delivery?_of_openPacket hopened hshort⟩

/-- One byte above the ceiling takes a second datagram, though the queue holds such a frame. -/
theorem not_one_datagram_above_ceiling :
    ¬ ∀ (o : Outbox) (l : Link) (key frame : Octets), o.frames.length < Outbox.capacity →
      1 ≤ frame.length → frame.length ≤ Audio.maxFrameBytes →
        ∃ datagram header,
          ((o.put frame).flush (l.installKey key) .up).2.1 =
              (o.flush (l.installKey key) .up).2.1 ++ [datagram] ∧
            openPacket key datagram = .ok (header, frame) := by
  intro hone
  let link : Link := ⟨42, none, .start 960, [], false, 0⟩
  have hroom : Outbox.empty.frames.length < Outbox.capacity := by decide
  obtain ⟨datagram, header, hsent, -⟩ := hone .empty link (List.replicate 32 7)
    (List.replicate 1101 0) hroom (by rw [List.length_replicate]; decide)
    (by rw [List.length_replicate]; decide)
  obtain ⟨ssrc, first, datagrams, last, hadded, hcarried⟩ :=
    flush_put (l := link.installKey (List.replicate 32 7)) rfl hroom (List.replicate 1101 0)
  have hdatagrams : datagrams = [datagram] := List.append_cancel_left (hadded.symm.trans hsent)
  have hcount := hcarried.length_eq
  rw [hdatagrams, length_fragment (by decide), List.length_take, List.length_replicate] at hcount
  have htwo : Packetizer.standard.packetCount (min Audio.maxFrameBytes 1101) = 2 := by decide
  rw [htwo] at hcount
  cases hcount

end VoiceCall.Proofs.Media.Sending
