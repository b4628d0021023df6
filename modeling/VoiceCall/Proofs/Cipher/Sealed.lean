import VoiceCall.Cipher.Sealed
import VoiceCall.Proofs.Cipher.Aead
import VoiceCall.Proofs.Packet.Header

namespace VoiceCall.Proofs.Cipher.Sealed

open VoiceCall.Cipher
open VoiceCall.Packet (Header)
open VoiceCall.Proofs.Cipher.Aead
open VoiceCall.Proofs.Packet.Header

theorem take_toOctets_append (header : Header) (rest : Octets) :
    (header.toOctets ++ rest).take Header.size = header.toOctets :=
  List.take_left' header.length_toOctets

theorem drop_toOctets_append (header : Header) (rest : Octets) :
    (header.toOctets ++ rest).drop Header.size = rest :=
  List.drop_left' header.length_toOctets

/-- What the buffer held does not matter. -/
theorem sealInto_eq_ok_iff (key : Octets) (header : Header) (payload buffer packet : Octets) :
    sealInto key header payload buffer = (packet, .ok ()) ↔
      ∃ ciphertext tag,
        Aead.encrypt? key (nonceOf header.toOctets) payload = some (ciphertext, tag) ∧
          packet = header.toOctets ++ ciphertext ++ tag := by
  simp only [sealInto, List.take_zero, List.nil_append, take_toOctets_append,
    drop_toOctets_append]
  cases Aead.encrypt? key (nonceOf header.toOctets) payload with
  | none => simp
  | some sealed =>
      rcases sealed with ⟨ciphertext, tag⟩
      constructor
      · intro h
        cases h
        exact ⟨ciphertext, tag, rfl, rfl⟩
      · rintro ⟨_, _, hsealed, rfl⟩
        cases hsealed
        rfl

theorem openPacket_eq_ok_iff (key packet : Octets) (header : Header) (payload : Octets) :
    openPacket key packet = .ok (header, payload) ↔
      minSealedSize ≤ packet.length ∧ Header.parse packet = .ok header ∧
        Aead.decrypt? key (nonceOf (packet.take Header.size))
          ((packet.drop Header.size).take (packet.length - minSealedSize))
          ((packet.drop Header.size).drop (packet.length - minSealedSize)) = some payload := by
  unfold openPacket
  by_cases hshort : packet.length < minSealedSize
  · rw [if_pos hshort]
    simp [Nat.not_le_of_lt hshort]
  · have hcut : (packet.drop Header.size).length - Aead.tagSize =
        packet.length - minSealedSize := by
      simp [minSealedSize, Nat.sub_sub]
    rw [if_neg hshort]
    cases Header.parse packet with
    | error fault => simp
    | ok parsed =>
        simp only [hcut]
        cases Aead.decrypt? key (nonceOf (packet.take Header.size))
            ((packet.drop Header.size).take (packet.length - minSealedSize))
            ((packet.drop Header.size).drop (packet.length - minSealedSize)) with
        | none => simp
        | some opened => simp [Nat.le_of_not_lt hshort]

theorem sealPacket_eq_ok_iff (key : Octets) (header : Header) (payload packet : Octets) :
    sealPacket key header payload = .ok packet ↔
      sealInto key header payload [] = (packet, .ok ()) := by
  unfold sealPacket
  rcases sealInto key header payload [] with ⟨built, _ | _⟩ <;> simp [Except.map]

theorem take_of_sealPacket {key payload packet : Octets} {header : Header}
    (hsealed : sealPacket key header payload = .ok packet) :
    packet.take Header.size = header.toOctets := by
  rw [sealPacket_eq_ok_iff, sealInto_eq_ok_iff] at hsealed
  obtain ⟨ciphertext, tag, -, rfl⟩ := hsealed
  rw [List.append_assoc, take_toOctets_append]

theorem open_parts {ciphertext tag : Octets} (header : Header)
    (htag : tag.length = Aead.tagSize) :
    let packet := header.toOctets ++ ciphertext ++ tag
    packet.length = minSealedSize + ciphertext.length ∧
      packet.take Header.size = header.toOctets ∧
        (packet.drop Header.size).take (packet.length - minSealedSize) = ciphertext ∧
          (packet.drop Header.size).drop (packet.length - minSealedSize) = tag := by
  have hlength : (header.toOctets ++ ciphertext ++ tag).length =
      minSealedSize + ciphertext.length := by
    simp only [List.length_append, header.length_toOctets, htag, minSealedSize]
    omega
  refine ⟨hlength, ?_, ?_, ?_⟩
  · rw [List.append_assoc, take_toOctets_append]
  · rw [hlength, Nat.add_sub_cancel_left, List.append_assoc, drop_toOctets_append]
    exact List.take_left' rfl
  · rw [hlength, Nat.add_sub_cancel_left, List.append_assoc, drop_toOctets_append]
    exact List.drop_left' rfl

theorem openPacket_of_sealInto {key payload buffer packet : Octets} {header : Header}
    (hversion : header.flags >>> 6 = 2) (hkind : header.payloadType < 128)
    (hsealed : sealInto key header payload buffer = (packet, .ok ())) :
    openPacket key packet = .ok (header, payload) := by
  rw [sealInto_eq_ok_iff] at hsealed
  obtain ⟨ciphertext, tag, hencrypt, rfl⟩ := hsealed
  have htag : tag.length = Aead.tagSize := by
    obtain ⟨-, -, rfl⟩ := (encrypt?_eq_some_iff _ _ _ _ _).mp hencrypt
    exact length_tag _ _ _
  obtain ⟨hlength, htake, hciphertext, hgiven⟩ := open_parts header htag
  rw [openPacket_eq_ok_iff, htake, hciphertext, hgiven]
  refine ⟨by omega, ?_, ?_⟩
  · rw [List.append_assoc]
    exact parse_toOctets_append header _ hversion hkind
  · exact (decrypt?_iff_encrypt? _ _ _ _ _).mpr hencrypt

theorem sealInto_of_openPacket {key packet payload : Octets} {header : Header}
    (hopened : openPacket key packet = .ok (header, payload)) (buffer : Octets) :
    sealInto key header payload buffer = (packet, .ok ()) := by
  rw [openPacket_eq_ok_iff] at hopened
  obtain ⟨-, hparse, hdecrypt⟩ := hopened
  have hheader := toOctets_of_parse hparse
  rw [← hheader, decrypt?_iff_encrypt?] at hdecrypt
  rw [sealInto_eq_ok_iff]
  refine ⟨_, _, hdecrypt, ?_⟩
  rw [hheader, List.append_assoc, List.take_append_drop, List.take_append_drop]

theorem length_of_openPacket {key packet payload : Octets} {header : Header}
    (hopened : openPacket key packet = .ok (header, payload)) :
    packet.length = minSealedSize + payload.length := by
  have hsealed := sealInto_of_openPacket hopened []
  rw [sealInto_eq_ok_iff] at hsealed
  obtain ⟨ciphertext, tag, hencrypt, rfl⟩ := hsealed
  obtain ⟨-, rfl, rfl⟩ := (encrypt?_eq_some_iff _ _ _ _ _).mp hencrypt
  rw [(open_parts header (length_tag _ _ _)).1, length_stream]

theorem exists_sealInto_eq_ok (key : Octets) (header : Header) (payload buffer : Octets)
    (hshort : payload.length / 64 < Aead.blockLimit) :
    ∃ packet, sealInto key header payload buffer = (packet, .ok ()) ∧
      packet.length = Header.size + payload.length + Aead.tagSize ∧
        header.toOctets <+: packet := by
  have hencrypt := (encrypt?_eq_some_iff key (nonceOf header.toOctets) payload _ _).mpr
    ⟨hshort, rfl, rfl⟩
  refine ⟨_, (sealInto_eq_ok_iff _ _ _ _ _).mpr ⟨_, _, hencrypt, rfl⟩, ?_, ?_⟩
  · simp only [List.length_append, header.length_toOctets, length_stream, length_tag]
  · rw [List.append_assoc]
    exact List.prefix_append _ _

theorem exists_sealPacket_eq_ok (key : Octets) (header : Header) (payload : Octets)
    (hversion : header.flags >>> 6 = 2) (hkind : header.payloadType < 128)
    (hshort : payload.length / 64 < Aead.blockLimit) :
    ∃ packet, sealPacket key header payload = .ok packet ∧
      openPacket key packet = .ok (header, payload) := by
  obtain ⟨packet, hsealed, -, -⟩ := exists_sealInto_eq_ok key header payload [] hshort
  refine ⟨packet, ?_, openPacket_of_sealInto hversion hkind hsealed⟩
  rw [sealPacket, hsealed]
  rfl

/-- What is sealed has the layout of a header in the clear, the ciphertext and a tag, and opens to
what it was made of; what opens is, byte for byte, what its header and payload are sealed to. -/
theorem seal_open_inverse (key : Octets) :
    (∀ (header : Header) (payload buffer : Octets), header.flags >>> 6 = 2 →
      header.payloadType < 128 → payload.length / 64 < Aead.blockLimit →
        ∃ packet, sealInto key header payload buffer = (packet, .ok ()) ∧
          packet.length = Header.size + payload.length + Aead.tagSize ∧
            header.toOctets <+: packet ∧ openPacket key packet = .ok (header, payload)) ∧
      ∀ (packet : Octets) (header : Header) (payload buffer : Octets),
        openPacket key packet = .ok (header, payload) →
          sealInto key header payload buffer = (packet, .ok ()) := by
  constructor
  · intro header payload buffer hversion hkind hshort
    obtain ⟨packet, hsealed, hlength, hprefix⟩ :=
      exists_sealInto_eq_ok key header payload buffer hshort
    exact ⟨packet, hsealed, hlength, hprefix, openPacket_of_sealInto hversion hkind hsealed⟩
  · intro packet header payload buffer hopened
    exact sealInto_of_openPacket hopened buffer

theorem seal_open_inverse_silence :
    ∃ packet, openPacket (List.replicate 32 7) packet =
        .ok (.opus 1 960 42, [0xf8, 0xff, 0xfe]) ∧
      sealInto (List.replicate 32 7) (.opus 1 960 42) [0xf8, 0xff, 0xfe] [9, 9] =
        (packet, .ok ()) := by
  obtain ⟨hseal, hopen⟩ := seal_open_inverse (List.replicate 32 7)
  obtain ⟨packet, -, -, -, hopened⟩ := hseal (.opus 1 960 42) [0xf8, 0xff, 0xfe] []
    (by decide) (by decide) (by decide)
  exact ⟨packet, hopened, hopen packet _ _ [9, 9] hopened⟩

end VoiceCall.Proofs.Cipher.Sealed
