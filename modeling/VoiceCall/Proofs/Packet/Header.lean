import VoiceCall.Packet.Header

namespace VoiceCall.Proofs.Packet.Header

open VoiceCall.Packet

theorem forall_octet {p : UInt8 → Prop} (h : ∀ b : BitVec 8, p (.ofBitVec b)) (octet : UInt8) :
    p octet :=
  h octet.toBitVec

theorem split_kind (kind : UInt8) (h : kind < 128) (marker : Bool) :
    ((kind &&& 0x7f) ||| (if marker then 0x80 else 0)) &&& 0x7f = kind ∧
      (((kind &&& 0x7f) ||| (if marker then 0x80 else 0)) &&& 0x80 != 0) = marker := by
  revert kind
  apply forall_octet
  revert marker
  decide

theorem toNat_kind (kind : UInt8) (marker : Bool) :
    ((kind &&& 0x7f) ||| (if marker then 0x80 else 0)).toNat =
      128 * marker.toNat + kind.toNat % 128 := by
  revert kind
  apply forall_octet
  revert marker
  decide

theorem join_kind (kind : UInt8) :
    (kind &&& 0x7f &&& 0x7f) ||| (if kind &&& 0x80 != 0 then 0x80 else 0) = kind := by
  revert kind
  apply forall_octet
  decide

theorem parse_toOctets_append (h : Header) (rest : Octets) (hversion : h.flags >>> 6 = 2)
    (hkind : h.payloadType < 128) : Header.parse (h.toOctets ++ rest) = .ok h := by
  obtain ⟨hpayloadType, hmarker⟩ := split_kind h.payloadType hkind h.marker
  simp only [Header.toOctets, Octets.ofWord16, Octets.ofWord32, List.cons_append, List.nil_append,
    Header.parse, if_pos hversion, hpayloadType, hmarker, word16_ofWord16, word32_ofWord32]

theorem toOctets_opus_inj {sequence sequence' : UInt16} {timestamp timestamp' ssrc ssrc' : UInt32}
    (heq : (Header.opus sequence timestamp ssrc).toOctets =
      (Header.opus sequence' timestamp' ssrc').toOctets) :
    sequence = sequence' ∧ timestamp = timestamp' ∧ ssrc = ssrc' := by
  have hread (sequence : UInt16) (timestamp ssrc : UInt32) :
      Header.parse ((Header.opus sequence timestamp ssrc).toOctets ++ []) =
        .ok (.opus sequence timestamp ssrc) :=
    parse_toOctets_append _ [] (by decide : (0x80 : UInt8) >>> 6 = 2)
      (by decide : Header.opusPayloadType < 128)
  have hsame := (hread sequence timestamp ssrc).symm.trans (heq ▸ hread sequence' timestamp' ssrc')
  simpa [Header.opus] using hsame

theorem toOctets_of_parse {data : Octets} {h : Header} (hparse : Header.parse data = .ok h) :
    h.toOctets = data.take Header.size := by
  unfold Header.parse at hparse
  split at hparse
  · dsimp only at hparse
    split at hparse
    · cases hparse
      simp only [Header.toOctets, join_kind, ofWord16_word16, ofWord32_word32]
      rfl
    · cases hparse
  · cases hparse

/-- The first two bits of a byte string as a number. -/
def topBits (data : Octets) : Nat :=
  (data.getD 0 0).toNat / 64

theorem toNat_version (flags : UInt8) : (flags >>> 6).toNat = flags.toNat / 64 := by
  simp [Nat.shiftRight_eq_div_pow]

theorem version_eq_two_iff (flags : UInt8) : flags >>> 6 = 2 ↔ flags.toNat / 64 = 2 := by
  rw [← UInt8.toNat_inj, toNat_version]
  rfl

theorem parse_of_short {data : Octets} (hshort : data.length < Header.size) :
    Header.parse data = .error (.tooShort data.length Header.size) := by
  unfold Header.parse
  split
  · simp only [List.length_cons, Header.size] at hshort
    omega
  · rfl

theorem exists_of_long {data : Octets} (hlong : Header.size ≤ data.length) :
    ∃ flags kind s₀ s₁ t₀ t₁ t₂ t₃ r₀ r₁ r₂ r₃ rest,
      data = flags :: kind :: s₀ :: s₁ :: t₀ :: t₁ :: t₂ :: t₃ :: r₀ :: r₁ :: r₂ :: r₃ :: rest := by
  rcases data with _ | ⟨flags, _ | ⟨kind, _ | ⟨s₀, _ | ⟨s₁, _ | ⟨t₀, _ | ⟨t₁, _ | ⟨t₂, _ | ⟨t₃, _ |
    ⟨r₀, _ | ⟨r₁, _ | ⟨r₂, _ | ⟨r₃, rest⟩⟩⟩⟩⟩⟩⟩⟩⟩⟩⟩⟩
  iterate 12 · simp [Header.size] at hlong
  exact ⟨flags, kind, s₀, s₁, t₀, t₁, t₂, t₃, r₀, r₁, r₂, r₃, rest, rfl⟩

theorem exists_parse_of_long {data : Octets} (hlong : Header.size ≤ data.length)
    (hversion : topBits data = 2) : ∃ h, Header.parse data = .ok h := by
  obtain ⟨flags, kind, s₀, s₁, t₀, t₁, t₂, t₃, r₀, r₁, r₂, r₃, rest, rfl⟩ := exists_of_long hlong
  exact ⟨_, if_pos ((version_eq_two_iff flags).mpr hversion)⟩

theorem parse_of_other_version {data : Octets} (hlong : Header.size ≤ data.length)
    (hversion : topBits data ≠ 2) :
    ∃ version : UInt8, version.toNat = topBits data ∧
      Header.parse data = .error (.unsupportedVersion version) := by
  obtain ⟨flags, kind, s₀, s₁, t₀, t₁, t₂, t₃, r₀, r₁, r₂, r₃, rest, rfl⟩ := exists_of_long hlong
  refine ⟨flags >>> 6, toNat_version flags, if_neg fun h => ?_⟩
  exact hversion ((version_eq_two_iff flags).mp h)

theorem parse_eq_error_iff (data : Octets) (fault : Fault) :
    Header.parse data = .error fault ↔
      data.length < Header.size ∧ fault = .tooShort data.length Header.size ∨
        Header.size ≤ data.length ∧ topBits data ≠ 2 ∧
          ∃ version : UInt8, version.toNat = topBits data ∧
            fault = .unsupportedVersion version := by
  by_cases hshort : data.length < Header.size
  · rw [parse_of_short hshort]
    simp [hshort, Nat.not_le_of_lt hshort, eq_comm]
  · have hlong := Nat.le_of_not_lt hshort
    by_cases hversion : topBits data = 2
    · obtain ⟨h, hparse⟩ := exists_parse_of_long hlong hversion
      simp [hparse, hshort, hversion]
    · obtain ⟨version, hbits, hparse⟩ := parse_of_other_version hlong hversion
      rw [hparse, Except.error.injEq]
      constructor
      · rintro rfl
        exact .inr ⟨hlong, hversion, version, hbits, rfl⟩
      · rintro (⟨h, -⟩ | ⟨-, -, other, hother, rfl⟩)
        · exact absurd h hshort
        · rw [UInt8.toNat_inj.mp (hbits.trans hother.symm)]

/-- Twelve bytes that begin with the bits 10 read as the header that writes them, a header of
version two whose payload type has seven bits reads back whatever follows it, the marker has its bit
to itself, and nothing else is refused than fewer bytes and other versions. -/
theorem header_codec :
    (∀ data : Octets, Header.size ≤ data.length → topBits data = 2 →
      ∃ h, Header.parse data = .ok h ∧ h.toOctets = data.take Header.size) ∧
    (∀ (h : Header) (rest : Octets), h.flags >>> 6 = 2 → h.payloadType < 128 →
      Header.parse (h.toOctets ++ rest) = .ok h) ∧
    (∀ h : Header, h.toOctets.length = Header.size ∧
      (h.toOctets.getD 1 0).toNat = 128 * h.marker.toNat + h.payloadType.toNat % 128) ∧
    ∀ (data : Octets) (fault : Fault), Header.parse data = .error fault ↔
      data.length < Header.size ∧ fault = .tooShort data.length Header.size ∨
        Header.size ≤ data.length ∧ topBits data ≠ 2 ∧
          ∃ version : UInt8, version.toNat = topBits data ∧
            fault = .unsupportedVersion version := by
  refine ⟨fun data hlong hversion => ?_, parse_toOctets_append, fun h => ?_, parse_eq_error_iff⟩
  · obtain ⟨h, hparse⟩ := exists_parse_of_long hlong hversion
    exact ⟨h, hparse, toOctets_of_parse hparse⟩
  · exact ⟨h.length_toOctets, toNat_kind h.payloadType h.marker⟩

/-- A packet of an announced extension, and a header whose payload type does not fit. -/
theorem header_codec_extended :
    (∃ h, Header.parse [0x90, 0xf8, 0, 1, 0, 0, 3, 0xc0, 0, 0, 0, 42, 0xbe, 0xde] = .ok h ∧
      h.toOctets = [0x90, 0xf8, 0, 1, 0, 0, 3, 0xc0, 0, 0, 0, 42]) ∧
    Header.parse ((Header.opus 1 960 42).toOctets ++ [7]) = .ok (.opus 1 960 42) ∧
    (({ Header.opus 1 960 42 with payloadType := 0xff }.toOctets).getD 1 0).toNat = 0x7f := by
  obtain ⟨hread, hwrite, hkind, -⟩ := header_codec
  exact ⟨hread _ (by decide) (by decide), hwrite _ _ (by decide) (by decide), (hkind _).2⟩

end VoiceCall.Proofs.Packet.Header
