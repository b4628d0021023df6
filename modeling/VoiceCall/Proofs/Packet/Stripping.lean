import VoiceCall.Proofs.Decoding.Extension

namespace VoiceCall.Proofs.Packet.Stripping

open VoiceCall.Packet (stripExtension)
open VoiceCall.Proofs.Decoding.Extension (Marked stripExtension_of_unmarked)

/-- What a payload begins with that has an extension of so many words. -/
def announcement (count : UInt16) : Octets :=
  [0xbe, 0xde] ++ Octets.ofWord16 count

theorem length_announcement (count : UInt16) : (announcement count).length = 4 := rfl

theorem marked_iff {payload : Octets} :
    Marked payload ↔ ∃ count, announcement count <+: payload := by
  constructor
  · rintro ⟨hmarker, hlong⟩
    rcases payload with _ | ⟨first, _ | ⟨second, _ | ⟨high, _ | ⟨low, body⟩⟩⟩⟩
    iterate 4 · simp at hlong
    simp only [List.take_succ_cons, List.take_zero, List.cons.injEq, and_true] at hmarker
    obtain ⟨rfl, rfl⟩ := hmarker
    refine ⟨word16 high low, body, ?_⟩
    rw [announcement, ofWord16_word16]
    rfl
  · rintro ⟨count, body, rfl⟩
    refine ⟨rfl, ?_⟩
    rw [List.length_append, length_announcement]
    exact Nat.le_add_right 4 _

/-- The words of a count are four bytes each. -/
theorem stripExtension_announcement (count : UInt16) (body : Octets) :
    stripExtension (announcement count ++ body) =
      if 4 * count.toNat ≤ body.length then .ok (body.drop (4 * count.toNat))
      else .error (.extensionOverrun count.toNat (announcement count ++ body).length) := by
  change (let words := (word16 (count >>> 8).toUInt8 count.toUInt8).toNat
    if words * 4 ≤ body.length then _ else _) = _
  rw [word16_ofWord16, Nat.mul_comm 4]
  rfl

theorem stripExtension_eq_error_iff {payload : Octets} {fault : Packet.Fault} :
    stripExtension payload = .error fault ↔
      ∃ count, announcement count <+: payload ∧ payload.length < 4 + 4 * count.toNat ∧
        fault = .extensionOverrun count.toNat payload.length := by
  constructor
  · intro hfailed
    have hmarked : Marked payload := by
      refine Classical.byContradiction fun hunmarked => ?_
      rw [stripExtension_of_unmarked hunmarked] at hfailed
      cases hfailed
    obtain ⟨count, body, rfl⟩ := marked_iff.mp hmarked
    rw [stripExtension_announcement] at hfailed
    split at hfailed
    · cases hfailed
    · rename_i hshort
      cases hfailed
      refine ⟨count, ⟨body, rfl⟩, ?_, rfl⟩
      rw [List.length_append, length_announcement]
      omega
  · rintro ⟨count, ⟨body, rfl⟩, hshort, rfl⟩
    rw [List.length_append, length_announcement] at hshort
    rw [stripExtension_announcement, if_neg (by omega)]

theorem stripExtension_suffix {payload rest : Octets} (h : stripExtension payload = .ok rest) :
    rest <:+ payload := by
  by_cases hmarked : Marked payload
  · obtain ⟨count, body, rfl⟩ := marked_iff.mp hmarked
    rw [stripExtension_announcement] at h
    split at h
    · cases h
      exact (List.drop_suffix _ body).trans (List.suffix_append _ body)
    · cases h
  · rw [stripExtension_of_unmarked hmarked] at h
    cases h
    exact List.suffix_rfl

/-- Of a payload with an extension what stands behind it is left, a payload that announces none is
left whole, and one is refused exactly when it announces more words than it has. -/
theorem extension_cut_off :
    (∀ (count : UInt16) (words rest : Octets), words.length = 4 * count.toNat →
        stripExtension (announcement count ++ words ++ rest) = .ok rest) ∧
      (∀ payload : Octets, payload.length < 4 ∨ payload.take 2 ≠ [0xbe, 0xde] →
        stripExtension payload = .ok payload) ∧
      (∀ (payload : Octets) (fault : Packet.Fault), stripExtension payload = .error fault ↔
        ∃ count : UInt16, announcement count <+: payload ∧
          payload.length < 4 + 4 * count.toNat ∧
          fault = .extensionOverrun count.toNat payload.length) ∧
      ∀ payload rest : Octets, stripExtension payload = .ok rest → rest <:+ payload := by
  refine ⟨fun count words rest hwords => ?_, fun payload hplain => ?_,
    fun payload fault => stripExtension_eq_error_iff, fun payload rest => stripExtension_suffix⟩
  · have hfits : 4 * count.toNat ≤ (words ++ rest).length := by
      rw [List.length_append, hwords]
      exact Nat.le_add_right _ _
    rw [List.append_assoc, stripExtension_announcement, if_pos hfits, List.drop_left' hwords]
  · apply stripExtension_of_unmarked
    rintro ⟨hmarker, hlong⟩
    rcases hplain with hshort | hother
    · omega
    · exact hother hmarker

/-- The largest extension, with nothing behind it; the front of an announcement; and an extension
of one word that ends after three bytes. -/
theorem extension_cut_off_edges :
    let words : Octets := List.replicate 262140 7
    words.length = 4 * (65535 : UInt16).toNat ∧
      stripExtension (announcement 65535 ++ words ++ []) = .ok [] ∧
      [0xbe, 0xde, 0].length < 4 ∧ stripExtension [0xbe, 0xde, 0] = .ok [0xbe, 0xde, 0] ∧
      stripExtension (announcement 1 ++ [1, 2, 3]) = .error (.extensionOverrun 1 7) := by
  intro words
  have hwords : words.length = 4 * (65535 : UInt16).toNat := List.length_replicate
  obtain ⟨hwhole, hplain, hrefused, -⟩ := extension_cut_off
  refine ⟨hwords, hwhole 65535 words [] hwords, by decide, hplain _ (.inl (by decide)), ?_⟩
  exact (hrefused _ _).mpr ⟨1, ⟨[1, 2, 3], rfl⟩, by decide, rfl⟩

end VoiceCall.Proofs.Packet.Stripping
