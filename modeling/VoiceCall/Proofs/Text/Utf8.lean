import VoiceCall.Packet.Octets

namespace VoiceCall.Proofs.Text.Utf8

def octetsOf (text : String) : Octets :=
  text.toUTF8.data.toList

theorem fromUTF8?_eq_some_iff {content : Octets} {text : String} :
    String.fromUTF8? ⟨content.toArray⟩ = some text ↔ content = octetsOf text := by
  rw [String.fromUTF8?]
  constructor
  · intro h
    split at h
    · cases h
      rfl
    · cases h
  · rintro rfl
    exact dif_pos text.isValidUTF8

theorem exists_octetsOf_iff {content : Octets} :
    (∃ text, content = octetsOf text) ↔ ByteArray.IsValidUTF8 ⟨content.toArray⟩ := by
  constructor
  · rintro ⟨text, rfl⟩
    exact text.isValidUTF8
  · intro h
    exact ⟨.ofByteArray _ h, rfl⟩

theorem octetsOf_eq_nil_iff {text : String} : octetsOf text = [] ↔ text = "" := by
  rw [octetsOf, Array.toList_eq_nil_iff, ← String.toByteArray_eq_empty_iff]
  exact ByteArray.ext_iff.symm

end VoiceCall.Proofs.Text.Utf8
