import VoiceCall.Cipher.Aead

namespace VoiceCall.Proofs.Cipher.Aead

open VoiceCall.Cipher
open VoiceCall.Cipher.Aead

theorem length_block (key nonce : Octets) (number : UInt32) :
    (ChaCha20.block key nonce number).length = 64 := rfl

theorem length_blocks (key nonce : Octets) (number : UInt32) (count : Nat) :
    (ChaCha20.blocks key nonce number count).length = 64 * count := by
  induction count generalizing number with
  | zero => rfl
  | succ count ih =>
      rw [ChaCha20.blocks, List.length_append, length_block, ih]
      omega

theorem length_apply (key nonce : Octets) (number : UInt32) (data : Octets) :
    (ChaCha20.apply key nonce number data).length = data.length := by
  rw [ChaCha20.apply, List.length_zipWith, length_blocks]
  omega

theorem zipWith_xor_cancel (data stream : Octets) (h : data.length ≤ stream.length) :
    (data.zipWith (· ^^^ ·) stream).zipWith (· ^^^ ·) stream = data := by
  induction data generalizing stream with
  | nil => rfl
  | cons octet data ih =>
      cases stream with
      | nil => simp at h
      | cons mask stream =>
          have hshorter : data.length ≤ stream.length := by simpa using h
          simp only [List.zipWith_cons_cons, ih stream hshorter, UInt8.xor_assoc, UInt8.xor_self,
            UInt8.xor_zero]

theorem apply_apply (key nonce : Octets) (number : UInt32) (data : Octets) :
    ChaCha20.apply key nonce number (ChaCha20.apply key nonce number data) = data := by
  have hlength := length_apply key nonce number data
  rw [ChaCha20.apply] at hlength ⊢
  rw [ChaCha20.apply, hlength]
  apply zipWith_xor_cancel
  rw [length_blocks]
  omega

theorem length_stream (key nonce data : Octets) : (stream key nonce data).length = data.length :=
  length_apply _ _ 1 data

theorem stream_stream (key nonce data : Octets) : stream key nonce (stream key nonce data) = data :=
  apply_apply _ _ 1 data

theorem length_octets (count n : Nat) : (Poly1305.octets count n).length = count := by
  induction count generalizing n with
  | zero => rfl
  | succ count ih => simp [Poly1305.octets, ih]

theorem length_tag (key nonce ciphertext : Octets) :
    (tag key nonce ciphertext).length = tagSize :=
  length_octets 16 _

theorem encrypt?_eq_some_iff (key nonce plaintext ciphertext given : Octets) :
    encrypt? key nonce plaintext = some (ciphertext, given) ↔
      plaintext.length / 64 < blockLimit ∧ stream key nonce plaintext = ciphertext ∧
        tag key nonce ciphertext = given := by
  unfold encrypt?
  split
  · rename_i hshort
    simp only [Option.some.injEq, Prod.mk.injEq, hshort, true_and]
    constructor
    · rintro ⟨rfl, rfl⟩
      exact ⟨rfl, rfl⟩
    · rintro ⟨rfl, rfl⟩
      exact ⟨rfl, rfl⟩
  · rename_i hlong
    simp [hlong]

theorem decrypt?_eq_some_iff (key nonce plaintext ciphertext given : Octets) :
    decrypt? key nonce ciphertext given = some plaintext ↔
      ciphertext.length / 64 < blockLimit ∧ tag key nonce ciphertext = given ∧
        stream key nonce ciphertext = plaintext := by
  unfold decrypt?
  split
  · rename_i hvalid
    simp [hvalid]
  · rename_i hinvalid
    simp only [reduceCtorEq, false_iff]
    exact fun h => hinvalid ⟨h.1, h.2.1⟩

theorem decrypt?_iff_encrypt? (key nonce plaintext ciphertext given : Octets) :
    decrypt? key nonce ciphertext given = some plaintext ↔
      encrypt? key nonce plaintext = some (ciphertext, given) := by
  rw [decrypt?_eq_some_iff, encrypt?_eq_some_iff]
  constructor
  · rintro ⟨hshort, htag, rfl⟩
    rw [length_stream, stream_stream]
    exact ⟨hshort, rfl, htag⟩
  · rintro ⟨hshort, rfl, htag⟩
    rw [length_stream, stream_stream]
    exact ⟨hshort, htag, rfl⟩

end VoiceCall.Proofs.Cipher.Aead
