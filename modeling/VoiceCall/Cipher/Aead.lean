import VoiceCall.Cipher.ChaCha20
import VoiceCall.Cipher.Poly1305

/-!
Authenticated encryption with XChaCha20-Poly1305 and no associated data. Block zero of the key
stream keys the authenticator, the blocks behind it encrypt.
-/

namespace VoiceCall.Cipher.Aead

def tagSize : Nat := 16

/-- Data of so many whole blocks is too long for the block counter. -/
def blockLimit : Nat := UInt32.size - 1

/-- The short nonce behind the derived key: four zero bytes and the rest of the long one. -/
def shortNonce (nonce : Octets) : Octets :=
  List.replicate 4 0 ++ nonce.drop 16

def stream (key nonce data : Octets) : Octets :=
  ChaCha20.apply (ChaCha20.deriveKey key (nonce.take 16)) (shortNonce nonce) 1 data

/-- What is authenticated: the encrypted data filled up to whole blocks, and the two lengths. -/
def authenticated (ciphertext : Octets) : Octets :=
  ciphertext ++ List.replicate ((16 - ciphertext.length % 16) % 16) 0 ++
    Poly1305.octets 8 0 ++ Poly1305.octets 8 ciphertext.length

def tag (key nonce ciphertext : Octets) : Octets :=
  let oneTimeKey := (ChaCha20.block (ChaCha20.deriveKey key (nonce.take 16)) (shortNonce nonce) 0)
  Poly1305.tag (oneTimeKey.take 32) (authenticated ciphertext)

/-- The encrypted data and its tag; none if the data is too long. -/
def encrypt? (key nonce plaintext : Octets) : Option (Octets × Octets) :=
  if plaintext.length / 64 < blockLimit then
    let ciphertext := stream key nonce plaintext
    some (ciphertext, tag key nonce ciphertext)
  else
    none

def decrypt? (key nonce ciphertext given : Octets) : Option Octets :=
  if ciphertext.length / 64 < blockLimit ∧ tag key nonce ciphertext = given then
    some (stream key nonce ciphertext)
  else
    none

end VoiceCall.Cipher.Aead
