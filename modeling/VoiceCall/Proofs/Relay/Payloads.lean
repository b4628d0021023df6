import VoiceCall.Proofs.Json.Records
import VoiceCall.Proofs.Json.RoundTrip
import VoiceCall.Relay.Decoding
import VoiceCall.Relay.Encoding

namespace VoiceCall.Proofs.Relay.Payloads

open VoiceCall.Json
open VoiceCall.Relay
open VoiceCall.Relay.Message
open VoiceCall.Proofs.Json.Fields
open VoiceCall.Proofs.Json.Records
open VoiceCall.Proofs.Json.RoundTrip

theorem decode_toValue_identity (i : Identity) : Identity.decode i.toValue = .ok i := by
  rw [Identity.decode, Identity.toValue, decodeRecord_ofFields]
  · rfl
  · simp [Decoder.check, decodeText, Except.map, List.lookup_cons]

theorem decode_toValue_selection (s : Selection) : Selection.decode s.toValue = .ok s := by
  have hdata : Selection.decodeData (.ofFields [("address", .string s.address),
      ("port", .ofNat s.port.toNat), ("mode", .string s.mode)]) =
        .ok (s.address, s.port, s.mode) := by
    rw [Selection.decodeData, decodeRecord_ofFields]
    · simp [Slots.required, List.lookup_cons, decodeText, decodeWord16_ofNat, bind, Except.bind,
        pure, Except.pure]
    · simp [Decoder.check, decodeText, Except.map, List.lookup_cons, decodeWord16_ofNat]
  rw [Selection.decode, Selection.toValue, decodeRecord_ofFields]
  · simp [Slots.required, List.lookup_cons, decodeText, hdata, bind, Except.bind, pure, Except.pure]
  · simp [Decoder.check, decodeText, Except.map, List.lookup_cons, hdata]

theorem decode_toValue_ready (r : Ready) : Ready.decode r.toValue = .ok r := by
  have hmodes : decodeList decodeText (.ofStrings r.modes) = .ok r.modes :=
    decodeList_map (fun mode => (rfl : decodeText (.string mode) = .ok mode)) r.modes
  rw [Ready.decode, Ready.toValue, decodeRecord_ofFields]
  · simp [Slots.required, Slots.optional, List.lookup_cons, decodeText, decodeWord32_ofNat,
      decodeWord16_ofNat, hmodes, bind, Except.bind, pure, Except.pure]
  · simp [Decoder.check, decodeText, Except.map, List.lookup_cons, decodeWord32_ofNat,
      decodeWord16_ofNat, hmodes]

theorem decode_toValue_sessionKey {k : SessionKey} (h : k.key.length = 32) :
    SessionKey.decode k.toValue = .ok k := by
  have hkey : decodeArray 32 decodeWord8 (.array (k.key.map fun b => .ofNat b.toNat)) = .ok k.key :=
    h ▸ decodeArray_map decodeWord8_ofNat k.key
  rw [SessionKey.decode, SessionKey.toValue, decodeRecord_ofFields]
  · simp [Slots.required, List.lookup_cons, decodeText, hkey, bind, Except.bind, pure, Except.pure]
  · simp [Decoder.check, decodeText, Except.map, List.lookup_cons, hkey]

theorem decode_toValue_speaking (s : Speaking) : Speaking.decode s.toValue = .ok s := by
  have huser (user : String) : decodeTextOrNull (.string user) = .ok (some user) := rfl
  rcases s with ⟨flags, delay, ssrc, _ | user⟩
  · rw [Speaking.decode, Speaking.toValue, decodeRecord_ofFields]
    · simp [Slots.required, Slots.optional, List.lookup_cons, decodeWord8_ofNat, decodeWord32_ofNat,
        bind, Except.bind, pure, Except.pure]
    · simp [Decoder.check, Except.map, List.lookup_cons, decodeWord8_ofNat, decodeWord32_ofNat]
  · rw [Speaking.decode, Speaking.toValue, decodeRecord_ofFields]
    · simp [Slots.required, Slots.optional, List.lookup_cons, huser, decodeWord8_ofNat,
        decodeWord32_ofNat, bind, Except.bind, pure, Except.pure]
    · simp [Decoder.check, Except.map, List.lookup_cons, huser, decodeWord8_ofNat,
        decodeWord32_ofNat]

theorem nonceOf_ofNat (nonce : UInt64) : nonceOf (.ofNat nonce.toNat) = nonce := by
  have hrange : (nonce.toNat : Int) < UInt64.size := Int.ofNat_lt.mpr nonce.toNat_lt_size
  have hword : word64? (.ofNat nonce.toNat) = some nonce := by
    rw [Value.ofNat, word64?, if_pos ⟨Int.natCast_nonneg _, hrange⟩, Int.toNat_natCast,
      UInt64.ofNat_toNat]
  rw [nonceOf, hword]

/-- Messages that say the same when they are written and read: a session key has its 32 bytes, and a
message without a meaning of its own has an opcode that is not known and a payload of whole numbers
that leaves room for one object around it. Numbers with a fraction are not among them. -/
inductive Faithful : Message → Prop where
  | identify (identity : Identity) : Faithful (.identify identity)
  | selectProtocol (selection : Selection) : Faithful (.selectProtocol selection)
  | ready (ready : Ready) : Faithful (.ready ready)
  | heartbeat (nonce : UInt64) : Faithful (.heartbeat nonce)
  | sessionDescription {key : SessionKey} (hlength : key.key.length = 32) :
      Faithful (.sessionDescription key)
  | speaking (speaking : Speaking) : Faithful (.speaking speaking)
  | heartbeatAck (nonce : UInt64) : Faithful (.heartbeatAck nonce)
  | clientDisconnect (user : String) : Faithful (.clientDisconnect user)
  | unknown {opcode : UInt8} {payload : Value} (hopcode : opcode ∉ knownOpcodes)
      (hpayload : Portable (maxDepth - 1) payload) : Faithful (.unknown opcode payload)

theorem ofPayload_payload {m : Message} (h : Faithful m) :
    ofPayload m.opcode m.payload = .ok m := by
  cases h with
  | identify identity =>
      change (Identity.decode identity.toValue).map _ = _
      rw [decode_toValue_identity]
      rfl
  | selectProtocol selection =>
      change (Selection.decode selection.toValue).map _ = _
      rw [decode_toValue_selection]
      rfl
  | ready ready =>
      change (Ready.decode ready.toValue).map _ = _
      rw [decode_toValue_ready]
      rfl
  | heartbeat nonce =>
      change Except.ok (Message.heartbeat (nonceOf (.ofNat nonce.toNat))) = _
      rw [nonceOf_ofNat]
  | @sessionDescription key hlength =>
      change (SessionKey.decode key.toValue).map _ = _
      rw [decode_toValue_sessionKey hlength]
      rfl
  | speaking speaking =>
      change (Speaking.decode speaking.toValue).map _ = _
      rw [decode_toValue_speaking]
      rfl
  | heartbeatAck nonce =>
      change Except.ok (Message.heartbeatAck (nonceOf (.ofNat nonce.toNat))) = _
      rw [nonceOf_ofNat]
  | clientDisconnect user => rfl
  | unknown hopcode _ =>
      simp only [knownOpcodes, List.mem_cons, List.not_mem_nil, or_false, not_or] at hopcode
      simp [ofPayload, payload, Message.opcode, hopcode]

theorem portable_ofNat {depth n : Nat} (h : n < UInt64.size) : Portable depth (.ofNat n) := by
  have hlow : Int64.minValue.toInt ≤ 0 := by decide
  refine .integer ?_
  rw [Number.fitsWord, Bool.and_eq_true, decide_eq_true_eq, decide_eq_true_eq]
  exact ⟨hlow.trans (Int.natCast_nonneg n), Int.ofNat_lt.mpr h⟩

theorem portable_ofFields {depth : Nat} {fields : List (String × Value)}
    (h : ∀ field ∈ fields, Portable depth field.2) : Portable (depth + 1) (.ofFields fields) :=
  .object (sorted_sortFields fields) fun field hmem => h field (mem_sortFields hmem)

theorem portable_array_map {α : Type} {depth : Nat} {encode : α → Value}
    (h : ∀ a, Portable depth (encode a)) (items : List α) :
    Portable (depth + 1) (.array (items.map encode)) := by
  refine .array fun item hmem => ?_
  obtain ⟨a, -, rfl⟩ := List.mem_map.mp hmem
  exact h a

theorem portable_payload {m : Message} (h : Faithful m) :
    Portable (maxDepth - 1) m.payload := by
  have hword8 {depth : Nat} (w : UInt8) : Portable depth (.ofNat w.toNat) :=
    portable_ofNat (w.toNat_lt.trans (by decide))
  have hword16 {depth : Nat} (w : UInt16) : Portable depth (.ofNat w.toNat) :=
    portable_ofNat (w.toNat_lt.trans (by decide))
  have hword32 {depth : Nat} (w : UInt32) : Portable depth (.ofNat w.toNat) :=
    portable_ofNat (w.toNat_lt.trans (by decide))
  cases h with
  | identify identity =>
      refine @portable_ofFields 125 _ fun field hmem => ?_
      simp only [List.mem_cons, List.not_mem_nil, or_false] at hmem
      rcases hmem with rfl | rfl | rfl | rfl <;> exact .string _
  | selectProtocol selection =>
      refine @portable_ofFields 125 _ fun field hmem => ?_
      simp only [List.mem_cons, List.not_mem_nil, or_false] at hmem
      rcases hmem with rfl | rfl
      · exact .string _
      · refine @portable_ofFields 124 _ fun field hmem => ?_
        simp only [List.mem_cons, List.not_mem_nil, or_false] at hmem
        rcases hmem with rfl | rfl | rfl
        · exact .string _
        · exact hword16 selection.port
        · exact .string _
  | ready ready =>
      refine @portable_ofFields 125 _ fun field hmem => ?_
      simp only [List.mem_cons, List.not_mem_nil, or_false] at hmem
      rcases hmem with rfl | rfl | rfl | rfl
      · exact hword32 ready.ssrc
      · exact .string _
      · exact hword16 ready.port
      · exact portable_array_map (fun mode => .string mode) ready.modes
  | heartbeat nonce => exact portable_ofNat nonce.toNat_lt_size
  | @sessionDescription key _ =>
      refine @portable_ofFields 125 _ fun field hmem => ?_
      simp only [List.mem_cons, List.not_mem_nil, or_false] at hmem
      rcases hmem with rfl | rfl
      · exact .string _
      · exact portable_array_map hword8 key.key
  | speaking speaking =>
      refine @portable_ofFields 125 _ fun field hmem => ?_
      rcases speaking with ⟨flags, delay, ssrc, user⟩
      rcases List.mem_append.mp hmem with hmem | hmem
      · simp only [List.mem_cons, List.not_mem_nil, or_false] at hmem
        rcases hmem with rfl | rfl | rfl
        · exact hword8 flags
        · exact hword32 delay
        · exact hword32 ssrc
      · cases user with
        | none => cases hmem
        | some user =>
            obtain rfl := List.mem_singleton.mp hmem
            exact .string user
  | heartbeatAck nonce => exact portable_ofNat nonce.toNat_lt_size
  | clientDisconnect user =>
      refine @portable_ofFields 125 _ fun field hmem => ?_
      obtain rfl := List.mem_singleton.mp hmem
      exact .string user
  | unknown _ hpayload => exact hpayload

end VoiceCall.Proofs.Relay.Payloads
