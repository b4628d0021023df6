import VoiceCall.Proofs.Relay.Envelopes
import VoiceCall.Proofs.Relay.Payloads

namespace VoiceCall.Proofs.Relay.Text

open VoiceCall.Json
open VoiceCall.Relay
open VoiceCall.Relay.Message
open VoiceCall.Proofs.Json.Tokens
open VoiceCall.Proofs.Json.Numerals
open VoiceCall.Proofs.Json.RoundTrip
open VoiceCall.Proofs.Json.Objects
open VoiceCall.Proofs.Relay.Envelopes
open VoiceCall.Proofs.Relay.Payloads

def payloadText (payload : Value) : List Char :=
  ',' :: '"' :: 'd' :: '"' :: ':' :: (payload.print ++ ['\x7d'])

def envelopeText (opcode : UInt8) (payload : Value) : List Char :=
  '"' :: 'o' :: 'p' :: '"' :: ':' :: (Nat.toDigits 10 opcode.toNat ++ payloadText payload)

theorem toJson_toList (m : Message) :
    m.toJson.toList = '\x7b' :: envelopeText m.opcode m.payload := by
  refine String.toList_ofList.trans ?_
  simp [envelopeText, payloadText]

theorem read_opcodeField (draft : Envelope) (opcode : UInt8) (payload : Value) :
    opcodeField.read draft (Nat.toDigits 10 opcode.toNat ++ payloadText payload) =
      .ok (⟨opcode, draft.payload⟩, payloadText payload) := by
  have hread : readWord8 (Nat.toDigits 10 opcode.toNat ++ payloadText payload) =
      .ok (opcode, payloadText payload) := by
    obtain ⟨c, behind, hdigits, hc⟩ := exists_toDigits_eq_cons opcode.toNat
    refine readWord8_eq_ok_iff.mpr ⟨?_, by simp [payloadText, Stops, Undigited]⟩
    rw [hdigits]
    exact skipBlank_cons (isBlank_of_startsNumber hc) _
  rw [opcodeField, Json.Field.of]
  dsimp only
  rw [hread]
  rfl

theorem read_payloadField (draft : Envelope) {payload : Value}
    (h : Portable (maxDepth - 1) payload) :
    payloadField.read draft (payload.print ++ ['\x7d']) =
      .ok (⟨draft.opcode, payload⟩, ['\x7d']) := by
  have hcloses : Closes ['\x7d'] := ⟨'\x7d', [], rfl, by decide⟩
  rw [payloadField, Json.Field.of]
  dsimp only
  rw [readValue_print h hcloses]
  rfl

theorem readObjectFuel_envelopeText {opcode : UInt8} {payload : Value}
    (h : Portable (maxDepth - 1) payload) (fuel : Nat) :
    readObjectFuel [opcodeField, payloadField] (fuel + 3) true [] ⟨0, .null⟩
      (envelopeText opcode payload) = .ok (⟨opcode, payload⟩, []) := by
  have hop (rest : List Char) : readString ('o' :: 'p' :: '"' :: rest) = .ok ("op", rest) := rfl
  have hd (rest : List Char) : readString ('d' :: '"' :: rest) = .ok ("d", rest) := rfl
  rw [envelopeText, readObjectFuel_known rfl (hop _) rfl rfl rfl
    (read_opcodeField ⟨0, .null⟩ opcode payload)]
  rw [payloadText, readObjectFuel_known rfl (hd _) rfl rfl rfl
    (read_payloadField ⟨opcode, .null⟩ h)]
  exact readObjectFuel_done rfl rfl

theorem readEnvelope_toJson {m : Message} (h : Portable (maxDepth - 1) m.payload) :
    readEnvelope m.toJson.toList = .ok (⟨m.opcode, m.payload⟩, []) := by
  have hlong : 2 ≤ (envelopeText m.opcode m.payload).length := by
    simp [envelopeText]
  obtain ⟨fuel, hfuel⟩ := Nat.exists_eq_add_of_le' hlong
  rw [toJson_toList, readEnvelope_eq, readRecord, skipBlank_cons (by decide)]
  change readObjectFuel _ ((envelopeText m.opcode m.payload).length + 1) _ _ _ _ = _
  rw [hfuel]
  exact readObjectFuel_envelopeText h fuel

theorem ofJson_toJson {m : Message} (h : Faithful m) : ofJson m.toJson = .ok m := by
  have hwhole : readWhole readEnvelope m.toJson = .ok ⟨m.opcode, m.payload⟩ := by
    rw [readWhole, readEnvelope_toJson (portable_payload h)]
    rfl
  rw [ofJson, hwhole]
  change ofMismatch (ofPayload m.opcode m.payload) = _
  rw [ofPayload_payload h]
  rfl

theorem opcode_of_known {opcode : UInt8} {m : Message} (hopcode : m.opcode = opcode)
    (hknown : opcode ∈ knownOpcodes) (hmeaning : ∀ other held, m ≠ .unknown other held) :
    m.opcode = opcode ∧
      ((∃ other held, m = .unknown other held) ↔ opcode ∉ knownOpcodes) := by
  refine ⟨hopcode, ?_, fun hunknown => absurd hknown hunknown⟩
  rintro ⟨other, held, hm⟩
  exact absurd hm (hmeaning other held)

theorem opcode_of_map {α : Type} {f : α → Message} {read : Except Mismatch α} {opcode : UInt8}
    {m : Message} (h : read.map f = .ok m) (hopcode : ∀ a, (f a).opcode = opcode)
    (hknown : opcode ∈ knownOpcodes) (hmeaning : ∀ a other held, f a ≠ .unknown other held) :
    m.opcode = opcode ∧
      ((∃ other held, m = .unknown other held) ↔ opcode ∉ knownOpcodes) := by
  obtain ⟨a, -, rfl⟩ := exists_of_map_eq_ok h
  exact opcode_of_known (hopcode a) hknown (hmeaning a)

theorem opcode_of_ofPayload {opcode : UInt8} {payload : Value} {m : Message}
    (h : ofPayload opcode payload = .ok m) :
    m.opcode = opcode ∧
      ((∃ other held, m = .unknown other held) ↔ opcode ∉ knownOpcodes) := by
  unfold ofPayload at h
  repeat' split at h
  all_goals rename_i hopcode
  · exact hopcode ▸ opcode_of_map h (fun _ => rfl) (by decide) nofun
  · exact hopcode ▸ opcode_of_map h (fun _ => rfl) (by decide) nofun
  · exact hopcode ▸ opcode_of_map h (fun _ => rfl) (by decide) nofun
  · cases h
    exact hopcode ▸ opcode_of_known rfl (by decide) nofun
  · exact hopcode ▸ opcode_of_map h (fun _ => rfl) (by decide) nofun
  · exact hopcode ▸ opcode_of_map h (fun _ => rfl) (by decide) nofun
  · cases h
    exact hopcode ▸ opcode_of_known rfl (by decide) nofun
  · exact hopcode ▸ opcode_of_map h (fun _ => rfl) (by decide) nofun
  · exact hopcode ▸ opcode_of_map h (fun _ => rfl) (by decide) nofun
  · cases h
    refine ⟨rfl, fun _ => ?_, fun _ => ⟨opcode, payload, rfl⟩⟩
    simp_all [knownOpcodes]

theorem exists_readEnvelope_of_ofJson {text : String} {m : Message} (h : ofJson text = .ok m) :
    ∃ envelope rest, readEnvelope text.toList = .ok (envelope, rest) ∧
      ofPayload envelope.opcode envelope.payload = .ok m := by
  obtain ⟨envelope, hwhole, h⟩ := exists_of_bind_eq_ok h
  obtain ⟨⟨_, rest⟩, hread, hfinish⟩ := exists_of_bind_eq_ok hwhole
  obtain ⟨⟨⟩, -, ⟨⟩⟩ := exists_of_bind_eq_ok hfinish
  refine ⟨envelope, rest, hread, ?_⟩
  generalize ofPayload envelope.opcode envelope.payload = read at h
  cases read with
  | ok message => exact congrArg Except.ok (Except.ok.inj h)
  | error mismatch => cases h

/-- Messages are read back from their text. The opcode of a message is the one written in the text
that it was read from, and it has no meaning of its own exactly if that opcode is not known. -/
theorem text_round_trip :
    (∀ m, Faithful m → ofJson m.toJson = .ok m) ∧
      ∀ text m, ofJson text = .ok m →
        (∀ n, WritesOpcode n text.toList ↔ n = m.opcode.toNat) ∧
          ((∃ opcode payload, m = .unknown opcode payload) ↔ m.opcode ∉ knownOpcodes) := by
  refine ⟨fun m h => ofJson_toJson h, fun text m h => ?_⟩
  obtain ⟨envelope, rest, hread, hpayload⟩ := exists_readEnvelope_of_ofJson h
  obtain ⟨hopcode, hunknown⟩ := opcode_of_ofPayload hpayload
  rw [hopcode]
  exact ⟨writesOpcode_iff hread, hunknown⟩

theorem text_round_trip_unknown :
    ∃ m, Faithful m ∧ ofJson m.toJson = .ok m ∧ WritesOpcode 18 m.toJson.toList ∧
      m.opcode ∉ knownOpcodes := by
  have hpayload : Portable (maxDepth - 1) (.array [.boolean true, .string "\n"]) := by
    refine @Portable.array 125 _ fun item hmem => ?_
    simp only [List.mem_cons, List.not_mem_nil, or_false] at hmem
    rcases hmem with rfl | rfl
    · exact .boolean true
    · exact .string "\n"
  have hfaithful : Faithful (.unknown 18 _) := .unknown (by decide) hpayload
  have hread := text_round_trip.1 _ hfaithful
  obtain ⟨hopcode, hunknown⟩ := text_round_trip.2 _ _ hread
  exact ⟨_, hfaithful, hread, (hopcode 18).mpr rfl, hunknown.mp ⟨_, _, rfl⟩⟩

end VoiceCall.Proofs.Relay.Text
