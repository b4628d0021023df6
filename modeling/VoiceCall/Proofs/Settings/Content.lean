import VoiceCall.Proofs.Json.Drafts
import VoiceCall.Proofs.Text.Utf8
import VoiceCall.Settings.File

namespace VoiceCall.Proofs.Settings.Content

open VoiceCall.Json
open VoiceCall.Settings
open VoiceCall.Proofs.Json.Tokens
open VoiceCall.Proofs.Json.Kinds
open VoiceCall.Proofs.Json.Drafts
open VoiceCall.Proofs.Text.Utf8

variable {α : Type}

/-- A spelled value is put into the settings. -/
def Puts (Spelled : List Char → α → Prop) (put : Settings → α → Settings) (spelled : List Char)
    (s t : Settings) : Prop :=
  ∃ value, Spelled spelled value ∧ put s value = t

/-- The fields of a settings file: what their values may be spelled as, and what they set. -/
def table : List (String × (List Char → Settings → Settings → Prop)) :=
  [("input_device", Puts TextOf fun s v => { s with inputDevice := v }),
    ("output_device", Puts TextOf fun s v => { s with outputDevice := v }),
    ("quality", Puts (ChoiceOf qualityNames) fun s v => { s with quality := v }),
    ("vad_method", Puts (ChoiceOf vadMethodNames) fun s v => { s with vadMethod := v }),
    ("vad_threshold", Puts SingleOf fun s v => { s with vadThreshold := v }),
    ("speech_probability", Puts SingleOf fun s v => { s with speechProbability := v }),
    ("capture_gain", Puts SingleOf fun s v => { s with captureGain := v }),
    ("playback_gain", Puts SingleOf fun s v => { s with playbackGain := v }),
    ("mix_mono", Puts BooleanOf fun s v => { s with mixMono := v }),
    ("noise_suppression", Puts BooleanOf fun s v => { s with noiseSuppression := v }),
    ("signal", Puts (ChoiceOf signalHintNames) fun s v => { s with signal := v }),
    ("encoder_channels", Puts (WordOf UInt16.toNat) fun s v => { s with encoderChannels := v }),
    ("jitter_desired_ms", Puts (WordOf UInt32.toNat) fun s v => { s with jitterDesired := v }),
    ("jitter_max_ms", Puts (WordOf UInt32.toNat) fun s v => { s with jitterMax := v }),
    ("max_decode_workers", Puts (WordOf UInt64.toNat) fun s v => { s with maxDecodeWorkers := v }),
    ("decode_queue_capacity",
      Puts (WordOf UInt64.toNat) fun s v => { s with decodeQueueCapacity := v })]

def names : List String :=
  table.map Prod.fst

def Sets (name : String) (spelled : List Char) (s t : Settings) : Prop :=
  ∃ puts, table.lookup name = some puts ∧ puts spelled s t

/-- A text holds one record, whose fields all have a default, and blanks around it. -/
def Holds (text : String) (s : Settings) : Prop :=
  ∃ gap spelled behind, text.toList = gap ++ (spelled ++ behind) ∧ Blank gap ∧ Blank behind ∧
    RecordOf Sets names {} spelled s

/-- The content of a settings file that holds these settings. -/
def Encodes (content : Octets) (s : Settings) : Prop :=
  ∃ text : String, content = text.toUTF8.data.toList ∧ Holds text s

theorem optional_of {reader : TextReader α} {Spelled : List Char → α → Prop}
    (h : Reads reader Spelled) {name : String} {put : Settings → α → Settings}
    (hname : table.lookup name = some (Puts Spelled put)) :
    Optional Sets (Field.of name false reader put) where
  not_required := rfl
  reads draft := by
    refine (reads_of h name false put draft).of_iff fun spelled held => ?_
    constructor
    · rintro hputs
      exact ⟨_, hname, hputs⟩
    · rintro ⟨puts, hlookup, hputs⟩
      obtain rfl := Option.some.inj (hname.symm.trans hlookup)
      exact hputs

theorem describes : Describes Sets fields where
  optional {field} hmem := by
    simp only [fields, List.mem_cons, List.not_mem_nil, or_false] at hmem
    rcases hmem with rfl | rfl | rfl | rfl | rfl | rfl | rfl | rfl | rfl | rfl | rfl | rfl | rfl |
      rfl | rfl | rfl
    · exact optional_of (reads_string _) rfl
    · exact optional_of (reads_string _) rfl
    · exact optional_of (reads_choice _) rfl
    · exact optional_of (reads_choice _) rfl
    · exact optional_of reads_single rfl
    · exact optional_of reads_single rfl
    · exact optional_of reads_single rfl
    · exact optional_of reads_single rfl
    · exact optional_of reads_boolean rfl
    · exact optional_of reads_boolean rfl
    · exact optional_of (reads_choice _) rfl
    · exact optional_of reads_word16 rfl
    · exact optional_of reads_word32 rfl
    · exact optional_of reads_word32 rfl
    · exact optional_of reads_word64 rfl
    · exact optional_of reads_word64 rfl
  known {name spelled draft held} h := by
    obtain ⟨puts, hlookup, -⟩ := h
    obtain ⟨before, behind, htable, -⟩ := List.lookup_eq_some_iff.mp hlookup
    change name ∈ table.map Prod.fst
    rw [htable]
    simp

theorem ofJson_eq_ok_iff {text : String} {s : Settings} : ofJson text = .ok s ↔ Holds text s :=
  readWhole_eq_ok_iff (reads_record describes "VoiceSettings" {})

/-- A file is loaded as the settings that it holds, brought into their ranges, or else as the
defaults. -/
theorem load_cases (content : Octets) :
    (∃ written, (∀ s, Encodes content s ↔ s = written) ∧
        load (some content) = written.sanitized) ∨
      (∀ s, ¬ Encodes content s) ∧ load (some content) = {} := by
  have hencodes (s : Settings) : Encodes content s ↔
      ∃ text, String.fromUTF8? ⟨content.toArray⟩ = some text ∧ ofJson text = .ok s := by
    simp only [Encodes, fromUTF8?_eq_some_iff, octetsOf, ofJson_eq_ok_iff]
  cases htext : String.fromUTF8? ⟨content.toArray⟩ with
  | none =>
      refine .inr ⟨fun s h => ?_, by simp [load, htext]⟩
      obtain ⟨text, heq, -⟩ := (hencodes s).mp h
      cases htext.symm.trans heq
  | some text =>
      cases hread : ofJson text with
      | error fault =>
          refine .inr ⟨fun s h => ?_, by simp [load, htext, hread]⟩
          obtain ⟨text', heq, hread'⟩ := (hencodes s).mp h
          cases htext.symm.trans heq
          cases hread.symm.trans hread'
      | ok written =>
          refine .inl ⟨written, fun s => ?_, by simp [load, htext, hread]⟩
          simp only [hencodes, htext, Option.some.injEq, exists_eq_left', hread, Except.ok.injEq]
          exact eq_comm

end VoiceCall.Proofs.Settings.Content
