import VoiceCall.Proofs.Settings.Loading

namespace VoiceCall.Proofs.Settings.Saving

open VoiceCall.Json
open VoiceCall.Settings
open VoiceCall.Proofs.Json.Tokens
open VoiceCall.Proofs.Json.Characters
open VoiceCall.Proofs.Json.Grammar
open VoiceCall.Proofs.Json.Kinds
open VoiceCall.Proofs.Json.Drafts
open VoiceCall.Proofs.Audio.Limits
open VoiceCall.Proofs.Settings.Content
open VoiceCall.Proofs.Settings.Loading

/-- A finite sample is read back from its shortest decimal form. -/
def ReadsBack (x : Sample) : Prop :=
  x.isFinite → readSingle (singleText x) = .ok (x, [])

instance : DecidablePred ReadsBack :=
  fun _ => inferInstanceAs (Decidable (_ → _))

/-- Fields that are set one after the other, by values behind blanks. -/
inductive Assigns : List (String × List Char) → Settings → Settings → Prop where
  | nil {s : Settings} : Assigns [] s s
  | cons {name : String} {gap spelled : List Char} {fields : List (String × List Char)}
      {s t u : Settings} (hgap : Blank gap) (hset : Sets name spelled s t)
      (hlater : Assigns fields t u) : Assigns ((name, gap ++ spelled) :: fields) s u

/-- What follows the value of a field up to the end of the object. -/
def following : List (String × List Char) → List Char
  | [] => ['\n', '\x7d']
  | field :: fields => ',' :: '\n' :: (lines (field :: fields) ++ ['\x7d'])

theorem lines_cons (field : String × List Char) (fields : List (String × List Char)) :
    lines (field :: fields) ++ ['\x7d'] = line field ++ following fields := by
  cases fields with
  | nil => simp [lines, following]
  | cons other fields => simp [lines, following]

theorem members_line {first : Bool} {lead : List Char} (hlead : Lead first (lead ++ [' ', ' ']))
    {name : String} {gap spelled later : List Char} {seen : List String} {s t u : Settings}
    (hnew : name ∉ seen) (hgap : Blank gap) (hset : Sets name spelled s t)
    (hlater : Members Sets names false (name :: seen) t later u) :
    Members Sets names first seen s (lead ++ (line (name, gap ++ spelled) ++ later)) u := by
  have hblank : Blank (' ' :: gap) := blank_append (show Blank [' '] by simp [Blank, isBlank]) hgap
  have hmembers := Members.known hlead (spells_flatMap_escapeChar name.toList) hnew
    blank_nil hblank hset hlater
  simpa [line, printString] using hmembers

theorem members_following {fields : List (String × List Char)} {s t : Settings}
    (h : Assigns fields s t) {seen : List String} (hnew : (fields.map Prod.fst).Nodup)
    (hseen : ∀ name ∈ fields.map Prod.fst, name ∉ seen) :
    Members Sets names false seen s (following fields) t := by
  induction h generalizing seen with
  | nil => exact .close (show Blank ['\n'] by simp [Blank, isBlank])
  | @cons name gap spelled fields s t u hgap hset _ ih =>
      have hlead : Lead false ([',', '\n'] ++ [' ', ' ']) :=
        .later blank_nil (show Blank ['\n', ' ', ' '] by simp [Blank, isBlank])
      rw [following, lines_cons]
      rw [List.map_cons, List.nodup_cons] at hnew
      refine members_line hlead (hseen name List.mem_cons_self) hgap hset (ih hnew.2 ?_)
      intro other hmem hin
      rcases List.mem_cons.mp hin with rfl | hin
      · exact hnew.1 hmem
      · exact hseen other (List.mem_cons_of_mem _ hmem) hin

theorem members_lines {fields : List (String × List Char)} {s t : Settings}
    (h : Assigns fields s t) (hne : fields ≠ []) (hnew : (fields.map Prod.fst).Nodup) :
    Members Sets names true [] s ('\n' :: (lines fields ++ ['\x7d'])) t := by
  obtain _ | @⟨name, gap, spelled, fields, s, t, u, hgap, hset, hlater⟩ := h
  · exact absurd rfl hne
  · have hlead : Lead true (['\n'] ++ [' ', ' ']) :=
      .first (show Blank ['\n', ' ', ' '] by simp [Blank, isBlank])
    rw [List.map_cons, List.nodup_cons] at hnew
    rw [lines_cons]
    refine members_line hlead List.not_mem_nil hgap hset (members_following hlater hnew.2 ?_)
    intro other hmem hin
    obtain rfl := List.mem_singleton.mp hin
    exact hnew.1 hmem

theorem holds_toJson {s : Settings} (h : Assigns s.written {} s) : Holds s.toJson s := by
  have hmembers := members_lines h (by simp [written]) (by simp [written])
  refine ⟨[], _, [], ?_, blank_nil, blank_nil, .object hmembers⟩
  simp [toJson]

theorem singleOf_printSingle {x : Sample} (hfinite : x.isFinite) (h : ReadsBack x) :
    ∃ gap spelled, printSingle x = gap ++ spelled ∧ Blank gap ∧ SingleOf spelled x := by
  obtain ⟨gap, spelled, htext, hgap, hsingle⟩ := reads_single.sound (h hfinite)
  rw [List.append_nil] at htext
  exact ⟨gap, spelled, by rw [printSingle, if_pos hfinite, htext], hgap, hsingle⟩

theorem Assigns.plain {name : String} {spelled : List Char} {fields : List (String × List Char)}
    {s t u : Settings} (hset : Sets name spelled s t) (hlater : Assigns fields t u) :
    Assigns ((name, spelled) :: fields) s u :=
  @Assigns.cons name [] spelled fields s t u blank_nil hset hlater

theorem sets_of {α : Type} {Spelled : List Char → α → Prop} {put : Settings → α → Settings}
    {name : String} (hname : table.lookup name = some (Puts Spelled put)) {spelled : List Char}
    {value : α} (h : Spelled spelled value) (s : Settings) : Sets name spelled s (put s value) :=
  ⟨_, hname, value, h, rfl⟩

theorem assigns_written {s : Settings} (h : InRange s)
    (hreads : ∀ x ∈ [s.vadThreshold, s.speechProbability, s.captureGain, s.playbackGain],
      ReadsBack x) : Assigns s.written {} s := by
  obtain ⟨_, _, hthreshold, hgap₁, hset₁⟩ :=
    singleOf_printSingle h.vadThreshold.1 (hreads s.vadThreshold (by simp))
  obtain ⟨_, _, hprobability, hgap₂, hset₂⟩ :=
    singleOf_printSingle h.speechProbability.1 (hreads s.speechProbability (by simp))
  obtain ⟨_, _, hcapture, hgap₃, hset₃⟩ :=
    singleOf_printSingle h.captureGain.1 (hreads s.captureGain (by simp))
  obtain ⟨_, _, hplayback, hgap₄, hset₄⟩ :=
    singleOf_printSingle h.playbackGain.1 (hreads s.playbackGain (by simp))
  have hquality : ChoiceOf qualityNames (printString s.quality.name) s.quality :=
    .name (textOf_printString _) (by cases s.quality <;> rfl)
  have hmethod : ChoiceOf vadMethodNames (printString s.vadMethod.name) s.vadMethod :=
    .name (textOf_printString _) (by cases s.vadMethod <;> rfl)
  have hsignal : ChoiceOf signalHintNames (printString s.signal.name) s.signal :=
    .name (textOf_printString _) (by cases s.signal <;> rfl)
  rw [written, hthreshold, hprobability, hcapture, hplayback]
  refine .plain (sets_of rfl (textOf_printString _) _) ?_
  refine .plain (sets_of rfl (textOf_printString _) _) ?_
  refine .plain (sets_of rfl hquality _) ?_
  refine .plain (sets_of rfl hmethod _) ?_
  refine .cons hgap₁ (sets_of rfl hset₁ _) ?_
  refine .cons hgap₂ (sets_of rfl hset₂ _) ?_
  refine .cons hgap₃ (sets_of rfl hset₃ _) ?_
  refine .cons hgap₄ (sets_of rfl hset₄ _) ?_
  refine .plain (sets_of rfl (booleanOf_printBoolean _) _) ?_
  refine .plain (sets_of rfl (booleanOf_printBoolean _) _) ?_
  refine .plain (sets_of rfl hsignal _) ?_
  refine .plain (sets_of rfl (wordOf_toDigits UInt16.toNat _) _) ?_
  refine .plain (sets_of rfl (wordOf_toDigits UInt32.toNat _) _) ?_
  refine .plain (sets_of rfl (wordOf_toDigits UInt32.toNat _) _) ?_
  refine .plain (sets_of rfl (wordOf_toDigits UInt64.toNat _) _) ?_
  refine .plain (sets_of rfl (wordOf_toDigits UInt64.toNat _) _) ?_
  exact .nil

theorem raised_of_le {α : Type} [LE α] [DecidableLE α] [Std.IsLinearOrder α] {a b : α} (h : b ≤ a) :
    (if a ≤ b then b else a) = a := by
  split
  · exact Std.le_antisymm h ‹_›
  · rfl

/-- Settings stay as they are if each of their values does. -/
theorem sanitized_of_fixed {s : Settings}
    (hthreshold : Sample.limit Sample.zero Sample.one s.vadThreshold = s.vadThreshold)
    (hprobability : Sample.limit Sample.zero Sample.one s.speechProbability = s.speechProbability)
    (hcapture : Sample.limit Sample.zero maxGain s.captureGain = s.captureGain)
    (hplayback : Sample.limit Sample.zero maxGain s.playbackGain = s.playbackGain)
    (hchannels : s.encoderChannels = 1 ∨ s.encoderChannels = 2)
    (hjitter : s.jitterDesired ≤ s.jitterMax) (hworkers : 1 ≤ s.maxDecodeWorkers)
    (hqueue : 1 ≤ s.decodeQueueCapacity) : s.sanitized = s := by
  have hkept : min (max s.encoderChannels 1) 2 = s.encoderChannels := by
    rcases hchannels with hc | hc <;> rw [hc] <;> rfl
  have hmost : max s.jitterMax s.jitterDesired = s.jitterMax := raised_of_le hjitter
  have hcap : max s.maxDecodeWorkers 1 = s.maxDecodeWorkers := raised_of_le hworkers
  have hroom : max s.decodeQueueCapacity 1 = s.decodeQueueCapacity := raised_of_le hqueue
  rw [sanitized, hthreshold, hprobability, hcapture, hplayback, hkept, hmost, hcap, hroom]

theorem sanitized_of_inRange {s : Settings} (h : InRange s) : s.sanitized = s :=
  sanitized_of_fixed (limit_of_mem h.vadThreshold.2.1 h.vadThreshold.2.2)
    (limit_of_mem h.speechProbability.2.1 h.speechProbability.2.2)
    (limit_of_mem h.captureGain.2.1 h.captureGain.2.2)
    (limit_of_mem h.playbackGain.2.1 h.playbackGain.2.2) h.encoderChannels h.jitterMax
    h.maxDecodeWorkers h.decodeQueueCapacity

theorem sanitized_sanitized (s : Settings) : s.sanitized.sanitized = s.sanitized := by
  have h := repaired_sanitized s
  exact sanitized_of_fixed (limit_limit bounds_one _) (limit_limit bounds_one _)
    (limit_limit bounds_maxGain _) (limit_limit bounds_maxGain _) h.encoderChannels h.jitterMax
    h.maxDecodeWorkers h.decodeQueueCapacity

/-- Settings whose thresholds and gains are numbers come back from their file as they went into it,
in their ranges. -/
theorem load_save_sanitized {s : Settings} (hproper : Proper s)
    (hreads : ∀ x ∈ [s.sanitized.vadThreshold, s.sanitized.speechProbability,
      s.sanitized.captureGain, s.sanitized.playbackGain], ReadsBack x) :
    load (some s.sanitized.save) = s.sanitized := by
  have hrange := inRange_sanitized hproper
  have hencodes : Encodes s.sanitized.save s.sanitized :=
    ⟨_, rfl, holds_toJson (assigns_written hrange hreads)⟩
  rcases load_cases s.sanitized.save with ⟨written, hunique, hload⟩ | ⟨hnone, -⟩
  · obtain rfl := (hunique _).mp hencodes
    rw [hload, sanitized_of_inRange hrange]
  · exact absurd hencodes (hnone _)

/-- A device with a name that needs escapes, a gain past its range and an infinite one. -/
def unruly : Settings where
  inputDevice := "Mic \"A\"\n"
  quality := .low
  vadMethod := .rnnoise
  captureGain := Float32.ofBits 0x40f00000
  playbackGain := Float32.ofBits 0x7f800000
  encoderChannels := 7
  jitterMax := 20
  maxDecodeWorkers := 0

theorem load_save_unruly : load (some unruly.sanitized.save) = unruly.sanitized :=
  load_save_sanitized (by constructor <;> decide +kernel) (by decide +kernel)

end VoiceCall.Proofs.Settings.Saving
