import VoiceCall.Proofs.Audio.Limits
import VoiceCall.Proofs.Json.Magnitudes
import VoiceCall.Proofs.Settings.Content

namespace VoiceCall.Proofs.Settings.Loading

open VoiceCall.Json
open VoiceCall.Settings
open VoiceCall.Proofs.Audio.Limits
open VoiceCall.Proofs.Json.Kinds
open VoiceCall.Proofs.Json.Magnitudes
open VoiceCall.Proofs.Settings.Content

/-- A finite sample between zero and a bound. -/
def Within (high x : Sample) : Prop :=
  x.isFinite ∧ Sample.zero ≤ x ∧ x ≤ high

instance (high x : Sample) : Decidable (Within high x) :=
  inferInstanceAs (Decidable (_ ∧ _ ∧ _))

/-- The ranges that a call can run with. -/
structure InRange (s : Settings) : Prop where
  vadThreshold : Within Sample.one s.vadThreshold
  speechProbability : Within Sample.one s.speechProbability
  captureGain : Within maxGain s.captureGain
  playbackGain : Within maxGain s.playbackGain
  encoderChannels : s.encoderChannels = 1 ∨ s.encoderChannels = 2
  jitterMax : s.jitterDesired ≤ s.jitterMax
  maxDecodeWorkers : 1 ≤ s.maxDecodeWorkers
  decodeQueueCapacity : 1 ≤ s.decodeQueueCapacity

/-- Every threshold and every gain is a number, maybe an infinite one. -/
structure Proper (s : Settings) : Prop where
  vadThreshold : s.vadThreshold.isNaN = false
  speechProbability : s.speechProbability.isNaN = false
  captureGain : s.captureGain.isNaN = false
  playbackGain : s.playbackGain.isNaN = false

/-- What is made of some settings has every value in its range, apart from the thresholds and gains
that were no numbers. -/
structure Repaired (s t : Settings) : Prop where
  vadThreshold : Within Sample.one t.vadThreshold ↔ s.vadThreshold.isNaN = false
  speechProbability : Within Sample.one t.speechProbability ↔ s.speechProbability.isNaN = false
  captureGain : Within maxGain t.captureGain ↔ s.captureGain.isNaN = false
  playbackGain : Within maxGain t.playbackGain ↔ s.playbackGain.isNaN = false
  encoderChannels : t.encoderChannels = 1 ∨ t.encoderChannels = 2
  jitterMax : t.jitterDesired ≤ t.jitterMax
  maxDecodeWorkers : 1 ≤ t.maxDecodeWorkers
  decodeQueueCapacity : 1 ≤ t.decodeQueueCapacity

theorem bounds_one : Sample.zero ≤ Sample.one := by
  decide +kernel

theorem bounds_maxGain : Sample.zero ≤ maxGain := by
  decide +kernel

theorem within_limit_iff {high x : Sample} (hhigh : high.isFinite) (hbounds : Sample.zero ≤ high) :
    Within high (Sample.limit Sample.zero high x) ↔ x.isNaN = false := by
  constructor
  · intro hwithin
    by_contra hx
    rw [limit_of_isNaN hx] at hwithin
    exact hx (isNaN_of_le hwithin.2.1).2
  · intro hx
    have hzero : Sample.zero.isFinite := by decide +kernel
    have hmem := limit_mem hbounds hx
    exact ⟨isFinite_of_le hzero hhigh hmem.1 hmem.2, hmem⟩

theorem le_raised {α : Type} [LE α] [DecidableLE α] [Std.IsLinearOrder α] (a b : α) :
    b ≤ if a ≤ b then b else a := by
  split
  · exact Std.le_refl b
  · exact Std.le_of_not_ge ‹_›

theorem one_or_two (w : UInt16) : min (max w 1) 2 = 1 ∨ min (max w 1) 2 = 2 := by
  change (if (if w ≤ 1 then 1 else w) ≤ 2 then (if w ≤ 1 then 1 else w) else 2) = (1 : UInt16) ∨
    (if (if w ≤ 1 then 1 else w) ≤ 2 then (if w ≤ 1 then 1 else w) else 2) = (2 : UInt16)
  grind

theorem repaired_sanitized (s : Settings) : Repaired s s.sanitized where
  vadThreshold := within_limit_iff (by decide +kernel) bounds_one
  speechProbability := within_limit_iff (by decide +kernel) bounds_one
  captureGain := within_limit_iff (by decide +kernel) bounds_maxGain
  playbackGain := within_limit_iff (by decide +kernel) bounds_maxGain
  encoderChannels := one_or_two s.encoderChannels
  jitterMax := le_raised s.jitterMax s.jitterDesired
  maxDecodeWorkers := le_raised s.maxDecodeWorkers 1
  decodeQueueCapacity := le_raised s.decodeQueueCapacity 1

theorem Repaired.inRange_iff {s t : Settings} (h : Repaired s t) : InRange t ↔ Proper s := by
  constructor
  · intro hrange
    exact ⟨h.vadThreshold.mp hrange.vadThreshold, h.speechProbability.mp hrange.speechProbability,
      h.captureGain.mp hrange.captureGain, h.playbackGain.mp hrange.playbackGain⟩
  · intro hproper
    exact {
      vadThreshold := h.vadThreshold.mpr hproper.vadThreshold
      speechProbability := h.speechProbability.mpr hproper.speechProbability
      captureGain := h.captureGain.mpr hproper.captureGain
      playbackGain := h.playbackGain.mpr hproper.playbackGain
      encoderChannels := h.encoderChannels
      jitterMax := h.jitterMax
      maxDecodeWorkers := h.maxDecodeWorkers
      decodeQueueCapacity := h.decodeQueueCapacity }

theorem inRange_sanitized {s : Settings} (h : Proper s) : InRange s.sanitized :=
  (repaired_sanitized s).inRange_iff.mpr h

theorem inRange_default : InRange {} := by
  constructor <;> decide +kernel

theorem isNaN_of_singleOf {spelled : List Char} {x : Float32} (h : SingleOf spelled x) :
    x.isNaN = false := by
  obtain ⟨n, number, -, hvalue, rfl⟩ := h
  exact isNaN_toSingle hvalue

theorem proper_of_sets {name : String} {spelled : List Char} {s t : Settings}
    (h : Sets name spelled s t) (hs : Proper s) : Proper t := by
  obtain ⟨puts, hlookup, hputs⟩ := h
  obtain ⟨before, behind, htable, -⟩ := List.lookup_eq_some_iff.mp hlookup
  have hmem : (name, puts) ∈ table := by simp [htable]
  obtain ⟨hthreshold, hprobability, hcapture, hplayback⟩ := hs
  simp only [table, List.mem_cons, List.not_mem_nil, or_false, Prod.mk.injEq] at hmem
  rcases hmem with ⟨-, rfl⟩ | ⟨-, rfl⟩ | ⟨-, rfl⟩ | ⟨-, rfl⟩ | ⟨-, rfl⟩ | ⟨-, rfl⟩ | ⟨-, rfl⟩ |
    ⟨-, rfl⟩ | ⟨-, rfl⟩ | ⟨-, rfl⟩ | ⟨-, rfl⟩ | ⟨-, rfl⟩ | ⟨-, rfl⟩ | ⟨-, rfl⟩ | ⟨-, rfl⟩ |
    ⟨-, rfl⟩
  all_goals obtain ⟨v, hv, rfl⟩ := hputs
  all_goals
    first
    | exact ⟨hthreshold, hprobability, hcapture, hplayback⟩
    | exact ⟨isNaN_of_singleOf hv, hprobability, hcapture, hplayback⟩
    | exact ⟨hthreshold, isNaN_of_singleOf hv, hcapture, hplayback⟩
    | exact ⟨hthreshold, hprobability, isNaN_of_singleOf hv, hplayback⟩
    | exact ⟨hthreshold, hprobability, hcapture, isNaN_of_singleOf hv⟩

/-- Every numeral that is read is a number, however large. -/
theorem proper_of_encodes {content : Octets} {s : Settings} (h : Encodes content s) : Proper s := by
  obtain ⟨text, -, gap, spelled, behind, -, -, -, hrecord⟩ := h
  have hkept : ∀ name spelled s t, Sets name spelled s t → Proper s → Proper t :=
    fun _ _ _ _ => proper_of_sets
  have hdefault : Proper {} := by
    constructor <;> decide +kernel
  exact hrecord.invariant hkept hdefault

/-- A call can run with whatever is loaded. A file that holds settings is loaded as these in their
ranges, any other as the defaults. -/
theorem inRange_load (content : Octets) :
    InRange (load (some content)) ∧
      ((∃ written, (∀ s, Encodes content s ↔ s = written) ∧
          load (some content) = written.sanitized) ∨
        (∀ s, ¬ Encodes content s) ∧ load (some content) = {}) := by
  refine ⟨?_, load_cases content⟩
  rcases load_cases content with ⟨written, hunique, hload⟩ | ⟨-, hload⟩
  · rw [hload]
    exact inRange_sanitized (proper_of_encodes ((hunique written).mpr rfl))
  · rw [hload]
    exact inRange_default

/-- A gain past the range of singles is infinite as it is read, and the largest one as it is
loaded. -/
example :
    (load (some "\x7b\"capture_gain\": 1e39\x7d".toUTF8.data.toList)).captureGain = maxGain := by
  decide +kernel

end VoiceCall.Proofs.Settings.Loading
