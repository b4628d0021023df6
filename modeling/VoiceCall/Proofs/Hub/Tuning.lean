import VoiceCall.Proofs.Audio.Peaks
import VoiceCall.Proofs.Hub.Events
import VoiceCall.Proofs.Settings.Saving

namespace VoiceCall.Proofs.Hub.Tuning

open VoiceCall.Settings
open VoiceCall.Proofs.Audio.Limits
open VoiceCall.Proofs.Audio.Peaks
open VoiceCall.Proofs.Hub.Events
open VoiceCall.Proofs.Hub.History
open VoiceCall.Proofs.Settings.Loading
open VoiceCall.Proofs.Settings.Saving

/-- Whatever the microphone side, the playback, the buffers of new speakers and the pool of a hub
read is in its range. -/
structure Tuned (h : Hub) : Prop where
  vadThreshold : Within Sample.one h.microphone.vadThreshold
  speechProbability : Within Sample.one h.microphone.speechProbability
  captureGain : Within maxGain h.microphone.gain
  masterGain : Within maxGain h.playback.masterGain
  encoderChannels : h.microphone.encoderChannels = 1 ∨ h.microphone.encoderChannels = 2
  jitterMax : h.settings.jitterDesired ≤ h.settings.jitterMax
  maxWorkers : 1 ≤ h.pool.maxWorkers
  capacity : 1 ≤ h.pool.capacity

/-- The thresholds and the gain of the microphone side are numbers, maybe infinite ones. -/
structure Numeric (s : Settings) : Prop where
  vadThreshold : s.vadThreshold.isNaN = false
  speechProbability : s.speechProbability.isNaN = false
  captureGain : s.captureGain.isNaN = false

/-- The settings that were given last. -/
def latest (first : Settings) : List Call → Settings
  | [] => first
  | .control (.updateSettings s) :: _ => s
  | _ :: earlier => latest first earlier

/-- The master gain that was given last, alone or among settings. -/
def latestGain (first : Settings) : List Call → Sample
  | [] => first.sanitized.playbackGain
  | .control (.updateSettings s) :: _ => s.sanitized.playbackGain
  | .control (.setMasterGain gain) :: _ => gain
  | _ :: earlier => latestGain first earlier

structure Setup where
  settings : Settings
  vadThreshold : Sample
  speechProbability : Sample
  captureGain : Sample
  masterGain : Sample
  encoderChannels : UInt16

def setup (h : Hub) : Setup :=
  ⟨h.settings, h.microphone.vadThreshold, h.microphone.speechProbability, h.microphone.gain,
    h.playback.masterGain, h.microphone.encoderChannels⟩

/-- What some settings set, under a master gain. -/
def Setup.of (s : Settings) (gain : Sample) : Setup :=
  ⟨s, s.vadThreshold, s.speechProbability, s.captureGain, Sample.gain gain, s.encoderChannels⟩

/-- What a call makes of what a hub is set to. -/
def adjust : Call → Setup → Setup
  | .control (.updateSettings s), _ => .of s.sanitized s.sanitized.playbackGain
  | .control (.setMasterGain gain), x => { x with masterGain := Sample.gain gain }
  | _, x => x

theorem setup_addSpeaker (dsp : Dsp) (h : Hub) (ssrc : UInt32) (user : Option String) :
    setup (h.addSpeaker dsp ssrc user).1 = setup h := by
  rw [Hub.addSpeaker]
  dsimp only
  split
  · rfl
  · split <;> rfl

theorem setup_removeSpeaker (dsp : Dsp) (h : Hub) (ssrc : UInt32) :
    setup (h.removeSpeaker dsp ssrc).1 = setup h := by
  rw [Hub.removeSpeaker]
  split <;> rfl

theorem setup_removeUser (dsp : Dsp) (h : Hub) (user : String) :
    setup (h.removeUser dsp user).1 = setup h := by
  rw [Hub.removeUser]
  split <;> rfl

theorem setup_admitUnknown (dsp : Dsp) (h : Hub) (ssrc : UInt32) :
    setup (h.admitUnknown dsp ssrc).1 = setup h := by
  rw [Hub.admitUnknown]
  split
  · rfl
  · exact setup_addSpeaker dsp h ssrc none

theorem setup_handlePacket (h : Hub) (header : Packet.Header) (payload : Octets) (now : Nat) :
    setup (h.handlePacket header payload now).1 = setup h := by
  rw [Hub.handlePacket]
  split
  · rfl
  · rfl
  · rw [Hub.deliver]
    split <;> rfl

theorem setup_capture (dsp : Dsp) (h : Hub) (pipeline : Microphone.Pipeline) (pcm : List Sample) :
    setup (h.capture dsp pipeline pcm).1 = setup h := by
  simp only [Hub.capture, Microphone.Pipeline.process]
  repeat' split
  all_goals rfl

theorem setup_shutdown (dsp : Dsp) (h : Hub) : setup (h.shutdown dsp) = setup h := by
  have hremoved (speakers : List Speaker) (h : Hub) :
      setup (speakers.foldl (fun h s => (h.removeSpeaker dsp s.ssrc).1) h) = setup h := by
    induction speakers generalizing h with
    | nil => rfl
    | cons s speakers ih => exact (ih _).trans (setup_removeSpeaker dsp h s.ssrc)
  exact hremoved h.roster.speakers h

/-- Nothing but settings and a master gain changes what a hub is set to. -/
theorem setup_apply (dsp : Dsp) (h : Hub) (call : Call) :
    setup (call.apply dsp h) = adjust call (setup h) := by
  cases call with
  | addSpeaker ssrc user => exact setup_addSpeaker dsp h ssrc user
  | removeSpeaker ssrc => exact setup_removeSpeaker dsp h ssrc
  | removeUser user => exact setup_removeUser dsp h user
  | admitUnknown ssrc => exact setup_admitUnknown dsp h ssrc
  | packet header payload now => exact setup_handlePacket h header payload now
  | decode place =>
      rw [Call.apply, Hub.decode]
      split <;> rfl
  | setLocalSsrc ssrc => rfl
  | mix mixer length now => rfl
  | capture pipeline pcm => exact setup_capture dsp h pipeline pcm
  | shutdown => exact setup_shutdown dsp h
  | control change =>
      cases change with
      | removeSpeaker ssrc => exact setup_removeSpeaker dsp h ssrc
      | _ => rfl

theorem setup_after (dsp : Dsp) (first : Settings) (calls : List Call) :
    setup (after dsp first calls) =
      .of (latest first calls).sanitized (latestGain first calls) := by
  induction calls with
  | nil => rfl
  | cons call earlier ih =>
      rw [after, setup_apply, ih]
      cases call with
      | control change => cases change <;> rfl
      | _ => rfl

/-- A gain that is stored is in its range unless it is above the largest one. -/
theorem within_gain_iff (gain : Sample) :
    Within maxGain (Sample.gain gain) ↔ ¬ maxGain < gain := by
  obtain ⟨hzero, hmaxGain⟩ := isNaN_of_le bounds_maxGain
  rw [Sample.gain]
  split
  · rename_i hpositive
    have hgain := (isNaN_of_lt hpositive).2
    have hleast : Sample.zero ≤ gain := le_of_lt_of_le hpositive (le_refl hgain)
    rw [not_lt_iff hmaxGain hgain]
    constructor
    · exact fun hwithin => hwithin.2.2
    · intro hmost
      exact ⟨isFinite_of_le (by decide +kernel) (by decide +kernel) hleast hmost, hleast, hmost⟩
  · rename_i hother
    refine iff_of_true ⟨by decide +kernel, le_refl hzero, bounds_maxGain⟩ fun habove => ?_
    exact hother (lt_of_le_of_lt bounds_maxGain habove)

/-- At every point of a history, the settings and the master gain that were given last decide. -/
theorem tuned_after_iff (dsp : Dsp) (first : Settings) (calls : List Call) :
    Tuned (after dsp first calls) ↔
      Numeric (latest first calls) ∧ ¬ maxGain < latestGain first calls := by
  have hstaffed := staffed_after dsp first calls
  have hrepaired := repaired_sanitized (latest first calls)
  obtain ⟨hsettings, hthreshold, hprobability, hcapture, hmaster, hchannels⟩ :=
    Setup.mk.inj (setup_after dsp first calls)
  constructor
  · intro htuned
    refine ⟨⟨?_, ?_, ?_⟩, ?_⟩
    · exact hrepaired.vadThreshold.mp (hthreshold ▸ htuned.vadThreshold)
    · exact hrepaired.speechProbability.mp (hprobability ▸ htuned.speechProbability)
    · exact hrepaired.captureGain.mp (hcapture ▸ htuned.captureGain)
    · exact (within_gain_iff _).mp (hmaster ▸ htuned.masterGain)
  · rintro ⟨hnumeric, hgain⟩
    exact {
      vadThreshold := hthreshold ▸ hrepaired.vadThreshold.mpr hnumeric.vadThreshold
      speechProbability :=
        hprobability ▸ hrepaired.speechProbability.mpr hnumeric.speechProbability
      captureGain := hcapture ▸ hrepaired.captureGain.mpr hnumeric.captureGain
      masterGain := hmaster ▸ (within_gain_iff _).mpr hgain
      encoderChannels := hchannels ▸ hrepaired.encoderChannels
      jitterMax := hsettings ▸ hrepaired.jitterMax
      maxWorkers := by
        have hlimits : (after dsp first calls).pool.maxWorkers = _ :=
          (congrArg Prod.fst hstaffed.limits).trans (maxWorkers_create first)
        exact hlimits ▸ one_le_maxDecodeWorkers first
      capacity := hstaffed.rests.sound.room }

/-- Settings are brought into their ranges, once and for all, apart from thresholds and gains that
are no numbers. A hub that is created with them, or takes them over after whatever history, is set
within its ranges unless one of those that the microphone side reads is no number. -/
theorem tuned_iff (dsp : Dsp) (s : Settings) :
    Repaired s s.sanitized ∧ (InRange s.sanitized ↔ Proper s) ∧ (InRange s → s.sanitized = s) ∧
      s.sanitized.sanitized = s.sanitized ∧ (Tuned (.create s) ↔ Numeric s) ∧
      ∀ first calls, Tuned ((after dsp first calls).updateSettings s) ↔ Numeric s := by
  have hgain : ¬ maxGain < s.sanitized.playbackGain := not_lt_limit bounds_maxGain s.playbackGain
  refine ⟨repaired_sanitized s, (repaired_sanitized s).inRange_iff, sanitized_of_inRange,
    sanitized_sanitized s, ?_, fun first calls => ?_⟩
  · exact (tuned_after_iff dsp s []).trans (and_iff_left hgain)
  · exact (tuned_after_iff dsp first (.control (.updateSettings s) :: calls)).trans
      (and_iff_left hgain)

/-- A threshold that is no number. -/
def undefinedThreshold : Settings where
  vadThreshold := Float32.ofBits 0x7fc00000

theorem tuned_iff_replaced : Tuned ((Hub.create undefinedThreshold).updateSettings unruly) := by
  obtain ⟨-, -, -, -, -, htuned⟩ := tuned_iff .quiet unruly
  refine (htuned undefinedThreshold []).mpr ?_
  constructor <;> decide +kernel

/-- No limit holds what is no number, and the microphone side is given it. -/
theorem not_tuned_undefined :
    ¬ InRange undefinedThreshold.sanitized ∧ ¬ Tuned (.create undefinedThreshold) := by
  have hundefined : ¬ undefinedThreshold.vadThreshold.isNaN = false := by decide +kernel
  constructor
  · intro hrange
    exact hundefined ((repaired_sanitized _).inRange_iff.mp hrange).vadThreshold
  · intro htuned
    exact hundefined ((tuned_after_iff .quiet undefinedThreshold []).mp htuned).1.vadThreshold

end VoiceCall.Proofs.Hub.Tuning
