import VoiceCall.Microphone.Pipeline
import VoiceCall.Proofs.Audio.Peaks
import VoiceCall.Proofs.Json.Tokens
import VoiceCall.Session.Media

namespace VoiceCall.Proofs.Microphone.Accounting

open VoiceCall.Microphone
open VoiceCall.Opus
open VoiceCall.Proofs.Audio.Peaks (peakLevel_replicate)
open VoiceCall.Proofs.Json.Tokens (exists_of_map_eq_ok)

/-- What is said of a period: of a frame that was sent only its length. -/
inductive Report where
  | sent (length : Nat)
  | suppressed
  | skipped
  | encodeFailed
deriving DecidableEq

namespace Report

def ofOutcome : Outcome → Report
  | .sent frame => sent frame.length
  | .suppressed => suppressed
  | .skipped => skipped
  | .encodeFailed => encodeFailed

def length? : Report → Option Nat
  | sent length => some length
  | _ => none

end Report

inductive Event where
  | period (input : List Sample)
  /-- A period that comes while another one is being processed. -/
  | contended (input : List Sample)
  | settings (s : Settings)
  | transmitting (on : Bool)
  | gain (gain : Sample)
  | vadMethod (method : VadMethod)
  | bitrate (bitrate : Int)

/-- A pipeline at work, the sink of its frames and what was said of the periods. -/
structure Capture (σ : Type) where
  pipeline : Pipeline
  controls : Controls
  sink : σ
  reports : List Report

namespace Capture

variable {σ : Type} (dsp : Dsp) (put : σ → Octets → σ)

def conclude (t : Capture σ) (outcome : Outcome) : Capture σ :=
  let sink :=
    match outcome with
    | .sent frame => put t.sink frame
    | _ => t.sink
  { t with sink := sink, reports := t.reports ++ [.ofOutcome outcome] }

def step (t : Capture σ) : Event → Capture σ
  | .period input =>
    let (pipeline, controls, outcome) := t.pipeline.process dsp t.controls input
    conclude put { t with pipeline := pipeline, controls := controls } outcome
  | .contended input =>
    let (controls, outcome) := Pipeline.pass t.controls input
    conclude put { t with controls := controls } outcome
  | .settings s => { t with controls := t.controls.apply s }
  | .transmitting on => { t with controls := { t.controls with transmitting := on } }
  | .gain gain => { t with controls := t.controls.setGain gain }
  | .vadMethod method => { t with controls := { t.controls with vadMethod := method } }
  | .bitrate bitrate => { t with controls := { t.controls with bitrate := bitrate } }

def run (t : Capture σ) (events : List Event) : Capture σ :=
  events.foldl (step dsp put) t

end Capture

/-- The bit rates that encoders refuse: those that are not positive and stand for nothing else. -/
def Refused (bitrate : Int) : Prop :=
  bitrate ≤ 0 ∧ bitrate ≠ -1000 ∧ bitrate ≠ -1

instance : DecidablePred Refused :=
  fun _ => inferInstanceAs (Decidable (_ ∧ _ ∧ _))

/-- Encoders can be had for one channel and for two, take every bit rate but the refused ones, and
encode every frame of a legal length. -/
structure Encodes (dsp : Dsp) : Prop where
  built : ∀ {channels : UInt16} (signal : SignalHint), channels = 1 ∨ channels = 2 →
    dsp.encoderFault channels signal = none
  refused : ∀ bitrate, dsp.bitrateFault bitrate = none ↔ ¬ Refused bitrate
  encoded : ∀ tuning taken pcm, pcm.length % tuning.channels.toNat = 0 →
    Encoder.frameLengths.contains (pcm.length / tuning.channels.toNat) →
      ∃ frame, dsp.compress tuning taken pcm = .ok frame

/-- The tuning that the controls ask for. -/
def wanted (c : Controls) : Tuning where
  channels := if c.encoderChannels = 1 then 1 else 2
  bitrate := c.bitrate
  signal := c.signal

/-- A whole period that is to be sent and is worth it. -/
structure Passes (dsp : Dsp) (p : Pipeline) (c : Controls) (input : List Sample) : Prop where
  transmitting : c.transmitting
  length : input.length = Audio.periodLength
  active : (Pipeline.detect dsp c p.denoiser (Pipeline.prepare c input)).2.1

/-- A tuning that encoders can be built with. -/
structure Usable (tuning : Tuning) : Prop where
  bitrate : ¬ Refused tuning.bitrate
  channels : tuning.channels = 1 ∨ tuning.channels = 2

variable {dsp : Dsp}

theorem isBitrate_iff {bitrate : Int} : Dsp.isBitrate bitrate ↔ ¬ Refused bitrate := by
  simp only [Dsp.isBitrate, Bool.or_eq_true, decide_eq_true_eq, Refused]
  omega

theorem encodes_quiet : Encodes .quiet where
  built _ _ := rfl
  refused bitrate := by
    rw [← isBitrate_iff, Dsp.quiet]
    dsimp only
    split <;> simp_all
  encoded _ _ _ _ _ := ⟨_, rfl⟩

theorem usable_wanted {c : Controls} (h : ¬ Refused c.bitrate) : Usable (wanted c) := by
  refine ⟨h, ?_⟩
  unfold wanted
  dsimp only
  split
  · exact .inl rfl
  · exact .inr rfl

theorem channelsOf_eq (channels : UInt16) :
    Encoder.channelsOf channels = 1 ∨ Encoder.channelsOf channels = 2 := by
  unfold Encoder.channelsOf
  split
  · exact .inl rfl
  · exact .inr rfl

theorem exists_bitrateFault (hopus : Encodes dsp) {bitrate : Int} (h : Refused bitrate) :
    ∃ detail, dsp.bitrateFault bitrate = some detail :=
  Option.ne_none_iff_exists'.mp fun hnone => (hopus.refused bitrate).mp hnone h

theorem build_of_usable (hopus : Encodes dsp) {tuning : Tuning} (h : Usable tuning) :
    Encoder.build dsp tuning = .ok ⟨tuning, []⟩ := by
  rw [Encoder.build, hopus.built tuning.signal h.channels]
  dsimp only
  rw [(hopus.refused tuning.bitrate).mpr h.bitrate]

theorem setBitrate_of_refused (hopus : Encodes dsp) {e : Encoder} (h : Usable e.tuning)
    {bitrate : Int} (hrefused : Refused bitrate) :
    ∃ fault, e.setBitrate dsp bitrate = .error fault := by
  have hchange : bitrate ≠ e.tuning.bitrate := by
    rintro rfl
    exact h.bitrate hrefused
  obtain ⟨detail, hfault⟩ := exists_bitrateFault hopus hrefused
  rw [Encoder.setBitrate, if_neg hchange, hfault]
  exact ⟨_, rfl⟩

theorem tuning_setBitrate (hopus : Encodes dsp) {e : Encoder} {bitrate : Int}
    (h : ¬ Refused bitrate) :
    ∃ e', e.setBitrate dsp bitrate = .ok e' ∧
      e'.tuning = { e.tuning with bitrate := bitrate } := by
  unfold Encoder.setBitrate
  split
  · rename_i hsame
    exact ⟨e, rfl, by rw [hsame]⟩
  · rw [(hopus.refused bitrate).mpr h]
    exact ⟨_, rfl, rfl⟩

theorem tuning_setChannels (hopus : Encodes dsp) {e : Encoder} (h : Usable e.tuning)
    (channels : UInt16) :
    ∃ e', e.setChannels dsp channels = .ok e' ∧
      e'.tuning = { e.tuning with channels := Encoder.channelsOf channels } := by
  unfold Encoder.setChannels
  split
  · rename_i hsame
    exact ⟨e, rfl, by rw [hsame]⟩
  · exact ⟨_, build_of_usable hopus ⟨h.bitrate, channelsOf_eq channels⟩, rfl⟩

theorem tuning_setSignal (hopus : Encodes dsp) {e : Encoder} (h : Usable e.tuning)
    (signal : SignalHint) :
    ∃ e', e.setSignal dsp signal = .ok e' ∧ e'.tuning = { e.tuning with signal := signal } := by
  unfold Encoder.setSignal
  split
  · rename_i hsame
    exact ⟨e, rfl, by rw [hsame]⟩
  · exact ⟨_, build_of_usable hopus ⟨h.bitrate, h.channels⟩, rfl⟩

/-- An encoder that is in use follows the controls, unless they ask for a bit rate that is refused:
then it stays as it is. -/
theorem retune_cases (hopus : Encodes dsp) {e : Encoder} (h : Usable e.tuning) (c : Controls) :
    (Refused c.bitrate ∧ ∃ fault, Pipeline.retune dsp e c = .error fault) ∨
      (¬ Refused c.bitrate ∧ ∃ e', Pipeline.retune dsp e c = .ok e' ∧ e'.tuning = wanted c) := by
  by_cases hrefused : Refused c.bitrate
  · obtain ⟨fault, hfault⟩ := setBitrate_of_refused hopus h hrefused
    refine .inl ⟨hrefused, fault, ?_⟩
    rw [Pipeline.retune, hfault]
    rfl
  · obtain ⟨rated, hrated, hbitrate⟩ := tuning_setBitrate hopus (e := e) hrefused
    have husable : Usable rated.tuning := by
      rw [hbitrate]
      exact ⟨hrefused, h.channels⟩
    obtain ⟨spread, hspread, hchannels⟩ := tuning_setChannels hopus husable c.encoderChannels
    have husable : Usable spread.tuning := by
      rw [hchannels]
      exact ⟨husable.bitrate, (usable_wanted (c := c) hrefused).channels⟩
    obtain ⟨e', htuned, hsignal⟩ := tuning_setSignal hopus husable c.signal
    refine .inr ⟨hrefused, e', ?_, by rw [hsignal, hchannels, hbitrate]; rfl⟩
    simp only [Pipeline.retune, bind, Except.bind, hrated, hspread, htuned]

theorem length_downmix (pcm : List Sample) : (downmix pcm).length = pcm.length := by
  fun_induction downmix pcm with
  | case1 left right rest mean ih => simp [ih]
  | case2 rest => rfl

theorem length_amplify (gain : Sample) (pcm : List Sample) :
    (amplify gain pcm).length = pcm.length := by
  unfold amplify
  split
  · rfl
  · exact List.length_map _

theorem length_prepare (c : Controls) (input : List Sample) :
    (Pipeline.prepare c input).length = input.length := by
  rw [Pipeline.prepare, length_amplify]
  split
  · exact length_downmix input
  · rfl

theorem length_toMono (pcm : List Sample) : (toMono pcm).length = pcm.length / 2 := by
  fun_induction toMono pcm with
  | case1 left right rest ih => simp only [List.length_cons, ih]; omega
  | case2 pcm hshort =>
      match pcm with
      | [] => rfl
      | [_] => simp
      | left :: right :: rest => exact absurd rfl (hshort left right rest)

theorem length_interleave (left right : List Sample) :
    (Denoiser.interleave left right).length = min left.length right.length * 2 := by
  simp [Denoiser.interleave, List.length_flatMap, List.map_const']

theorem length_detect (dsp : Dsp) (c : Controls) (d : Denoiser) {pcm : List Sample}
    (h : pcm.length = Audio.periodLength) :
    (Pipeline.detect dsp c d pcm).2.2.length = Audio.periodLength := by
  unfold Pipeline.detect
  split
  · exact h
  · unfold Denoiser.process
    rw [if_pos h]
    dsimp only
    split
    · simp [length_interleave, Denoiser.unscaled, Audio.periodFrames, Audio.periodLength]
    · exact h

theorem encode_of_usable (hopus : Encodes dsp) {e : Encoder} (h : Usable e.tuning)
    {pcm : List Sample} (hlength : pcm.length = Audio.periodLength) :
    ∃ frame e', Pipeline.encode dsp e pcm = .ok (frame, e') ∧ e'.tuning = e.tuning := by
  have hlegal :
      let work := if e.tuning.channels = 1 then toMono pcm else pcm
      work.length % e.tuning.channels.toNat = 0 ∧
        Encoder.frameLengths.contains (work.length / e.tuning.channels.toNat) := by
    rcases h.channels with hchannels | hchannels
    · simp [hchannels, length_toMono, hlength, Audio.periodLength, Encoder.frameLengths]
    · simp [hchannels, hlength, Audio.periodLength, Encoder.frameLengths]
  obtain ⟨frame, hframe⟩ := hopus.encoded e.tuning e.taken _ hlegal.1 hlegal.2
  rw [Pipeline.encode, Encoder.encode, if_pos hlegal, hframe]
  exact ⟨frame, _, rfl, rfl⟩

/-- What becomes of a period. -/
inductive Settled (dsp : Dsp) (p : Pipeline) (c : Controls) (input : List Sample) :
    Pipeline → Controls → Outcome → Prop where
  | skipped : ¬ (c.transmitting ∧ input.length = Audio.periodLength) →
      Settled dsp p c input p { c with active := false } .skipped
  | suppressed {p' : Pipeline} {c' : Controls} : ¬ Passes dsp p c input →
      p'.encoder = p.encoder → c'.encodeErrors = c.encodeErrors →
        Settled dsp p c input p' c' .suppressed
  | encodeFailed {p' : Pipeline} {c' : Controls} : Passes dsp p c input → Refused c.bitrate →
      p'.encoder = p.encoder → c'.encodeErrors = c.encodeErrors + 1 →
        Settled dsp p c input p' c' .encodeFailed
  | sent {p' : Pipeline} {c' : Controls} (frame : Octets) : Passes dsp p c input →
      ¬ Refused c.bitrate → p'.encoder.tuning = wanted c' → wanted c' = wanted c →
        c'.encodeErrors = c.encodeErrors → Settled dsp p c input p' c' (.sent frame)

theorem settled_process (hopus : Encodes dsp) {p : Pipeline} (h : Usable p.encoder.tuning)
    (c : Controls) (input : List Sample) :
    Settled dsp p c input (p.process dsp c input).1 (p.process dsp c input).2.1
      (p.process dsp c input).2.2 := by
  unfold Pipeline.process
  split
  · rename_i haccepts
    obtain ⟨htransmitting, hlength⟩ := by simpa [Pipeline.accepts] using haccepts
    have hwork := length_detect dsp c p.denoiser ((length_prepare c input).trans hlength)
    have hpasses : Passes dsp p c input ↔
        (Pipeline.detect dsp c p.denoiser (Pipeline.prepare c input)).2.1 :=
      ⟨Passes.active, fun hactive => ⟨htransmitting, hlength, hactive⟩⟩
    dsimp only
    generalize Pipeline.detect dsp c p.denoiser (Pipeline.prepare c input) = detected
      at hwork hpasses
    obtain ⟨denoiser, active, work⟩ := detected
    split
    · rename_i hactive
      let heard := { c with level := peakLevel (Pipeline.prepare c input), active := active }
      rcases retune_cases hopus h heard with
        ⟨hrefused, fault, hretune⟩ | ⟨haccepted, e, hretune, htuning⟩
      · rw [hretune]
        exact .encodeFailed (hpasses.mpr hactive) hrefused rfl rfl
      · rw [hretune]
        have husable : Usable e.tuning := by
          rw [htuning]
          exact usable_wanted haccepted
        obtain ⟨frame, e', hencode, htuning'⟩ := encode_of_usable hopus husable hwork
        dsimp only
        rw [hencode]
        exact .sent frame (hpasses.mpr hactive) haccepted (htuning'.trans htuning) rfl rfl
    · rename_i hquiet
      exact .suppressed (hquiet ∘ hpasses.mp) rfl rfl
  · rename_i hrefused
    exact .skipped (by simpa [Pipeline.accepts] using hrefused)

section Accounts

variable {σ : Type} {dsp : Dsp} {put : σ → Octets → σ} {sink : σ} {errors : Nat} {t : Capture σ}

/-- The accounts of a capture agree: of the frames that its sink was given, starting from some sink,
and of the failures, starting from some count. -/
structure Balanced (put : σ → Octets → σ) (sink : σ) (errors : Nat) (t : Capture σ) : Prop where
  usable : Usable t.pipeline.encoder.tuning
  frames : ∃ frames : List Octets, t.sink = frames.foldl put sink ∧
    frames.map List.length = t.reports.filterMap Report.length?
  errors : t.controls.encodeErrors = errors + t.reports.count .encodeFailed

theorem Balanced.conclude (h : Balanced put sink errors t) {pipeline : Pipeline}
    {controls : Controls} {outcome : Outcome} (husable : Usable pipeline.encoder.tuning)
    (herrors : controls.encodeErrors =
      t.controls.encodeErrors + [Report.ofOutcome outcome].count .encodeFailed) :
    Balanced put sink errors
      (Capture.conclude put { t with pipeline := pipeline, controls := controls } outcome) where
  usable := husable
  frames := by
    obtain ⟨frames, hsink, hlengths⟩ := h.frames
    simp only [Capture.conclude, List.filterMap_append, ← hlengths, hsink]
    cases outcome with
    | sent frame => exact ⟨frames ++ [frame], by simp, by simp [Report.ofOutcome, Report.length?]⟩
    | suppressed => exact ⟨frames, rfl, by simp [Report.ofOutcome, Report.length?]⟩
    | skipped => exact ⟨frames, rfl, by simp [Report.ofOutcome, Report.length?]⟩
    | encodeFailed => exact ⟨frames, rfl, by simp [Report.ofOutcome, Report.length?]⟩
  errors := by
    change controls.encodeErrors = errors + (t.reports ++ [Report.ofOutcome outcome]).count _
    rw [herrors, h.errors, List.count_append, Nat.add_assoc]

theorem settled_step (hopus : Encodes dsp) (put : σ → Octets → σ)
    (h : Usable t.pipeline.encoder.tuning) (input : List Sample) :
    ∃ p c outcome, Settled dsp t.pipeline t.controls input p c outcome ∧
      t.step dsp put (.period input) =
        Capture.conclude put { t with pipeline := p, controls := c } outcome :=
  ⟨_, _, _, settled_process hopus h t.controls input, rfl⟩

theorem balanced_step (hopus : Encodes dsp) (h : Balanced put sink errors t) (event : Event) :
    Balanced put sink errors (t.step dsp put event) := by
  cases event with
  | period input =>
      obtain ⟨p, c, outcome, hsettled, hstep⟩ := settled_step hopus put h.usable input
      rw [hstep]
      cases hsettled with
      | skipped _ => exact h.conclude h.usable rfl
      | suppressed _ hencoder herrors => exact h.conclude (hencoder ▸ h.usable) herrors
      | encodeFailed _ _ hencoder herrors => exact h.conclude (hencoder ▸ h.usable) herrors
      | sent frame _ haccepted htuning hwanted herrors =>
          refine h.conclude ?_ herrors
          rw [htuning, hwanted]
          exact usable_wanted haccepted
  | contended input =>
      change Balanced put sink errors (Capture.conclude put
        { t with controls := (Pipeline.pass t.controls input).1 } .skipped)
      refine h.conclude h.usable ?_
      unfold Pipeline.pass
      split <;> rfl
  | settings s => exact ⟨h.usable, h.frames, h.errors⟩
  | transmitting on => exact ⟨h.usable, h.frames, h.errors⟩
  | gain gain => exact ⟨h.usable, h.frames, h.errors⟩
  | vadMethod method => exact ⟨h.usable, h.frames, h.errors⟩
  | bitrate bitrate => exact ⟨h.usable, h.frames, h.errors⟩

theorem balanced_run (hopus : Encodes dsp) (h : Balanced put sink errors t) (events : List Event) :
    Balanced put sink errors (t.run dsp put events) := by
  induction events generalizing t with
  | nil => exact h
  | cons event events ih => exact ih (balanced_step hopus h event)

theorem usable_of_create (hopus : Encodes dsp) {c : Controls} {p : Pipeline}
    (h : Pipeline.create dsp c = .ok p) : Usable p.encoder.tuning := by
  obtain ⟨e, hbuild, rfl⟩ := exists_of_map_eq_ok h
  unfold Encoder.create Encoder.build at hbuild
  split at hbuild
  · cases hbuild
  · split at hbuild
    · cases hbuild
    · rename_i hnone
      cases hbuild
      exact usable_wanted ((hopus.refused c.bitrate).mp hnone)

/-- The sink is given one frame for each period that is said to be sent and nothing else, each
failure is counted once, and a period that is worth sending fails exactly while the bit rate is one
that encoders refuse. -/
theorem capture_accounts {dsp : Dsp} (hopus : Encodes dsp) {c : Controls} {p : Pipeline}
    (hcreate : Pipeline.create dsp c = .ok p) (put : σ → Octets → σ) (sink : σ)
    (events : List Event) :
    let t := Capture.run dsp put ⟨p, c, sink, []⟩ events
    (∃ frames : List Octets, t.sink = frames.foldl put sink ∧
      frames.map List.length = t.reports.filterMap Report.length?) ∧
    t.controls.encodeErrors = c.encodeErrors + t.reports.count .encodeFailed ∧
    ∀ input,
      let u := t.step dsp put (.period input)
      (Passes dsp t.pipeline t.controls input →
        if Refused t.controls.bitrate then u.reports = t.reports ++ [.encodeFailed]
        else ∃ length, u.reports = t.reports ++ [.sent length]) ∧
      ∀ length, u.reports = t.reports ++ [.sent length] →
        u.pipeline.encoder.tuning = wanted u.controls := by
  intro t
  have hstart : Balanced put sink c.encodeErrors ⟨p, c, sink, []⟩ :=
    ⟨usable_of_create hopus hcreate, ⟨[], rfl, rfl⟩, rfl⟩
  have hbalanced : Balanced put sink c.encodeErrors t := balanced_run hopus hstart events
  refine ⟨hbalanced.frames, hbalanced.errors, fun input => ?_⟩
  obtain ⟨p', c', outcome, hsettled, hstep⟩ := settled_step hopus put hbalanced.usable input
  rw [hstep]
  constructor
  · intro hpasses
    cases hsettled with
    | skipped hrefused => exact absurd ⟨hpasses.transmitting, hpasses.length⟩ hrefused
    | suppressed hquiet _ _ => exact absurd hpasses hquiet
    | encodeFailed _ hrefused _ _ =>
        rw [if_pos hrefused]
        rfl
    | sent frame _ haccepted _ _ _ =>
        rw [if_neg haccepted]
        exact ⟨frame.length, rfl⟩
  · intro length hreport
    have hsent : Report.ofOutcome outcome = .sent length := by
      simpa [Capture.conclude] using hreport
    cases hsettled with
    | sent frame _ _ htuning _ _ => exact htuning
    | _ => cases hsent

def withMicrophone (s : Session) (c : Controls) : Session :=
  { s with hub := { s.hub with microphone := c } }

theorem sendFrame_withMicrophone (s : Session) (c : Controls) (frame : Octets) :
    (withMicrophone s c).sendFrame frame = withMicrophone (s.sendFrame frame) c := by
  unfold Session.sendFrame withMicrophone
  dsimp only
  split <;> rfl

theorem capturePeriod_cons (dsp : Dsp) (t : Capture Session) (stream : Sound.CaptureStream)
    (period : List Sample) (periods : List (List Sample)) :
    let u := t.step dsp Session.sendFrame (.period period)
    (withMicrophone t.sink t.controls).capturePeriod dsp stream t.pipeline (period :: periods) =
      (withMicrophone u.sink u.controls).capturePeriod dsp stream u.pipeline periods := by
  intro u
  change Session.capturePeriod dsp (match (t.pipeline.process dsp t.controls period).2.2 with
    | .sent frame =>
      (withMicrophone t.sink (t.pipeline.process dsp t.controls period).2.1).sendFrame frame
    | _ => withMicrophone t.sink (t.pipeline.process dsp t.controls period).2.1) stream
      (t.pipeline.process dsp t.controls period).1 periods = _
  simp only [u, Capture.step, Capture.conclude, sendFrame_withMicrophone]
  cases (t.pipeline.process dsp t.controls period).2.2 <;> rfl

/-- The sink of a session's microphone is the session, which sends the frames. -/
theorem capturePeriod_eq (dsp : Dsp) (t : Capture Session) (stream : Sound.CaptureStream)
    (periods : List (List Sample)) :
    let u := t.run dsp Session.sendFrame (periods.map .period)
    (withMicrophone t.sink t.controls).capturePeriod dsp stream t.pipeline periods =
      { withMicrophone u.sink u.controls with intake := some ⟨stream, u.pipeline⟩ } := by
  induction periods generalizing t with
  | nil => rfl
  | cons period periods ih =>
      rw [capturePeriod_cons]
      exact ih _

def loud : List Sample :=
  .replicate Audio.periodLength Sample.half

theorem peakLevel_loud : peakLevel loud = Sample.half :=
  peakLevel_replicate (by decide +kernel) (by decide +kernel) 959

theorem passes_loud (dsp : Dsp) (p : Pipeline) {c : Controls} (htransmitting : c.transmitting)
    (hplain : c.mixMono = false ∧ c.gain = Sample.one)
    (hgate : c.vadMethod = .peakGate ∧ c.vadThreshold < Sample.half) :
    Passes dsp p c loud where
  transmitting := htransmitting
  length := List.length_replicate
  active := by
    have hprepare : Pipeline.prepare c loud = loud := by
      rw [Pipeline.prepare, hplain.1, hplain.2]
      exact if_pos (by decide +kernel)
    rw [Pipeline.detect, hgate.1, hprepare]
    dsimp only
    rw [peakLevel_loud]
    exact decide_eq_true hgate.2

theorem capture_accounts_refused :
    let c := Controls.ofSettings {}
    let p : Pipeline := ⟨⟨wanted c, []⟩, .fresh⟩
    let put (sink : List Octets) (frame : Octets) := sink ++ [frame]
    let t := Capture.run .quiet put ⟨p, c, [], []⟩ [.bitrate 0]
    Encodes .quiet ∧ Pipeline.create .quiet c = .ok p ∧
      (t.step .quiet put (.period loud)).reports = [.encodeFailed] := by
  intro c p put t
  have hcreate : Pipeline.create .quiet c = .ok p := rfl
  have hpasses : Passes .quiet t.pipeline t.controls loud :=
    passes_loud _ _ rfl ⟨rfl, rfl⟩ ⟨rfl, by decide +kernel⟩
  refine ⟨encodes_quiet, hcreate, ?_⟩
  have hfailed :=
    ((capture_accounts encodes_quiet hcreate put [] [.bitrate 0]).2.2 loud).1 hpasses
  rwa [if_pos (by decide)] at hfailed

end Accounts

end VoiceCall.Proofs.Microphone.Accounting
