import VoiceCall.Proofs.Audio.FullScale
import VoiceCall.Proofs.Microphone.Accounting

namespace VoiceCall.Proofs.Microphone.Range

open VoiceCall.Microphone
open VoiceCall.Proofs.Audio.FullScale
open VoiceCall.Proofs.Audio.Peaks (isNaN_zero peakLevel_replicate)
open VoiceCall.Proofs.Microphone.Accounting (wanted)
open VoiceCall.Proofs.Number.Proper (isNaN_div isNaN_unpack_pack)

/-- The period that the gain is applied to. -/
def mixed (c : Controls) (input : List Sample) : List Sample :=
  if c.mixMono then downmix input else input

/-- What the denoisers make of a period within full scale are numbers. -/
def Denoisable (dsp : Dsp) (d : Denoiser) (pcm : List Sample) : Prop :=
  (∀ s ∈ pcm, InRange s) → ∀ i,
    ((dsp.denoise d.left (Denoiser.scaled (Denoiser.everySecond pcm))).2 i).isNaN = false ∧
      ((dsp.denoise d.right (Denoiser.scaled (Denoiser.everySecond pcm.tail))).2 i).isNaN = false

/-- What an encoder for so many channels is handed of a period. -/
def handed (dsp : Dsp) (p : Pipeline) (c : Controls) (input : List Sample) (channels : UInt16) :
    List Sample :=
  let work := (Pipeline.detect dsp c p.denoiser (Pipeline.prepare c input)).2.2
  if channels = 1 then toMono work else work

/-- The frame that an encoder took last is within full scale, and this is what came of it. -/
def Encoded (dsp : Dsp) (e : Opus.Encoder) (frame : Octets) : Prop :=
  ∃ pcm earlier, e.taken = pcm :: earlier ∧ dsp.compress e.tuning earlier pcm = .ok frame ∧
    ∀ s ∈ pcm, InRange s

theorem isNaN_downmix {pcm : List Sample} (h : ∀ s ∈ pcm, s.isFinite) :
    ∀ s ∈ downmix pcm, s.isNaN = false := by
  fun_induction downmix pcm with
  | case1 left right rest mean ih =>
      simp only [List.forall_mem_cons] at h ⊢
      have hmean := isNaN_mean h.1 h.2.1
      exact ⟨hmean, hmean, ih h.2.2⟩
  | case2 rest => exact fun s hs => isNaN_of_isFinite (h s hs)

theorem isNaN_mixed (c : Controls) {input : List Sample} (h : ∀ s ∈ input, s.isFinite) :
    ∀ s ∈ mixed c input, s.isNaN = false := by
  unfold mixed
  split
  · exact isNaN_downmix h
  · exact fun s hs => isNaN_of_isFinite (h s hs)

theorem inRange_toMono {pcm : List Sample} (h : ∀ s ∈ pcm, InRange s) :
    ∀ s ∈ toMono pcm, InRange s := by
  fun_induction toMono pcm with
  | case1 left right rest ih =>
      simp only [List.forall_mem_cons] at h ⊢
      exact ⟨inRange_mean h.1 h.2.1, ih h.2.2⟩
  | case2 pcm hshort => exact fun s hs => absurd hs List.not_mem_nil

theorem mem_interleave {left right : List Sample} {s : Sample}
    (h : s ∈ Denoiser.interleave left right) : s ∈ left ∨ s ∈ right := by
  obtain ⟨⟨l, r⟩, hpair, hs⟩ := List.mem_flatMap.mp h
  obtain ⟨hl, hr⟩ := List.of_mem_zip hpair
  rcases List.mem_cons.mp hs with rfl | hs
  · exact .inl hl
  · exact .inr (List.mem_singleton.mp hs ▸ hr)

/-- The gain of one is the only one that does not limit, and that of zero the only one that makes of
an infinite sample no number. -/
theorem inRange_amplify_iff {gain : Sample} (hgain : gain.isFinite) {pcm : List Sample}
    (hpcm : ∀ s ∈ pcm, s.isNaN = false) :
    (∀ s ∈ amplify gain pcm, InRange s) ↔
      (gain == Sample.one → ∀ s ∈ pcm, InRange s) ∧
        (gain == Sample.zero → ∀ s ∈ pcm, s.isFinite) := by
  unfold amplify
  by_cases hone : gain == Sample.one
  · rw [if_pos hone]
    simp [hone, not_beq_zero_of_beq_one hone]
  · rw [if_neg hone, List.forall_mem_map]
    simp only [inRange_fullScale_iff]
    constructor
    · intro hall
      refine ⟨fun h => absurd h hone, fun hzero s hs => ?_⟩
      exact (isNaN_mul_iff (hpcm s hs) hgain).mp (hall s hs) hzero
    · rintro ⟨-, hfinite⟩ s hs
      exact (isNaN_mul_iff (hpcm s hs) hgain).mpr fun hzero => hfinite hzero s hs

theorem inRange_unscaled {samples : Nat → Sample} (h : ∀ i, (samples i).isNaN = false)
    (count : Nat) : ∀ s ∈ Denoiser.unscaled count samples, InRange s := by
  intro s hs
  obtain ⟨i, -, rfl⟩ := List.mem_map.mp hs
  rw [inRange_fullScale_iff]
  have hquotient : (Float.Model.UnpackedFloat.div .binary32 (samples i).toModel.unpack
      Denoiser.scale.toModel.unpack).isNaN = false :=
    isNaN_div (h i) _ _ _ (by decide : 0 < 16776704)
  exact isNaN_unpack_pack hquotient

theorem inRange_detect {dsp : Dsp} (c : Controls) {d : Denoiser} {pcm : List Sample}
    (hdenoise : Denoisable dsp d pcm) (h : ∀ s ∈ pcm, InRange s) :
    ∀ s ∈ (Pipeline.detect dsp c d pcm).2.2, InRange s := by
  unfold Pipeline.detect
  split
  · exact h
  · unfold Denoiser.process
    by_cases hlength : pcm.length = Audio.periodLength
    · rw [if_pos hlength]
      dsimp only
      split
      · intro s hs
        rcases mem_interleave hs with hs | hs
        · exact inRange_unscaled (fun i => (hdenoise h i).1) _ s hs
        · exact inRange_unscaled (fun i => (hdenoise h i).2) _ s hs
      · exact h
    · rw [if_neg hlength]
      exact h

theorem taken_encoder {dsp : Dsp} {e e' : Opus.Encoder} {pcm : List Sample} {frame : Octets}
    (h : e.encode dsp pcm = .ok (frame, e')) :
    e' = { e with taken := pcm :: e.taken } ∧ dsp.compress e.tuning e.taken pcm = .ok frame := by
  unfold Opus.Encoder.encode at h
  dsimp only at h
  split at h
  · split at h
    · rename_i hframe
      cases h
      exact ⟨rfl, hframe⟩
    · cases h
  · cases h

theorem inRange_handed {dsp : Dsp} {p : Pipeline} {c : Controls} {input : List Sample}
    (hwork : ∀ s ∈ (Pipeline.detect dsp c p.denoiser (Pipeline.prepare c input)).2.2, InRange s)
    (channels : UInt16) : ∀ s ∈ handed dsp p c input channels, InRange s := by
  unfold handed
  dsimp only
  split
  · exact inRange_toMono hwork
  · exact hwork

theorem encoded_encode {dsp : Dsp} {e e' : Opus.Encoder} {pcm : List Sample} {frame : Octets}
    (h : Pipeline.encode dsp e pcm = .ok (frame, e')) (hpcm : ∀ s ∈ pcm, InRange s) :
    Encoded dsp e' frame := by
  obtain ⟨rfl, hframe⟩ := taken_encoder h
  refine ⟨_, e.taken, rfl, hframe, ?_⟩
  split
  · exact inRange_toMono hpcm
  · exact hpcm

theorem process_of_accepts (dsp : Dsp) (p : Pipeline) {c : Controls} {input : List Sample}
    (haccepts : Pipeline.accepts c input) :
    let processed := p.process dsp c input
    let work := (Pipeline.detect dsp c p.denoiser (Pipeline.prepare c input)).2.2
    processed.2.1.level = peakLevel (Pipeline.prepare c input) ∧
      ∀ frame, processed.2.2 = .sent frame →
        ∃ e, Pipeline.encode dsp e work = .ok (frame, processed.1.encoder) := by
  unfold Pipeline.process
  rw [if_pos haccepts]
  dsimp only
  rcases Pipeline.detect dsp c p.denoiser (Pipeline.prepare c input) with ⟨denoiser, active, work⟩
  dsimp only
  cases active with
  | false => exact ⟨rfl, nofun⟩
  | true =>
      rw [if_pos rfl]
      split
      · exact ⟨rfl, nofun⟩
      · rename_i e hretune
        split
        · exact ⟨rfl, nofun⟩
        · rename_i frame e' hencode
          refine ⟨rfl, ?_⟩
          rintro _ ⟨⟩
          exact ⟨e, hencode⟩

/-- A period of finite samples is wherever it is measured or encoded, and its level is between zero
and one, exactly if a gain of one, which is not applied, finds it so, and a gain of zero finds no
mean of channels that is infinite. -/
theorem period_in_range_iff {dsp : Dsp} {p : Pipeline} {c : Controls} (hactive : c.transmitting)
    (hgain : c.gain.isFinite) {input : List Sample} (hlength : input.length = Audio.periodLength)
    (hinput : ∀ s ∈ input, s.isFinite)
    (hdenoise : Denoisable dsp p.denoiser (Pipeline.prepare c input)) :
    let processed := p.process dsp c input
    ((Sample.zero ≤ processed.2.1.level ∧ processed.2.1.level ≤ Sample.one) ∧
        (∀ s ∈ Pipeline.prepare c input, InRange s) ∧
        (∀ channels, ∀ s ∈ handed dsp p c input channels, InRange s) ∧
        ∀ frame, processed.2.2 = .sent frame → Encoded dsp processed.1.encoder frame) ↔
      (c.gain == Sample.one → ∀ s ∈ mixed c input, InRange s) ∧
        (c.gain == Sample.zero → ∀ s ∈ mixed c input, s.isFinite) := by
  intro processed
  have haccepts : Pipeline.accepts c input := by
    simp [Pipeline.accepts, hactive, hlength]
  obtain ⟨hlevel, hsent⟩ := process_of_accepts dsp p haccepts
  have hprepare := inRange_amplify_iff hgain (isNaN_mixed c hinput)
  rw [← hprepare]
  constructor
  · exact fun h => h.2.1
  · intro hrange
    have hwork := inRange_detect c hdenoise hrange
    refine ⟨?_, hrange, inRange_handed hwork, fun frame hframe => ?_⟩
    · rw [hlevel]
      exact peakLevel_mem hrange
    · obtain ⟨e, hencode⟩ := hsent frame hframe
      exact encoded_encode hencode hwork

/-- A period of one sample, over and over. -/
def steady (s : Sample) : List Sample :=
  .replicate Audio.periodLength s

theorem prepare_steady {c : Controls} (hmono : c.mixMono = false) (s : Sample) :
    Pipeline.prepare c (steady s) =
      steady (if c.gain == Sample.one then s else (s * c.gain).fullScale) := by
  rw [Pipeline.prepare, hmono, amplify, steady, steady, if_neg Bool.false_ne_true]
  split
  · rfl
  · exact List.map_replicate

theorem length_steady (s : Sample) : (steady s).length = Audio.periodLength :=
  List.length_replicate

theorem forall_mem_steady {P : Sample → Prop} {s : Sample} (h : P s) : ∀ t ∈ steady s, P t := by
  intro t ht
  rw [List.eq_of_mem_replicate ht]
  exact h

/-- One and a half. -/
def excessive : Sample := Float32.ofBits 0x3fc00000

/-- A gain of two brings the period to full scale, where the denoisers are given it. -/
theorem period_in_range_iff_doubled :
    let c := { Controls.ofSettings {} with
      gain := Float32.ofBits 0x40000000, vadMethod := .rnnoise }
    let p : Pipeline := ⟨⟨wanted c, []⟩, .fresh⟩
    (∀ s ∈ steady excessive, s.isFinite) ∧
      Denoisable .quiet p.denoiser (Pipeline.prepare c (steady excessive)) ∧
      (p.process .quiet c (steady excessive)).2.1.level ≤ Sample.one := by
  intro c p
  have hinput : ∀ s ∈ steady excessive, s.isFinite := forall_mem_steady (by decide +kernel)
  have hdenoise : Denoisable .quiet p.denoiser (Pipeline.prepare c (steady excessive)) := by
    rw [prepare_steady rfl]
    intro _ i
    unfold Dsp.quiet
    dsimp only
    rw [if_neg (by decide +kernel), if_neg (by decide +kernel)]
    exact ⟨isNaN_zero, isNaN_zero⟩
  have hone : ¬ c.gain == Sample.one := by decide +kernel
  have hzero : ¬ c.gain == Sample.zero := by decide +kernel
  obtain ⟨⟨-, hlevel⟩, -⟩ := (period_in_range_iff (p := p) (c := c) rfl (by decide +kernel)
    (length_steady excessive) hinput hdenoise).mpr ⟨fun h => absurd h hone, fun h => absurd h hzero⟩
  exact ⟨hinput, hdenoise, hlevel⟩

theorem process_of_unit_gain (dsp : Dsp) (p : Pipeline) {c : Controls} (hactive : c.transmitting)
    (hmono : c.mixMono = false) (hgain : c.gain == Sample.one) {input : List Sample}
    (hlength : input.length = Audio.periodLength) :
    Pipeline.prepare c input = input ∧ (p.process dsp c input).2.1.level = peakLevel input := by
  have hprepare : Pipeline.prepare c input = input := by
    rw [Pipeline.prepare, hmono, amplify, if_neg Bool.false_ne_true, if_pos hgain]
  have haccepts : Pipeline.accepts c input := by
    simp [Pipeline.accepts, hlength, hactive]
  exact ⟨hprepare, by rw [(process_of_accepts dsp p haccepts).1, hprepare]⟩

/-- A gain of one leaves the period as loud as it came. -/
theorem not_in_range_unit_gain :
    let c := Controls.ofSettings {}
    let p : Pipeline := ⟨⟨wanted c, []⟩, .fresh⟩
    (c.transmitting ∧ c.gain = Sample.one ∧ ∀ s ∈ steady excessive, s.isFinite) ∧
      Pipeline.prepare c (steady excessive) = steady excessive ∧
      (p.process .quiet c (steady excessive)).2.1.level = excessive ∧
      ¬ excessive ≤ Sample.one := by
  intro c p
  have hpeak : peakLevel (steady excessive) = excessive :=
    peakLevel_replicate (by decide +kernel) (by decide +kernel) 959
  obtain ⟨hprepare, hlevel⟩ := process_of_unit_gain .quiet p (c := c) rfl rfl (by decide +kernel)
    (length_steady excessive)
  exact ⟨⟨rfl, rfl, forall_mem_steady (by decide +kernel)⟩, hprepare, hlevel.trans hpeak,
    by decide +kernel⟩

end VoiceCall.Proofs.Microphone.Range
