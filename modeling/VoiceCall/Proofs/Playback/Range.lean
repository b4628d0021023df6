import Mathlib.Data.List.GetD
import VoiceCall.Proofs.Audio.FullScale
import VoiceCall.Proofs.Buffer.Window
import VoiceCall.Proofs.Playback.Levels

namespace VoiceCall.Proofs.Playback.Range

open VoiceCall.Playback
open VoiceCall.Proofs.Audio.FullScale
open VoiceCall.Proofs.Audio.Infinities
open VoiceCall.Proofs.Audio.Peaks (isNaN_zero)
open VoiceCall.Proofs.Buffer.Window (queue_read_cases)
open VoiceCall.Proofs.Playback.Isolation
open VoiceCall.Proofs.Playback.Scratch (length_of_read)
open VoiceCall.Proofs.Playback.Levels
open VoiceCall.Proofs.Speaker.Keys

/-- A gain as speakers and controls keep it, whatever they were given. -/
def Stored (gain : Sample) : Prop :=
  ∃ given, gain = Sample.gain given

theorem Stored.isNaN {gain : Sample} (h : Stored gain) : gain.isNaN = false := by
  obtain ⟨given, rfl⟩ := h
  exact isNaN_gain given

/-- What is buffered of a speaker is within full scale. -/
structure Sound (s : Speaker) : Prop where
  gain : Stored s.gain
  samples : ∀ sample ∈ s.buffer.queue.samples, InRange sample

/-- A sample of a speaker that is mixed, and the speaker's gain. -/
structure Voice where
  sample : Sample
  gain : Sample
deriving DecidableEq

/-- What a voice adds to the sum. -/
def Voice.amplified (v : Voice) : Sample :=
  if v.gain == Sample.one then v.sample else v.sample * v.gain

/-- The sum of the voices in one place of the output, on top of what is there. -/
def total (start : Sample) (place : List Voice) : Sample :=
  (place.map Voice.amplified).foldl (· + ·) start

/-- No infinite gain meets silence, or a sum that is infinite on the other side. -/
def Addable : Sample → List Voice → Prop
  | _, [] => True
  | start, v :: place =>
    (v.gain.isInf → ¬ v.sample == Sample.zero) ∧
      (start.isInf → v.gain.isInf → start == v.amplified) ∧
      Addable (start + v.amplified) place

/-- Where the voices of a place and the master gain make a number. -/
structure Determinate (master : Sample) (place : List Voice) : Prop where
  addable : Addable Sample.zero place
  silence : master.isInf → ¬ total Sample.zero place == Sample.zero
  overflow : (total Sample.zero place).isInf → ¬ master == Sample.zero

section
variable (c : Controls) (contention : Contention) (now : Nat)

/-- What a pass reads of a speaker. -/
def heard (count : Nat) (s : Speaker) : Option (List Sample) :=
  if c.deafened || s.muted || contention.buffers.contains s.ssrc then none
    else (s.buffer.read count now).1

/-- The voices that a pass finds for a place of its output. -/
def voices (count : Nat) (speakers : List Speaker) (i : Nat) : List Voice :=
  speakers.filterMap fun s =>
    (heard c contention now count s).map fun samples => ⟨samples.getD i Sample.zero, s.gain⟩

/-- The voices of every place of the output, pass by pass. -/
def places : List Nat → List Speaker → List (List Voice)
  | [], _ => []
  | count :: counts, speakers =>
    (List.range count).map (voices c contention now count speakers) ++
      places counts (speakers.map (passed c contention count now))

end

/-- What comes out for some voices. -/
def mixed (master : Sample) (place : List Voice) : Sample :=
  (total Sample.zero place * master).fullScale

/-- A voice that is within full scale before its gain, which is a number. -/
structure Voice.Sound (v : Voice) : Prop where
  sample : InRange v.sample
  gain : v.gain.isNaN = false

theorem amplified_of_one {v : Voice} (hone : v.gain == Sample.one) : v.amplified = v.sample :=
  if_pos hone

theorem amplified_of_ne_one {v : Voice} (hone : ¬ v.gain == Sample.one) :
    v.amplified = v.sample * v.gain :=
  if_neg hone

theorem isNaN_amplified_iff {v : Voice} (hv : v.Sound) :
    v.amplified.isNaN = false ↔ (v.gain.isInf → ¬ v.sample == Sample.zero) := by
  by_cases hone : v.gain == Sample.one
  · rw [amplified_of_one hone]
    exact iff_of_true hv.sample.isNaN fun hinf => absurd hinf (not_isInf_of_beq_one hone)
  · have hbounded := (isFinite_iff.mp hv.sample.isFinite).2
    rw [amplified_of_ne_one hone, isNaN_product_iff]
    constructor
    · exact fun h => h.2.2
    · intro hsilence
      exact ⟨⟨hv.sample.isNaN, hv.gain⟩, fun hinf => absurd hinf hbounded, hsilence⟩

/-- Only an infinite gain makes a voice infinite. -/
theorem isInf_amplified_iff {v : Voice} (hv : v.Sound) (hnumber : v.amplified.isNaN = false) :
    v.amplified.isInf ↔ v.gain.isInf := by
  by_cases hone : v.gain == Sample.one
  · rw [amplified_of_one hone]
    exact iff_of_false (isFinite_iff.mp hv.sample.isFinite).2 (not_isInf_of_beq_one hone)
  · rw [amplified_of_ne_one hone] at hnumber ⊢
    constructor
    · intro hproduct
      by_contra hgain
      have hfinite := isFinite_mul hv.sample (isFinite_iff.mpr ⟨hv.gain, hgain⟩)
      exact (isFinite_iff.mp hfinite).2 hproduct
    · exact fun hgain => isInf_mul hgain hnumber

/-- What is no number stays none, whatever is added. -/
theorem isNaN_of_total {start : Sample} {place : List Voice}
    (h : (total start place).isNaN = false) : start.isNaN = false := by
  induction place generalizing start with
  | nil => exact h
  | cons v place ih => exact (isNaN_sum_iff.mp (ih h)).1.1

theorem isNaN_total_iff {place : List Voice} (hplace : ∀ v ∈ place, v.Sound) {start : Sample}
    (hstart : start.isNaN = false) :
    (total start place).isNaN = false ↔ Addable start place := by
  induction place generalizing start with
  | nil => exact iff_of_true hstart trivial
  | cons v place ih =>
      rw [List.forall_mem_cons] at hplace
      have hvoice := isNaN_amplified_iff hplace.1
      constructor
      · intro htotal
        have hsum : (start + v.amplified).isNaN = false := isNaN_of_total htotal
        obtain ⟨⟨-, hnumber⟩, hsides⟩ := isNaN_sum_iff.mp hsum
        refine ⟨hvoice.mp hnumber, fun hinf hgain => ?_, (ih hplace.2 hsum).mp htotal⟩
        exact hsides hinf ((isInf_amplified_iff hplace.1 hnumber).mpr hgain)
      · rintro ⟨hsilence, hsides, hrest⟩
        have hnumber := hvoice.mpr hsilence
        have hsum : (start + v.amplified).isNaN = false := by
          refine isNaN_sum_iff.mpr ⟨⟨hstart, hnumber⟩, fun hinf hinf' => hsides hinf ?_⟩
          exact (isInf_amplified_iff hplace.1 hnumber).mp hinf'
        exact (ih hplace.2 hsum).mpr hrest

theorem inRange_mixed_iff {master : Sample} (hmaster : master.isNaN = false) {place : List Voice}
    (hplace : ∀ v ∈ place, v.Sound) :
    InRange (mixed master place) ↔ Determinate master place := by
  rw [mixed, inRange_fullScale_iff, isNaN_product_iff, isNaN_total_iff hplace isNaN_zero]
  constructor
  · rintro ⟨⟨haddable, -⟩, hoverflow, hsilence⟩
    exact ⟨haddable, hsilence, hoverflow⟩
  · rintro ⟨haddable, hsilence, hoverflow⟩
    exact ⟨⟨haddable, hmaster⟩, hoverflow, hsilence⟩

theorem addable_of_isFinite {place : List Voice} (hplace : ∀ v ∈ place, v.gain.isFinite)
    (start : Sample) : Addable start place := by
  induction place generalizing start with
  | nil => trivial
  | cons v place ih =>
      rw [List.forall_mem_cons] at hplace
      have hbounded := (isFinite_iff.mp hplace.1).2
      exact ⟨fun hinf => absurd hinf hbounded, fun _ hinf => absurd hinf hbounded,
        ih hplace.2 (start + v.amplified)⟩

section
variable (c : Controls) (contention : Contention) (now : Nat)

theorem part_eq (count : Nat) (s : Speaker) :
    part c contention count now s = (heard c contention now count s).map (played s) := by
  unfold part heard
  by_cases hskipped : c.deafened ∨ s.muted
  · rw [mixSpeaker_of_skipped hskipped, if_pos (by simp [hskipped])]
    rfl
  · rw [mixSpeaker_of_heard hskipped]
    have hheard : (c.deafened || s.muted) = false := by simpa using hskipped
    rw [hheard, Bool.false_or]
    cases contention.buffers.contains s.ssrc with
    | true => rfl
    | false =>
        rcases hread : s.buffer.read count now with ⟨_ | samples, buffer⟩
        · rw [contribute_of_none hread]
          rfl
        · rw [contribute_of_some hread]
          rfl

theorem mem_of_heard {count : Nat} {s : Speaker} {samples : List Sample}
    (hheard : heard c contention now count s = some samples) :
    samples.length = count ∧ ∀ sample ∈ samples, sample ∈ s.buffer.queue.samples := by
  unfold heard at hheard
  split at hheard
  · cases hheard
  · refine ⟨length_of_read hheard, ?_⟩
    rcases queue_read_cases s.buffer count now with ⟨-, hread, -⟩ | ⟨hread, -⟩
    · rw [hread] at hheard
      cases hheard
      exact fun sample => List.mem_of_mem_take
    · rw [hread] at hheard
      cases hheard

theorem mem_of_read (b : Buffer.Jitter) (count : Nat) :
    ∀ sample ∈ (b.read count now).2.queue.samples, sample ∈ b.queue.samples := by
  rcases queue_read_cases b count now with ⟨-, -, hqueue⟩ | ⟨-, hqueue⟩
  · rw [hqueue]
    exact fun sample => List.mem_of_mem_drop
  · rw [hqueue]
    exact fun _ => id

theorem mem_of_discard (busy : Bool) (s : Speaker) :
    ∀ sample ∈ (Playback.discard busy s).buffer.queue.samples, sample ∈ s.buffer.queue.samples := by
  unfold Playback.discard
  dsimp only
  split
  · exact fun _ => id
  · exact fun sample hsample => absurd hsample List.not_mem_nil

/-- A pass leaves the gain of a speaker as it is, and no samples but those that were there. -/
theorem mem_passed (count : Nat) (s : Speaker) :
    (passed c contention count now s).gain = s.gain ∧
      ∀ sample ∈ (passed c contention count now s).buffer.queue.samples,
        sample ∈ s.buffer.queue.samples := by
  cases hroster : contention.roster with
  | true =>
      rw [(passed_of_busy c now hroster count s).1]
      exact ⟨rfl, fun _ => id⟩
  | false =>
      rw [(passed_of_free c now hroster count s).1]
      by_cases hskipped : c.deafened ∨ s.muted
      · rw [mixSpeaker_of_skipped hskipped]
        exact ⟨rfl, mem_of_discard _ s⟩
      · rw [mixSpeaker_of_heard hskipped]
        cases contention.buffers.contains s.ssrc with
        | true => exact ⟨rfl, fun _ => id⟩
        | false =>
            have hqueue := mem_of_read now s.buffer count
            rcases hread : s.buffer.read count now with ⟨_ | samples, buffer⟩
            · rw [contribute_of_none hread]
              rw [hread] at hqueue
              exact ⟨rfl, hqueue⟩
            · rw [contribute_of_some hread]
              rw [hread] at hqueue
              exact ⟨rfl, hqueue⟩

/-- Samples that are added to others in the same places are added place by place. -/
theorem foldl_zipWith_eq {count : Nat} {parts : List (List Sample)}
    (hparts : ∀ part ∈ parts, part.length = count) {start : List Sample}
    (hstart : start.length = count) :
    parts.foldl (List.zipWith (· + ·)) start =
      (List.range count).map fun i =>
        (parts.map (·.getD i Sample.zero)).foldl (· + ·) (start.getD i Sample.zero) := by
  induction parts generalizing start with
  | nil =>
      refine List.ext_getElem (by simp [hstart]) fun i hi _ => ?_
      rw [List.getElem_map, List.getElem_range]
      exact (List.getD_eq_getElem start _ hi).symm
  | cons part parts ih =>
      rw [List.forall_mem_cons] at hparts
      have hlength : (List.zipWith (· + ·) start part).length = count := by
        rw [List.length_zipWith, hstart, hparts.1, Nat.min_self]
      rw [List.foldl_cons, ih hparts.2 hlength]
      refine List.map_congr_left fun i hi => ?_
      have hi' : i < count := List.mem_range.mp hi
      have hsum : (List.zipWith (· + ·) start part).getD i Sample.zero =
          start.getD i Sample.zero + part.getD i Sample.zero := by
        rw [List.getD_eq_getElem _ _ (hlength ▸ hi'), List.getD_eq_getElem _ _ (hstart ▸ hi'),
          List.getD_eq_getElem _ _ (hparts.1 ▸ hi'), List.getElem_zipWith]
      rw [hsum]
      rfl

/-- What a speaker adds in one place is its voice there. -/
theorem amplified_voices (count : Nat) (speakers : List Speaker) {i : Nat} (hi : i < count) :
    (speakers.filterMap (part c contention count now)).map (·.getD i Sample.zero) =
      (voices c contention now count speakers i).map Voice.amplified := by
  unfold voices
  rw [List.map_filterMap, List.map_filterMap]
  congr 1
  funext s
  rw [part_eq]
  cases hheard : heard c contention now count s with
  | none => rfl
  | some samples =>
      have hi' : i < samples.length := (mem_of_heard c contention now hheard).1 ▸ hi
      simp only [Option.map_some, Option.some.injEq, Voice.amplified]
      unfold played
      split
      · rfl
      · rw [List.getD_eq_getElem _ _ (by simpa using hi'), List.getD_eq_getElem _ _ hi',
          List.getElem_map]

theorem output_eq {contention : Contention} (hroster : contention.roster = false) (count : Nat)
    (speakers : List Speaker) :
    output c contention count (speakers.filterMap (part c contention count now)) =
      ((List.range count).map (voices c contention now count speakers)).map
        (mixed c.masterGain) := by
  have hparts : ∀ samples ∈ speakers.filterMap (part c contention count now),
      samples.length = count := by
    intro samples hsamples
    obtain ⟨s, -, hpart⟩ := List.mem_filterMap.mp hsamples
    exact length_part c contention count now hpart
  rw [output, hroster, if_neg Bool.false_ne_true, sum,
    foldl_zipWith_eq hparts List.length_replicate, List.map_map, List.map_map]
  refine List.map_congr_left fun i hi => ?_
  have hi' : i < count := List.mem_range.mp hi
  have hsilence : (List.replicate count Sample.zero).getD i Sample.zero = Sample.zero := by
    rw [List.getD_eq_getElem _ _ (by simpa using hi'), List.getElem_replicate]
  rw [Function.comp_apply, amplified_voices c contention now count speakers hi', hsilence]
  rfl

theorem mixChunks_eq {contention : Contention} (hroster : contention.roster = false)
    (counts : List Nat) (speakers : List Speaker) :
    (mixChunks c contention now counts speakers).2 =
      (places c contention now counts speakers).map (mixed c.masterGain) := by
  induction counts generalizing speakers with
  | nil => rfl
  | cons count counts ih =>
      simp only [mixChunks, mixChunk_eq, places, List.map_append]
      rw [output_eq c now hroster, ih]

/-- What is true of the samples of all speakers with their gains is true of all voices. -/
theorem forall_places {P : Voice → Prop} (counts : List Nat) {speakers : List Speaker}
    (h : ∀ s ∈ speakers, ∀ sample ∈ s.buffer.queue.samples, P ⟨sample, s.gain⟩) :
    ∀ place ∈ places c contention now counts speakers, ∀ v ∈ place, P v := by
  induction counts generalizing speakers with
  | nil => exact fun place hplace => absurd hplace List.not_mem_nil
  | cons count counts ih =>
      intro place hplace
      rcases List.mem_append.mp hplace with hplace | hplace
      · obtain ⟨i, hi, rfl⟩ := List.mem_map.mp hplace
        intro v hv
        obtain ⟨s, hs, hvoice⟩ := List.mem_filterMap.mp hv
        obtain ⟨samples, hheard, rfl⟩ := Option.map_eq_some_iff.mp hvoice
        obtain ⟨hlength, hmem⟩ := mem_of_heard c contention now hheard
        have hi' : i < samples.length := hlength ▸ List.mem_range.mp hi
        rw [List.getD_eq_getElem _ _ hi']
        exact h s hs _ (hmem _ (List.getElem_mem hi'))
      · refine ih ?_ place hplace
        rw [List.forall_mem_map]
        intro s hs sample hsample
        obtain ⟨hgain, hmem⟩ := mem_passed c contention now count s
        rw [hgain]
        exact h s hs sample (hmem sample hsample)

/-- While the roster is busy the output is silent, whatever the master gain is. -/
theorem mixChunks_of_busy {contention : Contention} (hroster : contention.roster)
    (counts : List Nat) (speakers : List Speaker) :
    ∀ sample ∈ (mixChunks c contention now counts speakers).2, sample = Sample.zero := by
  induction counts generalizing speakers with
  | nil => exact fun sample hsample => absurd hsample List.not_mem_nil
  | cons count counts ih =>
      simp only [mixChunks, mixChunk_eq, List.mem_append]
      rintro sample (hsample | hsample)
      · rw [output, if_pos hroster] at hsample
        exact List.eq_of_mem_replicate hsample
      · exact ih _ sample hsample

end

/-- A sample of the output of a mix is within full scale exactly if it is a number, and it is none
only where infinite gains meet silence or each other, or a sum without bound a master gain of zero.
Finite gains under a finite master gain above zero never get there. -/
theorem mix_in_range_iff (m : Mixer) {r : Roster} (hspeakers : ∀ s ∈ r.speakers, Sound s)
    {c : Controls} (hmaster : Stored c.masterGain) (contention : Contention) (length now : Nat) :
    let out := (m.mix r c contention length now).2.2
    let found := places c contention now (chunks m.scratch length) r.speakers
    (∀ sample ∈ out, sample.isNaN = false → InRange sample) ∧
      (contention.roster → ∀ sample ∈ out, InRange sample) ∧
      (contention.roster = false → List.Forall₂ (fun place sample =>
        InRange sample ↔ Determinate c.masterGain place) found out) ∧
      ((∀ s ∈ r.speakers, s.gain.isFinite) → c.masterGain.isFinite →
        ¬ c.masterGain == Sample.zero → ∀ sample ∈ out, InRange sample) := by
  intro out found
  have hsound : ∀ place ∈ found, ∀ v ∈ place, v.Sound :=
    forall_places c contention now _ fun s hs sample hsample =>
      ⟨(hspeakers s hs).samples sample hsample, (hspeakers s hs).gain.isNaN⟩
  have hiff : ∀ place ∈ found, InRange (mixed c.masterGain place) ↔
      Determinate c.masterGain place := fun place hplace =>
    inRange_mixed_iff hmaster.isNaN (hsound place hplace)
  have hbusy (hroster : contention.roster) : ∀ sample ∈ out, InRange sample := by
    intro sample hsample
    rw [mixChunks_of_busy c now hroster _ _ sample hsample]
    exact ⟨by decide +kernel, by decide +kernel⟩
  have hout (hroster : contention.roster = false) : out = found.map (mixed c.masterGain) :=
    mixChunks_eq c now hroster _ _
  refine ⟨?_, hbusy, fun hroster => ?_, fun hgains hfinite hnonzero => ?_⟩
  · cases hroster : contention.roster with
    | true => exact fun sample hsample _ => hbusy hroster sample hsample
    | false =>
        rw [hout hroster, List.forall_mem_map]
        exact fun place _ => inRange_fullScale_of_isNaN
  · rw [hout hroster, List.forall₂_map_right_iff]
    exact List.forall₂_same.mpr hiff
  · cases hroster : contention.roster with
    | true => exact hbusy hroster
    | false =>
        have hbounded : ∀ place ∈ found, ∀ v ∈ place, v.gain.isFinite :=
          forall_places c contention now _ fun s hs _ _ => hgains s hs
        rw [hout hroster, List.forall_mem_map]
        intro place hplace
        rw [hiff place hplace]
        exact ⟨addable_of_isFinite (hbounded place hplace) Sample.zero,
          fun hinf => absurd hinf (isFinite_iff.mp hfinite).2, fun _ => hnonzero⟩

/-- A gain without bound. -/
def infinite : Sample := Float32.ofBits 0x7f800000

/-- A master gain without bound brings what is heard to full scale. -/
theorem mix_in_range_iff_heard :
    let s := ((Speaker.create 101 none 0 0 20).write [Sample.half] 0).1
    let c := Controls.create infinite
    (∀ s' ∈ [s], Sound s') ∧ Stored c.masterGain ∧
      ((Mixer.create 1).mix (rosterOf [s]) c .none 1 0).2.2 = [Sample.one] ∧
      places c .none 0 (chunks 1 1) [s] = [[⟨Sample.half, Sample.one⟩]] ∧
      Determinate c.masterGain [⟨Sample.half, Sample.one⟩] := by
  intro s c
  have hspeakers : ∀ s' ∈ [s], Sound s' := by
    rw [List.forall_mem_singleton]
    refine ⟨⟨Sample.one, by decide +kernel⟩, ?_⟩
    change ∀ sample ∈ [Sample.half], InRange sample
    rw [List.forall_mem_singleton]
    exact ⟨by decide +kernel, by decide +kernel⟩
  have hmaster : Stored c.masterGain := ⟨infinite, rfl⟩
  have hout : ((Mixer.create 1).mix (rosterOf [s]) c .none 1 0).2.2 = [Sample.one] := by
    decide +kernel
  have hplaces : places c .none 0 (chunks 1 1) [s] = [[⟨Sample.half, Sample.one⟩]] := by
    decide +kernel
  obtain ⟨-, -, hplace, -⟩ :=
    mix_in_range_iff (.create 1) (r := (rosterOf [s])) hspeakers hmaster .none 1 0
  have hdeterminate := hplace rfl
  change List.Forall₂ _ (places c .none 0 (chunks 1 1) [s]) _ at hdeterminate
  rw [hout, hplaces, List.forall₂_cons] at hdeterminate
  exact ⟨hspeakers, hmaster, hout, hplaces,
    hdeterminate.1.mp ⟨by decide +kernel, by decide +kernel⟩⟩

/-- Where nobody is heard, it makes of silence no number. -/
theorem not_in_range_silence :
    let c := Controls.create infinite
    let out := ((Mixer.create 1).mix .empty c .none 1 0).2.2
    (∀ s ∈ Roster.empty.speakers, Sound s) ∧ Stored c.masterGain ∧
      ∃ sample, out = [sample] ∧ sample.isNaN ∧ ¬ InRange sample := by
  intro c out
  have hnan : (mixed c.masterGain []).isNaN := by decide +kernel
  have hout : out = [mixed c.masterGain []] := by decide +kernel
  refine ⟨fun s hs => absurd hs List.not_mem_nil, ⟨infinite, rfl⟩, _, hout, hnan, fun hrange => ?_⟩
  rw [hrange.isNaN] at hnan
  cases hnan

/-- Gains that are finite do so where the sum overflows and the master gain is zero. -/
example :
    let loud := (((Speaker.create 101 none 0 0 20).write [Sample.one] 0).1).setGain
      (Float32.ofBits 0x7f7fffff)
    let out := ((Mixer.create 1).mix (rosterOf [loud, { loud with ssrc := 202 }]) (.create .zero)
      .none 1 0).2.2
    loud.gain.isFinite ∧ out.map Float32.isNaN = [true] := by
  decide +kernel

end VoiceCall.Proofs.Playback.Range
