import Mathlib.Algebra.Ring.Nat
import Mathlib.Data.List.Forall2
import VoiceCall.Playback.Mixer
import VoiceCall.Proofs.Playback.Scratch
import VoiceCall.Proofs.Speaker.Keys

namespace VoiceCall.Proofs.Playback.Isolation

open VoiceCall.Playback
open VoiceCall.Proofs.Playback.Scratch
open VoiceCall.Proofs.Speaker.Keys

/-- Neither the roster nor the speaker's buffer is in use by somebody else. -/
def Free (contention : Contention) (s : Speaker) : Prop :=
  contention.roster = false ∧ s.ssrc ∉ contention.buffers

theorem free_none (s : Speaker) : Free .none s :=
  ⟨rfl, List.not_mem_nil⟩

/-- Nothing is left to be heard of a speaker. -/
structure Hushed (s : Speaker) : Prop where
  isEmpty : s.buffer.isEmpty
  level : s.level = Sample.zero

def unmuted (speakers : List Speaker) : List Speaker :=
  speakers.filter (!·.muted)

theorem hushed_discard (s : Speaker) : Hushed (Playback.discard false s) where
  isEmpty := by
    unfold Playback.discard
    dsimp only
    split
    · simpa using ‹_›
    · rfl
  level := rfl

theorem contribute_cases (busy : Bool) (count now : Nat) (s : Speaker) :
    ((contribute busy count now s).1.ssrc = s.ssrc ∧
      (contribute busy count now s).1.muted = s.muted) ∧
        ∀ samples ∈ (contribute busy count now s).2, samples.length = count := by
  unfold contribute
  cases busy with
  | true => exact ⟨⟨rfl, rfl⟩, by simp⟩
  | false =>
      rw [if_neg Bool.false_ne_true]
      rcases hread : s.buffer.read count now with ⟨_ | samples, buffer⟩
      · exact ⟨⟨rfl, rfl⟩, by simp⟩
      · refine ⟨⟨rfl, rfl⟩, ?_⟩
        rintro scaled ⟨⟩
        have hlength := length_of_read (congrArg Prod.fst hread)
        split
        · exact hlength
        · exact (List.length_map _).trans hlength

theorem mixSpeaker_of_skipped {deafened : Bool} {s : Speaker} (hskipped : deafened ∨ s.muted)
    (busy : List UInt32) (count now : Nat) :
    mixSpeaker deafened busy count now s = (Playback.discard (busy.contains s.ssrc) s, none) := by
  unfold mixSpeaker
  rw [if_pos (by simpa using hskipped)]

theorem mixSpeaker_of_heard {deafened : Bool} {s : Speaker} (hheard : ¬ (deafened ∨ s.muted))
    (busy : List UInt32) (count now : Nat) :
    mixSpeaker deafened busy count now s = contribute (busy.contains s.ssrc) count now s := by
  unfold mixSpeaker
  rw [if_neg (by simpa using hheard)]

theorem ssrc_muted_mixSpeaker (deafened : Bool) (busy : List UInt32) (count now : Nat)
    (s : Speaker) :
    (mixSpeaker deafened busy count now s).1.ssrc = s.ssrc ∧
      (mixSpeaker deafened busy count now s).1.muted = s.muted := by
  by_cases hskipped : deafened ∨ s.muted
  · rw [mixSpeaker_of_skipped hskipped]
    exact ⟨rfl, rfl⟩
  · rw [mixSpeaker_of_heard hskipped]
    exact (contribute_cases _ _ _ _).1

section
variable (c : Controls) (contention : Contention) (count now : Nat)

/-- A speaker behind one pass. -/
def passed (s : Speaker) : Speaker :=
  if contention.roster then s else (mixSpeaker c.deafened contention.buffers count now s).1

/-- What a pass puts out, given what each speaker adds to it. -/
def output (parts : List (List Sample)) : List Sample :=
  if contention.roster then List.replicate count Sample.zero
    else (sum count parts).map fun s => (s * c.masterGain).fullScale

def part (s : Speaker) : Option (List Sample) :=
  (mixSpeaker c.deafened contention.buffers count now s).2

theorem mixChunk_eq (speakers : List Speaker) :
    mixChunk c contention count now speakers = (speakers.map (passed c contention count now),
      output c contention count (speakers.filterMap (part c contention count now))) := by
  unfold mixChunk output
  split
  · rename_i hbusy
    congr 1
    exact (List.map_id'' (fun s => if_pos hbusy) speakers).symm
  · rename_i hfree
    simp only [List.map_map, List.filterMap_map]
    congr 1
    refine List.map_congr_left fun s _ => ?_
    rw [passed, if_neg hfree]
    rfl

theorem passed_fields (s : Speaker) :
    (passed c contention count now s).ssrc = s.ssrc ∧
      (passed c contention count now s).muted = s.muted := by
  unfold passed
  split
  · exact ⟨rfl, rfl⟩
  · exact ssrc_muted_mixSpeaker ..

theorem length_part {s : Speaker} {samples : List Sample}
    (hpart : part c contention count now s = some samples) : samples.length = count := by
  unfold part at hpart
  by_cases hskipped : c.deafened ∨ s.muted
  · rw [mixSpeaker_of_skipped hskipped] at hpart
    cases hpart
  · rw [mixSpeaker_of_heard hskipped] at hpart
    exact (contribute_cases _ _ _ _).2 samples hpart

theorem part_of_skipped {s : Speaker} (hskipped : c.deafened ∨ s.muted) :
    part c contention count now s = none := by
  rw [part, mixSpeaker_of_skipped hskipped]

theorem filterMap_part_unmuted (speakers : List Speaker) :
    (unmuted speakers).filterMap (part c contention count now) =
      speakers.filterMap (part c contention count now) := by
  induction speakers with
  | nil => rfl
  | cons s speakers ih =>
      cases hmuted : s.muted with
      | true =>
          rw [List.filterMap_cons_none (part_of_skipped _ _ _ _ (.inr hmuted)), ← ih, unmuted,
            List.filter_cons_of_neg (by simp [hmuted])]
          rfl
      | false =>
          rw [unmuted, List.filter_cons_of_pos (by simp [hmuted]), List.filterMap_cons,
            List.filterMap_cons, ← ih]
          rfl

theorem unmuted_map_passed (speakers : List Speaker) :
    unmuted (speakers.map (passed c contention count now)) =
      (unmuted speakers).map (passed c contention count now) := by
  unfold unmuted
  rw [List.filter_map]
  congr 2
  funext s
  rw [Function.comp_apply, (passed_fields c contention count now s).2]

theorem hushed_passed {s : Speaker} (hfree : Free contention s)
    (hskipped : c.deafened ∨ s.muted) : Hushed (passed c contention count now s) := by
  have hidle : contention.buffers.contains s.ssrc = false := by simpa using hfree.2
  rw [passed, hfree.1, if_neg Bool.false_ne_true, mixSpeaker_of_skipped hskipped, hidle]
  exact hushed_discard s

end

section
variable (c : Controls) (contention : Contention) (now : Nat)

/-- A speaker behind all passes. -/
def followed (counts : List Nat) (s : Speaker) : Speaker :=
  counts.foldl (fun s count => passed c contention count now s) s

theorem mixChunks_speakers (counts : List Nat) (speakers : List Speaker) :
    (mixChunks c contention now counts speakers).1 =
      speakers.map (followed c contention now counts) := by
  induction counts generalizing speakers with
  | nil => exact (List.map_id speakers).symm
  | cons count counts ih =>
      simp only [mixChunks, mixChunk_eq, ih, List.map_map]
      rfl

theorem mixChunks_unmuted (counts : List Nat) (speakers : List Speaker) :
    (mixChunks c contention now counts (unmuted speakers)).2 =
      (mixChunks c contention now counts speakers).2 := by
  induction counts generalizing speakers with
  | nil => rfl
  | cons count counts ih =>
      simp only [mixChunks, mixChunk_eq, filterMap_part_unmuted, ← unmuted_map_passed, ih]

theorem followed_fields (counts : List Nat) (s : Speaker) :
    (followed c contention now counts s).ssrc = s.ssrc ∧
      (followed c contention now counts s).muted = s.muted := by
  induction counts generalizing s with
  | nil => exact ⟨rfl, rfl⟩
  | cons count counts ih =>
      obtain ⟨hssrc, hmuted⟩ := passed_fields c contention count now s
      obtain ⟨hssrc', hmuted'⟩ := ih (passed c contention count now s)
      exact ⟨hssrc'.trans hssrc, hmuted'.trans hmuted⟩

/-- Whatever the passes before it left, the last one leaves a skipped speaker hushed. -/
theorem hushed_followed {counts : List Nat} (hcounts : counts ≠ []) {s : Speaker}
    (hfree : Free contention s) (hskipped : c.deafened ∨ s.muted) :
    Hushed (followed c contention now counts s) := by
  obtain ⟨counts, last, rfl⟩ := List.eq_nil_or_concat counts |>.resolve_left hcounts
  obtain ⟨hssrc, hmuted⟩ := followed_fields c contention now counts s
  rw [List.concat_eq_append, followed, List.foldl_append]
  refine hushed_passed c contention last now (s := followed c contention now counts s) ?_ ?_
  · exact ⟨hfree.1, hssrc ▸ hfree.2⟩
  · exact hmuted ▸ hskipped

end

theorem length_foldl_zipWith {count : Nat} {parts : List (List Sample)}
    (hparts : ∀ part ∈ parts, part.length = count) {start : List Sample}
    (hstart : start.length = count) :
    (parts.foldl (List.zipWith (· + ·)) start).length = count := by
  induction parts generalizing start with
  | nil => exact hstart
  | cons part parts ih =>
      refine ih (fun part hpart => hparts part (List.mem_cons_of_mem _ hpart)) ?_
      rw [List.length_zipWith, hstart, hparts part List.mem_cons_self, Nat.min_self]

theorem length_output (c : Controls) (contention : Contention) {count : Nat}
    {parts : List (List Sample)} (hparts : ∀ part ∈ parts, part.length = count) :
    (output c contention count parts).length = count := by
  unfold output
  split
  · exact List.length_replicate
  · rw [List.length_map]
    exact length_foldl_zipWith hparts List.length_replicate

theorem length_mixChunks (c : Controls) (contention : Contention) (now : Nat) (counts : List Nat)
    (speakers : List Speaker) :
    (mixChunks c contention now counts speakers).2.length = counts.sum := by
  induction counts generalizing speakers with
  | nil => rfl
  | cons count counts ih =>
      simp only [mixChunks, mixChunk_eq, List.length_append, ih, List.sum_cons]
      rw [length_output c contention]
      intro samples hsamples
      obtain ⟨s, -, hpart⟩ := List.mem_filterMap.mp hsamples
      exact length_part c contention count now hpart

theorem sum_chunks (scratch length : Nat) : (chunks scratch length).sum = length := by
  have hwhole := Nat.div_add_mod' length scratch
  unfold chunks
  rw [List.sum_append, List.sum_replicate_nat]
  split
  · rw [List.sum_nil]
    omega
  · rw [List.sum_singleton]
    omega

theorem chunks_ne_nil {length : Nat} (hlength : 0 < length) (scratch : Nat) :
    chunks scratch length ≠ [] := by
  intro hnil
  have hsum := sum_chunks scratch length
  rw [hnil, List.sum_nil] at hsum
  omega

/-- Silence stays silence under a gain that is finite. -/
theorem fullScale_zero_mul {gain : Sample} (hgain : gain.isFinite) :
    (Sample.zero * gain).fullScale == Sample.zero := by
  have hproduct : Sample.zero * gain = Sample.zero ∨ Sample.zero * gain = -Sample.zero := by
    have hzero : Sample.zero.toModel.unpack = .zero .positive := rfl
    have hfinite : gain.toModel.unpack.isFinite = true := hgain
    change Float32.ofModel
        (.pack (.mul .binary32 Sample.zero.toModel.unpack gain.toModel.unpack)) = Sample.zero ∨
      Float32.ofModel
        (.pack (.mul .binary32 Sample.zero.toModel.unpack gain.toModel.unpack)) = -Sample.zero
    rw [hzero]
    generalize gain.toModel.unpack = unpacked at hfinite
    cases unpacked with
    | notANumber => cases hfinite
    | infinity sign => cases hfinite
    | zero sign =>
        cases sign with
        | positive => exact .inl rfl
        | negative => exact .inr rfl
    | finite sign mantissa exponent positive =>
        cases sign with
        | positive => exact .inl rfl
        | negative => exact .inr rfl
  rcases hproduct with hproduct | hproduct
  · rw [hproduct]
    decide +kernel
  · rw [hproduct]
    decide +kernel

theorem output_of_deafened {c : Controls} (hgain : c.masterGain.isFinite) (contention : Contention)
    (count : Nat) : ∀ sample ∈ output c contention count [], sample == Sample.zero := by
  intro sample hsample
  unfold output at hsample
  split at hsample
  · rw [List.eq_of_mem_replicate hsample]
    decide +kernel
  · obtain ⟨silence, hsilence, rfl⟩ := List.mem_map.mp hsample
    rw [List.eq_of_mem_replicate hsilence]
    exact fullScale_zero_mul hgain

theorem mixChunks_of_deafened {c : Controls} (hdeafened : c.deafened)
    (hgain : c.masterGain.isFinite) (contention : Contention) (now : Nat) (counts : List Nat)
    (speakers : List Speaker) :
    ∀ sample ∈ (mixChunks c contention now counts speakers).2, sample == Sample.zero := by
  induction counts generalizing speakers with
  | nil => simp [mixChunks]
  | cons count counts ih =>
      have hparts : speakers.filterMap (part c contention count now) = [] :=
        List.filterMap_eq_nil_iff.mpr fun s _ => part_of_skipped _ _ _ _ (.inl hdeafened)
      simp only [mixChunks, mixChunk_eq, hparts, List.mem_append]
      rintro sample (hsample | hsample)
      · exact output_of_deafened hgain contention count sample hsample
      · exact ih _ sample hsample

theorem speakers_mix (m : Mixer) (r : Roster) (c : Controls) (contention : Contention)
    (length now : Nat) :
    (m.mix r c contention length now).1.speakers =
      (mixChunks c contention now (chunks m.scratch length) r.speakers).1 :=
  speakers_replace r (map_mixChunks (fun _ _ _ => rfl) c contention now _ r.speakers)

/-- The speakers of a mix have nothing but the sum to do with each other. Every speaker is left as
if it had been mixed alone, muted ones add nothing and are emptied, and while deafened all are
emptied and the output is silent. They have nothing to do with what the memory they share held
before, or the output. -/
theorem mix_isolates (m : Mixer) (r : Roster) (c : Controls) (contention : Contention)
    {length : Nat} (hlength : 0 < length) (now : Nat) :
    let mixed (r : Roster) := m.mix r c contention length now
    let speakers := (mixed r).1.speakers
    let out := (mixed r).2.2
    out.length = length ∧ out = (mixed (rosterOf (unmuted r.speakers))).2.2 ∧
      List.Forall₂ (fun s after =>
        after.ssrc = s.ssrc ∧ after.muted = s.muted ∧ (mixed (rosterOf [s])).1.speakers = [after] ∧
          (Free contention s → c.deafened ∨ s.muted → Hushed after)) r.speakers speakers ∧
      (c.deafened → c.masterGain.isFinite → ∀ sample ∈ out, sample == Sample.zero) ∧
      ∀ scratch stale : List Sample, 0 < m.scratch → scratch.length = m.scratch →
        stale.length = length → ∃ scratch', mix? c contention now (scratch, r.speakers) stale =
          some ((scratch', speakers), out) ∧ scratch'.length = m.scratch := by
  intro mixed speakers out
  have hcounts := chunks_ne_nil hlength m.scratch
  have hspeakers : speakers = (mixChunks c contention now (chunks m.scratch length) r.speakers).1 :=
    speakers_mix m r c contention length now
  refine ⟨?_, ?_, ?_, ?_, ?_⟩
  · exact (length_mixChunks c contention now _ _).trans (sum_chunks m.scratch length)
  · change _ = (mixChunks c contention now _ (rosterOf (unmuted r.speakers)).speakers).2
    rw [speakers_rosterOf]
    exact (mixChunks_unmuted c contention now _ _).symm
  · simp only [hspeakers, mixed, speakers_mix, speakers_rosterOf, mixChunks_speakers]
    rw [List.forall₂_map_right_iff]
    refine List.forall₂_same.mpr fun s _ => ?_
    obtain ⟨hssrc, hmuted⟩ := followed_fields c contention now (chunks m.scratch length) s
    exact ⟨hssrc, hmuted, rfl, hushed_followed c contention now hcounts⟩
  · exact fun hdeafened hgain => mixChunks_of_deafened hdeafened hgain contention now _ _
  · rintro scratch stale hsome hscratch rfl
    obtain ⟨scratch', hmix, hkept⟩ :=
      exists_mix? c contention now r.speakers (hscratch ▸ hsome) stale
    rw [hscratch] at hmix hkept
    exact ⟨scratch', hspeakers ▸ hmix, hkept⟩

/-- A muted speaker with as much to say as the one beside it, and memory that is not empty. -/
theorem mix_isolates_muted_neighbour :
    let loud := ((Speaker.create 101 none 0 0 20).write [Sample.half, Sample.half] 0).1
    let muted := { loud with ssrc := 202, serial := 1, muted := true }
    let mixed (speakers : List Speaker) :=
      (Mixer.create 1).mix (rosterOf speakers) (.create Sample.one) .none 2 0
    (mixed [loud, muted]).2.2 = (mixed [loud]).2.2 ∧
      (∃ scratch', mix? (.create Sample.one) .none 0 ([Sample.one], [loud, muted])
        [Sample.one, Sample.one] =
          some ((scratch', (mixed [loud, muted]).1.speakers), (mixed [loud, muted]).2.2)) ∧
      ∃ after hushed, (mixed [loud, muted]).1.speakers = [after, hushed] ∧
        (mixed [loud]).1.speakers = [after] ∧ Hushed hushed := by
  intro loud muted mixed
  obtain ⟨-, hout, hspeakers, -, hmemory⟩ := mix_isolates (.create 1) (rosterOf [loud, muted])
    (.create Sample.one) .none (by decide : 0 < 2) 0
  obtain ⟨scratch', hmix, -⟩ := hmemory [Sample.one] [Sample.one, Sample.one] (by decide) rfl rfl
  refine ⟨hout, ⟨scratch', hmix⟩, ?_⟩
  change List.Forall₂ _ _ (mixed [loud, muted]).1.speakers at hspeakers
  generalize (mixed [loud, muted]).1.speakers = speakers at hspeakers ⊢
  rcases hspeakers with _ | ⟨⟨-, -, hloud, -⟩, _ | ⟨⟨-, -, -, hhushed⟩, ⟨⟩⟩⟩
  exact ⟨_, _, rfl, hloud, hhushed (free_none muted) (.inr rfl)⟩

end VoiceCall.Proofs.Playback.Isolation
