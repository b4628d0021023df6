import VoiceCall.Proofs.Audio.Peaks
import VoiceCall.Proofs.Playback.Isolation

namespace VoiceCall.Proofs.Playback.Levels

open VoiceCall.Playback
open VoiceCall.Proofs.Audio.Peaks
open VoiceCall.Proofs.Playback.Isolation
open VoiceCall.Proofs.Speaker.Keys

variable (c : Controls) (contention : Contention) (now : Nat)

/-- What a speaker adds to the output of a pass. -/
def added (count : Nat) (s : Speaker) : List Sample :=
  if contention.roster then [] else (part c contention count now s).getD []

/-- What a speaker adds, pass by pass. -/
def pieces : List Nat → Speaker → List (List Sample)
  | [], _ => []
  | count :: counts, s =>
    added c contention now count s :: pieces counts (passed c contention count now s)

/-- What is read from a speaker's buffer, after the speaker's gain. -/
def played (s : Speaker) (samples : List Sample) : List Sample :=
  if s.gain == Sample.one then samples else samples.map (· * s.gain)

theorem contribute_of_none {s : Speaker} {count now : Nat} {buffer : Buffer.Jitter}
    (hread : s.buffer.read count now = (none, buffer)) :
    contribute false count now s = ({ s with buffer := buffer, level := Sample.zero }, none) := by
  rw [contribute, if_neg Bool.false_ne_true, hread]

theorem contribute_of_some {s : Speaker} {count now : Nat} {samples : List Sample}
    {buffer : Buffer.Jitter} (hread : s.buffer.read count now = (some samples, buffer)) :
    contribute false count now s =
      ({ s with buffer := buffer, level := peakLevel (played s samples) },
        some (played s samples)) := by
  rw [contribute, if_neg Bool.false_ne_true, hread]
  rfl

theorem level_contribute (count : Nat) (s : Speaker) :
    (contribute false count now s).1.level =
      peakLevel ((contribute false count now s).2.getD []) := by
  rcases hread : s.buffer.read count now with ⟨_ | samples, buffer⟩
  · rw [contribute_of_none hread]
    rfl
  · rw [contribute_of_some hread]
    rfl

theorem passed_of_free {contention : Contention} (hroster : contention.roster = false)
    (count : Nat) (s : Speaker) :
    passed c contention count now s = (mixSpeaker c.deafened contention.buffers count now s).1 ∧
      added c contention now count s =
        (mixSpeaker c.deafened contention.buffers count now s).2.getD [] := by
  rw [passed, added, hroster]
  exact ⟨rfl, rfl⟩

theorem level_passed {contention : Contention} (hroster : contention.roster = false) (count : Nat)
    (s : Speaker) :
    (passed c contention count now s).level = peakLevel (added c contention now count s) := by
  obtain ⟨hpassed, hadded⟩ := passed_of_free c now hroster count s
  rw [hpassed, hadded]
  by_cases hskipped : c.deafened ∨ s.muted
  · rw [mixSpeaker_of_skipped hskipped]
    rfl
  · rw [mixSpeaker_of_heard hskipped]
    cases contention.buffers.contains s.ssrc with
    | true => rfl
    | false => exact level_contribute now count s

theorem passed_of_busy {contention : Contention} (hroster : contention.roster) (count : Nat)
    (s : Speaker) :
    passed c contention count now s = s ∧ added c contention now count s = [] :=
  ⟨if_pos hroster, if_pos hroster⟩

theorem followed_of_busy {contention : Contention} (hroster : contention.roster)
    (counts : List Nat) (s : Speaker) :
    followed c contention now counts s = s ∧ (pieces c contention now counts s).flatten = [] := by
  induction counts with
  | nil => exact ⟨rfl, rfl⟩
  | cons count counts ih =>
      obtain ⟨hpassed, hadded⟩ := passed_of_busy c now hroster count s
      rw [followed, List.foldl_cons, pieces, List.flatten_cons, hpassed, hadded]
      exact ih

/-- What the passes before the last one add comes first, and the level is about the last one. -/
theorem exists_pieces_eq {contention : Contention} (hroster : contention.roster = false)
    {counts : List Nat} (hcounts : counts ≠ []) (s : Speaker) :
    ∃ latest, pieces c contention now counts s =
        (pieces c contention now counts s).dropLast ++ [latest] ∧
      (followed c contention now counts s).level = peakLevel latest := by
  induction counts generalizing s with
  | nil => exact absurd rfl hcounts
  | cons count counts ih =>
      cases counts with
      | nil => exact ⟨_, rfl, level_passed c now hroster count s⟩
      | cons next counts =>
          obtain ⟨latest, hpieces, hlevel⟩ :=
            ih (List.cons_ne_nil next counts) (passed c contention count now s)
          have hrest : pieces c contention now (next :: counts)
              (passed c contention count now s) ≠ [] := List.cons_ne_nil _ _
          refine ⟨latest, ?_, hlevel⟩
          rw [pieces, List.dropLast_cons_of_ne_nil hrest, List.cons_append, ← hpieces]

theorem peak_followed_iff {counts : List Nat} (hcounts : counts ≠ []) (s : Speaker) :
    let said := pieces c contention now counts s
    let after := followed c contention now counts s
    Peak said.flatten after.level ↔
      if contention.roster then s.level = Sample.zero
        else ∀ sample ∈ said.dropLast.flatten, ¬ after.level < sample.abs := by
  intro said after
  cases hroster : contention.roster with
  | true =>
      obtain ⟨hfollowed, hpieces⟩ := followed_of_busy c now hroster counts s
      rw [if_pos rfl]
      simp only [said, after, hfollowed, hpieces]
      exact peak_nil_iff
  | false =>
      obtain ⟨latest, hsaid, hlevel⟩ := exists_pieces_eq c now hroster hcounts s
      have hpeak : Peak latest after.level := by
        simp only [after, hlevel]
        exact peak_peakLevel latest
      have hflatten : said.flatten = said.dropLast.flatten ++ latest := by
        conv_lhs => rw [show said = said.dropLast ++ [latest] from hsaid]
        simp
      rw [if_neg Bool.false_ne_true, hflatten]
      exact peak_append_iff hpeak _

/-- The level of the playback is the peak of the whole output. The level of a speaker is the peak of
what the last pass heard of it, so it covers the output exactly if nothing that it said in the
passes before was louder. -/
theorem mix_levels (m : Mixer) (r : Roster) {length : Nat} (hlength : 0 < length) :
    let mixed := m.mix r c contention length now
    let said := pieces c contention now (chunks m.scratch length)
    Peak mixed.2.2 mixed.2.1.level ∧
      List.Forall₂ (fun s after => Peak (said s).flatten after.level ↔
        if contention.roster then s.level = Sample.zero
          else ∀ sample ∈ (said s).dropLast.flatten, ¬ after.level < sample.abs)
        r.speakers mixed.1.speakers := by
  intro mixed said
  refine ⟨peak_peakLevel _, ?_⟩
  simp only [mixed, speakers_mix, mixChunks_speakers]
  rw [List.forall₂_map_right_iff]
  refine List.forall₂_same.mpr fun s _ => ?_
  exact peak_followed_iff c contention now (chunks_ne_nil hlength m.scratch) s

/-- One sample after the other, the second no louder than the first. -/
theorem mix_levels_steady :
    let s := ((Speaker.create 101 none 0 0 20).write [Sample.half, Sample.half] 0).1
    let said := pieces (.create Sample.one) .none 0 (chunks 1 2) s
    let mixed := (Mixer.create 1).mix (rosterOf [s]) (.create Sample.one) .none 2 0
    ∃ after, mixed.1.speakers = [after] ∧ said = [[Sample.half], [Sample.half]] ∧
      Peak said.flatten after.level := by
  intro s said mixed
  obtain ⟨-, hspeakers⟩ := mix_levels (.create Sample.one) .none 0 (.create 1) (rosterOf [s])
    (by decide : 0 < 2)
  have hmixed : mixed.1.speakers = [followed (.create Sample.one) .none 0 (chunks 1 2) s] := rfl
  change List.Forall₂ _ [s] mixed.1.speakers at hspeakers
  rw [hmixed, List.forall₂_cons] at hspeakers
  exact ⟨_, hmixed, by decide +kernel, hspeakers.1.mpr (by decide +kernel)⟩

/-- Of two passes the second finds nothing left, and the level of the first is forgotten. -/
theorem not_peak_of_last_silent :
    let s := ((Speaker.create 101 none 0 0 20).write [Sample.half] 0).1
    let said := pieces (.create Sample.one) .none 0 (chunks 1 2) s
    let mixed := (Mixer.create 1).mix (rosterOf [s]) (.create Sample.one) .none 2 0
    ∃ after, mixed.1.speakers = [after] ∧ said = [[Sample.half], []] ∧
      mixed.2.2 = [Sample.half, Sample.zero] ∧ ¬ Peak said.flatten after.level := by
  intro s said mixed
  have hsaid : said = [[Sample.half], []] := by decide +kernel
  refine ⟨followed (.create Sample.one) .none 0 (chunks 1 2) s, rfl, hsaid,
    by decide +kernel, fun hpeak => ?_⟩
  rw [hsaid] at hpeak
  exact hpeak.bound Sample.half List.mem_cons_self (by decide +kernel)

end VoiceCall.Proofs.Playback.Levels
