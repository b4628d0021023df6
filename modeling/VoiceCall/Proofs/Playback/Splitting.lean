import VoiceCall.Proofs.Audio.Peaks
import VoiceCall.Proofs.Playback.Isolation

namespace VoiceCall.Proofs.Playback.Splitting

open VoiceCall.Playback
open VoiceCall.Proofs.Audio.Peaks
open VoiceCall.Proofs.Playback.Isolation
open VoiceCall.Proofs.Speaker.Keys

/-- A piece that fills its passes leaves those of the rest as they would be without it. -/
theorem chunks_add {scratch a : Nat} (ha : scratch ∣ a) (b : Nat) :
    chunks scratch (a + b) = chunks scratch a ++ chunks scratch b := by
  obtain ⟨n, rfl⟩ := ha
  rcases Nat.eq_zero_or_pos scratch with rfl | hpos
  · simp [chunks]
  · have hwhole : (scratch * n + b) / scratch = n + b / scratch := Nat.mul_add_div hpos n b
    have hrest : (scratch * n + b) % scratch = b % scratch := Nat.mul_add_mod scratch n b
    have hfilled : chunks scratch (scratch * n) = List.replicate n scratch := by
      rw [chunks, Nat.mul_div_cancel_left n hpos, Nat.mul_mod_right, if_pos rfl, List.append_nil]
    rw [hfilled, chunks, hwhole, hrest, List.replicate_add, List.append_assoc]
    rfl

section
variable (c : Controls) (contention : Contention) (now : Nat)

/-- The passes behind start with the speakers as those before them left them. -/
theorem mixChunks_append (counts counts' : List Nat) (speakers : List Speaker) :
    mixChunks c contention now (counts ++ counts') speakers =
      let first := mixChunks c contention now counts speakers
      let second := mixChunks c contention now counts' first.1
      (second.1, first.2 ++ second.2) := by
  induction counts generalizing speakers with
  | nil => rfl
  | cons count counts ih => simp only [List.cons_append, mixChunks, ih, List.append_assoc]

/-- No pass reads what the output before was like. -/
theorem mixChunks_level (level : Sample) (counts : List Nat) (speakers : List Speaker) :
    mixChunks { c with level := level } contention now counts speakers =
      mixChunks c contention now counts speakers := by
  induction counts generalizing speakers with
  | nil => rfl
  | cons count counts ih =>
      have hchunk : mixChunk { c with level := level } contention count now speakers =
          mixChunk c contention count now speakers := rfl
      simp only [mixChunks, hchunk, ih]

end

/-- An output that is cut where a pass ends has the same samples and leaves the same speakers as an
output mixed at once. Only the level of the playback tells them apart: that of the whole is the
larger of the two. -/
theorem mix_in_pieces (m : Mixer) (r : Roster) (c : Controls) (contention : Contention) {a : Nat}
    (ha : m.scratch ∣ a) (b now : Nat) :
    let whole := m.mix r c contention (a + b) now
    let first := m.mix r c contention a now
    let second := m.mix first.1 first.2.1 contention b now
    whole.2.2 = first.2.2 ++ second.2.2 ∧ whole.1 = second.1 ∧
      whole.2.1 =
        { second.2.1 with level := Sample.larger first.2.1.level second.2.1.level } := by
  intro whole first second
  have hwhole := mixChunks_append c contention now (chunks m.scratch a) (chunks m.scratch b)
    r.speakers
  rw [← chunks_add ha b] at hwhole
  refine ⟨?_, eq_of_speakers ?_ rfl, ?_⟩
  all_goals
    simp only [whole, first, second, Mixer.mix, speakers_replace, mixChunks_level, hwhole,
      peakLevel_append]

/-- The audio ends in the middle of the second piece, which is silent then. -/
theorem mix_in_pieces_ending :
    let s := ((Speaker.create 101 none 0 0 20).write [.half, .half, .half] 0).1
    let whole := (Mixer.create 2).mix (rosterOf [s]) (.create .one) .none 4 0
    let first := (Mixer.create 2).mix (rosterOf [s]) (.create .one) .none 2 0
    let second := (Mixer.create 2).mix first.1 first.2.1 .none 2 0
    (Mixer.create 2).scratch ∣ 2 ∧ whole.2.2 = [.half, .half, .zero, .zero] ∧
      first.2.2 ++ second.2.2 = whole.2.2 ∧ second.1 = whole.1 ∧
      second.2.1.level = Sample.zero ∧ whole.2.1.level = Sample.half := by
  intro s whole first second
  have hfilled : (Mixer.create 2).scratch ∣ 2 := Nat.dvd_refl 2
  obtain ⟨hout, hspeakers, hlevel⟩ :=
    mix_in_pieces (.create 2) (rosterOf [s]) (.create .one) .none hfilled 2 0
  have hsecond : second.2.1.level = Sample.zero := by decide +kernel
  have hfirst : first.2.1.level = Sample.half := by decide +kernel
  refine ⟨hfilled, by decide +kernel, hout.symm, hspeakers.symm, hsecond, ?_⟩
  change whole.2.1 =
    { second.2.1 with level := Sample.larger first.2.1.level second.2.1.level } at hlevel
  rw [hlevel, hfirst, hsecond]
  decide +kernel

/-- A cut within a pass lets a sample be heard that is too few for the pass. -/
example :
    let s := ((Speaker.create 101 none 0 0 20).write [.half] 0).1
    let first := (Mixer.create 2).mix (rosterOf [s]) (.create .one) .none 1 0
    ((Mixer.create 2).mix (rosterOf [s]) (.create .one) .none 2 0).2.2 = [.zero, .zero] ∧
      first.2.2 ++ ((Mixer.create 2).mix first.1 first.2.1 .none 1 0).2.2 = [.half, .zero] := by
  decide +kernel

end VoiceCall.Proofs.Playback.Splitting
