import VoiceCall.Playback.Mixer
import VoiceCall.Proofs.Buffer.Memory
import VoiceCall.Proofs.Sound.Groups

/-!
The mixer in memory. All speakers of all passes are read into the same places, which keep what the
last one left there, and are added up in the places of the output.
-/

namespace VoiceCall.Proofs.Playback.Scratch

open VoiceCall.Playback
open VoiceCall.Proofs.Buffer.Memory
open VoiceCall.Proofs.Sound.Groups

/-- The samples of a speaker go into the window, which they fill entirely or leave as it is. The
gain is applied there, and the whole window is added to the output. -/
def mixSpeaker? (deafened : Bool) (busy : List UInt32) (now : Nat)
    (desk : List Sample × List Sample) (s : Speaker) :
    Option ((List Sample × List Sample) × List Speaker) :=
  let (window, out) := desk
  let busy := busy.contains s.ssrc
  if deafened || s.muted then
    some (desk, [discard busy s])
  else
    let (read, buffer) := if busy then (none, s.buffer) else s.buffer.read window.length now
    match read with
    | none => some (desk, [{ s with buffer := buffer, level := Sample.zero }])
    | some samples => do
      let window ← writeFront? window samples
      let window := if s.gain == Sample.one then window else window.map (· * s.gain)
      return ((window, List.zipWith (· + ·) out window),
        [{ s with buffer := buffer, level := peakLevel window }])

def mixChunk? (c : Controls) (contention : Contention) (now : Nat)
    (desk : List Sample × List Speaker) (out : List Sample) :
    Option ((List Sample × List Speaker) × List Sample) := do
  let (scratch, speakers) := desk
  let out := out.map fun _ => Sample.zero
  if contention.roster then
    return (desk, out)
  let window ← front? scratch out.length
  let ((window, out), speakers) ←
    runAll? (mixSpeaker? c.deafened contention.buffers now) (window, out) speakers
  let scratch ← writeFront? scratch window
  return ((scratch, speakers), out.map fun s => (s * c.masterGain).fullScale)

/-- Mixes into an output, one piece of the size of the scratch memory after the other. -/
def mix? (c : Controls) (contention : Contention) (now : Nat)
    (desk : List Sample × List Speaker) (out : List Sample) :
    Option ((List Sample × List Speaker) × List Sample) :=
  runAll? (mixChunk? c contention now) desk (slices desk.1.length out)

theorem length_of_read {b : Buffer.Jitter} {count now : Nat} {samples : List Sample}
    (hread : (b.read count now).1 = some samples) : samples.length = count := by
  unfold Buffer.Jitter.read Buffer.SampleQueue.pop at hread
  split at hread
  · split at hread
    · rename_i hpop
      split at hpop
      · cases hpop
      · cases hpop
        cases hread
        exact List.length_take_of_le (by unfold Buffer.SampleQueue.length at *; omega)
    · cases hread
  · cases hread

/-- An output with what a speaker adds to it. -/
def added (out : List Sample) (part : Option (List Sample)) : List Sample :=
  part.elim out (List.zipWith (· + ·) out)

section
variable (deafened : Bool) (busy : List UInt32) (now : Nat)

/-- No part of the window that is added was there before: a read that succeeds fills it. -/
theorem exists_mixSpeaker? {window out : List Sample} (hwindow : window.length = out.length)
    (s : Speaker) :
    let mixed := mixSpeaker deafened busy out.length now s
    ∃ window', mixSpeaker? deafened busy now (window, out) s =
        some ((window', added out mixed.2), [mixed.1]) ∧
      window'.length = window.length ∧ (added out mixed.2).length = out.length := by
  intro mixed
  simp only [mixed, mixSpeaker, mixSpeaker?, contribute, hwindow]
  by_cases hskipped : (deafened || s.muted) = true
  · rw [if_pos hskipped, if_pos hskipped]
    exact ⟨window, rfl, hwindow, rfl⟩
  · rw [if_neg hskipped, if_neg hskipped]
    rcases hread : (if busy.contains s.ssrc then (none, s.buffer)
      else s.buffer.read out.length now) with ⟨_ | samples, buffer⟩
    · exact ⟨window, rfl, hwindow, rfl⟩
    · have hlength : samples.length = out.length := by
        split at hread
        · cases hread
        · exact length_of_read (congrArg Prod.fst hread)
      have hfilled : writeFront? window samples = some samples := by
        have hnothing : window.drop samples.length = [] :=
          List.drop_of_length_le (by omega)
        rw [writeFront?, if_pos (by omega), hnothing, List.append_nil]
      refine ⟨if s.gain == Sample.one then samples else samples.map (· * s.gain), ?_, ?_, ?_⟩
      · simp only [hfilled, Option.bind_eq_bind, Option.bind_some]
        rfl
      · split
        · exact hlength
        · exact (List.length_map _).trans hlength
      · simp only [added, Option.elim_some, List.length_zipWith]
        split
        · omega
        · rw [List.length_map]
          omega

theorem exists_runAll?_mixSpeaker? (speakers : List Speaker) {window out : List Sample}
    (hwindow : window.length = out.length) :
    let mixed := speakers.map (mixSpeaker deafened busy out.length now)
    let sum := (mixed.filterMap Prod.snd).foldl (List.zipWith (· + ·)) out
    ∃ window', runAll? (mixSpeaker? deafened busy now) (window, out) speakers =
        some ((window', sum), mixed.map Prod.fst) ∧
      window'.length = window.length ∧ sum.length = out.length := by
  induction speakers generalizing window out with
  | nil => exact ⟨window, rfl, rfl, rfl⟩
  | cons s speakers ih =>
      obtain ⟨window', hfirst, hlength, hadded⟩ := exists_mixSpeaker? deafened busy now hwindow s
      obtain ⟨window'', hrest, hlength', hsum⟩ := ih (hlength.trans (hwindow.trans hadded.symm))
      rw [hadded] at hrest hsum
      refine ⟨window'', ?_, hlength'.trans hlength, ?_⟩
      · rw [runAll?_cons hfirst hrest]
        cases hpart : (mixSpeaker deafened busy out.length now s).2 <;>
          simp [hpart, added]
      · cases hpart : (mixSpeaker deafened busy out.length now s).2 <;>
          simpa [hpart, added] using hsum

end

section
variable (c : Controls) (contention : Contention) (now : Nat)

theorem exists_mixChunk? (speakers : List Speaker) {scratch out : List Sample}
    (hroom : out.length ≤ scratch.length) :
    ∃ scratch', mixChunk? c contention now (scratch, speakers) out =
        some ((scratch', (mixChunk c contention out.length now speakers).1),
          (mixChunk c contention out.length now speakers).2) ∧
      scratch'.length = scratch.length := by
  have hsilence : (out.map fun _ => Sample.zero) = List.replicate out.length Sample.zero :=
    List.map_const'
  have hwindow : (scratch.take out.length).length =
      (List.replicate out.length Sample.zero).length := by
    rw [List.length_take_of_le hroom, List.length_replicate]
  unfold mixChunk mixChunk?
  by_cases hbusy : contention.roster = true
  · refine ⟨scratch, ?_, rfl⟩
    simp only [if_pos hbusy, hsilence]
    rfl
  · obtain ⟨window, hrun, hlength, -⟩ :=
      exists_runAll?_mixSpeaker? c.deafened contention.buffers now speakers hwindow
    rw [List.length_replicate] at hrun
    have hfits : window.length ≤ scratch.length := by
      rw [hlength, List.length_take_of_le hroom]
      exact hroom
    obtain ⟨scratch', hwrite, hkept, -⟩ := exists_writeFront? hfits
    refine ⟨scratch', ?_, hkept⟩
    simp only [if_neg hbusy, hsilence, front?, List.length_replicate, if_pos hroom, hrun, hwrite,
      Option.bind_eq_bind, Option.bind_some, pure]
    rfl

theorem mixChunks_cons (count : Nat) (counts : List Nat) (speakers : List Speaker) :
    mixChunks c contention now (count :: counts) speakers =
      ((mixChunks c contention now counts (mixChunk c contention count now speakers).1).1,
        (mixChunk c contention count now speakers).2 ++
          (mixChunks c contention now counts (mixChunk c contention count now speakers).1).2) :=
  rfl

/-- Pieces that fit into the scratch memory are mixed in it as they would be in fresh memory. -/
theorem exists_runAll?_mixChunk? {pieces : List (List Sample)} (speakers : List Speaker)
    {scratch : List Sample} (hroom : ∀ piece ∈ pieces, piece.length ≤ scratch.length) :
    let mixed := mixChunks c contention now (pieces.map List.length) speakers
    ∃ scratch', runAll? (mixChunk? c contention now) (scratch, speakers) pieces =
        some ((scratch', mixed.1), mixed.2) ∧
      scratch'.length = scratch.length := by
  induction pieces generalizing scratch speakers with
  | nil => exact ⟨scratch, rfl, rfl⟩
  | cons piece pieces ih =>
      obtain ⟨hpiece, hpieces⟩ := List.forall_mem_cons.mp hroom
      obtain ⟨scratch', hfirst, hlength⟩ := exists_mixChunk? c contention now speakers hpiece
      obtain ⟨scratch'', hrest, hlength'⟩ := ih _ fun piece h => hlength ▸ hpieces piece h
      rw [List.map_cons, mixChunks_cons]
      exact ⟨scratch'', runAll?_cons hfirst hrest, hlength'.trans hlength⟩

end

theorem map_length_slices {size : Nat} (out : List Sample) :
    (slices size out).map List.length = chunks size out.length := by
  have hfull : (groups size out).map List.length =
      List.replicate (out.length / size) size := by
    refine List.eq_replicate_iff.mpr ⟨(List.length_map _).trans (length_groups out), ?_⟩
    intro count hcount
    obtain ⟨group, hgroup, rfl⟩ := List.mem_map.mp hcount
    exact length_of_mem_groups hgroup
  rw [slices, chunks, List.map_append, hfull, ← length_remainder]
  cases remainder size out with
  | nil => rfl
  | cons sample rest => rfl

/-- The mixer never leaves its memory, and what is in it before plays no part. -/
theorem exists_mix? (c : Controls) (contention : Contention) (now : Nat) (speakers : List Speaker)
    {scratch : List Sample} (hscratch : 0 < scratch.length) (out : List Sample) :
    let mixed := mixChunks c contention now (chunks scratch.length out.length) speakers
    ∃ scratch', mix? c contention now (scratch, speakers) out =
        some ((scratch', mixed.1), mixed.2) ∧
      scratch'.length = scratch.length := by
  have hroom : ∀ piece ∈ slices scratch.length out, piece.length ≤ scratch.length := by
    intro piece hpiece
    rcases List.mem_append.mp hpiece with hgroup | hrest
    · exact Nat.le_of_eq (length_of_mem_groups hgroup)
    · split at hrest
      · cases hrest
      · rw [List.mem_singleton.mp hrest]
        exact Nat.le_of_lt (length_remainder_lt hscratch out)
  rw [← map_length_slices]
  exact exists_runAll?_mixChunk? c contention now speakers hroom

end VoiceCall.Proofs.Playback.Scratch
