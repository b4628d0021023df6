import VoiceCall.Proofs.Buffer.Memory
import VoiceCall.Proofs.Playback.Isolation
import VoiceCall.Proofs.Sound.Groups
import VoiceCall.Session.Media
import VoiceCall.Sound.Adapter

namespace VoiceCall.Proofs.Sound.Filling

open VoiceCall.Sound
open VoiceCall.Proofs.Buffer.Memory
open VoiceCall.Proofs.Playback.Isolation (length_mixChunks sum_chunks)
open VoiceCall.Proofs.Sound.Groups

variable {α β σ : Type} [DeviceSample α]

/-- A source gives as many samples as it is asked for. -/
def Fills (render : Renderer σ) : Prop :=
  ∀ source count, (render source count).1.length = count

/-- All that a source gives for one request after the other, and the source behind them. -/
def rendered (render : Renderer σ) : List Nat → σ → List Sample × σ
  | [], source => ([], source)
  | count :: counts, source =>
    let (pcm, source) := render source count
    let (rest, source) := rendered render counts source
    (pcm ++ rest, source)

/-- What a device plays of a pair on one of its channels, which are numbered from zero. -/
def voice (channels : Nat) (left right : Sample) (channel : Nat) : α :=
  if channels = 1 then DeviceSample.ofSample (Sample.mean left right)
  else if channel = 0 then DeviceSample.ofSample left
  else if channel = 1 then DeviceSample.ofSample right
  else DeviceSample.silence

/-- The device frame of a pair. -/
def spread (channels : Nat) (pair : List Sample) : List α :=
  (List.range channels).map (voice channels (pair.getD 0 Sample.zero) (pair.getD 1 Sample.zero))

/-- Writes a device frame, channel by channel. -/
def writeFrame? (channels : Nat) (frame : List α) (pair : List Sample) : Option (List α) := do
  let left ← pair[0]?
  let right ← pair[1]?
  if channels = 1 then
    write? frame 0 (DeviceSample.ofSample (Sample.mean left right))
  else
    let frame ← write? frame 0 (DeviceSample.ofSample left)
    let frame ← write? frame 1 (DeviceSample.ofSample right)
    let front ← front? frame 2
    return front ++ List.replicate (frame.length - 2) DeviceSample.silence

/-- Writes as many device frames as there are pairs for. -/
def writeFrames? (channels : Nat) : List (List α) → List (List Sample) → Option (List α)
  | frame :: frames, pair :: pairs => do
    let frame ← writeFrame? channels frame pair
    let rest ← writeFrames? channels frames pairs
    return frame ++ rest
  | frames, _ => some frames.flatten

/-- Fills one chunk of a buffer. The source plays into the front of the scratch memory. -/
def fillChunk? (render : Renderer σ) (channels : Nat) (desk : List Sample × σ) (chunk : List α) :
    Option ((List Sample × σ) × List α) := do
  let (scratch, source) := desk
  let stereo ← front? scratch (chunk.length / channels * Audio.channels)
  let (pcm, source) := render source stereo.length
  let scratch ← writeFront? scratch pcm
  let data ← writeFrames? channels (groups channels chunk) (groups Audio.channels pcm)
  return ((scratch, source), data ++ remainder channels chunk)

def fill? (render : Renderer σ) (channels : UInt16) (data : List α) (desk : List Sample × σ) :
    Option ((List Sample × σ) × List α) :=
  runAll? (fillChunk? render (frameWidth channels)) desk
    (slices (Adapter.chunkFrames * frameWidth channels) data)

theorem length_spread (channels : Nat) (pair : List Sample) :
    (spread channels pair : List α).length = channels := by
  rw [spread, List.length_map, List.length_range]

theorem frame_eq_spread {channels : Nat} (hchannels : 0 < channels) (left right : Sample) :
    (Adapter.frame channels left right : List α) = spread channels [left, right] := by
  unfold Adapter.frame spread
  match channels with
  | 1 => rfl
  | others + 2 =>
      have hothers :
          (List.range others).map (fun other => voice (others + 2) left right (other + 2)) =
            List.replicate others (DeviceSample.silence : α) := by
        refine List.eq_replicate_iff.mpr ⟨by rw [List.length_map, List.length_range], ?_⟩
        intro sample hsample
        obtain ⟨other, -, rfl⟩ := List.mem_map.mp hsample
        simp [voice]
      rw [if_neg (by omega), Nat.add_sub_cancel, ← hothers, List.range_succ_eq_map,
        List.range_succ_eq_map, List.map_cons, List.map_cons, List.map_cons, List.map_map,
        List.map_map]
      simp [voice, Function.comp_def]

theorem frames_eq {channels : Nat} (hchannels : 0 < channels) (pcm : List Sample) :
    (Adapter.frames channels pcm : List α) =
      (groups Audio.channels pcm).flatMap (spread channels) := by
  have hpair : 0 < Audio.channels := by decide
  induction pcm using groups_induction hpair with
  | short pcm h =>
      rw [groups_of_lt h]
      match pcm with
      | [] => rfl
      | [_] => rfl
  | full pcm h ih =>
      match pcm with
      | left :: right :: rest =>
          rw [groups_of_le hpair h, List.flatMap_cons, ← ih, Adapter.frames,
            frame_eq_spread hchannels]
          rfl

theorem writeFrame?_eq {channels : Nat} (hchannels : 0 < channels) {frame : List α}
    (hframe : frame.length = channels) (left right : Sample) :
    writeFrame? channels frame [left, right] = some (spread channels [left, right]) := by
  rw [← frame_eq_spread hchannels, Adapter.frame]
  by_cases hmono : channels = 1
  · obtain ⟨sample, rfl⟩ := List.length_eq_one_iff.mp (hframe.trans hmono)
    rw [if_pos hmono]
    simp [writeFrame?, write?, hmono]
  · obtain ⟨between, frame', hfirst, hsecond, hlength, hfront⟩ :=
      exists_write?_write? (by omega : 0 + 1 < frame.length) (DeviceSample.ofSample left)
        (DeviceSample.ofSample right)
    have hroom : 2 ≤ frame'.length := by omega
    rw [if_neg hmono]
    simp only [writeFrame?, if_neg hmono, List.getElem?_cons_zero, List.getElem?_cons_succ,
      Option.bind_eq_bind, Option.bind_some, hfirst, hsecond, front?, if_pos hroom, pure]
    rw [hfront, hlength, hframe]
    rfl

theorem writeFrames?_eq {channels : Nat} (hchannels : 0 < channels) {frames : List (List α)}
    {pairs : List (List Sample)} (hframes : ∀ frame ∈ frames, frame.length = channels)
    (hpairs : ∀ pair ∈ pairs, pair.length = Audio.channels)
    (hlength : frames.length = pairs.length) :
    writeFrames? channels frames pairs = some (pairs.flatMap (spread channels)) := by
  induction frames generalizing pairs with
  | nil =>
      rw [List.eq_nil_of_length_eq_zero hlength.symm]
      rfl
  | cons frame frames ih =>
      obtain ⟨pair, pairs, rfl⟩ := List.exists_cons_of_length_eq_add_one hlength.symm
      rw [List.forall_mem_cons] at hframes hpairs
      obtain ⟨left, right, rfl⟩ := List.length_eq_two.mp hpairs.1
      have hrest := ih hframes.2 hpairs.2 (Nat.succ.inj hlength)
      simp only [writeFrames?, writeFrame?_eq hchannels hframes.1, hrest, Option.bind_eq_bind,
        Option.bind_some, pure, List.flatMap_cons]

/-- The part of a buffer that is filled at one request. -/
def chunk (channels : Nat) (data : List β) : List β :=
  data.take (Adapter.chunkFrames * channels)

/-- The part of a buffer that is filled at later requests. -/
def behind (channels : Nat) (data : List β) : List β :=
  data.drop (Adapter.chunkFrames * channels)

/-- The samples that a source gives for the device frames of a buffer. -/
def due (channels : Nat) (data : List β) : Nat :=
  data.length / channels * Audio.channels

theorem dvd_length_chunk {channels : Nat} {data : List β} (hwhole : channels ∣ data.length) :
    channels ∣ (chunk channels data).length := by
  rw [chunk, List.length_take]
  rcases Nat.le_total (Adapter.chunkFrames * channels) data.length with hlong | hshort
  · rw [Nat.min_eq_left hlong]
    exact Nat.dvd_mul_left _ _
  · rw [Nat.min_eq_right hshort]
    exact hwhole

theorem dvd_length_behind {channels : Nat} {data : List β} (hwhole : channels ∣ data.length) :
    channels ∣ (behind channels data).length := by
  rw [behind, List.length_drop]
  exact Nat.dvd_sub hwhole (Nat.dvd_mul_left _ _)

theorem due_eq_add {channels : Nat} (hchannels : 0 < channels) {data : List β}
    (hwhole : channels ∣ data.length) :
    due channels data =
      due channels (chunk channels data) + due channels (behind channels data) := by
  have hlength : data.length = (chunk channels data).length + (behind channels data).length := by
    rw [← List.length_append, chunk, behind, List.take_append_drop]
  obtain ⟨first, hfirst⟩ := dvd_length_chunk hwhole
  obtain ⟨rest, hrest⟩ := dvd_length_behind hwhole
  rw [due, due, due, hlength, hfirst, hrest, ← Nat.mul_add, Nat.mul_div_cancel_left _ hchannels,
    Nat.mul_div_cancel_left _ hchannels, Nat.mul_div_cancel_left _ hchannels, Nat.add_mul]

theorem due_chunk_le {channels : Nat} (hchannels : 0 < channels) (data : List β) :
    due channels (chunk channels data) ≤ Adapter.chunkFrames * Audio.channels := by
  apply Nat.mul_le_mul_right
  rw [← Nat.mul_div_cancel Adapter.chunkFrames hchannels]
  exact Nat.div_le_div_right (List.length_take_le _ _)

theorem fillChunks_of_ne_nil {render : Renderer σ} {channels : Nat} (hchannels : 0 < channels)
    {data : List α} (hdata : data ≠ []) (hwhole : channels ∣ data.length) {source next : σ}
    {pcm : List Sample}
    (hrender : render source (due channels (chunk channels data)) = (pcm, next)) :
    Adapter.fillChunks render channels data source =
      { Adapter.fillChunks render channels (behind channels data) next with
        data := (groups Audio.channels pcm).flatMap (spread channels) ++
          (Adapter.fillChunks render channels (behind channels data) next).data
        requests := due channels (chunk channels data) ::
          (Adapter.fillChunks render channels (behind channels data) next).requests } := by
  have hmore : ¬ (data.length = 0 ∨ channels = 0) := by
    rintro (hempty | hnone)
    · exact hdata (List.eq_nil_of_length_eq_zero hempty)
    · exact Nat.ne_of_gt hchannels hnone
  have hnothing : (chunk channels data).drop
      ((chunk channels data).length / channels * channels) = [] := by
    rw [Nat.div_mul_cancel (dvd_length_chunk hwhole), List.drop_length]
  unfold due chunk at hrender
  unfold chunk at hnothing
  rw [Adapter.fillChunks, if_neg hmore]
  dsimp only
  rw [hrender, hnothing, List.append_nil, frames_eq hchannels]
  rfl

theorem rendered_cons {render : Renderer σ} {source next : σ} {count : Nat} {pcm : List Sample}
    (hrender : render source count = (pcm, next)) (counts : List Nat) :
    rendered render (count :: counts) source =
      (pcm ++ (rendered render counts next).1, (rendered render counts next).2) := by
  rw [rendered, hrender]

theorem length_rendered {render : Renderer σ} (hfills : Fills render) (counts : List Nat)
    (source : σ) : (rendered render counts source).1.length = counts.sum := by
  induction counts generalizing source with
  | nil => rfl
  | cons count counts ih =>
      rw [rendered_cons rfl, List.length_append, hfills, ih, List.sum_cons]

/-- A buffer is filled with what was rendered for it. -/
structure Mapped (render : Renderer σ) (channels : Nat) (data : List α) (source : σ)
    (filled : Filled α σ) : Prop where
  total : filled.requests.sum = due channels data
  requests : ∀ count ∈ filled.requests,
    Audio.channels ∣ count ∧ count ≤ Adapter.chunkFrames * Audio.channels
  data : filled.data = (groups Audio.channels (rendered render filled.requests source).1).flatMap
    (spread channels)
  source : filled.source = (rendered render filled.requests source).2

theorem mapped_fillChunks {render : Renderer σ} (hfills : Fills render) {channels : Nat}
    (hchannels : 0 < channels) {data : List α} (hwhole : channels ∣ data.length) (source : σ) :
    Mapped render channels data source (Adapter.fillChunks render channels data source) := by
  have hsize : 0 < Adapter.chunkFrames * channels := Nat.mul_pos (by decide) hchannels
  have hpair : 0 < Audio.channels := by decide
  induction data using slices_induction hsize generalizing source with
  | nil =>
      rw [Adapter.fillChunks, if_pos (.inl rfl)]
      refine ⟨?_, nofun, ?_, rfl⟩
      · rw [due, List.length_nil, Nat.zero_div, Nat.zero_mul]
        rfl
      · rw [rendered, groups_of_lt hpair]
        rfl
  | slice data hdata ih =>
      rcases hrender : render source (due channels (chunk channels data)) with ⟨pcm, next⟩
      have hlength : pcm.length = due channels (chunk channels data) := by
        have hfilled := hfills source (due channels (chunk channels data))
        rwa [hrender] at hfilled
      have hpairs : Audio.channels ∣ pcm.length := hlength ▸ Nat.dvd_mul_left _ _
      have hrest : Mapped render channels (behind channels data) next _ :=
        ih (dvd_length_behind hwhole) next
      rw [fillChunks_of_ne_nil hchannels hdata hwhole hrender]
      refine ⟨?_, ?_, ?_, ?_⟩
      · rw [List.sum_cons, due_eq_add hchannels hwhole]
        exact congrArg _ hrest.total
      · rw [List.forall_mem_cons]
        exact ⟨⟨Nat.dvd_mul_left _ _, due_chunk_le hchannels data⟩, hrest.requests⟩
      · rw [rendered_cons hrender, groups_append_of_dvd hpair hpairs, List.flatMap_append]
        exact congrArg _ hrest.data
      · rw [rendered_cons hrender]
        exact hrest.source

theorem exists_fillChunk? {render : Renderer σ} (hfills : Fills render) {channels : Nat}
    (hchannels : 0 < channels) {chunk : List α} (hwhole : channels ∣ chunk.length)
    {scratch : List Sample} (hroom : due channels chunk ≤ scratch.length) {source next : σ}
    {pcm : List Sample} (hrender : render source (due channels chunk) = (pcm, next)) :
    ∃ scratch', fillChunk? render channels (scratch, source) chunk =
        some ((scratch', next), (groups Audio.channels pcm).flatMap (spread channels)) ∧
      scratch'.length = scratch.length := by
  have hlength : pcm.length = due channels chunk := by
    have hfilled := hfills source (due channels chunk)
    rwa [hrender] at hfilled
  have hstereo : front? scratch (chunk.length / channels * Audio.channels) =
      some (scratch.take (due channels chunk)) := if_pos hroom
  have hasked : (scratch.take (due channels chunk)).length = due channels chunk :=
    List.length_take_of_le hroom
  have hscratch : writeFront? scratch pcm = some (pcm ++ scratch.drop pcm.length) :=
    if_pos (hlength ▸ hroom)
  have hframes : (groups channels chunk).length = (groups Audio.channels pcm).length := by
    rw [length_groups, length_groups, hlength, due, Nat.mul_div_cancel _ (by decide)]
  have hdata := writeFrames?_eq (α := α) hchannels (fun frame => length_of_mem_groups)
    (fun pair => length_of_mem_groups) hframes
  refine ⟨pcm ++ scratch.drop pcm.length, ?_, ?_⟩
  · simp only [fillChunk?, hstereo, Option.bind_eq_bind, Option.bind_some, hasked, hrender,
      hscratch, hdata, pure, remainder_eq_nil hwhole, List.append_nil]
  · rw [List.length_append, List.length_drop]
    omega

theorem exists_runAll?_fillChunk? {render : Renderer σ} (hfills : Fills render) {channels : Nat}
    (hchannels : 0 < channels) {data : List α} (hwhole : channels ∣ data.length)
    {scratch : List Sample} (hscratch : scratch.length = Adapter.chunkFrames * Audio.channels)
    (source : σ) :
    ∃ scratch', runAll? (fillChunk? render channels) (scratch, source)
        (slices (Adapter.chunkFrames * channels) data) =
          some ((scratch', (Adapter.fillChunks render channels data source).source),
            (Adapter.fillChunks render channels data source).data) ∧
      scratch'.length = scratch.length := by
  have hsize : 0 < Adapter.chunkFrames * channels := Nat.mul_pos (by decide) hchannels
  induction data using slices_induction hsize generalizing scratch source with
  | nil =>
      rw [slices_nil, Adapter.fillChunks, if_pos (.inl rfl)]
      exact ⟨scratch, rfl, rfl⟩
  | slice data hdata ih =>
      rcases hrender : render source (due channels (chunk channels data)) with ⟨pcm, next⟩
      have hroom : due channels (chunk channels data) ≤ scratch.length :=
        hscratch ▸ due_chunk_le hchannels data
      obtain ⟨scratch', hfirst, hlength⟩ :=
        exists_fillChunk? hfills hchannels (dvd_length_chunk hwhole) hroom hrender
      obtain ⟨scratch'', hrest, hlength'⟩ :=
        ih (dvd_length_behind hwhole) (hlength.trans hscratch) next
      rw [fillChunks_of_ne_nil hchannels hdata hwhole hrender, slices_of_ne_nil hsize hdata]
      exact ⟨scratch'', runAll?_cons hfirst hrest, hlength'.trans hlength⟩

/-- The source is asked for one pair for each device frame, in requests that are not too large, each
pair that it gives makes the next frame, and all of it can be done in memory for one request. -/
theorem pairs_fill_frames {render : Renderer σ} (hfills : Fills render) (channels : UInt16)
    {data : List α} (hwhole : frameWidth channels ∣ data.length) (source : σ) :
    let filled := Adapter.fill render channels data source
    let played := rendered render filled.requests source
    let frames := data.length / frameWidth channels
    filled.requests.sum = frames * Audio.channels ∧
      (∀ count ∈ filled.requests, Audio.channels ∣ count ∧ count ≤ 2048 * Audio.channels) ∧
      played.1.length = frames * Audio.channels ∧
      filled.data = (groups Audio.channels played.1).flatMap (spread (frameWidth channels)) ∧
      filled.data.length = data.length ∧ filled.source = played.2 ∧
      ∀ scratch : List Sample, scratch.length = 2048 * Audio.channels →
        ∃ scratch', fill? render channels data (scratch, source) =
            some ((scratch', filled.source), filled.data) ∧
          scratch'.length = scratch.length := by
  intro filled played frames
  have hchannels := frameWidth_pos channels
  have hmapped : Mapped render (frameWidth channels) data source filled :=
    mapped_fillChunks hfills hchannels hwhole source
  have hlength : played.1.length = frames * Audio.channels :=
    (length_rendered hfills _ _).trans hmapped.total
  refine ⟨hmapped.total, hmapped.requests, hlength, hmapped.data, ?_, hmapped.source, ?_⟩
  · rw [hmapped.data, length_flatMap_of_width fun pair _ => length_spread _ pair, length_groups,
      hlength, Nat.mul_div_cancel _ (by decide), Nat.div_mul_cancel hwhole]
  · intro scratch hscratch
    exact exists_runAll?_fillChunk? hfills hchannels hwhole hscratch source

/-- The mixer of a call gives as many samples as a device asks for. -/
theorem fills_renderer (now : Nat) : Fills (Session.renderer now) := by
  intro hub count
  exact (length_mixChunks _ _ now _ _).trans (sum_chunks _ count)

/-- A call fills five thousand frames of three channels, which takes three requests. -/
theorem pairs_fill_frames_of_call :
    let data : List Int16 := List.replicate 15000 7
    let filled := Adapter.fill (Session.renderer 0) 3 data (Hub.create {})
    Fills (Session.renderer 0) ∧ frameWidth 3 ∣ data.length ∧ filled.requests.sum = 10000 ∧
      filled.data.length = 15000 := by
  intro data filled
  have hwhole : frameWidth 3 ∣ data.length := by
    rw [List.length_replicate]
    decide
  obtain ⟨htotal, -, -, -, hlength, -, -⟩ :=
    pairs_fill_frames (fills_renderer 0) 3 hwhole (Hub.create {})
  refine ⟨fills_renderer 0, hwhole, ?_, ?_⟩
  · rw [htotal, List.length_replicate]
    decide
  · rw [hlength, List.length_replicate]

end VoiceCall.Proofs.Sound.Filling
