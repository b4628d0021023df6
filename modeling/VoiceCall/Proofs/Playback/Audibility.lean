import VoiceCall.Proofs.Buffer.Supply
import VoiceCall.Proofs.Playback.Levels
import VoiceCall.Settings.Basic

namespace VoiceCall.Proofs.Playback.Audibility

open VoiceCall.Buffer (Jitter)
open VoiceCall.Playback
open VoiceCall.Proofs.Buffer.History (Latency toNat_max fixed_after)
open VoiceCall.Proofs.Buffer.Supply
open VoiceCall.Proofs.Buffer.Window (bound queue_read_cases toNat_bound)
open VoiceCall.Proofs.Playback.Isolation
open VoiceCall.Proofs.Playback.Levels

/-- A speaker is played as it is buffered, and its buffer does not gather. -/
structure Ready (s : Speaker) : Prop where
  unmuted : s.muted = false
  gain : s.gain = Sample.one
  opened : s.buffer.gathering = false ∨ s.buffer.desired ≤ s.buffer.length

/-- The latencies that settings give the buffers of their speakers. -/
def latency (settings : Settings) : Latency :=
  ⟨settings.jitterDesired, settings.jitterMax, 1⟩

/-- A new speaker under these settings. -/
def created (settings : Settings) (ssrc : UInt32) (user : Option String) (serial : Nat) : Speaker :=
  .create ssrc user serial settings.jitterDesired settings.jitterMax

/-- A speaker after some portions of samples, the latest first. -/
def provided (portions : List Portion) (s : Speaker) : Speaker :=
  portions.foldr (fun p s => (s.write p.samples p.now).1) s

variable (c : Controls) (contention : Contention) (now : Nat)

theorem length_read_le (b : Jitter) (count : Nat) :
    ((b.read count now).1.getD []).length + (b.read count now).2.length ≤ b.length := by
  unfold Jitter.length Buffer.SampleQueue.length
  rcases queue_read_cases b count now with ⟨hcount, hread, hqueue⟩ | ⟨hread, hqueue⟩
  · rw [hread, hqueue]
    simp only [Option.getD_some, List.length_take, List.length_drop]
    omega
  · rw [hread, hqueue]
    simp

theorem length_played (s : Speaker) (samples : List Sample) :
    (played s samples).length = samples.length := by
  unfold played
  split
  · rfl
  · exact List.length_map _

theorem length_contribute_le (busy : Bool) (count : Nat) (s : Speaker) :
    ((contribute busy count now s).2.getD []).length +
      (contribute busy count now s).1.buffer.length ≤ s.buffer.length := by
  cases busy with
  | true => simp [contribute]
  | false =>
      have hle := length_read_le now s.buffer count
      rcases hread : s.buffer.read count now with ⟨_ | samples, buffer⟩
      · rw [contribute_of_none hread]
        rwa [hread] at hle
      · rw [contribute_of_some hread, Option.getD_some, length_played]
        rwa [hread] at hle

theorem length_discard_le (busy : Bool) (s : Speaker) :
    (Playback.discard busy s).buffer.length ≤ s.buffer.length := by
  unfold Playback.discard
  dsimp only
  split
  · exact Nat.le_refl _
  · exact Nat.zero_le _

theorem length_added_le (count : Nat) (s : Speaker) :
    (added c contention now count s).length + (passed c contention count now s).buffer.length ≤
      s.buffer.length := by
  cases hroster : contention.roster with
  | true =>
      obtain ⟨hpassed, hadded⟩ := passed_of_busy c now hroster count s
      simp [hpassed, hadded]
  | false =>
      obtain ⟨hpassed, hadded⟩ := passed_of_free c now hroster count s
      rw [hpassed, hadded]
      by_cases hskipped : c.deafened ∨ s.muted
      · rw [mixSpeaker_of_skipped hskipped]
        simpa using length_discard_le _ s
      · rw [mixSpeaker_of_heard hskipped]
        exact length_contribute_le now _ count s

theorem length_pieces_le (counts : List Nat) (s : Speaker) :
    (pieces c contention now counts s).flatten.length ≤ s.buffer.length := by
  induction counts generalizing s with
  | nil => exact Nat.zero_le _
  | cons count counts ih =>
      have hadded := length_added_le c contention now count s
      have hrest := ih (passed c contention count now s)
      rw [pieces, List.flatten_cons, List.length_append]
      omega

theorem released_of_ready {s : Speaker} (hready : Ready s) (hsome : 0 < s.buffer.length) :
    s.buffer.released now = true := by
  rcases hready.opened with hopen | hdesired
  · have hnonempty : s.buffer.queue.isEmpty = false :=
      List.isEmpty_eq_false_iff.mpr (List.ne_nil_of_length_pos hsome)
    simp [Jitter.released, hopen, hnonempty]
  · exact released_of_desired_le hdesired now

/-- What one pass takes from a speaker that is ready leaves it ready for the next. -/
theorem pass_of_ready {c : Controls} (hc : c.deafened = false) {contention : Contention}
    {s : Speaker} (hfree : Free contention s) (hready : Ready s) {count : Nat} (hcount : 0 < count)
    (hle : count ≤ s.buffer.length) :
    added c contention now count s = s.buffer.queue.samples.take count ∧
      (passed c contention count now s).buffer.queue.samples =
        s.buffer.queue.samples.drop count ∧
      Ready (passed c contention count now s) := by
  have hreleased := released_of_ready now hready (Nat.lt_of_lt_of_le hcount hle)
  have hidle : contention.buffers.contains s.ssrc = false := by simpa using hfree.2
  have hheard : ¬ (c.deafened ∨ s.muted) := by simp [hc, hready.unmuted]
  have hone : (s.gain == Sample.one) = true := by
    rw [hready.gain]
    decide +kernel
  obtain ⟨hpassed, hadded⟩ := passed_of_free c now hfree.1 count s
  rw [hpassed, hadded, mixSpeaker_of_heard hheard, hidle,
    contribute_of_some (read_of_released hreleased hle)]
  exact ⟨if_pos hone, rfl, hready.unmuted, hready.gain, .inl rfl⟩

theorem pieces_of_ready {c : Controls} (hc : c.deafened = false) {contention : Contention}
    {counts : List Nat} (hcounts : ∀ count ∈ counts, 0 < count) {s : Speaker}
    (hfree : Free contention s) (hready : Ready s) (hsum : counts.sum ≤ s.buffer.length) :
    (pieces c contention now counts s).flatten = s.buffer.queue.samples.take counts.sum := by
  induction counts generalizing s with
  | nil => rfl
  | cons count counts ih =>
      rw [List.forall_mem_cons] at hcounts
      rw [List.sum_cons] at hsum ⊢
      obtain ⟨hadded, hleft, hready'⟩ :=
        pass_of_ready now hc hfree hready hcounts.1 (Nat.le_trans (Nat.le_add_right _ _) hsum)
      have hssrc := (passed_fields c contention count now s).1
      have hfree' : Free contention (passed c contention count now s) :=
        ⟨hfree.1, hssrc ▸ hfree.2⟩
      have hlength : counts.sum ≤ (passed c contention count now s).buffer.length := by
        unfold Jitter.length Buffer.SampleQueue.length at hsum ⊢
        rw [hleft, List.length_drop]
        omega
      rw [pieces, List.flatten_cons, hadded, ih hcounts.2 hfree' hready' hlength, hleft,
        List.take_add]

theorem chunks_pos (scratch length : Nat) : ∀ count ∈ chunks scratch length, 0 < count := by
  intro count hcount
  unfold chunks at hcount
  rcases List.mem_append.mp hcount with hwhole | hrest
  · obtain ⟨hsome, rfl⟩ := List.mem_replicate.mp hwhole
    rcases Nat.eq_zero_or_pos count with rfl | hpos
    · simp at hsome
    · exact hpos
  · split at hrest
    · cases hrest
    · obtain rfl := List.mem_singleton.mp hrest
      omega

theorem provided_created (settings : Settings) (ssrc : UInt32) (user : Option String)
    (serial : Nat) (portions : List Portion) :
    provided portions (created settings ssrc user serial) =
      { created settings ssrc user serial with
        buffer := refilled (latency settings) portions [] } := by
  induction portions with
  | nil => rfl
  | cons p portions ih =>
      change ((provided portions (created settings ssrc user serial)).write p.samples p.now).1 = _
      rw [ih]
      rfl

theorem periodLength_le_bound_iff (settings : Settings) :
    Audio.periodLength ≤ bound (latency settings.sanitized) ↔
      10 ≤ max settings.jitterDesired.toNat settings.jitterMax.toNat := by
  have hmost : (latency settings.sanitized).most.toNat =
      max settings.jitterMax.toNat settings.jitterDesired.toNat := toNat_max _ _
  have hdesired : (latency settings.sanitized).desired.toNat = settings.jitterDesired.toNat := rfl
  rw [toNat_bound, hmost, hdesired, Audio.samplesPerMilli, Audio.periodLength]
  omega

theorem ready_provided {settings : Settings} {portions : List Portion}
    (hprovided : bound (latency settings) ≤ supplied portions) (ssrc : UInt32)
    (user : Option String) (serial : Nat) :
    (provided portions (created settings ssrc user serial)).buffer.length =
        bound (latency settings) ∧
      Ready (provided portions (created settings ssrc user serial)) := by
  rw [provided_created]
  have hlength : (refilled (latency settings) portions []).length = bound (latency settings) := by
    rw [length_refilled]
    exact Nat.min_eq_right (Nat.le_trans hprovided (Nat.le_add_left _ _))
  refine ⟨hlength, rfl, rfl, .inr ?_⟩
  change (refilled (latency settings) portions []).desired ≤ _
  rw [refilled, (fixed_after _ _).1, ← refilled, hlength]
  exact desired_le_bound _

/-- Under the latencies of sanitized settings a speaker with a full buffer is heard over a whole
period exactly if one of them is as long as a period. -/
theorem period_heard_iff {c : Controls} (hc : c.deafened = false) (m : Mixer)
    (settings : Settings) {ssrc : UInt32} {user : Option String} {serial : Nat}
    {contention : Contention}
    (hfree : Free contention (created settings.sanitized ssrc user serial))
    {portions : List Portion}
    (hprovided : bound (latency settings.sanitized) ≤ supplied portions) :
    let s := provided portions (created settings.sanitized ssrc user serial)
    let heard := (pieces c contention now (chunks m.scratch Audio.periodLength) s).flatten
    (heard.length = Audio.periodLength ↔
        10 ≤ max settings.jitterDesired.toNat settings.jitterMax.toNat) ∧
      (heard.length = Audio.periodLength →
        heard = s.buffer.queue.samples.take Audio.periodLength) := by
  intro s heard
  obtain ⟨hlength, hready⟩ := ready_provided hprovided ssrc user serial
  have hle : heard.length ≤ s.buffer.length := length_pieces_le ..
  -- A mixer with less scratch space than a period takes it in several passes, all of them filled.
  have hall : Audio.periodLength ≤ bound (latency settings.sanitized) →
      heard = s.buffer.queue.samples.take Audio.periodLength := by
    intro hlong
    have hsum := sum_chunks m.scratch Audio.periodLength
    have hs : Free contention s := by
      simp only [s, provided_created]
      exact hfree
    have hheard := pieces_of_ready now hc (chunks_pos m.scratch Audio.periodLength) hs hready
      (by rw [hsum, hlength]; exact hlong)
    rwa [hsum] at hheard
  rw [← periodLength_le_bound_iff]
  rw [hlength] at hle
  refine ⟨⟨fun hperiod => hperiod ▸ hle, fun hlong => ?_⟩, fun hperiod => hall (hperiod ▸ hle)⟩
  rw [hall hlong]
  exact List.length_take_of_le (Nat.le_trans hlong (Nat.le_of_eq hlength.symm))

/-- Latencies of just one period, the longest of them given as the desired one. -/
theorem period_heard_iff_shortest :
    let settings : Settings := { jitterDesired := 10, jitterMax := 0 }
    let portions : List Portion := [⟨List.replicate 960 Sample.half, 0⟩]
    let s := provided portions (created settings.sanitized 101 none 0)
    bound (latency settings.sanitized) ≤ supplied portions ∧
      (pieces (.create Sample.one) .none 0 (chunks 960 Audio.periodLength) s).flatten.length =
        Audio.periodLength := by
  intro settings portions s
  have hprovided : bound (latency settings.sanitized) ≤ supplied portions := by
    simp only [portions, supplied, List.map_cons, List.length_replicate]
    decide
  obtain ⟨hheard, -⟩ := period_heard_iff 0 (c := .create Sample.one) rfl ⟨960⟩ settings
    (free_none (created settings.sanitized 101 none 0)) hprovided
  exact ⟨hprovided, hheard.mpr (by decide)⟩

/-- Settings that were sanitized leave a speaker five milliseconds, and it is never heard. -/
theorem not_heard_five_millis :
    let settings : Settings := { jitterDesired := 5, jitterMax := 5 }
    let portions : List Portion := [⟨List.replicate 480 Sample.half, 0⟩]
    let s := provided portions (created settings.sanitized 101 none 0)
    settings.sanitized = settings ∧ bound (latency settings.sanitized) ≤ supplied portions ∧
      (pieces (.create Sample.one) .none 0 (chunks 960 Audio.periodLength) s).flatten = [] := by
  intro settings portions s
  refine ⟨by decide +kernel, ?_, ?_⟩
  · simp only [portions, supplied, List.map_cons, List.length_replicate]
    decide
  · decide +kernel

end VoiceCall.Proofs.Playback.Audibility
