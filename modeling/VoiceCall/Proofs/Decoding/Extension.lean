import VoiceCall.Hub.Receiver
import VoiceCall.Proofs.Cipher.Sealed
import VoiceCall.Proofs.Decoding.Workers

namespace VoiceCall.Proofs.Decoding.Extension

open VoiceCall.Decoding (Task)
open VoiceCall.Opus (decodedLength)
open VoiceCall.Opus.Decoder (maxDecoded)
open VoiceCall.Packet (Header stripExtension)
open VoiceCall.Proofs.Cipher.Sealed
open VoiceCall.Proofs.Decoding.Workers

/-- A payload begins with the marker of a header extension and a count of words. -/
def Marked (payload : Octets) : Prop :=
  payload.take 2 = [0xbe, 0xde] ∧ 4 ≤ payload.length

instance : DecidablePred Marked := fun _ => instDecidableAnd

/-- The count of words behind a marker. -/
def wordCount (payload : Octets) : Nat :=
  256 * (payload.getD 2 0).toNat + (payload.getD 3 0).toNat

theorem stripExtension_of_unmarked {payload : Octets} (h : ¬ Marked payload) :
    stripExtension payload = .ok payload := by
  unfold stripExtension
  split
  · exact absurd ⟨rfl, by simp⟩ h
  · rfl

theorem stripExtension_of_marked {payload : Octets} (h : Marked payload) :
    stripExtension payload =
      if 4 + 4 * wordCount payload ≤ payload.length then
        .ok (payload.drop (4 + 4 * wordCount payload))
      else
        .error (.extensionOverrun (wordCount payload) payload.length) := by
  obtain ⟨hmarker, hlong⟩ := h
  rcases payload with _ | ⟨first, _ | ⟨second, _ | ⟨high, _ | ⟨low, rest⟩⟩⟩⟩
  iterate 4 · simp at hlong
  simp only [List.take_succ_cons, List.take_zero, List.cons.injEq, and_true] at hmarker
  obtain ⟨rfl, rfl⟩ := hmarker
  have hcount : (word16 high low).toNat = wordCount (0xbe :: 0xde :: high :: low :: rest) := by
    rw [toNat_word16, Nat.mul_comm]
    rfl
  simp only [stripExtension, hcount]
  by_cases hfits : wordCount (0xbe :: 0xde :: high :: low :: rest) * 4 ≤ rest.length
  · rw [if_pos hfits, if_pos (by simp only [List.length_cons]; omega), Nat.add_comm, Nat.mul_comm]
    rfl
  · rw [if_neg hfits, if_neg (by simp only [List.length_cons]; omega)]
    rfl

/-- The decoder of a speaker is given a packet, and what it makes of it is buffered. -/
def play (dsp : Dsp) (packet : Octets) (receivedAt : Nat) (s : Speaker) :
    Except Fault (Nat × Speaker) :=
  match s.decoder.decode dsp packet maxDecoded with
  | .error fault => .error fault
  | .ok (samples, decoder) =>
    .ok (samples.length, { s with
      decoder := decoder
      buffer := (s.buffer.write samples receivedAt).1 })

/-- The decoder of a speaker takes exactly these bytes when a task runs. -/
def Takes (dsp : Dsp) (t : Task) (s : Speaker) (packet : Octets) : Prop :=
  ∃ count s', t.run dsp s = .ok (count, s') ∧ s'.decoder.taken = packet :: s.decoder.taken

theorem run_of_unmarked (dsp : Dsp) {t : Task} (h : ¬ Marked t.payload) (s : Speaker) :
    t.run dsp s = play dsp t.payload t.receivedAt s := by
  rw [Task.run, stripExtension_of_unmarked h]
  rfl

theorem run_of_marked (dsp : Dsp) {t : Task} (h : Marked t.payload) (s : Speaker) :
    t.run dsp s =
      if 4 + 4 * wordCount t.payload ≤ t.payload.length then
        play dsp (t.payload.drop (4 + 4 * wordCount t.payload)) t.receivedAt s
      else
        .error (.packet (.extensionOverrun (wordCount t.payload) t.payload.length)) := by
  rw [Task.run, stripExtension_of_marked h]
  by_cases hfits : 4 + 4 * wordCount t.payload ≤ t.payload.length
  · rw [if_pos hfits, if_pos hfits]
    rfl
  · rw [if_neg hfits, if_neg hfits]

theorem taken_of_play {dsp : Dsp} {packet : Octets} {receivedAt count : Nat} {s s' : Speaker}
    (h : play dsp packet receivedAt s = .ok (count, s')) :
    s'.decoder.taken = packet :: s.decoder.taken := by
  unfold play Opus.Decoder.decode at h
  cases hlength : dsp.measure packet maxDecoded with
  | error fault =>
      rw [hlength] at h
      cases h
  | ok length =>
      rw [hlength] at h
      cases h
      rfl

theorem exists_play {dsp : Dsp} {packet : Octets} {length : Nat}
    (h : dsp.measure packet maxDecoded = .ok length) (receivedAt : Nat) (s : Speaker) :
    ∃ count s', play dsp packet receivedAt s = .ok (count, s') := by
  unfold play Opus.Decoder.decode
  rw [h]
  exact ⟨_, _, rfl⟩

theorem takes_iff {dsp : Dsp} {t : Task} {length : Nat}
    (h : dsp.measure t.payload maxDecoded = .ok length) (s : Speaker) :
    Takes dsp t s t.payload ↔ ¬ Marked t.payload := by
  constructor
  · rintro ⟨count, s', hrun, htaken⟩ hmarked
    rw [run_of_marked dsp hmarked] at hrun
    split at hrun
    · have hrest := List.head_eq_of_cons_eq ((taken_of_play hrun).symm.trans htaken)
      have hlength := congrArg List.length hrest
      have hlong := hmarked.2
      rw [List.length_drop] at hlength
      omega
    · cases hrun
  · intro hunmarked
    obtain ⟨count, s', hplay⟩ := exists_play h t.receivedAt s
    exact ⟨count, s', (run_of_unmarked dsp hunmarked s).trans hplay, taken_of_play hplay⟩

theorem find?_of_destination {h : Hub} {header : Header} {s : Speaker}
    (hdestination : h.destination header = .speaker s) :
    h.roster.find? header.ssrc = some s := by
  unfold Hub.destination at hdestination
  split at hdestination
  · cases hdestination
  · split at hdestination
    · cases hdestination
    · split at hdestination
      · rename_i hfind
        cases hdestination
        exact hfind
      · cases hdestination

theorem queue_deliver {h : Hub} {s : Speaker} {payload : Octets} {now : Nat}
    (hqueued : (h.deliver s payload now).2 = .queued) :
    (h.deliver s payload now).1.pool.queue =
      h.pool.queue ++ [.task ⟨s.serial, payload, now⟩] := by
  unfold Hub.deliver at hqueued ⊢
  dsimp only at hqueued ⊢
  split at hqueued
  · cases hqueued
  · rename_i hheard
    rw [if_neg hheard]
    rcases submit_cases h.pool ⟨s.serial, payload, now⟩ with hsubmit | hsubmit
    · rw [hsubmit]
    · rw [hsubmit] at hqueued
      cases hqueued

theorem queue_handlePacket {h : Hub} {header : Header} {payload : Octets} {now : Nat}
    (hqueued : (h.handlePacket header payload now).2 = .queued) :
    ∃ s, h.roster.find? header.ssrc = some s ∧
      (h.handlePacket header payload now).1.pool.queue =
        h.pool.queue ++ [.task ⟨s.serial, payload, now⟩] := by
  unfold Hub.handlePacket at hqueued ⊢
  cases hdestination : h.destination header with
  | nowhere =>
      rw [hdestination] at hqueued
      cases hqueued
  | nobody =>
      rw [hdestination, Hub.routeUnknown] at hqueued
      dsimp only at hqueued
      split at hqueued <;> cases hqueued
  | speaker s =>
      rw [hdestination] at hqueued
      exact ⟨s, find?_of_destination hdestination, queue_deliver hqueued⟩

/-- Whatever its header announces, a queued packet reaches the decoder of its speaker as it was sent
exactly when its payload does not begin with the marker of a header extension and a count of words;
otherwise they and the words are cut off. -/
theorem decoded_as_sent_iff {h : Hub} {header : Header} {payload : Octets} {now : Nat}
    (hqueued : (h.handlePacket header payload now).2 = .queued) :
    ∃ s task, h.roster.find? header.ssrc = some s ∧ task.serial = s.serial ∧
      (h.handlePacket header payload now).1.pool.queue = h.pool.queue ++ [.task task] ∧
      (∀ dsp s, task.run dsp s =
        if Marked payload then
          if 4 + 4 * wordCount payload ≤ payload.length then
            play dsp (payload.drop (4 + 4 * wordCount payload)) now s
          else
            .error (.packet (.extensionOverrun (wordCount payload) payload.length))
        else
          play dsp payload now s) ∧
      ∀ dsp s length, dsp.measure payload maxDecoded = .ok length →
        (Takes dsp task s payload ↔ ¬ Marked payload) := by
  obtain ⟨s, hfind, hqueue⟩ := queue_handlePacket hqueued
  refine ⟨s, ⟨s.serial, payload, now⟩, hfind, rfl, hqueue, fun dsp s => ?_,
    fun dsp s length h => ?_⟩
  · by_cases hmarked : Marked payload
    · rw [if_pos hmarked]
      exact run_of_marked dsp hmarked s
    · rw [if_neg hmarked]
      exact run_of_unmarked dsp hmarked s
  · exact takes_iff h s

/-- A hub that hears one source. -/
def listener : Hub :=
  ((Hub.create {}).addSpeaker .quiet 7 none).1

theorem decoded_as_sent_iff_silence :
    (listener.handlePacket (.opus 1 960 7) [0xf8, 0xff, 0xfe] 20).2 = .queued ∧
      ∃ s task, listener.roster.find? 7 = some s ∧
        (listener.handlePacket (.opus 1 960 7) [0xf8, 0xff, 0xfe] 20).1.pool.queue = [.task task] ∧
          Takes .quiet task s [0xf8, 0xff, 0xfe] := by
  have hqueued : (listener.handlePacket (.opus 1 960 7) [0xf8, 0xff, 0xfe] 20).2 = .queued := by
    decide
  have hvalid : Dsp.quiet.measure [0xf8, 0xff, 0xfe] maxDecoded = .ok 1920 := by
    rw [Dsp.measure_quiet]
    rfl
  obtain ⟨s, task, hfind, -, hqueue, -, htakes⟩ := decoded_as_sent_iff hqueued
  exact ⟨hqueued, s, task, hfind, hqueue, (htakes .quiet s 1920 hvalid).mpr (by decide)⟩

/-- Two frames of 20 ms, of which the first has 222 bytes. -/
def lookalike : Octets :=
  0xbe :: 0xde :: List.replicate 232 0

theorem not_decoded_as_sent :
    ¬ ∀ (dsp : Dsp) (h : Hub) (key datagram payload : Octets) (header : Header) (now length : Nat),
      Cipher.openPacket key datagram = .ok (header, payload) → header.hasExtension = false →
        dsp.measure payload maxDecoded = .ok length →
          (h.handlePacket header payload now).2 = .queued →
            ∃ s task, h.roster.find? header.ssrc = some s ∧
              (h.handlePacket header payload now).1.pool.queue = h.pool.queue ++ [.task task] ∧
                Takes dsp task s payload := by
  intro hsent
  obtain ⟨datagram, -, hopened⟩ := exists_sealPacket_eq_ok (List.replicate 32 7) (.opus 1 960 7)
    lookalike (by decide) (by decide) (by decide +kernel)
  have hqueued : (listener.handlePacket (.opus 1 960 7) lookalike 0).2 = .queued := by decide
  have hvalid : Dsp.quiet.measure lookalike maxDecoded = .ok 3840 := by
    rw [Dsp.measure_quiet]
    cbv
  have hmarked : Marked lookalike := by decide +kernel
  obtain ⟨s, task, -, hqueue, htakes⟩ :=
    hsent .quiet listener _ datagram lookalike _ 0 3840 hopened (by decide) hvalid hqueued
  obtain ⟨s', -, hqueue'⟩ := queue_handlePacket hqueued
  have htask : task = ⟨s'.serial, lookalike, 0⟩ := by
    simpa using List.append_cancel_left (hqueue.symm.trans hqueue')
  subst htask
  exact (takes_iff (t := ⟨s'.serial, lookalike, 0⟩) hvalid s).mp htakes hmarked

end VoiceCall.Proofs.Decoding.Extension
