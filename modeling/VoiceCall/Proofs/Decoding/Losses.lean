import VoiceCall.Decoding.Task
import VoiceCall.Proofs.Buffer.Memory
import VoiceCall.Proofs.Buffer.Window
import VoiceCall.Proofs.Decoding.Succession

namespace VoiceCall.Proofs.Decoding.Losses

open VoiceCall.Decoding
open VoiceCall.Opus (decodedLength)
open VoiceCall.Opus.Decoder (maxDecoded)
open VoiceCall.Packet (stripExtension)
open VoiceCall.Proofs.Buffer.Memory
open VoiceCall.Proofs.Buffer.Window (push_window)
open VoiceCall.Proofs.Decoding.Settling
open VoiceCall.Proofs.Decoding.Succession
open VoiceCall.Proofs.Decoding.Workers

/-- A decoder makes no more of a packet than the room of a worker holds. -/
def Fits (dsp : Dsp) : Prop :=
  ∀ packet count, dsp.measure packet maxDecoded = .ok count → count ≤ maxDecoded

/-- Whether a payload gets through, which does not depend on what was decoded before. -/
def decodable (dsp : Dsp) (t : Task) : Bool :=
  match stripExtension t.payload with
  | .error _ => false
  | .ok packet => (dsp.measure packet maxDecoded).isOk

/-- A speaker after a task of its own. -/
def hear (dsp : Dsp) (t : Task) (s : Speaker) : Speaker :=
  match t.run dsp s with
  | .ok (_, s) => s
  | .error _ => s

/-- A task whose samples go through the memory of its worker: the memory and the speaker as they are
left, and how the task ends. -/
def perform? (dsp : Dsp) (t : Task) (memory : List Sample) (s : Speaker) :
    Option (List Sample × Speaker × Except Fault Nat) :=
  match stripExtension t.payload with
  | .error fault => some (memory, s, .error (.packet fault))
  | .ok packet =>
    match s.decoder.decode dsp packet memory.length with
    | .error fault => some (memory, s, .error fault)
    | .ok (samples, decoder) => do
      let s := { s with decoder := decoder }
      let memory ← writeFront? memory samples
      let decoded ← front? memory samples.length
      let s := { s with buffer := (s.buffer.write decoded t.receivedAt).1 }
      return (memory, s, .ok samples.length)

/-- A worker performs a task for the speaker that it belongs to. -/
def attend? (dsp : Dsp) (t : Task) (memory : List Sample) (s : Speaker) :
    Option (List Sample × List Speaker) :=
  if s.serial = t.serial then
    (perform? dsp t memory s).map fun (memory, s, _) => (memory, [s])
  else
    some (memory, [s])

/-- A worker that is still there takes the next task, however the last one ended. -/
def work? (dsp : Dsp) (t : Task) (state : Option (List Sample × List Speaker)) :
    Option (List Sample × List Speaker) :=
  state.bind fun (memory, speakers) => runAll? (attend? dsp t) memory speakers

/-- A task that fails and changes nothing. -/
def Lost (dsp : Dsp) (t : Task) (s : Speaker) : Prop :=
  ∃ fault, t.run dsp s = .error fault ∧
    ∀ memory : List Sample, memory.length = maxDecoded →
      perform? dsp t memory s = some (memory, s, .error fault)

/-- A task that appends what is decoded, as of when its payload came. The oldest samples give way to
what does not fit. -/
def Heard (dsp : Dsp) (t : Task) (s : Speaker) : Prop :=
  ∃ packet samples decoder s', stripExtension t.payload = .ok packet ∧
    s.decoder.decode dsp packet maxDecoded = .ok (samples, decoder) ∧
    samples.length ≤ maxDecoded ∧ t.run dsp s = .ok (samples.length, s') ∧
    s'.buffer = (s.buffer.write samples t.receivedAt).1 ∧
    s'.buffer.lastWrite = some t.receivedAt ∧
    s'.buffer.queue.samples = (s.buffer.queue.samples ++ samples).drop
      (s.buffer.length + samples.length - s.buffer.queue.capacity) ∧
    ∀ memory : List Sample, memory.length = maxDecoded →
      ∃ memory', perform? dsp t memory s = some (memory', s', .ok samples.length)

variable {dsp : Dsp} {t : Task} {memory : List Sample}

theorem decodedLength_le {packet : Octets} {room count : Nat}
    (h : decodedLength packet room = .ok count) : count ≤ room := by
  unfold decodedLength at h
  dsimp only at h
  repeat' split at h
  all_goals cases h
  all_goals omega

theorem fits_quiet : Fits .quiet :=
  fun _ _ hcount => decodedLength_le hcount

theorem Fits.length_decode_le (hfits : Fits dsp) {d d' : Opus.Decoder} {packet : Octets}
    {samples : List Sample} (h : d.decode dsp packet maxDecoded = .ok (samples, d')) :
    samples.length ≤ maxDecoded := by
  unfold Opus.Decoder.decode at h
  split at h
  · rename_i count hcount
    cases h
    rw [List.length_map, List.length_range]
    exact hfits packet count hcount
  · cases h

/-- What is left in the memory by the tasks before plays no part. -/
theorem exists_perform? (hfits : Fits dsp) (t : Task) (s : Speaker)
    (h : memory.length = maxDecoded) :
    ∃ memory', memory'.length = maxDecoded ∧
      perform? dsp t memory s = some (memory', hear dsp t s, (t.run dsp s).map Prod.fst) := by
  unfold perform? hear Task.run
  cases stripExtension t.payload with
  | error fault => exact ⟨memory, h, rfl⟩
  | ok packet =>
      dsimp only
      rw [h]
      cases hdecode : s.decoder.decode dsp packet maxDecoded with
      | error fault => exact ⟨memory, h, rfl⟩
      | ok decoded =>
          obtain ⟨samples, decoder⟩ := decoded
          have hfits : samples.length ≤ memory.length := h ▸ hfits.length_decode_le hdecode
          obtain ⟨memory', hwrite, hlength, hfront⟩ := exists_writeFront? hfits
          refine ⟨memory', hlength.trans h, ?_⟩
          dsimp only
          rw [hwrite, Option.bind_eq_bind, Option.bind_some, hfront]
          rfl

theorem decodable_iff :
    decodable dsp t = true ↔ ∃ packet count, stripExtension t.payload = .ok packet ∧
      dsp.measure packet maxDecoded = .ok count := by
  unfold decodable
  cases stripExtension t.payload with
  | error fault => simp
  | ok packet =>
      cases hlength : dsp.measure packet maxDecoded with
      | error fault => simp [hlength, Except.isOk, Except.toBool]
      | ok count => simp [hlength, Except.isOk, Except.toBool]

theorem lost_of_not_decodable (h : decodable dsp t ≠ true) (s : Speaker) :
    Lost dsp t s := by
  rw [Ne, decodable_iff] at h
  cases hstrip : stripExtension t.payload with
  | error fault =>
      refine ⟨.packet fault, ?_, fun memory _ => ?_⟩
      · rw [Task.run, hstrip]
      · rw [perform?, hstrip]
  | ok packet =>
      cases hlength : dsp.measure packet maxDecoded with
      | ok count => exact absurd ⟨packet, count, hstrip, hlength⟩ h
      | error fault =>
          have hdecode : s.decoder.decode dsp packet maxDecoded =
              .error (Opus.Decoder.fault fault) := by
            rw [Opus.Decoder.decode, hlength]
          refine ⟨Opus.Decoder.fault fault, ?_, fun memory hmemory => ?_⟩
          · rw [Task.run, hstrip]
            dsimp only
            rw [hdecode]
          · rw [perform?, hstrip]
            dsimp only
            rw [hmemory, hdecode]

theorem heard_of_decodable (hfits : Fits dsp) (h : decodable dsp t = true) (s : Speaker) :
    Heard dsp t s := by
  obtain ⟨packet, count, hstrip, hlength⟩ := decodable_iff.mp h
  obtain ⟨samples, decoder, hdecode⟩ : ∃ samples decoder,
      s.decoder.decode dsp packet maxDecoded = .ok (samples, decoder) := by
    rw [Opus.Decoder.decode, hlength]
    exact ⟨_, _, rfl⟩
  let s' : Speaker :=
    { s with decoder := decoder, buffer := (s.buffer.write samples t.receivedAt).1 }
  have hrun : t.run dsp s = .ok (samples.length, s') := by
    rw [Task.run, hstrip]
    dsimp only
    rw [hdecode]
  refine ⟨packet, samples, decoder, s', hstrip, hdecode, hfits.length_decode_le hdecode, hrun,
    rfl, rfl, ?_, fun memory hmemory => ?_⟩
  · have hwindow := push_window (q := s.buffer.queue) (k := 0) rfl (Nat.zero_le _) samples
    rw [Nat.zero_max, List.length_append] at hwindow
    exact hwindow
  · obtain ⟨memory', -, hperform⟩ := exists_perform? hfits t s hmemory
    rw [hear, hrun] at hperform
    exact ⟨memory', hperform⟩

theorem serial_hear (dsp : Dsp) (t : Task) (s : Speaker) : (hear dsp t s).serial = s.serial := by
  unfold hear Task.run
  cases stripExtension t.payload with
  | error fault => rfl
  | ok packet =>
      dsimp only
      cases s.decoder.decode dsp packet maxDecoded <;> rfl

theorem apply_eq_map_hear (dsp : Dsp) (t : Task) (speakers : List Speaker) :
    t.apply dsp speakers =
      speakers.map fun s => if s.serial = t.serial then hear dsp t s else s := rfl

theorem exists_attend? (hfits : Fits dsp) (t : Task) (s : Speaker)
    (h : memory.length = maxDecoded) :
    ∃ memory', memory'.length = maxDecoded ∧
      attend? dsp t memory s =
        some (memory', [if s.serial = t.serial then hear dsp t s else s]) := by
  rw [attend?]
  split
  · obtain ⟨memory', hlength, hperform⟩ := exists_perform? hfits t s h
    rw [hperform]
    exact ⟨memory', hlength, rfl⟩
  · exact ⟨memory, h, rfl⟩

theorem exists_work? (hfits : Fits dsp) (t : Task) (speakers : List Speaker)
    (h : memory.length = maxDecoded) :
    ∃ memory', memory'.length = maxDecoded ∧
      work? dsp t (some (memory, speakers)) = some (memory', t.apply dsp speakers) := by
  change ∃ memory', _ ∧ runAll? (attend? dsp t) memory speakers = _
  induction speakers generalizing memory with
  | nil => exact ⟨memory, h, rfl⟩
  | cons s speakers ih =>
      obtain ⟨between, hbetween, hfirst⟩ := exists_attend? hfits t s h
      obtain ⟨memory', hlength, hrest⟩ := ih hbetween
      exact ⟨memory', hlength, runAll?_cons hfirst hrest⟩

theorem exists_worked (hfits : Fits dsp) (tasks : List Task) (speakers : List Speaker)
    (h : memory.length = maxDecoded) :
    ∃ memory', worked (work? dsp) tasks (some (memory, speakers)) =
      some (memory', worked (Task.apply dsp) tasks speakers) := by
  induction tasks generalizing memory speakers with
  | nil => exact ⟨memory, rfl⟩
  | cons t tasks ih =>
      obtain ⟨between, hbetween, hwork⟩ := exists_work? hfits t speakers h
      obtain ⟨memory', hrest⟩ := ih (t.apply dsp speakers) hbetween
      refine ⟨memory', ?_⟩
      rw [← hwork] at hrest
      exact hrest

theorem worked_apply (dsp : Dsp) {serial : Nat} {tasks : List Task}
    (htasks : ∀ t ∈ tasks, t.serial = serial) (speakers : List Speaker) :
    worked (Task.apply dsp) tasks speakers =
      speakers.map fun s => if s.serial = serial then worked (hear dsp) tasks s else s := by
  induction tasks generalizing speakers with
  | nil =>
      refine (List.map_id speakers).symm.trans (List.map_congr_left fun s _ => ?_)
      exact (ite_self s).symm
  | cons t tasks ih =>
      obtain ⟨rfl, htasks⟩ := List.forall_mem_cons.mp htasks
      change worked (Task.apply dsp) tasks (t.apply dsp speakers) = _
      rw [ih htasks, apply_eq_map_hear, List.map_map]
      refine List.map_congr_left fun s _ => ?_
      by_cases hserial : s.serial = t.serial
      · rw [Function.comp_apply, if_pos hserial, if_pos ((serial_hear dsp t s).trans hserial),
          if_pos hserial]
        rfl
      · rw [Function.comp_apply, if_neg hserial, if_neg hserial, if_neg hserial]

/-- What is lost leaves no trace. -/
theorem worked_hear_filter (dsp : Dsp) (tasks : List Task) (s : Speaker) :
    worked (hear dsp) (tasks.filter (decodable dsp)) s = worked (hear dsp) tasks s := by
  rw [worked, worked, List.foldl_filter]
  congr 1
  funext s t
  split
  · rfl
  · rename_i hlost
    obtain ⟨fault, hrun, -⟩ := lost_of_not_decodable hlost s
    rw [hear, hrun]

/-- A worker that runs tasks of one speaker in the same memory never goes outside of it, and leaves
the speaker as the decodable ones of their payloads do, each of which adds what the decoder makes of
it to the buffer. -/
theorem only_decodable_heard {dsp : Dsp} (hfits : Fits dsp) {p : Pool Task} (hquiet : Quiet 1 p)
    {memory : List Sample} (hmemory : memory.length = maxDecoded) (speakers : List Speaker)
    {serial : Nat} {tasks : List Task} (htasks : ∀ t ∈ tasks, t.serial = serial) :
    let start : Shift Task (Option (List Sample × List Speaker)) := ⟨p, some (memory, speakers), []⟩
    (∃ moves, (start.run (work? dsp) moves).accepted = tasks) ∧
      (∀ moves, (start.run (work? dsp) moves).accepted = tasks →
        let w := start.run (work? dsp) moves
        let settled := w.pool.settle (work? dsp) w.state
        settled.1.processed = p.processed + tasks.length ∧
          ∃ memory', settled.2 = some (memory', speakers.map fun s =>
            if s.serial = serial then worked (hear dsp) (tasks.filter (decodable dsp)) s else s)) ∧
      ∀ t s, if decodable dsp t then Heard dsp t s else Lost dsp t s := by
  intro start
  refine ⟨?_, fun moves haccepted => ?_, fun t s => ?_⟩
  · obtain ⟨moves, haccepted⟩ := exists_accepted hquiet Nat.one_pos tasks
    exact ⟨moves, haccepted _ _ []⟩
  · obtain ⟨hprocessed, hstate⟩ := settle_run (work? dsp) hquiet (some (memory, speakers)) moves
    rw [haccepted] at hprocessed hstate
    obtain ⟨memory', hworked⟩ := exists_worked hfits tasks speakers hmemory
    refine ⟨hprocessed, memory', ?_⟩
    simp only [worked_hear_filter]
    rw [← worked_apply dsp htasks]
    exact hstate.trans hworked
  · split
    · rename_i hdecodable
      exact heard_of_decodable hfits hdecodable s
    · rename_i hlost
      exact lost_of_not_decodable hlost s

/-- A pool with one worker that has nothing to do. -/
def soloist : Pool Task :=
  (Pool.create 1 8).addWorker.1

theorem quiet_soloist : Quiet 1 soloist where
  rests := (rests_addWorker (rests_create 1 8) Nat.one_pos).1
  queue := rfl
  idle := by decide

/-- A packet that does not say how many frames it has, an extension that is too long for its
payload, a packet behind an extension, and no packet at all. -/
def mixture : List Task :=
  [⟨0, [0x03], 20⟩, ⟨0, [0xbe, 0xde, 0, 5, 1, 2, 3, 4], 40⟩,
    ⟨0, [0xbe, 0xde, 0, 1, 1, 2, 3, 4, 0xf8, 0xff, 0xfe], 60⟩, ⟨0, [], 80⟩]

theorem only_decodable_heard_mixture :
    let memory := List.replicate maxDecoded Sample.zero
    let s := Speaker.create 7 none 0 40 500
    let start : Shift Task (Option (List Sample × List Speaker)) :=
      ⟨soloist, some (memory, [s]), []⟩
    Fits .quiet ∧ Quiet 1 soloist ∧ memory.length = maxDecoded ∧ (∀ t ∈ mixture, t.serial = 0) ∧
      mixture.map (decodable .quiet) = [false, false, true, true] ∧
        ∃ moves, (start.run (work? .quiet) moves).accepted = mixture ∧
          let w := start.run (work? .quiet) moves
          let settled := w.pool.settle (work? .quiet) w.state
          settled.1.processed = 4 ∧ ∃ memory', settled.2 =
            some (memory', [worked (hear .quiet) (mixture.filter (decodable .quiet)) s]) := by
  intro memory s start
  have hmemory : memory.length = maxDecoded := List.length_replicate
  have htasks : ∀ t ∈ mixture, t.serial = 0 := by decide
  obtain ⟨⟨moves, haccepted⟩, hsettled, -⟩ :=
    only_decodable_heard fits_quiet quiet_soloist hmemory [s] htasks
  obtain ⟨hprocessed, hstate⟩ := hsettled moves haccepted
  exact ⟨fits_quiet, quiet_soloist, hmemory, htasks, by decide, moves, haccepted, hprocessed,
    hstate⟩

end VoiceCall.Proofs.Decoding.Losses
