import VoiceCall.Packet.Extension
import VoiceCall.Speaker.Roster

namespace VoiceCall.Decoding

/-- A payload, the serial number of the speaker it belongs to, and when it came. -/
structure Task where
  serial : Nat
  payload : Octets
  receivedAt : Nat
deriving DecidableEq, Repr

/-- What is left of the payload behind a header extension goes through the decoder into the buffer.
The speaker is changed only if all of that succeeds. -/
def Task.run (dsp : Dsp) (t : Task) (s : Speaker) : Except Fault (Nat × Speaker) :=
  match Packet.stripExtension t.payload with
  | .error fault => .error (.packet fault)
  | .ok payload =>
    match s.decoder.decode dsp payload Opus.Decoder.maxDecoded with
    | .error fault => .error fault
    | .ok (samples, decoder) =>
      .ok (samples.length, { s with
        decoder := decoder
        buffer := (s.buffer.write samples t.receivedAt).1 })

/-- The speakers after a task has run. Its own speaker may have left, and then nobody hears it. -/
def Task.apply (dsp : Dsp) (t : Task) (speakers : List Speaker) : List Speaker :=
  speakers.map fun s =>
    if s.serial = t.serial then
      match t.run dsp s with
      | .ok (_, s) => s
      | .error _ => s
    else
      s

section
variable {α : Type} {f : Speaker → α}
  (hf : ∀ s decoder buffer, f { s with decoder := decoder, buffer := buffer } = f s)
include hf

theorem Task.eq_of_run {dsp : Dsp} {t : Task} {s s' : Speaker} {count : Nat}
    (hrun : t.run dsp s = .ok (count, s')) : f s' = f s := by
  unfold Task.run at hrun
  repeat' split at hrun
  all_goals cases hrun
  exact hf s _ _

/-- A task changes nothing of a speaker but its decoder and its buffer. -/
theorem Task.map_apply (dsp : Dsp) (t : Task) (speakers : List Speaker) :
    (t.apply dsp speakers).map f = speakers.map f := by
  rw [Task.apply, List.map_map]
  refine List.map_congr_left fun s _ => ?_
  rw [Function.comp_apply]
  split
  · split
    · rename_i hrun
      exact eq_of_run hf hrun
    · rfl
  · rfl

end

/-- The roster after a task has run. -/
def Task.serve (dsp : Dsp) (t : Task) (r : Roster) : Roster :=
  r.replace (t.apply dsp r.speakers) (Task.map_apply (fun _ _ _ => rfl) dsp t r.speakers)

end VoiceCall.Decoding
