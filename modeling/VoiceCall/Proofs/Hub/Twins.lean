import VoiceCall.Proofs.Decoding.Renaming
import VoiceCall.Proofs.Hub.Events
import VoiceCall.Proofs.Playback.Isolation

/-!
Hubs between which nobody can tell. They differ in what was told earlier, in meters, in the serial
numbers of speakers, which one of them has begun to hand out later, and in the names and counters of
their workers. Whatever a session asks of both has the same outcome and leaves them as alike.
-/

namespace VoiceCall.Proofs.Hub.Twins

open VoiceCall.Decoding
open VoiceCall.Proofs.Decoding.Renaming
open VoiceCall.Proofs.Decoding.Workers
open VoiceCall.Proofs.Hub.Events
open VoiceCall.Proofs.Hub.History
open VoiceCall.Proofs.Hub.Bookkeeping
open VoiceCall.Proofs.Playback.Isolation
open VoiceCall.Proofs.Speaker.Keys

section
variable (k : Nat)

/-- The speaker under a serial number that is handed out later. -/
def later (s : Speaker) : Speaker :=
  { s with serial := s.serial + k }

def laterTask (t : Task) : Task :=
  { t with serial := t.serial + k }

theorem map_ssrc_later (speakers : List Speaker) :
    (speakers.map (later k)).map Speaker.ssrc = speakers.map Speaker.ssrc := by
  rw [List.map_map]
  rfl

def delayed (r : Roster) : Roster :=
  r.replace (r.speakers.map (later k)) (map_ssrc_later k r.speakers)

theorem speakers_delayed (r : Roster) : (delayed k r).speakers = r.speakers.map (later k) :=
  speakers_replace r (map_ssrc_later k r.speakers)

/-- A roster is delayed if its speakers are and its index is the same. -/
theorem eq_delayed {r r' : Roster} (hspeakers : r'.speakers = r.speakers.map (later k))
    (husers : r'.users = r.users) : r' = delayed k r :=
  eq_of_speakers (hspeakers.trans (speakers_delayed k r).symm) husers

theorem find?_delayed (r : Roster) (ssrc : UInt32) :
    (delayed k r).find? ssrc = (r.find? ssrc).map (later k) := by
  rw [find?_eq, find?_eq, speakers_delayed, List.find?_map]
  rfl

theorem contains_delayed (r : Roster) (ssrc : UInt32) :
    (delayed k r).contains ssrc = r.contains ssrc := by
  rw [contains_eq, contains_eq, speakers_delayed, List.any_map]
  rfl

theorem size_delayed (r : Roster) : (delayed k r).size = r.size := by
  rw [size_eq_length, size_eq_length, speakers_delayed, List.length_map]

theorem without_delayed (r : Roster) (ssrc : UInt32) :
    (delayed k r).without ssrc = delayed k (r.without ssrc) := by
  refine eq_delayed k ?_ rfl
  rw [speakers_without, speakers_without, speakers_delayed, List.filter_map]
  rfl

theorem insert_delayed (r : Roster) (s : Speaker) :
    (delayed k r).insert (later k s) = (delayed k (r.insert s).1, (r.insert s).2) := by
  have hcontains : (delayed k r).contains (later k s).ssrc = r.contains s.ssrc :=
    contains_delayed k r s.ssrc
  by_cases hheld : r.contains s.ssrc
  · rw [Roster.insert, Roster.insert, hcontains, if_pos hheld, if_pos hheld]
  · have hfree : ¬ (delayed k r).contains (later k s).ssrc := hcontains ▸ hheld
    refine Prod.ext (eq_delayed k ?_ ?_) ?_
    · rw [speakers_insert hfree, speakers_insert hheld, speakers_delayed, List.map_append]
      rfl
    · rw [Roster.insert, Roster.insert, if_neg hfree, if_neg hheld]
      rfl
    · rw [Roster.insert, Roster.insert, if_neg hfree, if_neg hheld]

theorem remove_delayed (r : Roster) (ssrc : UInt32) :
    (delayed k r).remove ssrc =
      (delayed k (r.remove ssrc).1, (r.remove ssrc).2.map (later k)) := by
  rw [Roster.remove, Roster.remove, find?_delayed, without_delayed]
  cases r.find? ssrc with
  | none => rfl
  | some s => rfl

theorem removeUser_delayed (r : Roster) (user : String) :
    (delayed k r).removeUser user =
      (delayed k (r.removeUser user).1, (r.removeUser user).2.map (later k)) := by
  have husers : (delayed k r).users = r.users := rfl
  rw [Roster.removeUser, Roster.removeUser, husers]
  cases r.users.lookup user with
  | none => rfl
  | some ssrc =>
      dsimp only
      rw [find?_delayed, without_delayed]
      rfl

theorem modify_delayed (r : Roster) (ssrc : UInt32) {f : Speaker → Speaker}
    (hssrc : ∀ s, (f s).ssrc = s.ssrc) (hf : ∀ s, f (later k s) = later k (f s)) :
    (delayed k r).modify ssrc f hssrc = delayed k (r.modify ssrc f hssrc) := by
  refine eq_delayed k ?_ rfl
  rw [speakers_modify, speakers_modify, speakers_delayed, List.map_map, List.map_map]
  refine List.map_congr_left fun s _ => ?_
  simp only [Function.comp_apply, hf]
  change (if s.ssrc = ssrc then _ else _) = _
  split <;> rfl

theorem run_later (dsp : Dsp) (t : Task) (s : Speaker) :
    Task.run dsp (laterTask k t) (later k s) =
      (Task.run dsp t s).map fun (count, s') => (count, later k s') := by
  have hpayload : (laterTask k t).payload = t.payload := rfl
  unfold Task.run
  rw [hpayload]
  cases Packet.stripExtension t.payload with
  | error fault => rfl
  | ok payload =>
      have hdecoder : (later k s).decoder = s.decoder := rfl
      dsimp only
      rw [hdecoder]
      cases s.decoder.decode dsp payload Opus.Decoder.maxDecoded with
      | error fault => rfl
      | ok decoded => rfl

/-- A task for a later speaker does to it what it would have done to the earlier one. -/
theorem apply_later (dsp : Dsp) (t : Task) (speakers : List Speaker) :
    Task.apply dsp (laterTask k t) (speakers.map (later k)) =
      (Task.apply dsp t speakers).map (later k) := by
  simp only [Task.apply, List.map_map]
  refine List.map_congr_left fun s _ => ?_
  simp only [Function.comp_apply, run_later]
  by_cases hserial : s.serial = t.serial
  · have hlater : (later k s).serial = (laterTask k t).serial := congrArg (· + k) hserial
    rw [if_pos hlater, if_pos hserial]
    cases Task.run dsp t s with
    | error fault => rfl
    | ok done => rfl
  · have hlater : ¬ (later k s).serial = (laterTask k t).serial := by
      intro heq
      exact hserial (Nat.add_right_cancel heq)
    rw [if_neg hlater, if_neg hserial]

theorem serve_later (dsp : Dsp) (t : Task) (r : Roster) :
    (laterTask k t).serve dsp (delayed k r) = delayed k (t.serve dsp r) := by
  refine eq_delayed k ?_ rfl
  rw [Task.serve, Task.serve, speakers_replace, speakers_replace, speakers_delayed, apply_later]

theorem contribute_later (busy : Bool) (count now : Nat) (s : Speaker) :
    Playback.contribute busy count now (later k s) =
      (later k (Playback.contribute busy count now s).1,
        (Playback.contribute busy count now s).2) := by
  unfold Playback.contribute
  cases busy with
  | true => rfl
  | false =>
      have hbuffer : (later k s).buffer = s.buffer := rfl
      rw [if_neg Bool.false_ne_true, if_neg Bool.false_ne_true, hbuffer]
      rcases s.buffer.read count now with ⟨_ | samples, buffer⟩
      · rfl
      · rfl

theorem mixSpeaker_later (deafened : Bool) (busy : List UInt32) (count now : Nat) (s : Speaker) :
    Playback.mixSpeaker deafened busy count now (later k s) =
      (later k (Playback.mixSpeaker deafened busy count now s).1,
        (Playback.mixSpeaker deafened busy count now s).2) := by
  by_cases hskipped : deafened ∨ s.muted
  · rw [mixSpeaker_of_skipped hskipped, mixSpeaker_of_skipped (s := later k s) hskipped]
    rfl
  · rw [mixSpeaker_of_heard hskipped, mixSpeaker_of_heard (s := later k s) hskipped]
    exact contribute_later k _ count now s

theorem passed_later (c : Playback.Controls) (contention : Playback.Contention) (count now : Nat)
    (s : Speaker) :
    passed c contention count now (later k s) = later k (passed c contention count now s) := by
  unfold passed
  split
  · rfl
  · rw [mixSpeaker_later]

theorem part_later (c : Playback.Controls) (contention : Playback.Contention) (count now : Nat)
    (s : Speaker) : part c contention count now (later k s) = part c contention count now s := by
  rw [part, mixSpeaker_later, part]

/-- The mixer minds neither the serial numbers nor the level of the output before. -/
theorem mixChunk_later (c : Playback.Controls) (level : Sample)
    (contention : Playback.Contention) (count now : Nat) (speakers : List Speaker) :
    Playback.mixChunk { c with level := level } contention count now (speakers.map (later k)) =
      ((Playback.mixChunk c contention count now speakers).1.map (later k),
        (Playback.mixChunk c contention count now speakers).2) := by
  change Playback.mixChunk c contention count now (speakers.map (later k)) = _
  rw [mixChunk_eq, mixChunk_eq, List.map_map, List.map_map, List.filterMap_map]
  congr 1
  · exact List.map_congr_left fun s _ => passed_later k c contention count now s
  · congr 1
    exact List.filterMap_congr fun s _ => part_later k c contention count now s

theorem mixChunks_later (c : Playback.Controls) (level : Sample)
    (contention : Playback.Contention) (now : Nat) (counts : List Nat) (speakers : List Speaker) :
    Playback.mixChunks { c with level := level } contention now counts
        (speakers.map (later k)) =
      ((Playback.mixChunks c contention now counts speakers).1.map (later k),
        (Playback.mixChunks c contention now counts speakers).2) := by
  induction counts generalizing speakers with
  | nil => rfl
  | cons count counts ih => simp only [Playback.mixChunks, mixChunk_later, ih]

end

/-- Microphone controls that are set alike. -/
def SameMicrophone (c c' : Microphone.Controls) : Prop :=
  ∃ level active encodeErrors,
    c' = { c with level := level, active := active, encodeErrors := encodeErrors }

/-- Playback controls that are set alike. -/
def SamePlayback (c c' : Playback.Controls) : Prop :=
  ∃ level, c' = { c with level := level }

theorem SameMicrophone.map {c c' : Microphone.Controls} (hsame : SameMicrophone c c')
    {f : Microphone.Controls → Microphone.Controls}
    (hf : ∀ c level active encodeErrors,
      f { c with level := level, active := active, encodeErrors := encodeErrors } =
        { f c with level := level, active := active, encodeErrors := encodeErrors }) :
    SameMicrophone (f c) (f c') := by
  obtain ⟨level, active, encodeErrors, rfl⟩ := hsame
  exact ⟨level, active, encodeErrors, hf c level active encodeErrors⟩

theorem SamePlayback.map {c c' : Playback.Controls} (hsame : SamePlayback c c')
    {f : Playback.Controls → Playback.Controls}
    (hf : ∀ c level, f { c with level := level } = { f c with level := level }) :
    SamePlayback (f c) (f c') := by
  obtain ⟨level, rfl⟩ := hsame
  exact ⟨level, hf c level⟩

structure SameControls (h h' : Hub) : Prop where
  settings : h'.settings = h.settings
  microphone : SameMicrophone h.microphone h'.microphone
  playback : SamePlayback h.playback h'.playback

theorem SameControls.symm {h h' : Hub} (hsame : SameControls h h') : SameControls h' h where
  settings := hsame.settings.symm
  microphone := by
    obtain ⟨_, _, _, hmicrophone⟩ := hsame.microphone
    exact ⟨h.microphone.level, h.microphone.active, h.microphone.encodeErrors, by rw [hmicrophone]⟩
  playback := by
    obtain ⟨_, hplayback⟩ := hsame.playback
    exact ⟨h.playback.level, by rw [hplayback]⟩

/-- What two hubs have in common, whatever their workers do. Each has told its own story before. -/
structure Resembles (k : Nat) (before before' : List Event) (h h' : Hub) : Prop
    extends SameControls h h' where
  roster : h'.roster = delayed k h.roster
  localSsrc : h'.localSsrc = h.localSsrc
  departed : h'.departed = h.departed
  nextSerial : h'.nextSerial = h.nextSerial + k
  told : ∃ told, h.events = before ++ told ∧ h'.events = before' ++ told

structure Twin (k : Nat) (before before' : List Event) (h h' : Hub) : Prop
    extends Resembles k before before' h h' where
  pool : Renamed (laterTask k) h.pool h'.pool
  rests : ∃ n, Rests n h.pool
  rests' : ∃ n, Rests n h'.pool

variable {k : Nat} {before before' : List Event} {h h' : Hub} {dsp : Dsp}

theorem Resembles.find? (hsame : Resembles k before before' h h') (ssrc : UInt32) :
    h'.roster.find? ssrc = (h.roster.find? ssrc).map (later k) := by
  rw [hsame.roster, find?_delayed]

theorem Resembles.ssrcOfUser (hsame : Resembles k before before' h h') (user : String) :
    h'.roster.ssrcOfUser user = h.roster.ssrcOfUser user := by
  rw [hsame.roster]
  rfl

theorem Resembles.emit (hsame : Resembles k before before' h h') (event : Event) :
    Resembles k before before' (h.emit event) (h'.emit event) := by
  obtain ⟨told, hevents, hevents'⟩ := hsame.told
  refine { hsame with told := ⟨told ++ [event], ?_, ?_⟩ }
  · rw [← List.append_assoc, ← hevents]
    rfl
  · rw [← List.append_assoc, ← hevents']
    rfl

/-- A change that does not touch the pool. -/
theorem Twin.changed {g g' : Hub} (htwin : Twin k before before' h h')
    (hsame : Resembles k before before' g g') (hpool : g.pool = h.pool)
    (hpool' : g'.pool = h'.pool) : Twin k before before' g g' where
  toResembles := hsame
  pool := by
    rw [hpool, hpool']
    exact htwin.pool
  rests := hpool ▸ htwin.rests
  rests' := hpool' ▸ htwin.rests'

theorem Twin.emit (htwin : Twin k before before' h h') (event : Event) :
    Twin k before before' (h.emit event) (h'.emit event) :=
  htwin.changed (htwin.toResembles.emit event) rfl rfl

theorem Resembles.speakers (hsame : Resembles k before before' h h') :
    h'.roster.speakers = h.roster.speakers.map (later k) := by
  rw [hsame.roster, speakers_delayed]

/-- Hubs that are alike are twins when the owners of their pools have done the same. -/
theorem twin_obey {n m : Nat} (hsame : Resembles k before before' h h')
    (hpool : Renamed (laterTask k) h.pool h'.pool) (hsound : Sound n h.pool)
    (hsound' : Sound m h'.pool) : Twin k before before' (h.obey dsp) (h'.obey dsp) := by
  obtain ⟨hobeyed, hroster⟩ := hpool.obey hsound hsound' (serve_later k dsp) h.roster
  rw [← hsame.roster] at hobeyed hroster
  exact {
    toResembles := { hsame with roster := hroster }
    pool := hobeyed
    rests := ⟨n, rests_obey _ hsound _⟩
    rests' := ⟨m, rests_obey _ hsound' _⟩ }

theorem twin_resizePool (hsame : Resembles k before before' h h')
    (hpool : Renamed (laterTask k) h.pool h'.pool) (hrests : ∃ n, Rests n h.pool)
    (hrests' : ∃ n, Rests n h'.pool) :
    Twin k before before' (h.resizePool dsp) (h'.resizePool dsp) := by
  obtain ⟨n, hrests⟩ := hrests
  obtain ⟨m, hrests'⟩ := hrests'
  have hsize : h'.roster.size = h.roster.size := by rw [hsame.roster, size_delayed]
  rw [Hub.resizePool, Hub.resizePool, hsize]
  exact twin_obey { hsame with } (hpool.resize h.roster.size) (sound_resize hrests _)
    (sound_resize hrests' _)

/-- The worker at the same place of both pools goes the same step further. -/
theorem Twin.decode (htwin : Twin k before before' h h') (place : Nat) :
    Twin k before before' (h.decode dsp place) (h'.decode dsp place) := by
  obtain ⟨n, hrests⟩ := htwin.rests
  obtain ⟨m, hrests'⟩ := htwin.rests'
  have hmoved := htwin.pool.stepAt hrests.sound.ids hrests'.sound.ids place
  unfold Hub.decode
  cases hstep : (h.pool.stepAt? place).bind h.pool.step? <;>
    cases hstep' : (h'.pool.stepAt? place).bind h'.pool.step? <;>
    rw [hstep, hstep'] at hmoved <;> cases hmoved
  · exact htwin
  · rename_i moved moved' hmoved
    rcases moved with ⟨pool, done⟩
    rcases moved' with ⟨pool', done'⟩
    obtain ⟨hpool, hdone⟩ := hmoved
    dsimp only at hpool hdone
    subst hdone
    have hkept : ∃ n, Rests n pool := ⟨n, rests_stepAt hrests hstep⟩
    have hkept' : ∃ m, Rests m pool' := ⟨m, rests_stepAt hrests' hstep'⟩
    cases done with
    | none =>
        exact {
          toResembles := { htwin.toResembles with }
          pool := hpool
          rests := hkept
          rests' := hkept' }
    | some t =>
        have hroster := serve_later k dsp t h.roster
        rw [← htwin.roster] at hroster
        exact {
          toResembles := { htwin.toResembles with roster := hroster }
          pool := hpool
          rests := hkept
          rests' := hkept' }

theorem Twin.setLocalSsrc (htwin : Twin k before before' h h') (ssrc : UInt32) :
    Twin k before before' (h.setLocalSsrc ssrc) (h'.setLocalSsrc ssrc) :=
  htwin.changed { htwin.toResembles with localSsrc := rfl } rfl rfl

theorem Twin.addSpeaker (htwin : Twin k before before' h h') (ssrc : UInt32)
    (user : Option String) :
    Twin k before before' (h.addSpeaker dsp ssrc user).1 (h'.addSpeaker dsp ssrc user).1 := by
  have hlifted : Resembles k before before' { h with departed := h.departed.filter (· ≠ ssrc) }
      { h' with departed := h'.departed.filter (· ≠ ssrc) } :=
    { htwin.toResembles with departed := congrArg (List.filter (· ≠ ssrc)) htwin.departed }
  have hcontains : h'.roster.contains ssrc = h.roster.contains ssrc := by
    rw [htwin.roster, contains_delayed]
  let s := Speaker.create ssrc user h.nextSerial h.settings.jitterDesired h.settings.jitterMax
  let s' := Speaker.create ssrc user h'.nextSerial h'.settings.jitterDesired h'.settings.jitterMax
  have hs' : s' = later k s := by
    simp only [s', htwin.settings, htwin.nextSerial]
    rfl
  have hinsert : h'.roster.insert s' =
      (delayed k (h.roster.insert s).1, (h.roster.insert s).2) := by
    rw [hs', htwin.roster, insert_delayed]
  unfold Hub.addSpeaker
  dsimp only
  rw [hcontains, hinsert]
  split
  · exact htwin.changed hlifted rfl rfl
  · dsimp only
    split
    · have hadded : Resembles k before before'
          { h with
            roster := (h.roster.insert s).1
            departed := h.departed.filter (· ≠ ssrc)
            nextSerial := h.nextSerial + 1 }
          { h' with
            roster := delayed k (h.roster.insert s).1
            departed := h'.departed.filter (· ≠ ssrc)
            nextSerial := h'.nextSerial + 1 } := by
        refine { hlifted with roster := rfl, nextSerial := ?_ }
        change h'.nextSerial + 1 = h.nextSerial + 1 + k
        rw [htwin.nextSerial, Nat.add_right_comm]
      exact (twin_resizePool hadded htwin.pool htwin.rests htwin.rests').emit
        (.speakerJoined ssrc user)
    · exact htwin.changed hlifted rfl rfl

theorem Twin.speakerRemoved (htwin : Twin k before before' h h') (s : Speaker) :
    Twin k before before' (h.speakerRemoved dsp s) (h'.speakerRemoved dsp (later k s)) := by
  have hdeparted : Resembles k before before'
      { h with departed := if h.isDeparted s.ssrc then h.departed else s.ssrc :: h.departed }
      { h' with
        departed := if h'.isDeparted s.ssrc then h'.departed else s.ssrc :: h'.departed } := by
    refine { htwin.toResembles with departed := ?_ }
    rw [Hub.isDeparted, htwin.departed]
    rfl
  exact (twin_resizePool hdeparted htwin.pool htwin.rests htwin.rests').emit
    (.speakerLeft s.ssrc s.user)

/-- Whom a roster is rid of is removed from both hubs. -/
theorem Twin.removed (htwin : Twin k before before' h h') (roster : Roster)
    (gone : Option Speaker) :
    Twin k before before'
      (match (roster, gone) with
        | (roster, some s) => (({ h with roster := roster } : Hub).speakerRemoved dsp s, true)
        | (roster, none) => ({ h with roster := roster }, false)).1
      (match (delayed k roster, gone.map (later k)) with
        | (roster, some s) => (({ h' with roster := roster } : Hub).speakerRemoved dsp s, true)
        | (roster, none) => ({ h' with roster := roster }, false)).1 := by
  have hsame : Resembles k before before' { h with roster := roster }
      { h' with roster := delayed k roster } := { htwin.toResembles with roster := rfl }
  have hchanged := htwin.changed hsame rfl rfl
  cases gone with
  | none => exact hchanged
  | some s => exact hchanged.speakerRemoved s

theorem Twin.removeSpeaker (htwin : Twin k before before' h h') (ssrc : UInt32) :
    Twin k before before' (h.removeSpeaker dsp ssrc).1 (h'.removeSpeaker dsp ssrc).1 := by
  rw [Hub.removeSpeaker, Hub.removeSpeaker, htwin.roster, remove_delayed]
  exact htwin.removed _ _

theorem Twin.removeUser (htwin : Twin k before before' h h') (user : String) :
    Twin k before before' (h.removeUser dsp user).1 (h'.removeUser dsp user).1 := by
  rw [Hub.removeUser, Hub.removeUser, htwin.roster, removeUser_delayed]
  exact htwin.removed _ _

theorem Twin.admitUnknown (htwin : Twin k before before' h h') (ssrc : UInt32) :
    Twin k before before' (h.admitUnknown dsp ssrc).1 (h'.admitUnknown dsp ssrc).1 := by
  have hguard : (ssrc = h'.localSsrc || h'.isDeparted ssrc) =
      (ssrc = h.localSsrc || h.isDeparted ssrc) := by
    rw [Hub.isDeparted, Hub.isDeparted, htwin.localSsrc, htwin.departed]
  rw [Hub.admitUnknown, Hub.admitUnknown, hguard]
  split
  · exact htwin
  · exact htwin.addSpeaker ssrc none

theorem Twin.modifySpeaker (htwin : Twin k before before' h h') (ssrc : UInt32)
    {f : Speaker → Speaker} (hssrc : ∀ s, (f s).ssrc = s.ssrc)
    (hf : ∀ s, f (later k s) = later k (f s)) :
    Twin k before before' (h.modifySpeaker ssrc f hssrc).1 (h'.modifySpeaker ssrc f hssrc).1 := by
  refine htwin.changed { htwin.toResembles with roster := ?_ } rfl rfl
  change h'.roster.modify ssrc f hssrc = _
  rw [htwin.roster, modify_delayed k h.roster ssrc hssrc hf]
  rfl

theorem Twin.deliver (htwin : Twin k before before' h h') (s : Speaker) (payload : Octets)
    (now : Nat) :
    Twin k before before' (h.deliver s payload now).1 (h'.deliver (later k s) payload now).1 ∧
      (h'.deliver (later k s) payload now).2 = (h.deliver s payload now).2 := by
  by_cases hmuted : s.muted
  · have hmuted' : (later k s).muted := hmuted
    rw [Hub.deliver, Hub.deliver, if_pos hmuted, if_pos hmuted']
    exact ⟨htwin, rfl⟩
  · have hheard' : ¬ (later k s).muted := hmuted
    obtain ⟨n, hrests⟩ := htwin.rests
    obtain ⟨m, hrests'⟩ := htwin.rests'
    obtain ⟨hpool, haccepted⟩ := htwin.pool.submit ⟨s.serial, payload, now⟩
    rw [Hub.deliver, Hub.deliver, if_neg hmuted, if_neg hheard']
    refine ⟨?_, congrArg (if · then Route.queued else .dropped) haccepted⟩
    exact {
      toResembles := { htwin.toResembles with }
      pool := hpool
      rests := ⟨n, rests_submit hrests _⟩
      rests' := ⟨m, rests_submit hrests' _⟩ }

/-- A packet goes the same way in both hubs. -/
theorem Twin.handlePacket (htwin : Twin k before before' h h') (header : Packet.Header)
    (payload : Octets) (now : Nat) :
    Twin k before before' (h.handlePacket header payload now).1
        (h'.handlePacket header payload now).1 ∧
      (h'.handlePacket header payload now).2 = (h.handlePacket header payload now).2 := by
  unfold Hub.handlePacket Hub.destination
  rw [htwin.localSsrc]
  split_ifs
  · exact ⟨htwin, rfl⟩
  · exact ⟨htwin, rfl⟩
  · rw [htwin.find?]
    cases h.roster.find? header.ssrc with
    | none =>
        refine ⟨htwin, ?_⟩
        change (if h'.isDeparted header.ssrc then _ else _) = _
        rw [Hub.isDeparted, htwin.departed]
        rfl
    | some s => exact htwin.deliver s payload now

theorem Twin.control (htwin : Twin k before before' h h') (change : Control) :
    Twin k before before' (h.control dsp change) (h'.control dsp change) := by
  have hsame := htwin.toResembles
  cases change with
  | muteSpeaker ssrc muted =>
      exact htwin.modifySpeaker ssrc (f := (·.setMuted muted)) (fun _ => rfl) fun _ => rfl
  | setSpeakerGain ssrc gain =>
      exact htwin.modifySpeaker ssrc (f := (·.setGain gain)) (fun _ => rfl) fun _ => rfl
  | removeSpeaker ssrc => exact htwin.removeSpeaker ssrc
  | deafen deafened =>
      have hplayback := htwin.playback.map (f := fun c => { c with deafened := deafened })
        fun _ _ => rfl
      exact htwin.changed { hsame with playback := hplayback } rfl rfl
  | setMasterGain gain =>
      have hplayback := htwin.playback.map (f := (·.setMasterGain gain)) fun _ _ => rfl
      exact htwin.changed { hsame with playback := hplayback } rfl rfl
  | transmit transmitting =>
      have hmicrophone := htwin.microphone.map
        (f := fun c => { c with transmitting := transmitting }) fun _ _ _ _ => rfl
      exact htwin.changed { hsame with microphone := hmicrophone } rfl rfl
  | setBitrate bitrate =>
      have hmicrophone := htwin.microphone.map (f := fun c => { c with bitrate := bitrate })
        fun _ _ _ _ => rfl
      exact htwin.changed { hsame with microphone := hmicrophone } rfl rfl
  | setVadMethod method =>
      have hmicrophone := htwin.microphone.map (f := fun c => { c with vadMethod := method })
        fun _ _ _ _ => rfl
      exact htwin.changed { hsame with microphone := hmicrophone } rfl rfl
  | updateSettings settings =>
      have hmicrophone := htwin.microphone.map (f := (·.apply settings.sanitized))
        fun _ _ _ _ => rfl
      have hplayback := htwin.playback.map
        (f := (·.setMasterGain settings.sanitized.playbackGain)) fun _ _ => rfl
      exact htwin.changed { hsame with
        settings := rfl
        microphone := hmicrophone
        playback := hplayback } rfl rfl

theorem Twin.mix (htwin : Twin k before before' h h') (m : Playback.Mixer) (length now : Nat) :
    Twin k before before' (h.mix m length now).1 (h'.mix m length now).1 := by
  obtain ⟨level, hplayback⟩ := htwin.playback
  have hmixed := mixChunks_later k h.playback level .none now
    (Playback.chunks m.scratch length) h.roster.speakers
  refine htwin.changed { htwin.toResembles with roster := ?_, playback := ?_ } rfl rfl
  · exact ⟨_, congrArg (fun c : Playback.Controls =>
      { c with level := (h'.mix m length now).1.playback.level }) hplayback⟩
  · have husers : h'.roster.users = h.roster.users := by
      rw [htwin.roster]
      rfl
    refine eq_delayed k ?_ husers
    rw [Hub.mix, Hub.mix, speakers_mix, speakers_mix, htwin.speakers, hplayback, hmixed]

/-- The meters of the microphone have no part in what becomes of a period. -/
theorem process_same (dsp : Dsp) (p : Microphone.Pipeline) {c c' : Microphone.Controls}
    (hsame : SameMicrophone c c') (input : List Sample) :
    SameMicrophone (p.process dsp c input).2.1 (p.process dsp c' input).2.1 ∧
      (p.process dsp c' input).1 = (p.process dsp c input).1 ∧
        (p.process dsp c' input).2.2 = (p.process dsp c input).2.2 := by
  obtain ⟨level, active, encodeErrors, hc⟩ := hsame
  -- Every step of the pipeline looks at the controls for something else than the meters.
  have haccepts : Microphone.Pipeline.accepts c' input = Microphone.Pipeline.accepts c input := by
    rw [hc]
    rfl
  have hprepare : Microphone.Pipeline.prepare c' input = Microphone.Pipeline.prepare c input := by
    rw [hc]
    rfl
  have hdetect : Microphone.Pipeline.detect dsp c' = Microphone.Pipeline.detect dsp c := by
    rw [hc]
    rfl
  have hretune (peak : Sample) (e : Opus.Encoder) :
      Microphone.Pipeline.retune dsp e { c' with level := peak, active := true } =
        Microphone.Pipeline.retune dsp e { c with level := peak, active := true } := by
    rw [hc]
    rfl
  have hmetered (peak : Sample) (heard : Bool) (failures : Nat → Nat) :
      SameMicrophone
        { c with level := peak, active := heard, encodeErrors := failures c.encodeErrors }
        { c' with level := peak, active := heard, encodeErrors := failures c'.encodeErrors } := by
    rw [hc]
    exact ⟨_, _, _, rfl⟩
  unfold Microphone.Pipeline.process
  rw [haccepts, hprepare, hdetect]
  dsimp only
  split
  · rcases Microphone.Pipeline.detect dsp c p.denoiser (Microphone.Pipeline.prepare c input) with
      ⟨denoiser, _ | _, work⟩
    · exact ⟨hmetered _ false id, rfl, rfl⟩
    · dsimp only
      rw [hretune, if_pos rfl, if_pos rfl]
      split
      · exact ⟨hmetered _ true (· + 1), rfl, rfl⟩
      · split
        · exact ⟨hmetered _ true (· + 1), rfl, rfl⟩
        · exact ⟨hmetered _ true id, rfl, rfl⟩
  · exact ⟨⟨level, false, encodeErrors, by rw [hc]⟩, rfl, rfl⟩

theorem Twin.capture (dsp : Dsp) (htwin : Twin k before before' h h')
    (p : Microphone.Pipeline) (pcm : List Sample) :
    Twin k before before' (h.capture dsp p pcm).1 (h'.capture dsp p pcm).1 ∧
      (h'.capture dsp p pcm).2 = (h.capture dsp p pcm).2 := by
  obtain ⟨hsame, hpipeline, houtcome⟩ := process_same dsp p htwin.microphone pcm
  refine ⟨htwin.changed { htwin.toResembles with microphone := hsame } rfl rfl, ?_⟩
  exact Prod.ext hpipeline houtcome

theorem Twin.removeAll (dsp : Dsp) (htwin : Twin k before before' h h') (speakers : List Speaker) :
    Twin k before before' (speakers.foldl (fun h s => (h.removeSpeaker dsp s.ssrc).1) h)
      ((speakers.map (later k)).foldl (fun h s => (h.removeSpeaker dsp s.ssrc).1) h') := by
  induction speakers generalizing h h' with
  | nil => exact htwin
  | cons s speakers ih => exact ih (htwin.removeSpeaker s.ssrc)

theorem Twin.emptied (htwin : Twin k before before' h h') :
    Twin k before before'
      { ({ h with pool := h.pool.clear } : Hub).obey dsp with
        departed := []
        localSsrc := 0 }
      { ({ h' with pool := h'.pool.clear } : Hub).obey dsp with
        departed := []
        localSsrc := 0 } := by
  obtain ⟨n, hrests⟩ := htwin.rests
  obtain ⟨m, hrests'⟩ := htwin.rests'
  have hcleared : Twin k before before' (({ h with pool := h.pool.clear } : Hub).obey dsp)
      (({ h' with pool := h'.pool.clear } : Hub).obey dsp) :=
    twin_obey { htwin.toResembles with } htwin.pool.clear (sound_clear hrests) (sound_clear hrests')
  exact hcleared.changed { hcleared.toResembles with localSsrc := rfl, departed := rfl } rfl rfl

theorem Twin.shutdown (htwin : Twin k before before' h h') :
    Twin k before before' (h.shutdown dsp) (h'.shutdown dsp) := by
  have hremoved := htwin.removeAll dsp h.roster.speakers
  unfold Hub.shutdown
  dsimp only
  rw [htwin.speakers]
  exact hremoved.emptied

end VoiceCall.Proofs.Hub.Twins
