import Mathlib.Logic.Relation
import VoiceCall.Proofs.Hub.History
import VoiceCall.Proofs.Session.Frame

namespace VoiceCall.Proofs.Session.Upkeep

open VoiceCall.Media
open VoiceCall.Session
open VoiceCall.Proofs.Hub.History
open VoiceCall.Proofs.Hub.Bookkeeping
open VoiceCall.Proofs.Session.Frame
open VoiceCall.Proofs.Speaker.Keys

/-- A call that registers nobody and leaves alone which source is ours. -/
def IsChore : Call → Prop
  | .addSpeaker _ _ => False
  | .admitUnknown _ => False
  | .setLocalSsrc _ => False
  | .shutdown => False
  | _ => True

/-- An event that a session tells of its own accord: nobody comes or goes, and whoever is told to
speak or to be silent is registered. -/
def Tellable (h : Hub) : Event → Prop
  | .speakerJoined _ _ => False
  | .speakerLeft _ _ => False
  | .speakerActivity ssrc _ _ => h.roster.contains ssrc
  | _ => True

inductive Chore (dsp : Dsp) (h : Hub) : Hub → Prop where
  | told {event : Event} : Tellable h event → Chore dsp h (h.emit event)
  | called {call : Call} : IsChore call → Chore dsp h (call.apply dsp h)

def Chores (dsp : Dsp) : Hub → Hub → Prop :=
  Relation.ReflTransGen (Chore dsp)

variable {dsp : Dsp} {h h' h'' : Hub}

theorem Chores.refl (dsp : Dsp) (h : Hub) : Chores dsp h h :=
  Relation.ReflTransGen.refl

theorem Chores.trans (hfirst : Chores dsp h h') (hsecond : Chores dsp h' h'') :
    Chores dsp h h'' :=
  Relation.ReflTransGen.trans hfirst hsecond

theorem chores_emit (dsp : Dsp) (h : Hub) {event : Event} (hevent : Tellable h event) :
    Chores dsp h (h.emit event) :=
  .single (.told hevent)

theorem chores_apply (dsp : Dsp) (h : Hub) (call : Call) (hcall : IsChore call) :
    Chores dsp h (call.apply dsp h) :=
  .single (.called hcall)

theorem chores_take (dsp : Dsp) (now : Nat) (s : Session) (delivery : Delivery) :
    Chores dsp s.hub (s.take now delivery).hub := by
  cases delivery with
  | packet header payload =>
      exact chores_apply dsp s.hub (.packet header payload now) trivial
  | fault fault => exact .refl dsp s.hub

theorem chores_takeAll (dsp : Dsp) (now : Nat) (deliveries : List Delivery) (s : Session) :
    Chores dsp s.hub (deliveries.foldl (take now) s).hub := by
  induction deliveries generalizing s with
  | nil => exact .refl dsp s.hub
  | cons delivery deliveries ih => exact (chores_take dsp now s delivery).trans (ih _)

theorem chores_receive (dsp : Dsp) (now : Nat) (s : Session) :
    Chores dsp s.hub (s.receive now).hub := by
  rw [Session.receive]
  split
  · exact .refl dsp s.hub
  · rename_i link _
    exact chores_takeAll dsp now link.receiveAll.2 { s with link := some link.receiveAll.1 }

theorem chores_speakerSilent (dsp : Dsp) (s : Session) (ssrc : UInt32) :
    Chores dsp s.hub (s.speakerSilent ssrc).hub := by
  rw [Session.speakerSilent]
  split
  · exact .refl dsp s.hub
  · rename_i speaker hfind
    dsimp only
    split
    · exact .refl dsp s.hub
    · exact chores_emit dsp s.hub (contains_iff.mpr ⟨speaker.user, (entry_mem_of_find? hfind).2⟩)

theorem roster_pollSpeaker (s : Session) (speaker : Speaker) :
    (s.pollSpeaker speaker).hub.roster = s.hub.roster := by
  rw [Session.pollSpeaker]
  split <;> rfl

theorem chores_pollSpeaker (dsp : Dsp) {s : Session} {speaker : Speaker}
    (hholds : s.hub.roster.contains speaker.ssrc) :
    Chores dsp s.hub (s.pollSpeaker speaker).hub := by
  rw [Session.pollSpeaker]
  split
  · exact .refl dsp s.hub
  · exact chores_emit dsp s.hub hholds

theorem chores_pollAll (dsp : Dsp) {speakers : List Speaker} {s : Session}
    (hholds : ∀ speaker ∈ speakers, s.hub.roster.contains speaker.ssrc) :
    Chores dsp s.hub (speakers.foldl pollSpeaker s).hub := by
  induction speakers generalizing s with
  | nil => exact .refl dsp s.hub
  | cons speaker speakers ih =>
      refine (chores_pollSpeaker dsp (hholds speaker List.mem_cons_self)).trans (ih ?_)
      intro other hmem
      rw [roster_pollSpeaker]
      exact hholds other (List.mem_cons_of_mem speaker hmem)

theorem chores_pollSpeakers (dsp : Dsp) (s : Session) : Chores dsp s.hub s.pollSpeakers.hub := by
  let known := s.activity.filter fun entry => s.hub.roster.speakers.any (·.ssrc = entry.1)
  exact chores_pollAll dsp (s := { s with activity := known }) fun _ => contains_of_mem

theorem hub_sendFrame (s : Session) (frame : Octets) : (s.sendFrame frame).hub = s.hub := by
  rw [Session.sendFrame]
  split <;> rfl

theorem chores_deviceFailed (dsp : Dsp) (s : Session) (direction : String) (fault : Fault) :
    Chores dsp s.hub (s.deviceFailed direction fault).hub :=
  chores_emit dsp s.hub trivial

theorem chores_capturePeriod (dsp : Dsp) (s : Session) (stream : Sound.CaptureStream)
    (pipeline : Microphone.Pipeline) (periods : List (List Sample)) :
    Chores dsp s.hub (s.capturePeriod dsp stream pipeline periods).hub := by
  induction periods generalizing s pipeline with
  | nil => exact .refl dsp s.hub
  | cons period periods ih =>
      rw [Session.capturePeriod]
      refine (chores_apply dsp s.hub (.capture pipeline period) trivial).trans (.trans ?_ (ih _ _))
      dsimp only
      split
      · rw [hub_sendFrame]
        exact .refl dsp _
      · exact .refl dsp _

theorem chores_captured (dsp : Dsp) (s : Session) (data : Sound.Block) :
    Chores dsp s.hub (s.captured dsp data).1.hub := by
  rw [Session.captured]
  split
  · exact .refl dsp s.hub
  · exact chores_capturePeriod dsp s _ _ _

theorem chores_pull (dsp : Dsp) (now : Nat) (stream : Sound.PlaybackStream) (h : Hub) :
    Chores dsp h (stream.pull (renderer now) h).source :=
  source_pull (fun h' count hchores =>
    hchores.trans (chores_apply dsp h' (.mix (.create Audio.periodLength) count now) trivial))
    stream h (.refl dsp h)

theorem chores_pulled (dsp : Dsp) (s : Session) (now : Nat) :
    Chores dsp s.hub (s.pulled now).1.hub := by
  rw [Session.pulled]
  split
  · exact .refl dsp s.hub
  · exact chores_pull dsp now _ s.hub

theorem chores_captureTrouble (dsp : Dsp) (s : Session) (trouble : Sound.Trouble) :
    Chores dsp s.hub (s.captureTrouble trouble).1.hub := by
  rw [Session.captureTrouble]
  split <;> exact .refl dsp s.hub

theorem chores_playbackTrouble (dsp : Dsp) (s : Session) (trouble : Sound.Trouble) (now : Nat) :
    Chores dsp s.hub (s.playbackTrouble trouble now).1.hub := by
  rw [Session.playbackTrouble]
  split
  · exact .refl dsp s.hub
  · cases trouble with
    | early => exact .refl dsp s.hub
    | exchangeFailed => exact .refl dsp s.hub
    | writeFailed => exact chores_pull dsp now _ s.hub

theorem chores_pollPlayback (dsp : Dsp) (s : Session) : Chores dsp s.hub
    (match s.playback.bind fun stream => stream.line.checkFault.2 with
      | some message => { s with playback := none }.deviceFailed playbackWord (.device message)
      | none => s).hub := by
  split
  · exact chores_deviceFailed dsp { s with playback := none } _ _
  · exact .refl dsp s.hub

theorem chores_pollDevices (dsp : Dsp) (s : Session) : Chores dsp s.hub s.pollDevices.hub := by
  rw [Session.pollDevices]
  refine .trans ?_ (chores_pollPlayback dsp _)
  split
  · exact chores_deviceFailed dsp { s with intake := none } _ _
  · exact .refl dsp s.hub

theorem chores_startPlayback (env : Surroundings) (s : Session) :
    Chores env.dsp s.hub (startPlayback env s).hub := by
  rw [startPlayback]
  split
  · exact .refl env.dsp s.hub
  · exact chores_deviceFailed env.dsp s _ _

theorem chores_startCapture (env : Surroundings) (s : Session) :
    Chores env.dsp s.hub (startCapture env s).1.hub := by
  rw [startCapture]
  split
  · exact .refl env.dsp s.hub
  · split
    · exact .refl env.dsp s.hub
    · exact chores_deviceFailed env.dsp s _ _

theorem chores_startMedia (env : Surroundings) (s : Session) :
    Chores env.dsp s.hub (s.startMedia env).1.hub := by
  rw [Session.startMedia]
  split
  · exact .refl env.dsp s.hub
  · rename_i l _
    split
    · exact .refl env.dsp s.hub
    · let listening : Session := { s with link := some l.listen, receiver := .fresh }
      exact (chores_startPlayback env listening).trans
        (chores_startCapture env (startPlayback env listening))

theorem hub_send (s : Session) (message : Relay.Message) : (s.send message).1.hub = s.hub := by
  rw [Session.send]
  split <;> rfl

theorem hub_sendSilence (count : Nat) (s : Session) : (sendSilence count s).1.hub = s.hub := by
  induction count generalizing s with
  | zero => rfl
  | succ count ih =>
      rw [Session.sendSilence]
      split
      · rfl
      · dsimp only
        split
        · exact ih _
        · rfl

theorem chores_emitStateChange (dsp : Dsp) (s : Session) (before : Relay.HandshakeState) :
    Chores dsp s.hub (s.emitStateChange before).hub := by
  rw [Session.emitStateChange]
  split
  · exact .refl dsp s.hub
  · exact chores_emit dsp s.hub trivial

/-- An action that gives no source to anybody, neither to us nor to a user. -/
def AssignsNothing : Relay.Action → Prop
  | .connectMedia _ _ _ => False
  | .speakerMapped _ _ => False
  | _ => True

theorem chores_perform (env : Surroundings) (meanwhile : List Arrival) (s : Session)
    {action : Relay.Action} (haction : AssignsNothing action) :
    Chores env.dsp s.hub (perform env meanwhile s action).1.hub := by
  cases action with
  | startHeartbeat interval =>
      rw [perform]
      split <;> exact .refl env.dsp s.hub
  | send message =>
      rw [perform, hub_send]
      exact .refl env.dsp s.hub
  | connectMedia ip port ssrc => exact haction.elim
  | installKey key =>
      rw [perform]
      split <;> exact .refl env.dsp s.hub
  | sendSilence =>
      rw [perform, hub_sendSilence]
      exact .refl env.dsp s.hub
  | startMedia =>
      have hstarted := chores_startMedia env s
      rw [perform]
      split
      · rename_i s' hs'
        rw [hs'] at hstarted
        exact hstarted.trans (chores_emit env.dsp s'.hub trivial)
      · exact hstarted
  | speakerMapped ssrc user => exact haction.elim
  | speakerSilent ssrc => exact chores_speakerSilent env.dsp s ssrc
  | userLeft user => exact chores_apply env.dsp s.hub (.removeUser user) trivial

theorem chores_performAll (env : Surroundings) (meanwhile : List Arrival) (s : Session)
    {todo : List Relay.Action} (htodo : ∀ action ∈ todo, AssignsNothing action) :
    Chores env.dsp s.hub (performAll env meanwhile s todo).1.hub := by
  induction todo generalizing s with
  | nil => exact .refl env.dsp s.hub
  | cons action todo ih =>
      have hperformed := chores_perform env meanwhile s (htodo action List.mem_cons_self)
      rw [performAll]
      split
      · rename_i s' hs'
        rw [hs'] at hperformed
        exact hperformed.trans (ih s' fun other hmem => htodo other (List.mem_cons_of_mem _ hmem))
      · exact hperformed

end VoiceCall.Proofs.Session.Upkeep
