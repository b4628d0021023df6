import VoiceCall.Proofs.Session.Upkeep

namespace VoiceCall.Proofs.Session.Services

open VoiceCall.Media
open VoiceCall.Session
open VoiceCall.Proofs.Hub.History
open VoiceCall.Proofs.Session.Upkeep

/-- A call that has a speaker registered for a source of its own choice. -/
def Registers : Call → Prop
  | .addSpeaker _ _ => True
  | _ => False

/-- Events that somebody comes or goes. -/
def isTraffic : Event → Bool
  | .speakerJoined _ _ => true
  | .speakerLeft _ _ => true
  | _ => false

inductive Service (dsp : Dsp) (h : Hub) : Hub → Prop where
  | told {event : Event} : isTraffic event = false → Service dsp h (h.emit event)
  | mapped (ssrc : UInt32) (user : String) : Service dsp h (mapSpeaker dsp h ssrc user)
  | called {call : Call} : ¬ Registers call → Service dsp h (call.apply dsp h)

def Served (dsp : Dsp) : Hub → Hub → Prop :=
  Relation.ReflTransGen (Service dsp)

variable {dsp : Dsp} {h h' h'' : Hub}

theorem Served.refl (dsp : Dsp) (h : Hub) : Served dsp h h :=
  Relation.ReflTransGen.refl

theorem Served.trans (hfirst : Served dsp h h') (hsecond : Served dsp h' h'') :
    Served dsp h h'' :=
  Relation.ReflTransGen.trans hfirst hsecond

theorem served_emit (dsp : Dsp) (h : Hub) {event : Event} (hevent : isTraffic event = false) :
    Served dsp h (h.emit event) :=
  .single (.told hevent)

theorem served_mapSpeaker (dsp : Dsp) (h : Hub) (ssrc : UInt32) (user : String) :
    Served dsp h (mapSpeaker dsp h ssrc user) :=
  .single (.mapped ssrc user)

theorem served_apply (dsp : Dsp) (h : Hub) (call : Call) (hcall : ¬ Registers call) :
    Served dsp h (call.apply dsp h) :=
  .single (.called hcall)

/-- The upkeep of a session is a service like any other. -/
theorem served_of_chores (hchores : Chores dsp h h') : Served dsp h h' := by
  induction hchores with
  | refl => exact .refl dsp h
  | @tail g _ _ hchore ih =>
      refine ih.trans ?_
      cases hchore with
      | @told event htellable =>
          refine served_emit dsp g ?_
          cases event with
          | speakerJoined ssrc user => exact htellable.elim
          | speakerLeft ssrc user => exact htellable.elim
          | _ => rfl
      | @called call hcall =>
          refine served_apply dsp g call fun hregisters => ?_
          cases call with
          | addSpeaker ssrc user => exact hcall
          | _ => exact hregisters

theorem reassign_invariant {P : Hub → Prop} (happly : ∀ h call, P h → P (Call.apply dsp h call))
    (h : Hub) (ssrc : UInt32) (user : String) (hh : P h) :
    P ((match h.roster.ssrcOfUser user with
      | some previous => (h.removeSpeaker dsp previous).1
      | none => h).addSpeaker dsp ssrc (some user)).1 := by
  refine happly _ (.addSpeaker ssrc (some user)) ?_
  split
  · rename_i previous _
    exact happly h (.removeSpeaker previous) hh
  · exact hh

/-- What no call changes, and nothing that is told of other matters, no service changes. -/
theorem served_invariant {P : Hub → Prop}
    (hemit : ∀ h event, isTraffic event = false → P h → P (h.emit event))
    (happly : ∀ h call, P h → P (Call.apply dsp h call)) (hserved : Served dsp h h') (hh : P h) :
    P h' := by
  induction hserved with
  | refl => exact hh
  | @tail g g' _ hservice ih =>
      cases hservice with
      | @told event htold => exact hemit g event htold ih
      | mapped ssrc user =>
          rw [mapSpeaker]
          split
          · split
            · exact ih
            · exact reassign_invariant happly _ ssrc user (happly g (.removeSpeaker ssrc) ih)
          · exact reassign_invariant happly g ssrc user ih
      | @called call _ => exact happly g call ih

theorem served_onNotice (dsp : Dsp) (s : Session) (notice : Notice) :
    Served dsp s.hub (s.onNotice dsp notice).1.hub := by
  cases notice with
  | unknownSource ssrc => exact served_apply dsp s.hub (.admitUnknown ssrc) id
  | transportFailed reason => exact .refl dsp s.hub

theorem served_finish (env : Surroundings) (s : Session) (fault : Option Fault) :
    Served env.dsp s.hub (s.finish env fault).hub :=
  (served_apply env.dsp s.hub .shutdown id).trans
    ((served_emit env.dsp _ rfl).trans (served_emit env.dsp _ rfl))

theorem served_proceed (env : Surroundings) (s : Session) (fault : Option Fault) :
    Served env.dsp s.hub (proceed env (s, fault)).hub := by
  cases fault with
  | none => exact .refl env.dsp s.hub
  | some fault => exact served_finish env s (some fault)

theorem served_connectMedia (env : Surroundings) (meanwhile : List Arrival) (s : Session)
    (ip : String) (ssrc : UInt32) :
    Served env.dsp s.hub (connectMedia env meanwhile s ip ssrc).1.hub := by
  have hassigned : Served env.dsp s.hub (s.hub.setLocalSsrc ssrc) :=
    served_apply env.dsp s.hub (.setLocalSsrc ssrc) id
  rw [Session.connectMedia]
  split
  · exact .refl env.dsp s.hub
  · dsimp only
    split
    · exact .refl env.dsp s.hub
    · split
      · rw [hub_send]
        exact hassigned
      · exact hassigned
      · exact hassigned

theorem served_perform (env : Surroundings) (meanwhile : List Arrival) (s : Session)
    (action : Relay.Action) : Served env.dsp s.hub (perform env meanwhile s action).1.hub := by
  cases action with
  | connectMedia ip port ssrc => exact served_connectMedia env meanwhile s ip ssrc
  | speakerMapped ssrc user => exact served_mapSpeaker env.dsp s.hub ssrc user
  | _ => exact served_of_chores (chores_perform env meanwhile s trivial)

theorem served_performAll (env : Surroundings) (meanwhile : List Arrival) (s : Session)
    (todo : List Relay.Action) :
    Served env.dsp s.hub (performAll env meanwhile s todo).1.hub := by
  induction todo generalizing s with
  | nil => exact .refl env.dsp s.hub
  | cons action todo ih =>
      have hperformed := served_perform env meanwhile s action
      rw [performAll]
      split
      · rename_i s' hs'
        rw [hs'] at hperformed
        exact hperformed.trans (ih s')
      · exact hperformed

theorem served_onMessage (env : Surroundings) (meanwhile : List Arrival) (s : Session)
    (message : Relay.Message) :
    Served env.dsp s.hub (s.onMessage env meanwhile message).hub := by
  rw [Session.onMessage]
  dsimp only
  split
  · exact .refl env.dsp s.hub
  · exact served_finish env { s with handshake := (s.handshake.onMessage message).1 } _
  · rename_i todo _
    have hperformed := served_performAll env meanwhile
      { s with handshake := (s.handshake.onMessage message).1 } todo
    split
    · rename_i s' hs'
      rw [hs'] at hperformed
      exact hperformed.trans (served_of_chores (chores_emitStateChange env.dsp s' _))
    · rename_i s' fault hs'
      rw [hs'] at hperformed
      exact hperformed.trans (served_finish env s' _)

theorem served_respond (env : Surroundings) (s : Session) (stimulus : Stimulus) :
    Served env.dsp s.hub (s.respond env stimulus).hub := by
  cases stimulus with
  | opened => exact .refl env.dsp s.hub
  | broken detail => exact served_finish env s _
  | closed => exact served_finish env s _
  | severed => exact .refl env.dsp s.hub
  | text content meanwhile now =>
      rw [Session.respond]
      split
      · rename_i message _
        exact (served_onMessage env meanwhile s message).trans
          (served_of_chores (chores_receive env.dsp now _))
      · exact .refl env.dsp s.hub
  | binary data => exact .refl env.dsp s.hub
  | beat nonce =>
      rw [Session.respond]
      split
      · have hproceeded := served_proceed env (s.send (.heartbeat nonce)).1
          (s.send (.heartbeat nonce)).2
        rwa [hub_send] at hproceeded
      · exact .refl env.dsp s.hub
  | arrived arrivals now =>
      exact served_of_chores
        (chores_receive env.dsp now { s with link := s.link.map (·.arrive arrivals) })
  | decode place => exact served_apply env.dsp s.hub (.decode place) id
  | noticed =>
      rw [Session.respond]
      split
      · exact .refl env.dsp s.hub
      · rename_i notice notices _
        exact (served_onNotice env.dsp { s with notices := notices } notice).trans
          (served_proceed env _ _)
  | poll =>
      exact served_of_chores
        ((chores_pollDevices env.dsp s).trans (chores_pollSpeakers env.dsp _))
  | captured data => exact served_of_chores (chores_captured env.dsp s data)
  | pulled now => exact served_of_chores (chores_pulled env.dsp s now)
  | captureTrouble trouble => exact served_of_chores (chores_captureTrouble env.dsp s trouble)
  | playbackTrouble trouble now =>
      exact served_of_chores (chores_playbackTrouble env.dsp s trouble now)
  | control change => exact served_apply env.dsp s.hub (.control change) id
  | network up => exact .refl env.dsp s.hub
  | disconnect => exact served_finish env s none

theorem served_respondDialing (env : Surroundings) (s : Session) (stimulus : Stimulus) :
    Served env.dsp s.hub (s.respondDialing env stimulus).hub := by
  cases stimulus with
  | opened =>
      exact served_of_chores (chores_emitStateChange env.dsp
        { s with handshake := s.handshake.opened, standing := .running } s.handshake.state)
  | broken detail => exact served_finish env s _
  | decode place => exact served_apply env.dsp s.hub (.decode place) id
  | control change => exact served_apply env.dsp s.hub (.control change) id
  | network up => exact .refl env.dsp s.hub
  | disconnect => exact served_finish env s none
  | _ => exact .refl env.dsp s.hub

theorem served_step (env : Surroundings) (s : Session) (stimulus : Stimulus) :
    Served env.dsp s.hub (s.step env stimulus).hub := by
  rw [Session.step]
  split
  · exact served_respondDialing env s stimulus
  · exact served_respond env s stimulus
  · exact .refl env.dsp s.hub
  · exact .refl env.dsp s.hub

theorem served_run (env : Surroundings) (s : Session) (stimuli : List Stimulus) :
    Served env.dsp s.hub (s.run env stimuli).hub := by
  induction stimuli generalizing s with
  | nil => exact .refl env.dsp s.hub
  | cons stimulus stimuli ih => exact (served_step env s stimulus).trans (ih _)

end VoiceCall.Proofs.Session.Services
