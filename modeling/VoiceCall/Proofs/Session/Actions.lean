import VoiceCall.Proofs.Relay.Answers
import VoiceCall.Proofs.Session.Frame

namespace VoiceCall.Proofs.Session.Actions

open VoiceCall.Media
open VoiceCall.Relay
open VoiceCall.Session
open VoiceCall.Proofs.Hub.Asides
open VoiceCall.Proofs.Relay.Answers
open VoiceCall.Proofs.Session.Frame

theorem send_frame (s : Session) (message : Message) :
    (s.send message).1.standing = s.standing ∧ (s.send message).1.handshake = s.handshake ∧
      (s.send message).1.hub = s.hub := by
  rw [Session.send]
  split <;> exact ⟨rfl, rfl, rfl⟩

theorem connectMedia_frame (env : Surroundings) (meanwhile : List Arrival) (s : Session)
    (ip : String) (ssrc : UInt32) :
    (connectMedia env meanwhile s ip ssrc).1.standing = s.standing ∧
      (connectMedia env meanwhile s ip ssrc).1.handshake = s.handshake ∧
        Aside s.hub (connectMedia env meanwhile s ip ssrc).1.hub := by
  rw [Session.connectMedia]
  split
  · exact ⟨rfl, rfl, .refl s.hub⟩
  · dsimp only
    split
    · exact ⟨rfl, rfl, .refl s.hub⟩
    · rename_i address _
      have hsame := onDiscovered_fst s.handshake address
      have hassigned : Aside s.hub (s.hub.setLocalSsrc ssrc) := aside_of_events_eq rfl
      split
      · rename_i hreply
        obtain ⟨hstanding, hhandshake, hhub⟩ := send_frame
          { s with
            datagrams := s.datagrams ++ _
            hub := s.hub.setLocalSsrc ssrc
            link := some _
            handshake := _ } _
        rw [hreply] at hsame
        exact ⟨hstanding, hhandshake.trans hsame, hhub ▸ hassigned⟩
      · rename_i hreply
        rw [hreply] at hsame
        exact ⟨rfl, hsame, hassigned⟩
      · rename_i hreply
        rw [hreply] at hsame
        exact ⟨rfl, hsame, hassigned⟩

theorem perform_startMedia (env : Surroundings) (meanwhile : List Arrival) (s : Session) :
    ∃ s', Steady s s' ∧
      (perform env meanwhile s .startMedia = (s'.emit (.connected s'.hub.localSsrc), none) ∨
        ∃ fault, perform env meanwhile s .startMedia = (s', some fault)) := by
  have hsteady := steady_startMedia env s
  rw [perform]
  generalize startMedia env s = started at hsteady ⊢
  obtain ⟨s', fault⟩ := started
  cases fault with
  | none => exact ⟨s', hsteady, .inl rfl⟩
  | some fault => exact ⟨s', hsteady, .inr ⟨fault, rfl⟩⟩

/-- The start of the media is the only action that tells a milestone. -/
theorem perform_frame (env : Surroundings) (meanwhile : List Arrival) (s : Session)
    (action : Action) :
    (perform env meanwhile s action).1.standing = s.standing ∧
      (perform env meanwhile s action).1.handshake = s.handshake ∧
        (action ≠ .startMedia → Aside s.hub (perform env meanwhile s action).1.hub) := by
  have hsteady {s' : Session} (h : Steady s s') : s'.standing = s.standing ∧
      s'.handshake = s.handshake ∧ (action ≠ .startMedia → Aside s.hub s'.hub) :=
    ⟨h.standing, h.handshake, fun _ => h.aside⟩
  cases action with
  | startHeartbeat interval =>
      rw [perform]
      split
      · exact hsteady (.refl s)
      · exact hsteady (steady_of_aside rfl rfl rfl rfl rfl (.refl s.hub))
  | send message =>
      obtain ⟨hstanding, hhandshake, hhub⟩ := send_frame s message
      exact ⟨hstanding, hhandshake, fun _ => aside_of_events_eq (congrArg Hub.events hhub)⟩
  | connectMedia ip port ssrc =>
      obtain ⟨hstanding, hhandshake, haside⟩ := connectMedia_frame env meanwhile s ip ssrc
      exact ⟨hstanding, hhandshake, fun _ => haside⟩
  | installKey key =>
      rw [perform]
      split
      · exact ⟨rfl, rfl, fun _ => .refl s.hub⟩
      · exact hsteady (.refl s)
  | sendSilence => exact hsteady (steady_sendSilence silenceCount s)
  | startMedia =>
      obtain ⟨s', hstarted, hperformed | ⟨fault, hperformed⟩⟩ :=
        perform_startMedia env meanwhile s
      · rw [hperformed]
        exact ⟨hstarted.standing, hstarted.handshake, fun hother => absurd rfl hother⟩
      · rw [hperformed]
        exact hsteady hstarted
  | speakerMapped ssrc user =>
      exact hsteady (steady_hub s (aside_mapSpeaker env.dsp s.hub ssrc user))
  | speakerSilent ssrc => exact hsteady (steady_speakerSilent s ssrc)
  | userLeft user => exact hsteady (steady_userLeft env.dsp s user)

theorem performAll_frame (env : Surroundings) (meanwhile : List Arrival) (s : Session)
    (todo : List Action) :
    (performAll env meanwhile s todo).1.standing = s.standing ∧
      (performAll env meanwhile s todo).1.handshake = s.handshake ∧
        (.startMedia ∉ todo → Aside s.hub (performAll env meanwhile s todo).1.hub) := by
  induction todo generalizing s with
  | nil => exact ⟨rfl, rfl, fun _ => .refl s.hub⟩
  | cons action todo ih =>
      obtain ⟨hstanding, hhandshake, haside⟩ := perform_frame env meanwhile s action
      rw [performAll]
      split
      · rename_i s' hperformed
        rw [hperformed] at hstanding hhandshake haside
        obtain ⟨hstanding', hhandshake', haside'⟩ := ih s'
        refine ⟨hstanding'.trans hstanding, hhandshake'.trans hhandshake, fun hnone => ?_⟩
        rw [List.mem_cons, not_or] at hnone
        exact (haside (Ne.symm hnone.1)).trans (haside' hnone.2)
      · refine ⟨hstanding, hhandshake, fun hnone => haside ?_⟩
        rintro rfl
        exact hnone List.mem_cons_self

theorem performAll_remarks (env : Surroundings) (meanwhile : List Arrival) {s : Session}
    {h : Handshake} {todo : List Action}
    (hremarks : ∀ action ∈ todo, Remark h action) :
    ∃ s', performAll env meanwhile s todo = (s', none) ∧ Steady s s' := by
  induction todo generalizing s with
  | nil => exact ⟨s, rfl, .refl s⟩
  | cons action todo ih =>
      have hfirst : ∃ s', perform env meanwhile s action = (s', none) ∧ Steady s s' := by
        cases hremarks action List.mem_cons_self with
        | mapped user _ _ => exact ⟨_, rfl, steady_hub s (aside_mapSpeaker env.dsp s.hub _ user)⟩
        | silent _ _ => exact ⟨_, rfl, steady_speakerSilent s _⟩
        | left user _ => exact ⟨_, rfl, steady_userLeft env.dsp s user⟩
      obtain ⟨s', hperformed, hsteady⟩ := hfirst
      obtain ⟨s'', hrest, hsteady'⟩ :=
        ih (s := s') fun action haction => hremarks action (List.mem_cons_of_mem _ haction)
      rw [performAll, hperformed]
      exact ⟨s'', hrest, hsteady.trans hsteady'⟩

theorem performAll_concat (env : Surroundings) (meanwhile : List Arrival) (s : Session)
    (steps : List Action) (action : Action) :
    performAll env meanwhile s (steps ++ [action]) =
      match performAll env meanwhile s steps with
      | (s', none) => perform env meanwhile s' action
      | failed => failed := by
  induction steps generalizing s with
  | nil =>
      rw [List.nil_append, performAll, performAll]
      split
      · rename_i hperformed
        exact hperformed.symm
      · rfl
  | cons step steps ih =>
      rw [List.cons_append, performAll, performAll]
      obtain ⟨s', fault⟩ := perform env meanwhile s step
      cases fault with
      | none => exact ih s'
      | some fault => rfl

theorem performAll_installKey {s : Session} {l : Link} (env : Surroundings)
    (meanwhile : List Arrival) (hlink : s.link = some l) (key : Octets) (todo : List Action) :
    performAll env meanwhile s (.installKey key :: .sendSilence :: todo) =
      match sendSilence silenceCount { s with link := some (l.installKey key) } with
      | (s', none) => performAll env meanwhile s' todo
      | failed => failed := by
  rw [performAll, perform, hlink]
  rfl

/-- Steps that end with the start of the media tell of that, or of nothing if one of them fails. -/
theorem milestones_performAll_startMedia {env : Surroundings} {meanwhile : List Arrival}
    {s s' : Session} {fault : Option Fault} (steps : List Action) (hsteps : .startMedia ∉ steps)
    (hperformed : performAll env meanwhile s (steps ++ [.startMedia]) = (s', fault)) :
    ∃ told ssrc, s'.hub.events = s.hub.events ++ told ∧
      told.filter isMilestone = if fault = none then [.connected ssrc] else [] := by
  obtain ⟨-, -, hprepared⟩ := performAll_frame env meanwhile s steps
  rw [performAll_concat] at hperformed
  generalize performAll env meanwhile s steps = performed at hprepared hperformed
  obtain ⟨prepared, failure⟩ := performed
  cases failure with
  | some failure =>
      cases hperformed
      obtain ⟨told, hevents, hnone⟩ := hprepared hsteps
      exact ⟨told, 0, hevents, hnone⟩
  | none =>
      obtain ⟨started, hsteady, hstarted⟩ := perform_startMedia env meanwhile prepared
      obtain ⟨told, hevents, hnone⟩ := (hprepared hsteps).trans hsteady.aside
      rcases hstarted with hstarted | ⟨failure, hstarted⟩
      · cases hperformed.symm.trans hstarted
        refine ⟨told ++ [.connected started.hub.localSsrc], started.hub.localSsrc, ?_, ?_⟩
        · rw [← List.append_assoc, ← hevents]
          rfl
        · rw [List.filter_append, hnone]
          rfl
      · cases hperformed.symm.trans hstarted
        exact ⟨told, 0, hevents, hnone⟩

end VoiceCall.Proofs.Session.Actions
