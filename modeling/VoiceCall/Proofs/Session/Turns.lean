import VoiceCall.Proofs.Session.Actions

/-!
The turns that a session can take. Every step is of one of a few kinds: the session rests, does
something besides the course of the call, ends, breaks down, or acts on a message that moves its
handshake. What holds of a whole run is proved by cases over these kinds.
-/

namespace VoiceCall.Proofs.Session.Turns

open VoiceCall.Media
open VoiceCall.Relay
open VoiceCall.Session
open VoiceCall.Proofs.Hub.Asides
open VoiceCall.Proofs.Relay.Answers
open VoiceCall.Proofs.Session.Actions
open VoiceCall.Proofs.Session.Frame

/-- The message of a stimulus, and what arrives while it is acted on, if a running session reads it
and its handshake moves on it. -/
def accepts? (s : Session) : Stimulus → Option (Message × List Arrival)
  | .text content meanwhile _ =>
    match Message.ofJson content with
    | .ok message =>
      if s.standing = .running ∧ (s.handshake.onMessage message).1.state ≠ s.handshake.state then
        some (message, meanwhile)
      else
        none
    | .error _ => none
  | _ => none

inductive Turn (env : Surroundings) (s : Session) : Stimulus → Session → Prop where
  | rested (stimulus : Stimulus) : s.isLive = false → Turn env s stimulus s
  | steady {stimulus : Stimulus} {s' : Session} : s.isLive → stimulus ≠ .disconnect →
      accepts? s stimulus = none → Steady s s' → Turn env s stimulus s'
  | opened : s.standing = .dialing → Turn env s .opened
      ({ s with handshake := s.handshake.opened, standing := .running }.emitStateChange
        s.handshake.state)
  | ended {stimulus : Stimulus} {fault : Option Fault} {s' : Session} : s.isLive →
      (fault = none ↔ stimulus = .disconnect) → accepts? s stimulus = none → Steady s s' →
        Turn env s stimulus (s'.finish env fault)
  | crashed {content : String} {meanwhile : List Arrival} {millis : Float} {s' : Session}
      (now : Nat) : Message.ofJson content = .ok (.hello millis) →
        s.standing = .running → heartbeatInterval millis = none →
          accepts? s (.text content meanwhile now) = none →
            Steady { s with standing := .crashed } s' →
              Turn env s (.text content meanwhile now) s'
  | advanced {content : String} {meanwhile : List Arrival} {message : Message}
      {handshake : Handshake} {todo : List Action} {performed s' : Session} (now : Nat) :
      s.standing = .running → accepts? s (.text content meanwhile now) = some (message, meanwhile) →
        Answer s.handshake message (handshake, .actions todo) →
          handshake.state ≠ s.handshake.state →
            performAll env meanwhile { s with handshake := handshake } todo = (performed, none) →
              Steady (performed.emit (.stateChanged handshake.state)) s' →
                Turn env s (.text content meanwhile now) s'
  | broke {content : String} {meanwhile : List Arrival} {message : Message}
      {handshake : Handshake} {todo : List Action} {performed : Session} {fault : Fault}
      (now : Nat) :
      s.standing = .running → accepts? s (.text content meanwhile now) = some (message, meanwhile) →
        Answer s.handshake message (handshake, .actions todo) →
          handshake.state ≠ s.handshake.state →
            performAll env meanwhile { s with handshake := handshake } todo =
              (performed, some fault) →
              Turn env s (.text content meanwhile now) (performed.finish env (some fault))

variable {env : Surroundings} {s : Session}

theorem isLive_iff : s.isLive ↔ s.standing = .dialing ∨ s.standing = .running := by
  simp [isLive]

theorem isLive_of_running (h : s.standing = .running) : s.isLive :=
  isLive_iff.mpr (.inr h)

theorem isLive_of_dialing (h : s.standing = .dialing) : s.isLive :=
  isLive_iff.mpr (.inl h)

theorem isLive_of_standing {s' : Session} (hstanding : s'.standing = s.standing) :
    s'.isLive = s.isLive := by
  rw [isLive, isLive, hstanding]

theorem accepts?_of_not_running (h : s.standing ≠ .running) (stimulus : Stimulus) :
    accepts? s stimulus = none := by
  cases stimulus with
  | text content meanwhile now =>
      rw [accepts?]
      split
      · rw [if_neg fun hmoved => h hmoved.1]
      · rfl
  | _ => rfl

theorem emitStateChange_of_eq {before : HandshakeState} (h : s.handshake.state = before) :
    s.emitStateChange before = s :=
  if_pos h

theorem emitStateChange_of_ne {before : HandshakeState} (h : s.handshake.state ≠ before) :
    s.emitStateChange before = s.emit (.stateChanged s.handshake.state) :=
  if_neg h

theorem accepts?_text {content : String} {message : Message} (meanwhile : List Arrival) (now : Nat)
    (hread : Message.ofJson content = .ok message) (hrunning : s.standing = .running) :
    accepts? s (.text content meanwhile now) =
      if (s.handshake.onMessage message).1.state ≠ s.handshake.state then
        some (message, meanwhile)
      else
        none := by
  simp only [accepts?, hread, hrunning, true_and]

theorem turn_moved {content : String} {meanwhile : List Arrival} {message : Message}
    {handshake : Handshake} {todo : List Action} (now : Nat) (hrunning : s.standing = .running)
    (haccepts : accepts? s (.text content meanwhile now) = some (message, meanwhile))
    (hanswer : Answer s.handshake message (handshake, .actions todo))
    (hmoved : handshake.state ≠ s.handshake.state) :
    Turn env s (.text content meanwhile now)
      ((match performAll env meanwhile { s with handshake := handshake } todo with
        | (s', none) => s'.emitStateChange s.handshake.state
        | (s', some fault) => s'.finish env fault).receive now) := by
  obtain ⟨-, hsame, -⟩ := performAll_frame env meanwhile { s with handshake := handshake } todo
  split
  · rename_i performed hperformed
    -- No action touches the handshake, so the state that is told is the one it moved to.
    rw [hperformed] at hsame
    refine .advanced now hrunning haccepts hanswer hmoved hperformed ?_
    have hreceived := steady_receive now (performed.emitStateChange s.handshake.state)
    rwa [emitStateChange_of_ne (hsame ▸ hmoved), hsame] at hreceived ⊢
  · rename_i performed fault hperformed
    exact .broke now hrunning haccepts hanswer hmoved hperformed

theorem turn_message {content : String} {message : Message} (meanwhile : List Arrival) (now : Nat)
    (hread : Message.ofJson content = .ok message) (hrunning : s.standing = .running) :
    Turn env s (.text content meanwhile now)
      ((s.onMessage env meanwhile message).receive now) := by
  have hlive := isLive_of_running hrunning
  have haccepts := accepts?_text meanwhile now hread hrunning
  have hanswer := answer_onMessage s.handshake message
  rw [Session.onMessage]
  generalize s.handshake.onMessage message = answered at hanswer haccepts ⊢
  cases hanswer with
  | greeted hstate hinterval =>
      exact turn_moved now hrunning (haccepts.trans (if_pos (by simp [hstate])))
        (.greeted hstate hinterval) (by simp [hstate])
  | accepted hstate hmode =>
      exact turn_moved now hrunning (haccepts.trans (if_pos (by simp [hstate])))
        (.accepted hstate hmode) (by simp [hstate])
  | established hstate hmode hssrc =>
      exact turn_moved now hrunning (haccepts.trans (if_pos (by simp [hstate])))
        (.established hstate hmode hssrc) (by simp [hstate])
  | overflowed hstate hinterval =>
      exact .crashed now hread hrunning hinterval (haccepts.trans (if_neg fun hne => hne rfl))
        (steady_receive now _)
  | failed message fault =>
      exact .ended hlive (by simp) (haccepts.trans (if_neg fun hne => hne rfl)) (.refl s)
  | remarked message hremarks =>
      obtain ⟨s', hperformed, hsteady⟩ := performAll_remarks env meanwhile hremarks
      refine .steady hlive (by simp) (haccepts.trans (if_neg fun hne => hne rfl)) ?_
      dsimp only
      rw [hperformed]
      dsimp only
      rw [emitStateChange_of_eq (congrArg Handshake.state hsteady.handshake)]
      exact hsteady.trans (steady_receive now s')

theorem turn_running (hrunning : s.standing = .running) (stimulus : Stimulus) :
    Turn env s stimulus (s.respond env stimulus) := by
  have hlive := isLive_of_running hrunning
  cases stimulus with
  | opened => exact .steady hlive (by simp) rfl (.refl s)
  | broken detail => exact .ended hlive (by simp) rfl (.refl s)
  | closed => exact .ended hlive (by simp) rfl (.refl s)
  | severed => exact .steady hlive (by simp) rfl (steady_of_aside rfl rfl rfl rfl rfl (.refl s.hub))
  | text content meanwhile now =>
      rw [Session.respond]
      split
      · rename_i hread
        exact turn_message meanwhile now hread hrunning
      · rename_i hread
        exact .steady hlive (by simp) (by simp [accepts?, hread]) (.refl s)
  | binary data => exact .steady hlive (by simp) rfl (.refl s)
  | beat nonce =>
      rw [Session.respond]
      split
      · rw [Session.send]
        split
        · exact .steady hlive (by simp) rfl (steady_heartbeat s nonce)
        · exact .ended hlive (by simp) rfl (.refl s)
      · exact .steady hlive (by simp) rfl (.refl s)
  | arrived arrivals now =>
      exact .steady hlive (by simp) rfl
        ((steady_arrive s arrivals).trans (steady_receive now _))
  | decode place =>
      exact .steady hlive (by simp) rfl (steady_hub s (aside_decode env.dsp place s.hub))
  | noticed =>
      rw [Session.respond]
      split
      · exact .steady hlive (by simp) rfl (.refl s)
      · rename_i notice notices _
        have htaken : Steady s { s with notices := notices } :=
          steady_of_aside rfl rfl rfl rfl rfl (.refl s.hub)
        cases notice with
        | unknownSource ssrc =>
            exact .steady hlive (by simp) rfl
              (htaken.trans (steady_onNotice env.dsp _ (.unknownSource ssrc)))
        | transportFailed reason => exact .ended hlive (by simp) rfl htaken
  | poll =>
      exact .steady hlive (by simp) rfl ((steady_pollDevices s).trans (steady_pollSpeakers _))
  | captured data => exact .steady hlive (by simp) rfl (steady_captured env.dsp s data)
  | pulled now => exact .steady hlive (by simp) rfl (steady_pulled s now)
  | captureTrouble trouble => exact .steady hlive (by simp) rfl (steady_captureTrouble s trouble)
  | playbackTrouble trouble now =>
      exact .steady hlive (by simp) rfl (steady_playbackTrouble s trouble now)
  | control change =>
      exact .steady hlive (by simp) rfl (steady_hub s (aside_control env.dsp s.hub change))
  | network up =>
      exact .steady hlive (by simp) rfl (steady_of_aside rfl rfl rfl rfl rfl (.refl s.hub))
  | disconnect => exact .ended hlive (by simp) rfl (.refl s)

theorem turn_dialing (hdialing : s.standing = .dialing) (stimulus : Stimulus) :
    Turn env s stimulus (s.respondDialing env stimulus) := by
  have hlive := isLive_of_dialing hdialing
  have hpassed := accepts?_of_not_running (s := s) (by simp [hdialing]) stimulus
  cases stimulus with
  | opened => exact .opened hdialing
  | broken detail => exact .ended hlive (by simp) hpassed (.refl s)
  | decode place =>
      exact .steady hlive (by simp) hpassed (steady_hub s (aside_decode env.dsp place s.hub))
  | control change =>
      exact .steady hlive (by simp) hpassed (steady_hub s (aside_control env.dsp s.hub change))
  | network up =>
      exact .steady hlive (by simp) hpassed (steady_of_aside rfl rfl rfl rfl rfl (.refl s.hub))
  | disconnect => exact .ended hlive (by simp) hpassed (.refl s)
  | _ => exact .steady hlive (by simp) hpassed (.refl s)

theorem step_of_not_live (h : s.isLive = false) (stimulus : Stimulus) :
    s.step env stimulus = s := by
  rw [Session.step]
  split
  · rename_i hstanding
    rw [isLive_of_dialing hstanding] at h
    cases h
  · rename_i hstanding
    rw [isLive_of_running hstanding] at h
    cases h
  · rfl
  · rfl

theorem turn_step (env : Surroundings) (s : Session) (stimulus : Stimulus) :
    Turn env s stimulus (s.step env stimulus) := by
  cases hlive : s.isLive with
  | false =>
      rw [step_of_not_live hlive]
      exact .rested stimulus hlive
  | true =>
      rcases isLive_iff.mp hlive with hdialing | hrunning
      · rw [Session.step, hdialing]
        exact turn_dialing hdialing stimulus
      · rw [Session.step, hrunning]
        exact turn_running hrunning stimulus

end VoiceCall.Proofs.Session.Turns
