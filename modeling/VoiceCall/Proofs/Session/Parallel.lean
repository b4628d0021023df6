import VoiceCall.Proofs.Hub.Twins
import VoiceCall.Proofs.Session.Frame

namespace VoiceCall.Proofs.Session.Parallel

open VoiceCall.Media
open VoiceCall.Session
open VoiceCall.Proofs.Hub.Twins
open VoiceCall.Proofs.Session.Frame
open VoiceCall.Proofs.Speaker.Keys

/-- A session, and one that differs from it in its hub and in its heartbeats alone. -/
inductive Abreast (k : Nat) (before before' : List Event) (s : Session) : Session → Prop where
  | intro {h' : Hub} {sent' : List Relay.Message} : Twin k before before' s.hub h' →
      sent'.filter (!isHeartbeat ·) = s.sent.filter (!isHeartbeat ·) →
        Abreast k before before' s { s with hub := h', sent := sent' }

/-- Sessions that have done something with the same result. -/
inductive Agree {α : Type} (k : Nat) (before before' : List Event) :
    Session × α → Session × α → Prop where
  | intro {s s' : Session} {result : α} : Abreast k before before' s s' →
      Agree k before before' (s, result) (s', result)

variable {k : Nat} {before before' : List Event} {dsp : Dsp} {s s' : Session}

theorem abreast_foldl {α : Type} {f : Session → α → Session}
    (hf : ∀ {s s' : Session}, Abreast k before before' s s' →
      ∀ x, Abreast k before before' (f s x) (f s' x))
    (xs : List α) (h : Abreast k before before' s s') :
    Abreast k before before' (xs.foldl f s) (xs.foldl f s') := by
  induction xs generalizing s s' with
  | nil => exact h
  | cons x xs ih => exact ih (hf h x)

theorem abreast_take (now : Nat) (h : Abreast k before before' s s') (delivery : Delivery) :
    Abreast k before before' (s.take now delivery) (s'.take now delivery) := by
  obtain @⟨h', sent', htwin, hspoken⟩ := h
  cases delivery with
  | packet header payload =>
      obtain ⟨hhandled, hroute⟩ := htwin.handlePacket header payload now
      unfold Session.take Receiver.onPacket
      dsimp only
      rw [hroute]
      exact .intro hhandled hspoken
  | fault fault => exact .intro htwin hspoken

theorem abreast_receive (now : Nat) (h : Abreast k before before' s s') :
    Abreast k before before' (s.receive now) (s'.receive now) := by
  obtain @⟨h', sent', htwin, hspoken⟩ := h
  unfold Session.receive
  dsimp only
  split
  · exact .intro htwin hspoken
  · exact abreast_foldl (abreast_take now) _ (.intro htwin hspoken)

theorem abreast_speakerSilent (h : Abreast k before before' s s') (ssrc : UInt32) :
    Abreast k before before' (s.speakerSilent ssrc) (s'.speakerSilent ssrc) := by
  obtain @⟨h', sent', htwin, hspoken⟩ := h
  unfold Session.speakerSilent
  dsimp only
  rw [htwin.find?]
  cases s.hub.roster.find? ssrc with
  | none => exact .intro htwin hspoken
  | some speaker =>
      dsimp only [Option.map_some]
      split
      · exact .intro htwin hspoken
      · exact .intro (htwin.emit _) hspoken

theorem abreast_userLeft (h : Abreast k before before' s s') (user : String) :
    Abreast k before before' (s.userLeft dsp user) (s'.userLeft dsp user) := by
  obtain @⟨h', sent', htwin, hspoken⟩ := h
  unfold Session.userLeft
  dsimp only
  rw [htwin.ssrcOfUser]
  exact .intro (htwin.removeUser user) hspoken

theorem abreast_pollSpeaker (h : Abreast k before before' s s') (speaker : Speaker) :
    Abreast k before before' (s.pollSpeaker speaker) (s'.pollSpeaker (later k speaker)) := by
  obtain @⟨h', sent', htwin, hspoken⟩ := h
  change Abreast k before before' _ (Session.pollSpeaker _ speaker)
  unfold Session.pollSpeaker
  dsimp only
  split
  · exact .intro htwin hspoken
  · exact .intro (htwin.emit _) hspoken

theorem abreast_pollAll (h : Abreast k before before' s s') (speakers : List Speaker) :
    Abreast k before before' (speakers.foldl pollSpeaker s)
      ((speakers.map (later k)).foldl pollSpeaker s') := by
  induction speakers generalizing s s' with
  | nil => exact h
  | cons speaker speakers ih => exact ih (abreast_pollSpeaker h speaker)

theorem abreast_pollSpeakers (h : Abreast k before before' s s') :
    Abreast k before before' s.pollSpeakers s'.pollSpeakers := by
  obtain @⟨h', sent', htwin, hspoken⟩ := h
  have hknown (entry : UInt32 × Bool) : h'.roster.speakers.any (·.ssrc = entry.1) =
      s.hub.roster.speakers.any (·.ssrc = entry.1) := by
    rw [← contains_eq, ← contains_eq, htwin.roster, contains_delayed]
  unfold Session.pollSpeakers
  dsimp only
  simp only [hknown]
  rw [htwin.speakers]
  let known := s.activity.filter fun entry => s.hub.roster.speakers.any (·.ssrc = entry.1)
  have hpruned : Abreast k before before' { s with activity := known }
      { s with hub := h', activity := known, sent := sent' } := .intro htwin hspoken
  exact abreast_pollAll hpruned s.hub.roster.speakers

theorem agree_onNotice (h : Abreast k before before' s s') (notice : Notice) :
    Agree k before before' (s.onNotice dsp notice) (s'.onNotice dsp notice) := by
  obtain @⟨h', sent', htwin, hspoken⟩ := h
  cases notice with
  | unknownSource ssrc => exact .intro (.intro (htwin.admitUnknown ssrc) hspoken)
  | transportFailed reason => exact .intro (.intro htwin hspoken)

theorem twin_reassign {h h' : Hub} (htwin : Twin k before before' h h') (ssrc : UInt32)
    (user : String) :
    Twin k before before'
      ((match h.roster.ssrcOfUser user with
        | some previous => (h.removeSpeaker dsp previous).1
        | none => h).addSpeaker dsp ssrc (some user)).1
      ((match h'.roster.ssrcOfUser user with
        | some previous => (h'.removeSpeaker dsp previous).1
        | none => h').addSpeaker dsp ssrc (some user)).1 := by
  rw [htwin.ssrcOfUser]
  refine Twin.addSpeaker ?_ ssrc (some user)
  split
  · exact htwin.removeSpeaker _
  · exact htwin

theorem twin_mapSpeaker {h h' : Hub} (htwin : Twin k before before' h h') (ssrc : UInt32)
    (user : String) :
    Twin k before before' (mapSpeaker dsp h ssrc user) (mapSpeaker dsp h' ssrc user) := by
  rw [mapSpeaker, mapSpeaker, htwin.find?]
  cases h.roster.find? ssrc with
  | none => exact twin_reassign htwin ssrc user
  | some existing =>
      change Twin k before before' _ (if existing.user = some user then h' else _)
      dsimp only
      split
      · exact htwin
      · exact twin_reassign (htwin.removeSpeaker ssrc) ssrc user

theorem abreast_sendFrame (h : Abreast k before before' s s') (frame : Octets) :
    Abreast k before before' (s.sendFrame frame) (s'.sendFrame frame) := by
  obtain @⟨h', sent', htwin, hspoken⟩ := h
  unfold Session.sendFrame
  dsimp only
  split <;> exact .intro htwin hspoken

theorem agree_sendSilence (count : Nat) (h : Abreast k before before' s s') :
    Agree k before before' (sendSilence count s) (sendSilence count s') := by
  induction count generalizing s s' with
  | zero => exact .intro h
  | succ count ih =>
      obtain @⟨h', sent', htwin, hspoken⟩ := h
      unfold Session.sendSilence
      dsimp only
      split
      · exact .intro (.intro htwin hspoken)
      · split
        · exact ih (.intro htwin hspoken)
        · exact .intro (.intro htwin hspoken)

theorem abreast_pollPlayback (h : Abreast k before before' s s') : Abreast k before before'
    (match s.playback.bind fun stream => stream.line.checkFault.2 with
      | some message => { s with playback := none }.deviceFailed playbackWord (.device message)
      | none => s)
    (match s'.playback.bind fun stream => stream.line.checkFault.2 with
      | some message => { s' with playback := none }.deviceFailed playbackWord (.device message)
      | none => s') := by
  obtain @⟨h', sent', htwin, hspoken⟩ := h
  dsimp only
  split
  · exact .intro (htwin.emit _) hspoken
  · exact .intro htwin hspoken

theorem abreast_pollDevices (h : Abreast k before before' s s') :
    Abreast k before before' s.pollDevices s'.pollDevices := by
  obtain @⟨h', sent', htwin, hspoken⟩ := h
  rw [Session.pollDevices, Session.pollDevices]
  refine abreast_pollPlayback ?_
  dsimp only
  split
  · exact .intro (htwin.emit _) hspoken
  · exact .intro htwin hspoken

theorem abreast_capturePeriod (stream : Sound.CaptureStream) (pipeline : Microphone.Pipeline)
    (periods : List (List Sample)) (h : Abreast k before before' s s') :
    Abreast k before before' (s.capturePeriod dsp stream pipeline periods)
      (s'.capturePeriod dsp stream pipeline periods) := by
  induction periods generalizing s s' pipeline with
  | nil =>
      obtain @⟨h', sent', htwin, hspoken⟩ := h
      exact .intro htwin hspoken
  | cons period periods ih =>
      obtain @⟨h', sent', htwin, hspoken⟩ := h
      obtain ⟨hheard, hsame⟩ := htwin.capture dsp pipeline period
      unfold Session.capturePeriod
      dsimp only
      generalize s.hub.capture dsp pipeline period = captured at hheard hsame ⊢
      generalize h'.capture dsp pipeline period = captured' at hheard hsame ⊢
      obtain ⟨hub, pipeline, outcome⟩ := captured
      obtain ⟨hub', _⟩ := captured'
      cases hsame
      refine ih pipeline ?_
      have hpassed : Abreast k before before' { s with hub := hub }
          { s with hub := hub', sent := sent' } := .intro hheard hspoken
      dsimp only
      split
      · exact abreast_sendFrame hpassed _
      · exact hpassed

theorem abreast_captured (h : Abreast k before before' s s') (data : Sound.Block) :
    Abreast k before before' (s.captured dsp data).1 (s'.captured dsp data).1 := by
  obtain @⟨h', sent', htwin, hspoken⟩ := h
  unfold Session.captured
  dsimp only
  split
  · exact .intro htwin hspoken
  · exact abreast_capturePeriod _ _ _ (.intro htwin hspoken)

theorem twin_pull (now : Nat) (stream : Sound.PlaybackStream) {h h' : Hub}
    (htwin : Twin k before before' h h') :
    Twin k before before' (stream.pull (renderer now) h).source
      (stream.pull (renderer now) h').source :=
  related_pull (fun hsource count => hsource.mix (.create Audio.periodLength) count now) stream h h'
    htwin

theorem abreast_pulled (h : Abreast k before before' s s') (now : Nat) :
    Abreast k before before' (s.pulled now).1 (s'.pulled now).1 := by
  obtain @⟨h', sent', htwin, hspoken⟩ := h
  unfold Session.pulled
  dsimp only
  split
  · exact .intro htwin hspoken
  · exact .intro (twin_pull now _ htwin) hspoken

theorem abreast_captureTrouble (h : Abreast k before before' s s') (trouble : Sound.Trouble) :
    Abreast k before before' (s.captureTrouble trouble).1 (s'.captureTrouble trouble).1 := by
  obtain @⟨h', sent', htwin, hspoken⟩ := h
  unfold Session.captureTrouble
  dsimp only
  split <;> exact .intro htwin hspoken

theorem abreast_playbackTrouble (h : Abreast k before before' s s') (trouble : Sound.Trouble)
    (now : Nat) :
    Abreast k before before' (s.playbackTrouble trouble now).1
      (s'.playbackTrouble trouble now).1 := by
  obtain @⟨h', sent', htwin, hspoken⟩ := h
  unfold Session.playbackTrouble
  dsimp only
  split
  · exact .intro htwin hspoken
  · cases trouble with
    | early => exact .intro htwin hspoken
    | exchangeFailed => exact .intro htwin hspoken
    | writeFailed => exact .intro (twin_pull now _ htwin) hspoken

theorem abreast_startPlayback (env : Surroundings) (h : Abreast k before before' s s') :
    Abreast k before before' (startPlayback env s) (startPlayback env s') := by
  obtain @⟨h', sent', htwin, hspoken⟩ := h
  rw [startPlayback, startPlayback, htwin.settings]
  split
  · exact .intro htwin hspoken
  · exact .intro (htwin.emit _) hspoken

theorem startPipeline_eq (env : Surroundings) (htwin : Twin k before before' h h') :
    startPipeline env h' = startPipeline env h := by
  obtain ⟨_, _, _, hsame⟩ := htwin.microphone
  rw [startPipeline, startPipeline, hsame]
  rfl

theorem agree_startCapture (env : Surroundings) (h : Abreast k before before' s s') :
    Agree k before before' (startCapture env s) (startCapture env s') := by
  obtain @⟨h', sent', htwin, hspoken⟩ := h
  rw [startCapture, startCapture]
  dsimp only
  rw [startPipeline_eq env htwin, htwin.settings]
  split
  · exact .intro (.intro htwin hspoken)
  · split
    · exact .intro (.intro htwin hspoken)
    · exact .intro (.intro (htwin.emit _) hspoken)

theorem agree_startMedia (env : Surroundings) (h : Abreast k before before' s s') :
    Agree k before before' (s.startMedia env) (s'.startMedia env) := by
  obtain @⟨h', sent', htwin, hspoken⟩ := h
  rw [Session.startMedia, Session.startMedia]
  dsimp only
  split
  · exact .intro (.intro htwin hspoken)
  · split
    · exact .intro (.intro htwin hspoken)
    · exact agree_startCapture env (abreast_startPlayback env (.intro htwin hspoken))

theorem agree_send (h : Abreast k before before' s s') (message : Relay.Message) :
    Agree k before before' (s.send message) (s'.send message) := by
  obtain @⟨h', sent', htwin, hspoken⟩ := h
  unfold Session.send
  dsimp only
  split
  · refine .intro (.intro htwin ?_)
    rw [List.filter_append, List.filter_append, hspoken]
  · exact .intro (.intro htwin hspoken)

theorem abreast_finish (env : Surroundings) (h : Abreast k before before' s s')
    (fault : Option Fault) :
    Abreast k before before' (s.finish env fault) (s'.finish env fault) := by
  obtain @⟨h', sent', htwin, hspoken⟩ := h
  exact .intro ((htwin.shutdown.emit _).emit _) hspoken

theorem abreast_proceed (env : Surroundings) {r r' : Session × Option Fault}
    (h : Agree k before before' r r') :
    Abreast k before before' (proceed env r) (proceed env r') := by
  obtain @⟨s, s', fault, habreast⟩ := h
  cases fault with
  | none => exact habreast
  | some fault => exact abreast_finish env habreast (some fault)

theorem abreast_emitStateChange (h : Abreast k before before' s s')
    (state : Relay.HandshakeState) :
    Abreast k before before' (s.emitStateChange state) (s'.emitStateChange state) := by
  obtain @⟨h', sent', htwin, hspoken⟩ := h
  unfold Session.emitStateChange
  dsimp only
  split
  · exact .intro htwin hspoken
  · exact .intro (htwin.emit _) hspoken

theorem agree_connectMedia (env : Surroundings) (meanwhile : List Arrival)
    (h : Abreast k before before' s s') (ip : String) (ssrc : UInt32) :
    Agree k before before' (connectMedia env meanwhile s ip ssrc)
      (connectMedia env meanwhile s' ip ssrc) := by
  obtain @⟨h', sent', htwin, hspoken⟩ := h
  unfold Session.connectMedia
  dsimp only
  split
  · exact .intro (.intro htwin hspoken)
  · split
    · exact .intro (.intro htwin hspoken)
    · split
      · refine agree_send ?_ _
        exact .intro (htwin.setLocalSsrc ssrc) hspoken
      · exact .intro (.intro (htwin.setLocalSsrc ssrc) hspoken)
      · exact .intro (.intro (htwin.setLocalSsrc ssrc) hspoken)

theorem agree_perform (env : Surroundings) (meanwhile : List Arrival)
    (h : Abreast k before before' s s') (action : Relay.Action) :
    Agree k before before' (perform env meanwhile s action) (perform env meanwhile s' action) := by
  cases action with
  | startHeartbeat interval =>
      obtain @⟨h', sent', htwin, hspoken⟩ := h
      unfold perform
      dsimp only
      split <;> exact .intro (.intro htwin hspoken)
  | send message => exact agree_send h message
  | connectMedia ip port ssrc => exact agree_connectMedia env meanwhile h ip ssrc
  | installKey key =>
      obtain @⟨h', sent', htwin, hspoken⟩ := h
      unfold perform
      dsimp only
      split <;> exact .intro (.intro htwin hspoken)
  | sendSilence => exact agree_sendSilence silenceCount h
  | startMedia =>
      have hstarted := agree_startMedia env h
      unfold perform
      dsimp only
      generalize s.startMedia env = r at hstarted ⊢
      generalize s'.startMedia env = r' at hstarted ⊢
      obtain @⟨s, s', fault, habreast⟩ := hstarted
      cases fault with
      | none =>
          obtain @⟨h', sent', htwin, hspoken⟩ := habreast
          dsimp only
          rw [htwin.localSsrc]
          exact .intro (.intro (htwin.emit _) hspoken)
      | some fault => exact .intro habreast
  | speakerMapped ssrc user =>
      obtain @⟨h', sent', htwin, hspoken⟩ := h
      exact .intro (.intro (twin_mapSpeaker htwin ssrc user) hspoken)
  | speakerSilent ssrc => exact .intro (abreast_speakerSilent h ssrc)
  | userLeft user => exact .intro (abreast_userLeft h user)

theorem agree_performAll (env : Surroundings) (meanwhile : List Arrival)
    (todo : List Relay.Action) (h : Abreast k before before' s s') :
    Agree k before before' (performAll env meanwhile s todo)
      (performAll env meanwhile s' todo) := by
  induction todo generalizing s s' with
  | nil => exact .intro h
  | cons action todo ih =>
      have hperformed := agree_perform env meanwhile h action
      unfold performAll
      generalize perform env meanwhile s action = r at hperformed ⊢
      generalize perform env meanwhile s' action = r' at hperformed ⊢
      obtain @⟨s, s', fault, habreast⟩ := hperformed
      cases fault with
      | none => exact ih habreast
      | some fault => exact .intro habreast

theorem abreast_onMessage (env : Surroundings) (meanwhile : List Arrival)
    (h : Abreast k before before' s s') (message : Relay.Message) :
    Abreast k before before' (s.onMessage env meanwhile message)
      (s'.onMessage env meanwhile message) := by
  obtain @⟨h', sent', htwin, hspoken⟩ := h
  unfold Session.onMessage
  dsimp only
  split
  · exact .intro htwin hspoken
  · refine abreast_finish env ?_ _
    exact .intro htwin hspoken
  · rename_i todo _
    have hanswered : Abreast k before before'
        { s with handshake := (s.handshake.onMessage message).1 }
        { s with
          hub := h'
          handshake := (s.handshake.onMessage message).1
          sent := sent' } := .intro htwin hspoken
    have hperformed := agree_performAll env meanwhile todo hanswered
    generalize performAll env meanwhile _ todo = r at hperformed ⊢
    generalize performAll env meanwhile _ todo = r' at hperformed ⊢
    obtain @⟨s, s', fault, habreast⟩ := hperformed
    cases fault with
    | none => exact abreast_emitStateChange habreast _
    | some fault => exact abreast_finish env habreast _

/-- What happens to both sessions: the same, but for what heartbeats are marked with. -/
inductive SameStimulus : Stimulus → Stimulus → Prop where
  | same (stimulus : Stimulus) : SameStimulus stimulus stimulus
  | beat (nonce nonce' : UInt64) : SameStimulus (.beat nonce) (.beat nonce')

theorem agree_beat (h : Abreast k before before' s s') (nonce nonce' : UInt64) :
    Agree k before before' (s.send (.heartbeat nonce)) (s'.send (.heartbeat nonce')) := by
  obtain @⟨h', sent', htwin, hspoken⟩ := h
  unfold Session.send
  dsimp only
  split
  · refine .intro (.intro htwin ?_)
    rw [List.filter_append, List.filter_append, hspoken]
    rfl
  · exact .intro (.intro htwin hspoken)

theorem abreast_beat (env : Surroundings) (h : Abreast k before before' s s')
    (nonce nonce' : UInt64) :
    Abreast k before before' (s.respond env (.beat nonce)) (s'.respond env (.beat nonce')) := by
  have hsent := abreast_proceed env (agree_beat h nonce nonce')
  obtain @⟨h', sent', htwin, hspoken⟩ := h
  rw [Session.respond, Session.respond]
  dsimp only
  split
  · exact hsent
  · exact .intro htwin hspoken

theorem abreast_respond (env : Surroundings) (h : Abreast k before before' s s')
    (stimulus : Stimulus) :
    Abreast k before before' (s.respond env stimulus) (s'.respond env stimulus) := by
  cases stimulus with
  | opened => exact h
  | broken detail => exact abreast_finish env h _
  | closed => exact abreast_finish env h _
  | severed =>
      obtain @⟨h', sent', htwin, hspoken⟩ := h
      exact .intro htwin hspoken
  | text content meanwhile now =>
      rw [Session.respond, Session.respond]
      split
      · exact abreast_receive now (abreast_onMessage env meanwhile h _)
      · exact h
  | binary data => exact h
  | beat nonce => exact abreast_beat env h nonce nonce
  | arrived arrivals now =>
      obtain @⟨h', sent', htwin, hspoken⟩ := h
      refine abreast_receive now ?_
      exact .intro htwin hspoken
  | decode place =>
      obtain @⟨h', sent', htwin, hspoken⟩ := h
      exact .intro (htwin.decode place) hspoken
  | noticed =>
      obtain @⟨h', sent', htwin, hspoken⟩ := h
      rw [Session.respond, Session.respond]
      dsimp only
      split
      · exact .intro htwin hspoken
      · refine abreast_proceed env (agree_onNotice ?_ _)
        exact .intro htwin hspoken
  | poll => exact abreast_pollSpeakers (abreast_pollDevices h)
  | captured data => exact abreast_captured h data
  | pulled now => exact abreast_pulled h now
  | captureTrouble trouble => exact abreast_captureTrouble h trouble
  | playbackTrouble trouble now => exact abreast_playbackTrouble h trouble now
  | control change =>
      obtain @⟨h', sent', htwin, hspoken⟩ := h
      exact .intro (htwin.control change) hspoken
  | network up =>
      obtain @⟨h', sent', htwin, hspoken⟩ := h
      exact .intro htwin hspoken
  | disconnect => exact abreast_finish env h none

theorem abreast_respondDialing (env : Surroundings) (h : Abreast k before before' s s')
    (stimulus : Stimulus) :
    Abreast k before before' (s.respondDialing env stimulus) (s'.respondDialing env stimulus) := by
  cases stimulus with
  | opened =>
      obtain @⟨h', sent', htwin, hspoken⟩ := h
      refine abreast_emitStateChange ?_ _
      exact .intro htwin hspoken
  | broken detail => exact abreast_finish env h _
  | decode place =>
      obtain @⟨h', sent', htwin, hspoken⟩ := h
      exact .intro (htwin.decode place) hspoken
  | control change =>
      obtain @⟨h', sent', htwin, hspoken⟩ := h
      exact .intro (htwin.control change) hspoken
  | network up =>
      obtain @⟨h', sent', htwin, hspoken⟩ := h
      exact .intro htwin hspoken
  | disconnect => exact abreast_finish env h none
  | _ => exact h

theorem Abreast.standing (h : Abreast k before before' s s') : s'.standing = s.standing := by
  obtain @⟨h', sent', htwin, hspoken⟩ := h
  rfl

theorem abreast_step (env : Surroundings) (h : Abreast k before before' s s')
    {stimulus stimulus' : Stimulus} (hsame : SameStimulus stimulus stimulus') :
    Abreast k before before' (s.step env stimulus) (s'.step env stimulus') := by
  rw [Session.step, Session.step, h.standing]
  split
  · cases hsame with
    | same => exact abreast_respondDialing env h _
    | beat nonce nonce' => exact h
  · cases hsame with
    | same => exact abreast_respond env h _
    | beat nonce nonce' => exact abreast_beat env h nonce nonce'
  · exact h
  · exact h

theorem abreast_run (env : Surroundings) {stimuli stimuli' : List Stimulus}
    (hsame : List.Forall₂ SameStimulus stimuli stimuli') (h : Abreast k before before' s s') :
    Abreast k before before' (s.run env stimuli) (s'.run env stimuli') := by
  induction hsame generalizing s s' with
  | nil => exact h
  | cons hstimulus _ ih => exact ih (abreast_step env h hstimulus)

end VoiceCall.Proofs.Session.Parallel
