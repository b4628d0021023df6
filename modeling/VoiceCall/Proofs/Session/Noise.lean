import VoiceCall.Proofs.Relay.Text
import VoiceCall.Proofs.Session.Turns

namespace VoiceCall.Proofs.Session.Noise

open VoiceCall.Media
open VoiceCall.Relay
open VoiceCall.Session
open VoiceCall.Proofs.Media.Sending (exists_sendAll_eq)
open VoiceCall.Proofs.Relay.Text
open VoiceCall.Proofs.Session.Actions
open VoiceCall.Proofs.Session.Turns

/-- The opcodes of what a client tells the relay. -/
def clientOpcodes : List UInt8 := [0, 1, 3]

def acknowledgement : UInt8 := 6

/-- A frame that no relay sends to a client for it to act on. -/
inductive Junk : Stimulus → Prop where
  | unreadable {content : String} (meanwhile : List Arrival) (now : Nat) :
    (Message.ofJson content).isOk = false → Junk (.text content meanwhile now)
  | bytes (data : Octets) : Junk (.binary data)
  | unknown {content : String} {message : Message} (meanwhile : List Arrival) (now : Nat) :
    Message.ofJson content = .ok message → message.opcode ∉ Message.knownOpcodes →
      Junk (.text content meanwhile now)
  | acknowledged {content : String} {message : Message} (meanwhile : List Arrival) (now : Nat) :
    Message.ofJson content = .ok message → message.opcode = acknowledgement →
      Junk (.text content meanwhile now)
  | returned {content : String} {message : Message} (meanwhile : List Arrival) (now : Nat) :
    Message.ofJson content = .ok message → message.opcode ∈ clientOpcodes →
      Junk (.text content meanwhile now)

/-- A script, and the same one with junk in between. -/
inductive Littered : List Stimulus → List Stimulus → Prop where
  | nil : Littered [] []
  | kept {clean littered : List Stimulus} (stimulus : Stimulus) :
    Littered clean littered → Littered (stimulus :: clean) (stimulus :: littered)
  | put {clean littered : List Stimulus} {stimulus : Stimulus} :
    Junk stimulus → Littered clean littered → Littered clean (stimulus :: littered)

def Drained (link : Option Link) : Prop :=
  ∀ l, link = some l → l.listening → l.inbox = []

theorem drained_none : Drained none := by
  rintro l ⟨⟩

theorem drained_some {l : Link} (h : l.listening → l.inbox = []) : Drained (some l) := by
  rintro l ⟨⟩
  exact h

theorem receive_some {l l' : Link} {delivery : Option Delivery}
    (h : l.receive = some (l', delivery)) :
    ∃ arrival, l.inbox = arrival :: l'.inbox := by
  unfold Link.receive at h
  split at h
  · rename_i arrival rest _ hinbox
    cases h
    exact ⟨arrival, hinbox⟩
  · cases h

theorem receive_none {l : Link} (h : l.receive = none) : l.listening → l.inbox = [] := by
  intro hlistening
  unfold Link.receive at h
  rw [hlistening] at h
  cases hinbox : l.inbox with
  | nil => rfl
  | cons arrival rest => simp [hinbox] at h

theorem drained_receiveFor {count : Nat} {l : Link} (hcount : l.inbox.length ≤ count) :
    (l.receiveFor count).1.listening → (l.receiveFor count).1.inbox = [] := by
  induction count generalizing l with
  | zero => exact fun _ => List.eq_nil_of_length_eq_zero (Nat.le_zero.mp hcount)
  | succ count ih =>
      rw [Link.receiveFor]
      split
      · rename_i hnone
        exact receive_none hnone
      · rename_i l' delivery hsome
        obtain ⟨arrival, hinbox⟩ := receive_some hsome
        rw [hinbox, List.length_cons] at hcount
        exact ih (Nat.le_of_succ_le_succ hcount)

theorem receiveAll_of_drained {l : Link} (h : l.listening → l.inbox = []) :
    l.receiveAll = (l, []) := by
  cases hlistening : l.listening with
  | true => rw [Link.receiveAll, h hlistening, List.length_nil, Link.receiveFor]
  | false =>
      rw [Link.receiveAll]
      cases l.inbox.length with
      | zero => rfl
      | succ count => simp [Link.receiveFor, Link.receive, hlistening]

theorem link_take (now : Nat) (s : Session) (delivery : Delivery) :
    (s.take now delivery).link = s.link := by
  cases delivery with
  | packet header payload => rfl
  | fault fault => rfl

theorem link_foldl {α : Type} {f : Session → α → Session} (hf : ∀ s x, (f s x).link = s.link)
    (xs : List α) (s : Session) : (xs.foldl f s).link = s.link := by
  induction xs generalizing s with
  | nil => rfl
  | cons x xs ih => exact (ih (f s x)).trans (hf s x)

theorem drained_receive (now : Nat) (s : Session) :
    Drained (s.receive now).link := by
  rw [Session.receive]
  split
  · rename_i hlink
    rw [hlink]
    exact drained_none
  · rw [link_foldl (link_take now)]
    exact drained_some (drained_receiveFor (Nat.le_refl _))

theorem receive_of_drained {s : Session} (h : Drained s.link) (now : Nat) :
    s.receive now = s := by
  rw [Session.receive]
  split
  · rfl
  · rename_i l hlink
    rw [receiveAll_of_drained (h l hlink)]
    change { s with link := some l } = s
    rw [← hlink]

theorem drained_proceed (env : Surroundings) {outcome : Session × Option Fault}
    (h : Drained outcome.1.link) : Drained (proceed env outcome).link := by
  obtain ⟨s, fault⟩ := outcome
  cases fault with
  | none => exact h
  | some fault => exact drained_none

theorem link_send (s : Session) (message : Message) : (s.send message).1.link = s.link := by
  rw [Session.send]
  split <;> rfl

theorem link_onNotice (dsp : Dsp) (s : Session) (notice : Notice) :
    (s.onNotice dsp notice).1.link = s.link := by
  cases notice with
  | unknownSource ssrc => rfl
  | transportFailed reason => rfl

theorem link_pollSpeaker (s : Session) (speaker : Speaker) :
    (s.pollSpeaker speaker).link = s.link := by
  rw [Session.pollSpeaker]
  split <;> rfl

theorem link_pollSpeakers (s : Session) : s.pollSpeakers.link = s.link := by
  rw [Session.pollSpeakers, link_foldl link_pollSpeaker]

theorem link_pollDevices (s : Session) : s.pollDevices.link = s.link := by
  rw [Session.pollDevices]
  split <;> split <;> rfl

theorem drained_sendFrame {s : Session} (h : Drained s.link) (frame : Octets) :
    Drained (s.sendFrame frame).link := by
  rw [Session.sendFrame]
  split
  · exact h
  · rename_i l hlink
    obtain ⟨sequencer, offered, hsent⟩ :=
      exists_sendAll_eq l s.network (Outbox.empty.put frame).frames
    refine drained_some ?_
    rw [Outbox.flush, hsent]
    exact h l hlink

theorem drained_capturePeriod (dsp : Dsp) {s : Session} (h : Drained s.link)
    (stream : Sound.CaptureStream) (pipeline : Microphone.Pipeline) (periods : List (List Sample)) :
    Drained (s.capturePeriod dsp stream pipeline periods).link := by
  induction periods generalizing s pipeline with
  | nil => exact h
  | cons period periods ih =>
      rw [Session.capturePeriod]
      refine ih ?_ _
      dsimp only
      split
      · exact drained_sendFrame (s := { s with hub := (s.hub.capture dsp pipeline period).1 }) h _
      · exact h

theorem drained_captured (dsp : Dsp) {s : Session} (h : Drained s.link) (data : Sound.Block) :
    Drained (s.captured dsp data).1.link := by
  rw [Session.captured]
  split
  · exact h
  · exact drained_capturePeriod dsp h _ _ _

theorem link_pulled (s : Session) (now : Nat) : (s.pulled now).1.link = s.link := by
  rw [Session.pulled]
  split <;> rfl

theorem link_captureTrouble (s : Session) (trouble : Sound.Trouble) :
    (s.captureTrouble trouble).1.link = s.link := by
  rw [Session.captureTrouble]
  split <;> rfl

theorem link_playbackTrouble (s : Session) (trouble : Sound.Trouble) (now : Nat) :
    (s.playbackTrouble trouble now).1.link = s.link := by
  rw [Session.playbackTrouble]
  split <;> rfl

theorem drained_respond (env : Surroundings) {s : Session} (h : Drained s.link)
    (stimulus : Stimulus) : Drained (s.respond env stimulus).link := by
  cases stimulus with
  | opened => exact h
  | broken detail => exact drained_none
  | closed => exact drained_none
  | severed => exact h
  | text content meanwhile now =>
      rw [Session.respond]
      split
      · exact drained_receive now _
      · exact h
  | binary data => exact h
  | beat nonce =>
      rw [Session.respond]
      split
      · exact drained_proceed env ((link_send s (.heartbeat nonce)).symm ▸ h)
      · exact h
  | arrived arrivals now => exact drained_receive now _
  | decode place => exact h
  | noticed =>
      rw [Session.respond]
      split
      · exact h
      · rename_i notice notices _
        exact drained_proceed env ((link_onNotice env.dsp _ notice).symm ▸ h)
  | poll =>
      change Drained s.pollDevices.pollSpeakers.link
      rwa [link_pollSpeakers, link_pollDevices]
  | captured data => exact drained_captured env.dsp h data
  | pulled now => exact (link_pulled s now).symm ▸ h
  | captureTrouble trouble => exact (link_captureTrouble s trouble).symm ▸ h
  | playbackTrouble trouble now => exact (link_playbackTrouble s trouble now).symm ▸ h
  | control change => exact h
  | network up => exact h
  | disconnect => exact drained_none

theorem link_emitStateChange (s : Session) (before : HandshakeState) :
    (s.emitStateChange before).link = s.link := by
  rw [Session.emitStateChange]
  split <;> rfl

theorem drained_respondDialing (env : Surroundings) {s : Session} (h : Drained s.link)
    (stimulus : Stimulus) : Drained (s.respondDialing env stimulus).link := by
  cases stimulus with
  | opened =>
      change Drained (Session.emitStateChange _ _).link
      rwa [link_emitStateChange]
  | broken detail => exact drained_none
  | disconnect => exact drained_none
  | _ => exact h

theorem drained_step (env : Surroundings) {s : Session} (h : Drained s.link)
    (stimulus : Stimulus) : Drained (s.step env stimulus).link := by
  rw [Session.step]
  split
  · exact drained_respondDialing env h stimulus
  · exact drained_respond env h stimulus
  · exact h
  · exact h

/-- What a handshake may act on. -/
def relayOpcodes : List UInt8 := [2, 4, 5, 8, 13]

theorem onMessage_of_other {message : Message} (hother : message.opcode ∉ relayOpcodes)
    (h : Handshake) : h.onMessage message = (h, .actions []) := by
  cases message with
  | ready ready => exact absurd (by simp [Message.opcode, relayOpcodes]) hother
  | sessionDescription key => exact absurd (by simp [Message.opcode, relayOpcodes]) hother
  | speaking speaking => exact absurd (by simp [Message.opcode, relayOpcodes]) hother
  | hello interval => exact absurd (by simp [Message.opcode, relayOpcodes]) hother
  | clientDisconnect user => exact absurd (by simp [Message.opcode, relayOpcodes]) hother
  | _ => rfl

theorem respond_of_other {content : String} {message : Message}
    (hread : Message.ofJson content = .ok message) (hother : message.opcode ∉ relayOpcodes)
    (env : Surroundings) {s : Session} (h : Drained s.link) (meanwhile : List Arrival)
    (now : Nat) : s.respond env (.text content meanwhile now) = s := by
  have hpassed : s.onMessage env meanwhile message = s := by
    rw [Session.onMessage, onMessage_of_other hother]
    exact emitStateChange_of_eq rfl
  rw [Session.respond, hread]
  dsimp only
  rw [hpassed, receive_of_drained h]

theorem respond_of_junk (env : Surroundings) {s : Session} (h : Drained s.link)
    {stimulus : Stimulus} (hjunk : Junk stimulus) : s.respond env stimulus = s := by
  cases hjunk with
  | unreadable meanwhile now hfault =>
      rw [Session.respond]
      split
      · rename_i hread
        rw [hread] at hfault
        cases hfault
      · rfl
  | bytes data => rfl
  | unknown meanwhile now hread hopcode =>
      have hknown : ∀ opcode ∈ relayOpcodes, opcode ∈ Message.knownOpcodes := by
        simp [relayOpcodes, Message.knownOpcodes]
      exact respond_of_other hread (fun hmem => hopcode (hknown _ hmem)) env h meanwhile now
  | acknowledged meanwhile now hread hopcode =>
      have hother : acknowledgement ∉ relayOpcodes := by decide
      exact respond_of_other hread (hopcode ▸ hother) env h meanwhile now
  | returned meanwhile now hread hopcode =>
      have hother : ∀ opcode ∈ clientOpcodes, opcode ∉ relayOpcodes := by
        simp [clientOpcodes, relayOpcodes]
      exact respond_of_other hread (hother _ hopcode) env h meanwhile now

theorem step_of_junk (env : Surroundings) {s : Session} (h : Drained s.link)
    {stimulus : Stimulus} (hjunk : Junk stimulus) : s.step env stimulus = s := by
  rw [Session.step]
  split
  · cases hjunk <;> rfl
  · exact respond_of_junk env h hjunk
  · rfl
  · rfl

theorem run_littered (env : Surroundings) {s : Session} (h : Drained s.link)
    {clean littered : List Stimulus} (hlittered : Littered clean littered) :
    s.run env littered = s.run env clean := by
  induction hlittered generalizing s with
  | nil => rfl
  | kept stimulus _ ih => exact ih (drained_step env h stimulus)
  | put hjunk _ ih =>
      change (s.step env _).run env _ = _
      rw [step_of_junk env h hjunk]
      exact ih h

/-- What was told to the owner, to the relay and on the media path is part of a session, and so is
all that decides what will be. -/
theorem junk_changes_nothing (env : Surroundings) (hub : Hub) (identity : Identity)
    {clean littered : List Stimulus} (hlittered : Littered clean littered) :
    (Session.start hub identity).run env littered = (Session.start hub identity).run env clean :=
  run_littered env drained_none hlittered

/-- Bytes, an acknowledgement, a text that is no message and a heartbeat of our own, around the only
message that the session acts on. -/
theorem junk_changes_nothing_greeted :
    let told (message : Message) : Stimulus := .text message.toJson [] 0
    let ran (stimuli : List Stimulus) := (Session.start (.create {})
      ⟨"server", "user", "session", "token"⟩).run .bare stimuli
    let clean := [.opened, told (.hello 0), .disconnect]
    let littered := [.opened, .binary [0, 1], told (.heartbeatAck 7), told (.hello 0),
      .text "hello" [] 0, told (.heartbeat 7), .disconnect]
    Littered clean littered ∧ (ran littered).hub.events = (ran clean).hub.events ∧
      (ran littered).hub.events = [.stateChanged .connecting, .stateChanged .awaitingHello,
        .stateChanged .awaitingReady, .stateChanged .disconnected, .disconnected none] := by
  intro told ran clean littered
  have hlittered : Littered clean littered :=
    .kept _ (.put (.bytes _) (.put (.acknowledged [] 0 (ofJson_toJson (.heartbeatAck 7)) rfl)
      (.kept _ (.put (.unreadable [] 0 (by decide +kernel))
        (.put (.returned [] 0 (ofJson_toJson (.heartbeat 7)) (by decide)) (.kept _ .nil))))))
  have hsame : ran littered = ran clean := junk_changes_nothing _ _ _ hlittered
  refine ⟨hlittered, congrArg (fun s => s.hub.events) hsame, ?_⟩
  rw [hsame]
  decide +kernel

end VoiceCall.Proofs.Session.Noise
