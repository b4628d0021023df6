import VoiceCall.Relay.Encoding
import VoiceCall.Proofs.Session.Strangers
import VoiceCall.Proofs.Session.Turns

namespace VoiceCall.Proofs.Session.Ourselves

open VoiceCall.Media
open VoiceCall.Relay
open VoiceCall.Session
open VoiceCall.Proofs.Hub.Asides
open VoiceCall.Proofs.Hub.Bookkeeping
open VoiceCall.Proofs.Hub.Reports
open VoiceCall.Proofs.Relay.Answers
open VoiceCall.Proofs.Session.Actions
open VoiceCall.Proofs.Session.Frame
open VoiceCall.Proofs.Session.Strangers
open VoiceCall.Proofs.Session.Turns
open VoiceCall.Proofs.Session.Upkeep

/-- The sources of packets that are received one after the other, and where each packet went. -/
def routes (now : Nat) : Session → List Delivery → List (UInt32 × Route)
  | _, [] => []
  | s, .packet header payload :: deliveries =>
    (header.ssrc, (s.hub.handlePacket header payload now).2) ::
      routes now (s.take now (.packet header payload)) deliveries
  | s, .fault fault :: deliveries => routes now (s.take now (.fault fault)) deliveries

/-- Where all packets went that are received at once. -/
def received (now : Nat) (s : Session) : List (UInt32 × Route) :=
  match s.link with
  | none => []
  | some link =>
    routes now { s with link := some link.receiveAll.1 } link.receiveAll.2

/-- The session that begins to receive on a stimulus, and when. -/
def receiver? (env : Surroundings) (s : Session) : Stimulus → Option (Session × Nat)
  | .text content meanwhile now =>
    match s.standing, Message.ofJson content with
    | .running, .ok message => some (s.onMessage env meanwhile message, now)
    | _, _ => none
  | .arrived arrivals now =>
    if s.standing = .running then
      some ({ s with link := s.link.map (·.arrive arrivals) }, now)
    else
      none
  | _ => none

/-- Where the packets went that a session received in the course of a run. -/
def heard (env : Surroundings) (s : Session) : List Stimulus → List (UInt32 × Route)
  | [] => []
  | stimulus :: stimuli =>
    (match receiver? env s stimulus with
      | some (s', now) => received now s'
      | none => []) ++ heard env (s.step env stimulus) stimuli

variable {env : Surroundings} {base : List Event} {s s' : Session} {own : UInt32}

theorem step_of_running (hrunning : s.standing = .running) (stimulus : Stimulus) :
    s.step env stimulus = s.respond env stimulus := by
  rw [Session.step, hrunning]

theorem step_of_receiver? {stimulus : Stimulus} {now : Nat}
    (hreceiver : receiver? env s stimulus = some (s', now)) :
    s.step env stimulus = s'.receive now := by
  cases stimulus with
  | text content meanwhile later =>
      rw [receiver?] at hreceiver
      split at hreceiver
      · rename_i message hrunning hread
        cases hreceiver
        rw [step_of_running hrunning, Session.respond, hread]
      · cases hreceiver
  | arrived arrivals later =>
      rw [receiver?] at hreceiver
      split at hreceiver
      · rename_i hrunning
        cases hreceiver
        exact step_of_running hrunning _
      · cases hreceiver
  | _ => cases hreceiver

/-- Before a source is assigned to us, nothing can be heard and nobody can be named. Then the hub is
told which source is ours, or the session ends. Meanwhile every source that is ours or may become so
stays a stranger. -/
structure Careful (base : List Event) (s : Session) : Prop where
  strangers : ∀ ssrc, s.handshake.ssrc = none ∨ s.handshake.ssrc = some ssrc →
    Stranger base ssrc (ledger s.hub)
  unassigned : s.handshake.ssrc = none →
    s.handshake.hasSource = false ∧ s.link = none ∧ s.notices = []
  assigned : ∀ own, s.handshake.ssrc = some own →
    s.handshake.hasSource ∧ s.hub.localSsrc = own ∨ s.isLive = false ∧ s.link = none

theorem link_eq_none {more : List Octets} {link link' : Option Link}
    (hcarries : Carries link link' more) (hnone : link = none) : link' = none := by
  cases hcarries with
  | absent => rfl
  | passed _ => cases hnone

theorem Careful.calm {dsp : Dsp} (hcareful : Careful base s) (hsteady : Steady s s')
    (hchores : Chores dsp s.hub s'.hub) (hnotices : s.link = none → s'.notices = s.notices) :
    Careful base s' := by
  obtain ⟨more, -, hcarries⟩ := hsteady.media
  have hsame := hsteady.handshake
  constructor
  · intro ssrc hssrc
    rw [hsame] at hssrc
    exact stranger_chores (hcareful.strangers ssrc hssrc) hchores
  · intro hnone
    rw [hsame] at hnone ⊢
    obtain ⟨hsource, hlink, hempty⟩ := hcareful.unassigned hnone
    exact ⟨hsource, link_eq_none hcarries hlink, (hnotices hlink).trans hempty⟩
  · intro own hown
    rw [hsame] at hown ⊢
    rw [localSsrc_chores hchores, isLive_of_standing hsteady.standing]
    exact (hcareful.assigned own hown).imp_right (.imp_right (link_eq_none hcarries))

/-- Whatever a session was about, at its end it is careful if its strangers are. -/
theorem careful_finish (env : Surroundings)
    (hstrangers : ∀ ssrc, s.handshake.ssrc = none ∨ s.handshake.ssrc = some ssrc →
      Stranger base ssrc (ledger s.hub)) (fault : Option Fault) :
    Careful base (s.finish env fault) where
  strangers ssrc hssrc := by
    refine stranger_emit (stranger_emit ?_ ?_) ?_
    · exact stranger_shutdown env.dsp (hstrangers ssrc hssrc)
    · exact (Option.some_ne_none ssrc).symm
    · exact (Option.some_ne_none ssrc).symm
  unassigned _ := ⟨rfl, rfl, rfl⟩
  assigned _ _ := .inr ⟨rfl, rfl⟩

theorem Careful.finish (hcareful : Careful base s) (env : Surroundings) (fault : Option Fault) :
    Careful base (s.finish env fault) :=
  careful_finish env hcareful.strangers fault

theorem careful_start {hub : Hub} (hnobody : hub.roster.speakers = []) (identity : Identity) :
    Careful hub.events (Session.start hub identity) where
  strangers ssrc _ := by
    have hnew : Stranger hub.events ssrc (ledger hub) := by
      refine ⟨?_, [], (List.append_nil _).symm, List.forall_mem_nil _⟩
      rintro ⟨user, hmem⟩
      rw [ledger, hnobody] at hmem
      cases hmem
    exact stranger_emit hnew (Option.some_ne_none ssrc).symm
  unassigned _ := ⟨rfl, rfl, rfl⟩
  assigned own hown := absurd hown.symm (Option.some_ne_none own)

theorem careful_emit (hcareful : Careful base s) {event : Event}
    (hevent : speakerOf event = none) : Careful base (s.emit event) where
  strangers ssrc hssrc := by
    refine stranger_emit (hcareful.strangers ssrc hssrc) ?_
    rw [hevent]
    exact (Option.some_ne_none ssrc).symm
  unassigned := hcareful.unassigned
  assigned := hcareful.assigned

theorem careful_emitStateChange (hcareful : Careful base s) (before : HandshakeState) :
    Careful base (s.emitStateChange before) := by
  rw [Session.emitStateChange]
  split
  · exact hcareful
  · exact careful_emit hcareful rfl

theorem careful_receive (hcareful : Careful base s) (now : Nat) :
    Careful base (s.receive now) := by
  refine hcareful.calm (steady_receive now s) (chores_receive .quiet now s) fun hlink => ?_
  rw [Session.receive, hlink]

theorem notices_sendFrame (s : Session) (frame : Octets) :
    (s.sendFrame frame).notices = s.notices := by
  rw [Session.sendFrame]
  split <;> rfl

theorem notices_capturePeriod (dsp : Dsp) (s : Session) (stream : Sound.CaptureStream)
    (pipeline : Microphone.Pipeline) (periods : List (List Sample)) :
    (s.capturePeriod dsp stream pipeline periods).notices = s.notices := by
  induction periods generalizing s pipeline with
  | nil => rfl
  | cons period periods ih =>
      rw [Session.capturePeriod]
      refine (ih _ _).trans ?_
      dsimp only
      split
      · exact notices_sendFrame _ _
      · rfl

theorem notices_captured (dsp : Dsp) (s : Session) (data : Sound.Block) :
    (s.captured dsp data).1.notices = s.notices := by
  rw [Session.captured]
  split
  · rfl
  · exact notices_capturePeriod dsp s _ _ _

theorem notices_pulled (s : Session) (now : Nat) : (s.pulled now).1.notices = s.notices := by
  rw [Session.pulled]
  split <;> rfl

theorem notices_captureTrouble (s : Session) (trouble : Sound.Trouble) :
    (s.captureTrouble trouble).1.notices = s.notices := by
  rw [Session.captureTrouble]
  split <;> rfl

theorem notices_playbackTrouble (s : Session) (trouble : Sound.Trouble) (now : Nat) :
    (s.playbackTrouble trouble now).1.notices = s.notices := by
  rw [Session.playbackTrouble]
  split <;> rfl

theorem notices_pollSpeaker (s : Session) (speaker : Speaker) :
    (s.pollSpeaker speaker).notices = s.notices := by
  rw [Session.pollSpeaker]
  split <;> rfl

theorem notices_pollSpeakers (s : Session) : s.pollSpeakers.notices = s.notices := by
  have hpolled (speakers : List Speaker) (s : Session) :
      (speakers.foldl pollSpeaker s).notices = s.notices := by
    induction speakers generalizing s with
    | nil => rfl
    | cons speaker speakers ih => exact (ih _).trans (notices_pollSpeaker s speaker)
  exact hpolled _ _

theorem notices_pollDevices (s : Session) : s.pollDevices.notices = s.notices := by
  rw [Session.pollDevices]
  split <;> split <;> rfl

theorem careful_control (hcareful : Careful base s) (change : Control) :
    Careful base { s with hub := s.hub.control env.dsp change } :=
  hcareful.calm (steady_hub s (aside_control env.dsp s.hub change))
    (chores_apply env.dsp s.hub (.control change) trivial) fun _ => rfl

/-- A source that has been assigned to us is known to the hub as long as the session lasts. -/
theorem Careful.guarded (hcareful : Careful base s) (hlive : s.isLive)
    (hown : s.handshake.ssrc = some own) : s.handshake.hasSource ∧ s.hub.localSsrc = own := by
  refine (hcareful.assigned own hown).resolve_right ?_
  rintro ⟨hover, -⟩
  rw [hlive] at hover
  cases hover

/-- A report is acted on only after a source has been assigned to us. -/
theorem careful_admit (hcareful : Careful base s) (hlive : s.isLive) {reported : Notice}
    {notices : List Notice} (hnotices : s.notices = reported :: notices) (dsp : Dsp)
    (ssrc : UInt32) :
    Careful base { s with notices := notices, hub := (s.hub.admitUnknown dsp ssrc).1 } := by
  have hassigned : s.handshake.ssrc ≠ none := by
    intro hnone
    have hempty := (hcareful.unassigned hnone).2.2
    rw [hnotices] at hempty
    cases hempty
  constructor
  · intro own hown
    have hown := hown.resolve_left hassigned
    obtain ⟨-, rfl⟩ := hcareful.guarded hlive hown
    exact stranger_admitUnknown dsp (hcareful.strangers _ (.inr hown)) ssrc
  · exact fun hnone => absurd hnone hassigned
  · intro own hown
    obtain ⟨hsource, hlocal⟩ := hcareful.guarded hlive hown
    exact .inl ⟨hsource, (localSsrc_admitUnknown dsp s.hub ssrc).trans hlocal⟩

theorem Careful.ssrc_eq_none (hcareful : Careful base s) (hlive : s.isLive)
    (hsource : s.handshake.hasSource = false) : s.handshake.ssrc = none := by
  cases hown : s.handshake.ssrc with
  | none => rfl
  | some own =>
      have hguarded := (hcareful.guarded hlive hown).1
      rw [hsource] at hguarded
      cases hguarded

theorem careful_of_assigned (hown : s.handshake.ssrc = some own) (hsource : s.handshake.hasSource)
    (hlocal : s.hub.localSsrc = own) (hstranger : Stranger base own (ledger s.hub)) :
    Careful base s := by
  constructor
  · intro ssrc hssrc
    rw [hown] at hssrc
    obtain rfl := Option.some.inj (hssrc.resolve_left (Option.some_ne_none own))
    exact hstranger
  · intro hnone
    rw [hown] at hnone
    cases hnone
  · intro ssrc hssrc
    obtain rfl := Option.some.inj (hown.symm.trans hssrc)
    exact .inl ⟨hsource, hlocal⟩

theorem stranger_of_assigned (hown : s.handshake.ssrc = some own)
    (hstranger : Stranger base own (ledger s.hub)) (ssrc : UInt32)
    (hssrc : s.handshake.ssrc = none ∨ s.handshake.ssrc = some ssrc) :
    Stranger base ssrc (ledger s.hub) := by
  rw [hown] at hssrc
  obtain rfl := Option.some.inj (hssrc.resolve_left (Option.some_ne_none own))
  exact hstranger

/-- When the actions of an answer have been carried out, a session goes on; when one of them has
failed, it ends. -/
def conclude (env : Surroundings) (before : HandshakeState) : Session × Option Fault → Session
  | (s, none) => s.emitStateChange before
  | (s, some fault) => s.finish env fault

theorem careful_conclude {outcome : Session × Option Fault}
    (hstrangers : ∀ ssrc, outcome.1.handshake.ssrc = none ∨ outcome.1.handshake.ssrc = some ssrc →
      Stranger base ssrc (ledger outcome.1.hub))
    (hcareful : outcome.2 = none → Careful base outcome.1) (before : HandshakeState) :
    Careful base (conclude env before outcome) := by
  obtain ⟨s, fault⟩ := outcome
  cases fault with
  | none => exact careful_emitStateChange (hcareful rfl) before
  | some fault => exact careful_finish env hstrangers _

theorem performAll_singleton (env : Surroundings) (meanwhile : List Arrival) (s : Session)
    (action : Action) : performAll env meanwhile s [action] = perform env meanwhile s action := by
  rw [performAll]
  split
  · rename_i hperformed
    rw [performAll, hperformed]
  · rfl

theorem send_fst (s : Session) (message : Message) :
    ∃ sent, (s.send message).1 = { s with sent := sent } := by
  rw [Session.send]
  split <;> exact ⟨_, rfl⟩

theorem careful_greeted (hcareful : Careful base s) (hlive : s.isLive)
    (hstate : s.handshake.state = .awaitingHello) :
    Careful base { s with handshake := { s.handshake with state := .awaitingReady } } := by
  have hnone := hcareful.ssrc_eq_none hlive (by rw [Handshake.hasSource, hstate]; rfl)
  obtain ⟨-, hlink, hnotices⟩ := hcareful.unassigned hnone
  exact ⟨hcareful.strangers, fun _ => ⟨rfl, hlink, hnotices⟩, fun own hown =>
    absurd (hown.symm.trans hnone) (Option.some_ne_none own)⟩

theorem careful_greeting (hcareful : Careful base s) (meanwhile : List Arrival)
    (interval : Nanoseconds) (message : Message) (before : HandshakeState) :
    Careful base (conclude env before
      (performAll env meanwhile s [.startHeartbeat interval, .send message])) := by
  rw [performAll, perform]
  cases env.startThread .heartbeat with
  | error fault =>
      refine careful_conclude ?_ ?_ before
      · exact hcareful.strangers
      · rintro ⟨⟩
  | ok =>
      dsimp only
      rw [performAll_singleton, perform]
      have hsent :
          Careful base (({ s with heartbeat := some interval } : Session).send message).1 := by
        obtain ⟨sent, hsent⟩ := send_fst { s with heartbeat := some interval } message
        rw [hsent]
        exact ⟨hcareful.strangers, hcareful.unassigned, hcareful.assigned⟩
      exact careful_conclude hsent.strangers (fun _ => hsent) before

theorem ledger_connectMedia (env : Surroundings) (meanwhile : List Arrival) (s : Session)
    (ip : String) (ssrc : UInt32) :
    ledger (connectMedia env meanwhile s ip ssrc).1.hub = ledger s.hub := by
  rw [Session.connectMedia]
  split
  · rfl
  · dsimp only
    split
    · rfl
    · split
      · rw [hub_send]
        rfl
      · rfl
      · rfl

theorem localSsrc_connectMedia {env : Surroundings} {meanwhile : List Arrival} {ip : String}
    {ssrc : UInt32} (hconnected : (connectMedia env meanwhile s ip ssrc).2 = none) :
    (connectMedia env meanwhile s ip ssrc).1.hub.localSsrc = ssrc := by
  rw [Session.connectMedia] at hconnected ⊢
  split at hconnected
  · cases hconnected
  · dsimp only at hconnected ⊢
    split at hconnected
    · cases hconnected
    · split
      · rw [hub_send]
        rfl
      · rfl
      · rfl

theorem stranger_remark (env : Surroundings) (meanwhile : List Arrival) {h : Handshake}
    {action : Action} (hremark : Remark h action) (hown : h.ssrc = some own)
    (hlocal : s.hub.localSsrc = own) (hstranger : Stranger base own (ledger s.hub)) :
    (perform env meanwhile s action).1.hub.localSsrc = own ∧
      Stranger base own (ledger (perform env meanwhile s action).1.hub) := by
  have hchores (hassigns : AssignsNothing action) :
      (perform env meanwhile s action).1.hub.localSsrc = own ∧
        Stranger base own (ledger (perform env meanwhile s action).1.hub) := by
    have hperformed := chores_perform env meanwhile s hassigns
    exact ⟨(localSsrc_chores hperformed).trans hlocal, stranger_chores hstranger hperformed⟩
  cases hremark with
  | @mapped ssrc user _ hother =>
      have hne : ssrc ≠ own := fun hsame => hother (hsame ▸ hown)
      exact ⟨(localSsrc_mapSpeaker env.dsp s.hub ssrc user).trans hlocal,
        stranger_mapSpeaker env.dsp hstranger hne user⟩
  | silent _ _ => exact hchores trivial
  | left user _ => exact hchores trivial

theorem stranger_remarks (env : Surroundings) (meanwhile : List Arrival) {h : Handshake}
    {todo : List Action} (hremarks : ∀ action ∈ todo, Remark h action) (hown : h.ssrc = some own)
    (hlocal : s.hub.localSsrc = own) (hstranger : Stranger base own (ledger s.hub)) :
    (performAll env meanwhile s todo).1.hub.localSsrc = own ∧
      Stranger base own (ledger (performAll env meanwhile s todo).1.hub) := by
  induction todo generalizing s with
  | nil => exact ⟨hlocal, hstranger⟩
  | cons action todo ih =>
      obtain ⟨hlocal', hstranger'⟩ := stranger_remark env meanwhile
        (hremarks action List.mem_cons_self) hown hlocal hstranger
      rw [performAll]
      split
      · rename_i hperformed
        rw [hperformed] at hlocal' hstranger'
        exact ih (fun other hmem => hremarks other (List.mem_cons_of_mem action hmem)) hlocal'
          hstranger'
      · exact ⟨hlocal', hstranger'⟩

theorem careful_connected (hown : s.handshake.ssrc = some own) (hsource : s.handshake.hasSource)
    (hstranger : Stranger base own (ledger s.hub)) (meanwhile : List Arrival) (ip : String)
    (before : HandshakeState) :
    Careful base (conclude env before (connectMedia env meanwhile s ip own)) := by
  obtain ⟨-, hsame, -⟩ := connectMedia_frame env meanwhile s ip own
  have hown' : (connectMedia env meanwhile s ip own).1.handshake.ssrc = some own := by
    rw [hsame, hown]
  have hkept : Stranger base own (ledger (connectMedia env meanwhile s ip own).1.hub) := by
    rw [ledger_connectMedia]
    exact hstranger
  refine careful_conclude (stranger_of_assigned hown' hkept) (fun hconnected => ?_) before
  exact careful_of_assigned hown' (by rw [hsame, hsource]) (localSsrc_connectMedia hconnected) hkept

/-- The actions of an answer that assigns nothing, once a source has been assigned to us. -/
theorem careful_performed (hown : s.handshake.ssrc = some own) (hsource : s.handshake.hasSource)
    (meanwhile : List Arrival) {todo : List Action}
    (hperformed : (performAll env meanwhile s todo).1.hub.localSsrc = own ∧
      Stranger base own (ledger (performAll env meanwhile s todo).1.hub))
    (before : HandshakeState) :
    Careful base (conclude env before (performAll env meanwhile s todo)) := by
  obtain ⟨-, hsame, -⟩ := performAll_frame env meanwhile s todo
  have hown' : (performAll env meanwhile s todo).1.handshake.ssrc = some own := by
    rw [hsame, hown]
  refine careful_conclude (stranger_of_assigned hown' hperformed.2) (fun _ => ?_) before
  exact careful_of_assigned hown' (by rw [hsame, hsource]) hperformed.1 hperformed.2

theorem careful_onMessage (hcareful : Careful base s) (hlive : s.isLive)
    (meanwhile : List Arrival) (message : Message) :
    Careful base (s.onMessage env meanwhile message) := by
  have hanswer := answer_onMessage s.handshake message
  rw [Session.onMessage]
  generalize s.handshake.onMessage message = answered at hanswer ⊢
  cases hanswer with
  | @greeted millis interval hstate hinterval =>
      dsimp only
      exact careful_greeting (careful_greeted hcareful hlive hstate) meanwhile interval _ _
  | @accepted ready hstate hmode =>
      have hnone := hcareful.ssrc_eq_none hlive (by rw [Handshake.hasSource, hstate]; rfl)
      let assigned := { s with
        handshake := { s.handshake with
          state := .awaitingSessionDescription
          ssrc := some ready.ssrc
          mode := some supportedMode } }
      have hstranger : Stranger base ready.ssrc (ledger assigned.hub) :=
        hcareful.strangers ready.ssrc (.inl hnone)
      dsimp only
      rw [performAll_singleton]
      exact careful_connected (s := assigned) rfl rfl hstranger meanwhile _ _
  | @established description own hstate hmode hown =>
      let connected := { s with handshake := { s.handshake with state := .connected } }
      have hstranger : Stranger base own (ledger connected.hub) :=
        hcareful.strangers own (.inr hown)
      let todo : List Action := [.installKey description.key, .sendSilence,
        .send (.speaking ⟨speakingMicrophone, 0, own, none⟩), .startMedia]
      have hchores : Chores env.dsp s.hub (performAll env meanwhile connected todo).1.hub :=
        chores_performAll env meanwhile connected (by simp [todo, AssignsNothing])
      have hlocal := (localSsrc_chores hchores).trans (hcareful.guarded hlive hown).2
      exact careful_performed (s := connected) hown rfl meanwhile
        ⟨hlocal, stranger_chores hstranger hchores⟩ _
  | overflowed hstate hinterval =>
      have hnone := hcareful.ssrc_eq_none hlive (by rw [Handshake.hasSource, hstate]; rfl)
      exact ⟨hcareful.strangers, hcareful.unassigned, fun own hown =>
        absurd (hown.symm.trans hnone) (Option.some_ne_none own)⟩
  | failed message fault => exact hcareful.finish env (some fault)
  | @remarked message todo hremarks =>
      cases hown : s.handshake.ssrc with
      | none =>
          have hsource := (hcareful.unassigned hown).1
          obtain rfl : todo = [] := by
            refine List.eq_nil_iff_forall_not_mem.mpr fun action hmem => ?_
            have hheard : s.handshake.hasSource := by
              cases hremarks action hmem <;> assumption
            rw [hsource] at hheard
            cases hheard
          exact careful_emitStateChange hcareful _
      | some own =>
          obtain ⟨hsource, hlocal⟩ := hcareful.guarded hlive hown
          have hspared := stranger_remarks env meanwhile hremarks hown hlocal
            (hcareful.strangers own (.inr hown))
          exact careful_performed hown hsource meanwhile hspared _

theorem careful_respond (hcareful : Careful base s) (hrunning : s.standing = .running)
    (stimulus : Stimulus) : Careful base (s.respond env stimulus) := by
  have hlive := isLive_of_running hrunning
  cases stimulus with
  | opened => exact hcareful
  | broken detail => exact hcareful.finish env _
  | closed => exact hcareful.finish env _
  | severed => exact ⟨hcareful.strangers, hcareful.unassigned, hcareful.assigned⟩
  | text content meanwhile now =>
      rw [Session.respond]
      split
      · exact careful_receive (careful_onMessage hcareful hlive meanwhile _) now
      · exact hcareful
  | binary data => exact hcareful
  | beat nonce =>
      rw [Session.respond]
      split
      · rw [Session.send]
        split
        · exact ⟨hcareful.strangers, hcareful.unassigned, hcareful.assigned⟩
        · exact hcareful.finish env _
      · exact hcareful
  | arrived arrivals now =>
      have harrived : Careful base { s with link := s.link.map (·.arrive arrivals) } :=
        hcareful.calm (steady_arrive s arrivals) (.refl env.dsp s.hub) fun _ => rfl
      exact careful_receive harrived now
  | decode place =>
      exact hcareful.calm (steady_hub s (aside_decode env.dsp place s.hub))
        (chores_apply env.dsp s.hub (.decode place) trivial) fun _ => rfl
  | noticed =>
      rw [Session.respond]
      split
      · exact hcareful
      · rename_i notice notices hnotices
        cases notice with
        | unknownSource ssrc => exact careful_admit hcareful hlive hnotices env.dsp ssrc
        | transportFailed reason => exact careful_finish env hcareful.strangers _
  | poll =>
      exact hcareful.calm ((steady_pollDevices s).trans (steady_pollSpeakers _))
        ((chores_pollDevices env.dsp s).trans (chores_pollSpeakers env.dsp _))
        fun _ => (notices_pollSpeakers _).trans (notices_pollDevices s)
  | captured data =>
      exact hcareful.calm (steady_captured env.dsp s data) (chores_captured env.dsp s data)
        fun _ => notices_captured env.dsp s data
  | pulled now =>
      exact hcareful.calm (steady_pulled s now) (chores_pulled env.dsp s now)
        fun _ => notices_pulled s now
  | captureTrouble trouble =>
      exact hcareful.calm (steady_captureTrouble s trouble)
        (chores_captureTrouble env.dsp s trouble) fun _ => notices_captureTrouble s trouble
  | playbackTrouble trouble now =>
      exact hcareful.calm (steady_playbackTrouble s trouble now)
        (chores_playbackTrouble env.dsp s trouble now)
        fun _ => notices_playbackTrouble s trouble now
  | control change => exact careful_control hcareful change
  | network up => exact ⟨hcareful.strangers, hcareful.unassigned, hcareful.assigned⟩
  | disconnect => exact hcareful.finish env none

theorem careful_opened (hcareful : Careful base s) (hdialing : s.standing = .dialing) :
    Careful base { s with handshake := s.handshake.opened, standing := .running } := by
  rw [Handshake.opened]
  split
  · rename_i hstate
    have hnone := hcareful.ssrc_eq_none (isLive_of_dialing hdialing)
      (by rw [Handshake.hasSource, hstate]; rfl)
    obtain ⟨-, hlink, hnotices⟩ := hcareful.unassigned hnone
    exact ⟨hcareful.strangers, fun _ => ⟨rfl, hlink, hnotices⟩, fun own hown =>
      absurd (hown.symm.trans hnone) (Option.some_ne_none own)⟩
  · exact ⟨hcareful.strangers, hcareful.unassigned, fun own hown =>
      .inl (hcareful.guarded (isLive_of_dialing hdialing) hown)⟩

theorem careful_respondDialing (hcareful : Careful base s) (hdialing : s.standing = .dialing)
    (stimulus : Stimulus) : Careful base (s.respondDialing env stimulus) := by
  cases stimulus with
  | opened => exact careful_emitStateChange (careful_opened hcareful hdialing) _
  | broken detail => exact hcareful.finish env _
  | decode place =>
      exact hcareful.calm (steady_hub s (aside_decode env.dsp place s.hub))
        (chores_apply env.dsp s.hub (.decode place) trivial) fun _ => rfl
  | control change => exact careful_control hcareful change
  | network up => exact ⟨hcareful.strangers, hcareful.unassigned, hcareful.assigned⟩
  | disconnect => exact hcareful.finish env none
  | _ => exact hcareful

theorem careful_step (hcareful : Careful base s) (stimulus : Stimulus) :
    Careful base (s.step env stimulus) := by
  rw [Session.step]
  split
  · rename_i hdialing
    exact careful_respondDialing hcareful hdialing stimulus
  · rename_i hrunning
    exact careful_respond hcareful hrunning stimulus
  · exact hcareful
  · exact hcareful

theorem careful_run (hcareful : Careful base s) (stimuli : List Stimulus) :
    Careful base (s.run env stimuli) := by
  induction stimuli generalizing s with
  | nil => exact hcareful
  | cons stimulus stimuli ih => exact ih (careful_step hcareful stimulus)

theorem ssrc_opened (h : Handshake) : h.opened.ssrc = h.ssrc := by
  rw [Handshake.opened]
  split <;> rfl

theorem handshake_emitStateChange (s : Session) (before : HandshakeState) :
    (s.emitStateChange before).handshake = s.handshake := by
  rw [Session.emitStateChange]
  split <;> rfl

/-- No message takes away or replaces the source that is ours. -/
theorem ssrc_answer {h h' : Handshake} {message : Message} {reply : Reply}
    (hanswer : Answer h message (h', reply)) (hsource : h.hasSource) : h'.ssrc = h.ssrc := by
  cases hanswer with
  | accepted hstate _ =>
      rw [Handshake.hasSource, hstate] at hsource
      cases hsource
  | _ => rfl

theorem ssrc_step (hcareful : Careful base s) (hown : s.handshake.ssrc = some own)
    (stimulus : Stimulus) : (s.step env stimulus).handshake.ssrc = some own := by
  have hturn := turn_step env s stimulus
  generalize s.step env stimulus = s' at hturn ⊢
  cases hturn with
  | rested _ _ => exact hown
  | steady _ _ _ hsteady => rw [hsteady.handshake, hown]
  | opened _ => rw [handshake_emitStateChange, ssrc_opened, hown]
  | ended _ _ _ hsteady =>
      have hkept := congrArg Handshake.ssrc hsteady.handshake
      exact hkept.trans hown
  | crashed _ _ _ _ _ hsteady => exact (congrArg Handshake.ssrc hsteady.handshake).trans hown
  | @advanced _ meanwhile _ handshake todo _ _ _ hrunning _ hanswer _ hperformed hsteady =>
      have hsource := (hcareful.guarded (isLive_of_running hrunning) hown).1
      obtain ⟨-, hsame, -⟩ := performAll_frame env meanwhile { s with handshake := handshake } todo
      rw [hperformed] at hsame
      rw [hsteady.handshake]
      exact (congrArg Handshake.ssrc hsame).trans ((ssrc_answer hanswer hsource).trans hown)
  | @broke _ meanwhile _ handshake todo _ _ _ hrunning _ hanswer _ hperformed =>
      have hsource := (hcareful.guarded (isLive_of_running hrunning) hown).1
      obtain ⟨-, hsame, -⟩ := performAll_frame env meanwhile { s with handshake := handshake } todo
      rw [hperformed] at hsame
      exact (congrArg Handshake.ssrc hsame).trans ((ssrc_answer hanswer hsource).trans hown)

theorem ssrc_run (hcareful : Careful base s) (hown : s.handshake.ssrc = some own)
    (stimuli : List Stimulus) : (s.run env stimuli).handshake.ssrc = some own := by
  induction stimuli generalizing s with
  | nil => exact hown
  | cons stimulus stimuli ih =>
      exact ih (careful_step hcareful stimulus) (ssrc_step hcareful hown stimulus)

theorem routes_dropped (now : Nat) {deliveries : List Delivery}
    (hlocal : s.hub.localSsrc = own) {route : Route}
    (hroute : (own, route) ∈ routes now s deliveries) : route = .dropped := by
  induction deliveries generalizing s with
  | nil => cases hroute
  | cons delivery deliveries ih =>
      have htaken : (s.take now delivery).hub.localSsrc = own :=
        (localSsrc_chores (chores_take .quiet now s delivery)).trans hlocal
      cases delivery with
      | packet header payload =>
          rw [routes] at hroute
          rcases List.mem_cons.mp hroute with hfirst | hrest
          · obtain ⟨hssrc, hwent⟩ := Prod.mk.inj hfirst
            rw [hwent, handlePacket_own (hssrc.symm.trans hlocal.symm)]
          · exact ih htaken hrest
      | fault fault => exact ih htaken hroute

theorem received_dropped (hcareful : Careful base s)
    (hours : ∀ ssrc, s.handshake.ssrc = some ssrc → ssrc = own) (now : Nat) {route : Route}
    (hroute : (own, route) ∈ received now s) : route = .dropped := by
  rw [received] at hroute
  split at hroute
  · cases hroute
  · rename_i link hlink
    cases hssrc : s.handshake.ssrc with
    | none =>
        have hnone := (hcareful.unassigned hssrc).2.1
        rw [hlink] at hnone
        cases hnone
    | some ssrc =>
        obtain rfl := hours ssrc hssrc
        rcases hcareful.assigned ssrc hssrc with ⟨-, hlocal⟩ | ⟨-, hnone⟩
        · let receiving := { s with link := some link.receiveAll.1 }
          exact routes_dropped now (s := receiving) hlocal hroute
        · rw [hlink] at hnone
          cases hnone

theorem careful_receiver? (hcareful : Careful base s) {stimulus : Stimulus} {now : Nat}
    (hreceiver : receiver? env s stimulus = some (s', now)) : Careful base s' := by
  cases stimulus with
  | text content meanwhile later =>
      rw [receiver?] at hreceiver
      split at hreceiver
      · rename_i message hrunning hread
        cases hreceiver
        exact careful_onMessage hcareful (isLive_of_running hrunning) meanwhile message
      · cases hreceiver
  | arrived arrivals later =>
      rw [receiver?] at hreceiver
      split at hreceiver
      · cases hreceiver
        exact hcareful.calm (steady_arrive s arrivals) (.refl env.dsp s.hub) fun _ => rfl
      · cases hreceiver
  | _ => cases hreceiver

theorem heard_dropped {stimuli : List Stimulus} (hcareful : Careful base s)
    (hown : (s.run env stimuli).handshake.ssrc = some own) {route : Route}
    (hroute : (own, route) ∈ heard env s stimuli) : route = .dropped := by
  induction stimuli generalizing s with
  | nil => cases hroute
  | cons stimulus stimuli ih =>
      have hstepped : Careful base (s.step env stimulus) := careful_step hcareful stimulus
      rw [heard] at hroute
      rcases List.mem_append.mp hroute with hnow | hlater
      · split at hnow
        · rename_i receiving now hreceiver
          refine received_dropped (careful_receiver? hcareful hreceiver) ?_ now hnow
          intro ssrc hssrc
          have hsame : (s.step env stimulus).handshake.ssrc = some ssrc := by
            rw [step_of_receiver? hreceiver, (steady_receive now receiving).handshake,
              hssrc]
          exact Option.some.inj ((ssrc_run hstepped hsame stimuli).symm.trans hown)
        · cases hnow
      · exact ih hstepped hown hlater

/-- What a session with a handshake begins: it maps a source only if a message asks for that. -/
def Begun (h : Handshake) : Operation → Prop
  | .map ssrc user => ∃ message todo, (h.onMessage message).2 = .actions todo ∧
      .speakerMapped ssrc user ∈ todo
  | _ => True

theorem ssrc_ne_of_mapped {h h' : Handshake} {message : Message} {todo : List Action}
    {ssrc : UInt32} {user : String} (hanswer : Answer h message (h', .actions todo))
    (hmem : .speakerMapped ssrc user ∈ todo) : h.ssrc ≠ some ssrc := by
  cases hanswer with
  | greeted _ _ => simp at hmem
  | accepted _ _ => simp at hmem
  | established _ _ _ => simp at hmem
  | remarked _ hremarks =>
      cases hremarks _ hmem with
      | mapped _ _ hother => exact hother

theorem ssrc_ne_of_begun {h : Handshake} {ssrc : UInt32} {user : String}
    (hbegun : Begun h (.map ssrc user)) : h.ssrc ≠ some ssrc := by
  obtain ⟨message, todo, htodo, hmem⟩ := hbegun
  have hanswer := answer_onMessage h message
  generalize h.onMessage message = answered at hanswer htodo
  obtain ⟨h', reply⟩ := answered
  obtain rfl : reply = .actions todo := htodo
  exact ssrc_ne_of_mapped hanswer hmem

/-- A session begins on a hub without speakers. Once the relay has assigned a source to us, then
whatever follows, the source is not registered, nothing that the session has told is about it, and
every packet of it that was received was dropped. Nor is it registered, or a packet of it queued, by
any steps of the receiving side and the session between which others may fall. -/
theorem never_hears_itself (env : Surroundings) {hub : Hub} (hnobody : hub.roster.speakers = [])
    (identity : Identity) {stimuli : List Stimulus} {own : UInt32}
    (hown : ((Session.start hub identity).run env stimuli).handshake.ssrc = some own)
    (later : List Stimulus) :
    let s := (Session.start hub identity).run env (stimuli ++ later)
    ¬ s.hub.roster.contains own ∧
      (∃ told, s.hub.events = hub.events ++ told ∧ ∀ event ∈ told, speakerOf event ≠ some own) ∧
      (∀ route, (own, route) ∈ heard env (Session.start hub identity) (stimuli ++ later) →
        route = .dropped) ∧
      (s.isLive → ∀ moves,
        (∀ operation, .begin operation ∈ moves → Begun s.handshake operation) →
          let between := (start s.hub s.notices).run env.dsp moves
          ¬ between.hub.roster.contains own ∧ own ∉ between.queued) := by
  intro s
  have hstart := careful_start hnobody identity
  have hcareful : Careful hub.events s := careful_run hstart (stimuli ++ later)
  have hrun : s = ((Session.start hub identity).run env stimuli).run env later :=
    List.foldl_append
  have hours : s.handshake.ssrc = some own := by
    rw [hrun]
    exact ssrc_run (careful_run hstart stimuli) hown later
  have hstranger := hcareful.strangers own (.inr hours)
  have habsent : ¬ s.hub.roster.contains own := fun hholds =>
    hstranger.absent (contains_iff.mp hholds)
  refine ⟨habsent, hstranger.told, fun _ => heard_dropped hstart hours, ?_⟩
  intro hlive moves hmoves between
  have hlocal := (hcareful.guarded hlive hours).2
  have hspared : Spared own between := by
    refine spared_run env.dsp (spared_start hlocal habsent s.notices) fun user hmem => ?_
    exact ssrc_ne_of_begun (hmoves _ hmem) hours
  exact ⟨hspared.absent, hspared.queued⟩

def caller : Identity :=
  ⟨"server", "user", "session", "token"⟩

/-- The relay greets us, and assigns a source to us. -/
def assigned : List Stimulus :=
  let reply : Octets := Octets.ofWord16 2 ++ Octets.ofWord16 70 ++ Octets.ofWord32 42 ++
    [49, 46, 49, 46, 49, 46, 49] ++ List.replicate 57 0 ++ Octets.ofWord16 5000
  [.opened, .text (Message.hello 0).toJson [] 0,
    .text (Message.ready ⟨42, "127.0.0.1", 5000, [supportedMode]⟩).toJson [.datagram true reply] 0]

def sessionKey : Octets :=
  List.replicate 32 5

def packetOf (ssrc : UInt32) : Arrival :=
  .datagram true
    ((Cipher.sealPacket sessionKey (.opus 1 960 ssrc) silenceFrame).toOption.getD [])

/-- It gives our source to Alice, and sends us our own packets, and one of somebody else. -/
def echoed : List Stimulus :=
  [.text (Message.sessionDescription ⟨supportedMode, sessionKey⟩).toJson [] 0,
    .text (Message.speaking ⟨1, 0, 42, some "alice"⟩).toJson [] 0,
    .arrived [packetOf 42, packetOf 9] 0, .noticed]

theorem never_hears_itself_echoed :
    ((Session.start (.create {}) caller).run .bare assigned).handshake.ssrc = some 42 ∧
      heard .bare (.start (.create {}) caller) (assigned ++ echoed) =
        [(42, .dropped), (9, .unknownSpeaker)] ∧
      ¬ ((Session.start (.create {}) caller).run .bare
        (assigned ++ echoed)).hub.roster.contains 42 := by
  have hown : ((Session.start (.create {}) caller).run .bare
      assigned).handshake.ssrc = some 42 := by
    decide +kernel
  have hheard : heard .bare (.start (.create {}) caller) (assigned ++ echoed) =
      [(42, .dropped), (9, .unknownSpeaker)] := by
    decide +kernel
  have hspared := never_hears_itself .bare rfl caller hown echoed
  exact ⟨hown, hheard, hspared.1⟩

end VoiceCall.Proofs.Session.Ourselves
