import VoiceCall.CommandLine.Program
import VoiceCall.Proofs.Relay.Overflow
import VoiceCall.Proofs.Session.Turns

namespace VoiceCall.Proofs.Session.Milestones

open VoiceCall.Media
open VoiceCall.Relay
open VoiceCall.Session
open VoiceCall.CommandLine
open VoiceCall.Proofs.Hub.Asides
open VoiceCall.Proofs.Relay.Answers
open VoiceCall.Proofs.Relay.Overflow
open VoiceCall.Proofs.Session.Actions
open VoiceCall.Proofs.Session.Frame
open VoiceCall.Proofs.Session.Turns

/-- The milestones of a call that is not interrupted. -/
def course (ssrc : UInt32) : List Event :=
  [.stateChanged .connecting, .stateChanged .awaitingHello, .stateChanged .awaitingReady,
    .stateChanged .awaitingSessionDescription, .connected ssrc, .stateChanged .connected]

def farewell (reason : Option String) : List Event :=
  [.stateChanged .disconnected, .disconnected reason]

/-- No text that reads as a hello asks for an interval that is too long. -/
def Countable (stimuli : List Stimulus) : Prop :=
  ∀ content meanwhile now millis, .text content meanwhile now ∈ stimuli →
    Message.ofJson content = .ok (.hello millis) → ¬ TooLong millis

/-- The milestones of a session whose handshake has come to a state. -/
inductive Stage : HandshakeState → List Event → Prop where
  | connecting : Stage .connecting [.stateChanged .connecting]
  | awaitingHello :
      Stage .awaitingHello [.stateChanged .connecting, .stateChanged .awaitingHello]
  | awaitingReady :
      Stage .awaitingReady
        [.stateChanged .connecting, .stateChanged .awaitingHello, .stateChanged .awaitingReady]
  | awaitingSessionDescription :
      Stage .awaitingSessionDescription
        [.stateChanged .connecting, .stateChanged .awaitingHello, .stateChanged .awaitingReady,
          .stateChanged .awaitingSessionDescription]
  | connected (ssrc : UInt32) : Stage .connected (course ssrc)

theorem Stage.isPrefix {state : HandshakeState} {reached : List Event} (h : Stage state reached) :
    ∃ ssrc, reached <+: course ssrc := by
  cases h with
  | connected ssrc => exact ⟨ssrc, List.prefix_rfl⟩
  | _ => exact ⟨0, _, rfl⟩

theorem events_finish (env : Surroundings) (s : Session) (fault : Option Fault) :
    ∃ told, (s.finish env fault).hub.events =
        s.hub.events ++ (told ++ farewell (fault.map Fault.message)) ∧
      told.filter isMilestone = [] := by
  obtain ⟨told, hevents, hnone⟩ := aside_shutdown env.dsp s.hub
  refine ⟨told, ?_, hnone⟩
  rw [← List.append_assoc, ← hevents]
  exact List.append_assoc _ [_] [_]

variable {env : Surroundings} {s₀ s s' : Session} {past : List Stimulus} {stimulus : Stimulus}
  {told : List Event}

/-- A session lives, and the milestones among what it told are those of its handshake. -/
structure Underway (s : Session) (told : List Event) : Prop where
  live : s.isLive
  dialing : s.standing = .dialing ↔ s.handshake.state = .connecting
  stage : Stage s.handshake.state (told.filter isMilestone)

theorem Underway.steady (h : Underway s told) (hsteady : Steady s s') :
    ∃ more, s'.hub.events = s.hub.events ++ more ∧ Underway s' (told ++ more) := by
  obtain ⟨more, hevents, hnone⟩ := hsteady.aside
  refine ⟨more, hevents, ?_, ?_, ?_⟩
  · rw [isLive_iff, hsteady.standing, ← isLive_iff]
    exact h.live
  · rw [hsteady.standing, hsteady.handshake]
    exact h.dialing
  · rw [hsteady.handshake, List.filter_append, hnone, List.append_nil]
    exact h.stage

theorem Underway.opened (h : Underway s told) (hdialing : s.standing = .dialing) :
    let s' := { s with handshake := s.handshake.opened, standing := .running }.emitStateChange
      s.handshake.state
    ∃ more, s'.hub.events = s.hub.events ++ more ∧ Underway s' (told ++ more) := by
  have hstate := h.dialing.mp hdialing
  have hopened : s.handshake.opened = { s.handshake with state := .awaitingHello } := if_pos hstate
  have hstage := h.stage
  rw [hstate] at hstage
  rw [hopened, emitStateChange_of_ne (by simp [hstate])]
  refine ⟨[.stateChanged .awaitingHello], rfl, rfl, by simp [Session.emit], ?_⟩
  rw [List.filter_append]
  generalize told.filter isMilestone = reached at hstage ⊢
  cases hstage
  exact .awaitingHello

/-- When a message moves the handshake, the session tells of its new state behind all that the
message asks for. -/
theorem stage_advanced {meanwhile : List Arrival} {message : Message} {handshake : Handshake}
    {todo : List Action} {performed : Session} {reached : List Event}
    (hanswer : Answer s.handshake message (handshake, .actions todo))
    (hmoved : handshake.state ≠ s.handshake.state)
    (hperformed : performAll env meanwhile { s with handshake := handshake } todo =
      (performed, none)) (hstage : Stage s.handshake.state reached) :
    handshake.state ≠ .connecting ∧ ∃ more, performed.hub.events = s.hub.events ++ more ∧
      Stage handshake.state
        (reached ++ (more.filter isMilestone ++ [.stateChanged handshake.state])) := by
  obtain ⟨-, -, haside⟩ := performAll_frame env meanwhile { s with handshake := handshake } todo
  rw [hperformed] at haside
  cases hanswer with
  | greeted hstate _ =>
      obtain ⟨more, hevents, hnone⟩ := haside (by simp)
      rw [hstate] at hstage
      cases hstage
      refine ⟨by simp, more, hevents, ?_⟩
      rw [hnone]
      exact .awaitingReady
  | accepted hstate _ =>
      obtain ⟨more, hevents, hnone⟩ := haside (by simp)
      rw [hstate] at hstage
      cases hstage
      refine ⟨by simp, more, hevents, ?_⟩
      rw [hnone]
      exact .awaitingSessionDescription
  | established hstate _ _ =>
      obtain ⟨more, ssrc, hevents, hconnected⟩ :=
        milestones_performAll_startMedia [_, _, _] (by simp) hperformed
      rw [hstate] at hstage
      cases hstage
      refine ⟨by simp, more, hevents, ?_⟩
      rw [hconnected]
      exact .connected ssrc
  | remarked _ _ => exact absurd rfl hmoved

theorem Underway.advanced {meanwhile : List Arrival} {message : Message} {handshake : Handshake}
    {todo : List Action} {performed : Session} (h : Underway s told)
    (hrunning : s.standing = .running)
    (hanswer : Answer s.handshake message (handshake, .actions todo))
    (hmoved : handshake.state ≠ s.handshake.state)
    (hperformed : performAll env meanwhile { s with handshake := handshake } todo =
      (performed, none)) :
    let s' := performed.emit (.stateChanged handshake.state)
    ∃ more, s'.hub.events = s.hub.events ++ more ∧ Underway s' (told ++ more) := by
  intro s'
  obtain ⟨hstanding, hhandshake, -⟩ :=
    performAll_frame env meanwhile { s with handshake := handshake } todo
  rw [hperformed] at hstanding hhandshake
  change s'.standing = s.standing at hstanding
  change s'.handshake = handshake at hhandshake
  rw [hrunning] at hstanding
  obtain ⟨hstate, more, hevents, hreached⟩ := stage_advanced hanswer hmoved hperformed h.stage
  refine ⟨more ++ [.stateChanged handshake.state], ?_, isLive_of_running hstanding, ?_, ?_⟩
  · rw [← List.append_assoc, ← hevents]
    rfl
  · rw [hstanding, hhandshake]
    exact iff_of_false (by simp) hstate
  · rw [hhandshake, List.filter_append, List.filter_append]
    exact hreached

theorem aside_broke {meanwhile : List Arrival} {message : Message} {handshake : Handshake}
    {todo : List Action} {performed : Session} {fault : Fault}
    (hanswer : Answer s.handshake message (handshake, .actions todo))
    (hmoved : handshake.state ≠ s.handshake.state)
    (hperformed : performAll env meanwhile { s with handshake := handshake } todo =
      (performed, some fault)) :
    Aside s.hub performed.hub := by
  obtain ⟨-, -, haside⟩ := performAll_frame env meanwhile { s with handshake := handshake } todo
  rw [hperformed] at haside
  cases hanswer with
  | greeted _ _ => exact haside (by simp)
  | accepted _ _ => exact haside (by simp)
  | established _ _ _ =>
      obtain ⟨more, _, hevents, hnone⟩ :=
        milestones_performAll_startMedia [_, _, _] (by simp) hperformed
      exact ⟨more, hevents, hnone⟩
  | remarked _ _ => exact absurd rfl hmoved

/-- The stimulus that ended a run, which gave no reason exactly if it was the user's wish. -/
def EndedBy (env : Surroundings) (s₀ : Session) (stimuli : List Stimulus)
    (reason : Option String) : Prop :=
  ∃ before last after, stimuli = before ++ last :: after ∧ (s₀.run env before).isLive ∧
    (s₀.run env (before ++ [last])).isLive = false ∧ (reason = none ↔ last = .disconnect)

/-- How a session stands after a run over some stimuli in which it told some events. -/
inductive Told (env : Surroundings) (s₀ : Session) (stimuli : List Stimulus) (s : Session)
    (told : List Event) : Prop where
  | underway : Underway s told → .disconnect ∉ stimuli → Told env s₀ stimuli s told
  | ended {reason : Option String} {ssrc : UInt32} {reached : List Event} :
      s.standing = .over reason → EndedBy env s₀ stimuli reason → reached <+: course ssrc →
        told.filter isMilestone = reached ++ farewell reason → farewell reason <:+ told →
          Told env s₀ stimuli s told

theorem run_append (env : Surroundings) (s : Session) (past : List Stimulus)
    (stimulus : Stimulus) :
    s.run env (past ++ [stimulus]) = (s.run env past).step env stimulus := by
  simp [Session.run]

theorem Underway.finish (h : Underway s told) {fault : Option Fault}
    (hended : EndedBy env s₀ past (fault.map Fault.message)) (haside : Aside s.hub s'.hub) :
    ∃ more, (s'.finish env fault).hub.events = s.hub.events ++ more ∧
      Told env s₀ past (s'.finish env fault) (told ++ more) := by
  obtain ⟨more, hevents, hmore⟩ := haside
  obtain ⟨last, hlast, hnone⟩ := events_finish env s' fault
  obtain ⟨ssrc, hbegins⟩ := h.stage.isPrefix
  refine ⟨more ++ (last ++ farewell (fault.map Fault.message)), ?_,
    .ended rfl hended hbegins ?_ ?_⟩
  · rw [hlast, hevents, List.append_assoc]
  · simp only [List.filter_append, hmore, hnone, List.nil_append]
    rfl
  · exact ⟨told ++ (more ++ last), by simp only [List.append_assoc]⟩

theorem told_step (hpast : s₀.run env past = s) (hcountable : Countable (past ++ [stimulus]))
    (htold : Told env s₀ past s told) :
    ∃ more, (s.step env stimulus).hub.events = s.hub.events ++ more ∧
      Told env s₀ (past ++ [stimulus]) (s.step env stimulus) (told ++ more) := by
  cases htold with
  | ended hover hended hbegins hreached hlast =>
      -- Nothing moves a session that is over: it is still the same stimulus that ended it.
      obtain ⟨before, last, after, rfl, hbefore, hbehind, hreason⟩ := hended
      rw [step_of_not_live (by simp [isLive, hover])]
      refine ⟨[], (List.append_nil _).symm, ?_⟩
      rw [List.append_nil]
      refine .ended hover ⟨before, last, after ++ [stimulus], ?_, hbefore, hbehind, hreason⟩ hbegins
        hreached hlast
      rw [List.append_assoc, List.cons_append]
  | underway hunderway hgoing =>
      have hlatest : stimulus ∈ past ++ [stimulus] := List.mem_append_right past List.mem_cons_self
      have hnext : s₀.run env (past ++ [stimulus]) = s.step env stimulus := by
        rw [run_append, hpast]
      have hturn := turn_step env s stimulus
      generalize s.step env stimulus = s' at hnext hturn ⊢
      have hended {fault : Option Fault} (hfault : fault = none ↔ stimulus = .disconnect)
          (hover : s'.isLive = false) :
          EndedBy env s₀ (past ++ [stimulus]) (fault.map Fault.message) := by
        refine ⟨past, stimulus, [], rfl, hpast ▸ hunderway.live, hnext ▸ hover, ?_⟩
        rw [Option.map_eq_none_iff, hfault]
      cases hturn with
      | rested _ hrested => simp [hunderway.live] at hrested
      | steady _ hstimulus _ hsteady =>
          obtain ⟨more, hevents, hunderway'⟩ := hunderway.steady hsteady
          exact ⟨more, hevents, .underway hunderway' (by simpa [hgoing] using Ne.symm hstimulus)⟩
      | opened hdialing =>
          obtain ⟨more, hevents, hunderway'⟩ := hunderway.opened hdialing
          exact ⟨more, hevents, .underway hunderway' (by simpa using hgoing)⟩
      | ended _ hfault _ hsteady => exact hunderway.finish (hended hfault rfl) hsteady.aside
      | crashed now hread _ hinterval _ _ =>
          have hlong := (heartbeatInterval_eq_none_iff _).mp hinterval
          exact absurd hlong (hcountable _ _ now _ hlatest hread)
      | advanced now hrunning _ hanswer hmoved hperformed hsteady =>
          obtain ⟨more, hevents, hadvanced⟩ :=
            hunderway.advanced hrunning hanswer hmoved hperformed
          obtain ⟨more', hevents', hunderway'⟩ := hadvanced.steady hsteady
          rw [List.append_assoc] at hunderway'
          refine ⟨more ++ more', ?_, .underway hunderway' (by simpa using hgoing)⟩
          rw [hevents', hevents, List.append_assoc]
      | broke now _ _ hanswer hmoved hperformed =>
          exact hunderway.finish (hended (by simp) rfl) (aside_broke hanswer hmoved hperformed)

theorem told_run (hpast : s₀.run env past = s) {stimuli : List Stimulus}
    (hcountable : Countable (past ++ stimuli)) (htold : Told env s₀ past s told) :
    ∃ more, (s.run env stimuli).hub.events = s.hub.events ++ more ∧
      Told env s₀ (past ++ stimuli) (s.run env stimuli) (told ++ more) := by
  induction stimuli generalizing past s told with
  | nil =>
      rw [List.append_nil]
      exact ⟨[], (List.append_nil _).symm, (List.append_nil told).symm ▸ htold⟩
  | cons stimulus stimuli ih =>
      rw [List.append_cons] at hcountable ⊢
      have hfirst : Countable (past ++ [stimulus]) := fun content meanwhile now millis hmem =>
        hcountable content meanwhile now millis (List.mem_append_left _ hmem)
      obtain ⟨more, hevents, htold⟩ := told_step hpast hfirst htold
      obtain ⟨more', hevents', htold'⟩ := ih (by rw [run_append, hpast]) hcountable htold
      refine ⟨more ++ more', ?_, ?_⟩
      · rw [← List.append_assoc, ← hevents]
        exact hevents'
      · rw [← List.append_assoc]
        exact htold'

theorem statusOfEvents_milestones (told : List Event) :
    statusOfEvents (told.filter isMilestone) = statusOfEvents told := by
  induction told with
  | nil => rfl
  | cons event told ih =>
      cases event with
      | stateChanged state => exact ih
      | connected ssrc => exact ih
      | disconnected reason => rfl
      | _ => exact ih

theorem statusOfEvents_append {told : List Event} (hgoing : ∀ reason, .disconnected reason ∉ told)
    (rest : List Event) : statusOfEvents (told ++ rest) = statusOfEvents rest := by
  induction told with
  | nil => rfl
  | cons event told ih =>
      have hrest := ih fun reason hmem => hgoing reason (List.mem_cons_of_mem _ hmem)
      cases event with
      | disconnected reason => exact absurd List.mem_cons_self (hgoing reason)
      | _ => exact hrest

theorem statusOfEvents_course {ssrc : UInt32} {reached : List Event} (h : reached <+: course ssrc)
    (rest : List Event) : statusOfEvents (reached ++ rest) = statusOfEvents rest := by
  apply statusOfEvents_append
  intro reason hmem
  simpa [course] using h.subset hmem

theorem Told.statusOfEvents_eq_iff {stimuli : List Stimulus} (h : Told env s₀ stimuli s told) :
    statusOfEvents told = failureStatus ↔ ∃ reason, s.standing = .over (some reason) := by
  rw [← statusOfEvents_milestones]
  cases h with
  | underway hunderway _ =>
      obtain ⟨ssrc, hbegins⟩ := hunderway.stage.isPrefix
      rw [← List.append_nil (told.filter isMilestone), statusOfEvents_course hbegins]
      refine iff_of_false (by decide) ?_
      rintro ⟨reason, hover⟩
      simpa [isLive, hover] using hunderway.live
  | @ended reason _ _ hover _ hbegins hreached _ =>
      rw [hreached, statusOfEvents_course hbegins, hover]
      cases reason with
      | none => exact iff_of_false (by decide) (by simp)
      | some reason => exact iff_of_true rfl ⟨reason, rfl⟩

/-- Unless the relay asks for a heartbeat interval that no clock counts, the milestones of a session
are a beginning of one fixed course, and behind it, once the session is over, the two that tell its
end; these come last of all, and give no reason exactly if the end was asked for. -/
theorem told_in_order (env : Surroundings) (hub : Hub) (identity : Identity)
    (stimuli : List Stimulus) (hcountable : Countable stimuli) :
    let s₀ := Session.start hub identity
    let s := s₀.run env stimuli
    ∃ told, s.hub.events = hub.events ++ told ∧ [.stateChanged .connecting] <+: told ∧
      (s.isLive ∧ .disconnect ∉ stimuli ∧ (∃ ssrc, told.filter isMilestone <+: course ssrc) ∨
        ∃ reason, s.standing = .over reason ∧ EndedBy env s₀ stimuli reason ∧
          (∃ ssrc reached, reached <+: course ssrc ∧
            told.filter isMilestone = reached ++ farewell reason) ∧ farewell reason <:+ told) ∧
      (statusOfEvents told = failureStatus ↔ ∃ reason, s.standing = .over (some reason)) ∧
      ∀ content arguments endpoint config,
        parse arguments = .ok (.join endpoint identity config) →
          hub = .create (Settings.load (content config)) →
            (execute env content stimuli arguments).status = statusOfEvents told := by
  intro s₀ s
  have hstart : Told env s₀ [] s₀ [.stateChanged .connecting] :=
    .underway ⟨rfl, iff_of_true rfl rfl, .connecting⟩ List.not_mem_nil
  have hall : Countable ([] ++ stimuli) := hcountable
  obtain ⟨more, hevents, htold⟩ := told_run rfl hall hstart
  rw [List.singleton_append] at htold
  have htotal : s.hub.events = hub.events ++ .stateChanged .connecting :: more :=
    hevents.trans (List.append_assoc _ [_] more)
  refine ⟨.stateChanged .connecting :: more, htotal, ⟨more, rfl⟩, ?_,
    htold.statusOfEvents_eq_iff, ?_⟩
  · cases htold with
    | underway hunderway hgoing =>
        exact .inl ⟨hunderway.live, hgoing, hunderway.stage.isPrefix⟩
    | ended hover hended hbegins hreached hlast =>
        exact .inr ⟨_, hover, hended, ⟨_, _, hbegins, hreached⟩, hlast⟩
  · rintro content arguments endpoint config hparsed rfl
    rw [execute, hparsed]
    exact congrArg statusOfEvents htotal

/-- A relay that greets and hangs up: the call fails of it, and so does the program. -/
theorem told_in_order_hung_up :
    let text := "\x7b\"op\":8,\"d\":\x7b\"heartbeat_interval\":41250.0\x7d\x7d"
    let stimuli : List Stimulus := [.opened, .text text [] 0, .closed]
    let s := (Session.start (.create {}) ⟨"server", "user", "session", "token"⟩).run
      .bare stimuli
    Countable stimuli ∧ farewell (some "session closed") <:+ s.hub.events ∧
      (execute .bare (fun _ => none) stimuli ["-e", "relay.example", "-t", "token",
        "-u", "user", "--session-id", "session", "--server-id", "server"]).status =
          failureStatus := by
  intro text stimuli s
  have hasked : (Message.ofJson text).toOption.any asksTooLong = false := by
    decide +kernel
  have hcountable : Countable stimuli := by
    intro content meanwhile now millis hmem hread hlong
    obtain ⟨rfl, -⟩ : content = text ∧ meanwhile = [] ∧ now = 0 := by simpa [stimuli] using hmem
    rw [hread] at hasked
    cases hasked.symm.trans ((asksTooLong_iff _).mpr ⟨millis, rfl, hlong⟩)
  have hover : s.standing = .over (some "session closed") := by
    decide +kernel
  obtain ⟨told, hevents, -, hcases, hstatus, hprogram⟩ := told_in_order .bare
    (.create {}) ⟨"server", "user", "session", "token"⟩ stimuli hcountable
  refine ⟨hcountable, ?_, ?_⟩
  · rcases hcases with ⟨hlive, -⟩ | ⟨reason, hreason, -, -, hlast⟩
    · change s.isLive = true at hlive
      simp [isLive, hover] at hlive
    · obtain rfl := Standing.over.inj (hreason.symm.trans hover)
      rwa [show s.hub.events = told from hevents]
  · exact (hprogram _ _ "relay.example" none (by rfl) rfl).trans (hstatus.mpr ⟨_, hover⟩)

end VoiceCall.Proofs.Session.Milestones
