import VoiceCall.Relay.Encoding
import VoiceCall.Proofs.Decoding.Settling
import VoiceCall.Proofs.Hub.Index
import VoiceCall.Proofs.Session.Activity
import VoiceCall.Proofs.Session.Milestones
import VoiceCall.Proofs.Session.Parallel
import VoiceCall.Proofs.Session.Services

namespace VoiceCall.Proofs.Session.Teardown

open VoiceCall.Session
open VoiceCall.Proofs.Decoding.Renaming
open VoiceCall.Proofs.Decoding.Settling
open VoiceCall.Proofs.Decoding.Workers
open VoiceCall.Proofs.Hub.Events
open VoiceCall.Proofs.Hub.History
open VoiceCall.Proofs.Hub.Index
open VoiceCall.Proofs.Hub.Bookkeeping
open VoiceCall.Proofs.Hub.Twins
open VoiceCall.Proofs.Relay.Overflow
open VoiceCall.Proofs.Session.Actions
open VoiceCall.Proofs.Session.Activity (nodup_traffic traffic_entry)
open VoiceCall.Proofs.Session.Frame
open VoiceCall.Proofs.Session.Milestones
open VoiceCall.Proofs.Session.Parallel
open VoiceCall.Proofs.Session.Services
open VoiceCall.Proofs.Session.Turns
open VoiceCall.Proofs.Speaker.Keys

/-- The hubs that an owner can come to have: they may have been asked for anything, and sessions may
have been held on them. -/
inductive Owned (dsp : Dsp) : Hub → Prop where
  | created (settings : Settings) : Owned dsp (.create settings)
  | called {h : Hub} (call : Call) : Owned dsp h → Owned dsp (call.apply dsp h)
  | read {h : Hub} : Owned dsp h → Owned dsp h.takeEvents.2
  | used {h : Hub} (env : Surroundings) (identity : Relay.Identity) (stimuli : List Stimulus) :
      Owned dsp h → Owned dsp ((Session.start h identity).run { env with dsp := dsp } stimuli).hub

/-- Nobody is registered or remembered, and nobody works. -/
structure Clean (h : Hub) : Prop where
  speakers : h.roster.speakers = []
  users : h.roster.users = []
  departed : h.departed = []
  workers : h.decodeWorkers = 0
  queue : h.pool.queue = []
  localSsrc : h.localSsrc = 0

/-- Everybody who has joined leaves later on, as who they were. -/
def Parted (told : List Event) : Prop :=
  ∀ before ssrc user later, told = before ++ .speakerJoined ssrc user :: later →
    .speakerLeft ssrc user ∈ later

variable {dsp : Dsp} {h h' : Hub} {bounds : Nat × Nat}

/-- The workers are in number, and the index names nobody who is not there. -/
structure Tidy (bounds : Nat × Nat) (h : Hub) : Prop where
  staffed : Staffed bounds h
  traced : Traced h.roster

theorem Tidy.emit (htidy : Tidy bounds h) (event : Event) : Tidy bounds (h.emit event) :=
  ⟨htidy.staffed.emit event, htidy.traced⟩

theorem Tidy.apply (dsp : Dsp) (htidy : Tidy bounds h) (call : Call) :
    Tidy bounds (call.apply dsp h) :=
  ⟨staffed_apply dsp htidy.staffed call, traced_apply dsp htidy.traced call⟩

theorem Tidy.served (htidy : Tidy bounds h) (hserved : Served dsp h h') : Tidy bounds h' :=
  served_invariant (fun _ event _ hh => hh.emit event) (fun _ call hh => hh.apply dsp call)
    hserved htidy

theorem Tidy.run (env : Surroundings) (htidy : Tidy bounds h) (identity : Relay.Identity)
    (stimuli : List Stimulus) :
    Tidy bounds ((Session.start h identity).run env stimuli).hub :=
  (htidy.emit (.stateChanged .connecting)).served (served_run env (.start h identity) stimuli)

theorem Owned.tidy (howned : Owned dsp h) : ∃ bounds, Tidy bounds h := by
  induction howned with
  | created settings => exact ⟨_, staffed_create settings, List.nodup_nil, nofun⟩
  | called call _ ih =>
      obtain ⟨bounds, htidy⟩ := ih
      exact ⟨bounds, htidy.apply dsp call⟩
  | read _ ih =>
      obtain ⟨bounds, htidy⟩ := ih
      exact ⟨bounds, htidy.staffed.of_pool_eq rfl rfl, htidy.traced⟩
  | used env identity stimuli _ ih =>
      obtain ⟨bounds, htidy⟩ := ih
      exact ⟨bounds, htidy.run { env with dsp := dsp } identity stimuli⟩

/-- Whoever was told to have joined, since some events were told, is registered or has left. -/
structure Answered (base : List Event) (l : Ledger) : Prop where
  sources : (l.registered.map Prod.fst).Nodup
  told : ∃ told, l.events = base ++ told ∧ ∀ before ssrc user later,
    told = before ++ .speakerJoined ssrc user :: later →
      (ssrc, user) ∈ l.registered ∨ .speakerLeft ssrc user ∈ later

variable {base : List Event} {l l' : Ledger}

theorem split_concat {told before later : List Event} {event last : Event}
    (hsplit : told ++ [last] = before ++ event :: later) :
    event = last ∨ ∃ rest, later = rest ++ [last] ∧ told = before ++ event :: rest := by
  rcases List.eq_nil_or_concat later with rfl | ⟨rest, final, rfl⟩
  · obtain ⟨-, hlast⟩ := List.append_inj' hsplit rfl
    exact .inl (List.cons.inj hlast).1.symm
  · rw [List.concat_eq_append, ← List.cons_append, ← List.append_assoc] at hsplit
    obtain ⟨htold, hlast⟩ := List.append_inj' hsplit rfl
    cases hlast
    exact .inr ⟨rest, List.concat_eq_append, htold⟩

/-- One event more, which keeps everybody registered but those whose departure it tells. -/
theorem Answered.concat (hanswered : Answered base l) {event : Event}
    (hsources : (l'.registered.map Prod.fst).Nodup) (hevents : l'.events = l.events ++ [event])
    (hstays : ∀ ssrc user, (ssrc, user) ∈ l.registered →
      (ssrc, user) ∈ l'.registered ∨ event = .speakerLeft ssrc user)
    (hcomes : ∀ ssrc user, event = .speakerJoined ssrc user → (ssrc, user) ∈ l'.registered) :
    Answered base l' := by
  obtain ⟨told, htold, hall⟩ := hanswered.told
  refine ⟨hsources, told ++ [event], ?_, ?_⟩
  · rw [hevents, htold, List.append_assoc]
  · intro before ssrc user later hsplit
    rcases split_concat hsplit with hlast | ⟨rest, rfl, hbefore⟩
    · exact .inl (hcomes ssrc user hlast.symm)
    · rcases hall before ssrc user rest hbefore with hmem | hleft
      · refine (hstays ssrc user hmem).imp_right ?_
        rintro rfl
        exact List.mem_append_right rest List.mem_cons_self
      · exact .inr (List.mem_append_left _ hleft)

theorem Answered.tell (hanswered : Answered base l) {event : Event}
    (hevent : isTraffic event = false) :
    Answered base { l with events := l.events ++ [event] } := by
  refine hanswered.concat hanswered.sources rfl (fun _ _ hmem => .inl hmem) ?_
  rintro ssrc user rfl
  cases hevent

theorem answered_entry {welcome : UInt32 → Prop} (hanswered : Answered base l)
    (hentry : Entry welcome l l') : Answered base l' := by
  have hsources := nodup_traffic hanswered.sources (traffic_entry hentry)
  cases hentry with
  | kept => exact hanswered
  | lifted _ _ => exact ⟨hsources, hanswered.told⟩
  | joined _ _ _ =>
      refine hanswered.concat hsources rfl ?_ ?_
      · exact fun _ _ hmem => .inl (List.mem_append_left _ hmem)
      · rintro _ _ ⟨⟩
        exact List.mem_append_right _ List.mem_cons_self
  | @left ssrc user _ hholds _ =>
      refine hanswered.concat hsources rfl ?_ nofun
      intro other holder hmem
      by_cases hother : other = ssrc
      · subst hother
        cases List.inj_on_of_nodup_map hanswered.sources hmem hholds rfl
        exact .inr rfl
      · exact .inl (List.mem_filter.mpr ⟨hmem, decide_eq_true hother⟩)

theorem answered_apply (dsp : Dsp) (hanswered : Answered base (ledger h)) (call : Call) :
    Answered base (ledger (call.apply dsp h)) := by
  by_cases hcall : call = .shutdown
  · subst hcall
    obtain ⟨l, hentries, hledger⟩ := entries_shutdown dsp h
    have hremoved : Answered base l := by
      clear hledger
      induction hentries with
      | refl => exact hanswered
      | tail _ hentry ih => exact answered_entry ih hentry
    rw [Call.apply, hledger]
    exact ⟨hremoved.sources, hremoved.told⟩
  · exact answered_entry hanswered (entry_apply dsp h hcall)

theorem Answered.served (hanswered : Answered base (ledger h)) (hserved : Served dsp h h') :
    Answered base (ledger h') :=
  served_invariant (P := fun h => Answered base (ledger h))
    (fun _ _ hevent hh => hh.tell hevent)
    (fun _ call hh => answered_apply dsp hh call) hserved hanswered

/-- Nobody is registered or departed, and nothing is queued once the owner has done. -/
structure Emptied (h : Hub) : Prop where
  speakers : h.roster.speakers = []
  departed : h.departed = []
  localSsrc : h.localSsrc = 0
  queue : h.pool.orders = [] → h.pool.queue = []

theorem emptied_shutdown (dsp : Dsp) (h : Hub) : Emptied (h.shutdown dsp) where
  speakers := List.map_eq_nil_iff.mp (entries_shutdown_eq_nil dsp h)
  departed := rfl
  localSsrc := rfl
  queue := queue_obey_clear _ _

theorem Emptied.clean (hemptied : Emptied h) (htidy : Tidy bounds h) : Clean h where
  speakers := hemptied.speakers
  users := by
    rw [List.eq_nil_iff_forall_not_mem]
    rintro ⟨user, ssrc⟩ hmem
    cases hnamed : h.roster.ssrcOfUser user with
    | none => simpa [hmem] using List.lookup_eq_none_iff.mp hnamed (user, ssrc) hmem
    | some named =>
        have hentry := htidy.traced.named user named hnamed
        rw [entries, hemptied.speakers] at hentry
        cases hentry
  departed := hemptied.departed
  workers := by
    have hcount := htidy.staffed.rests.workerCount
    rwa [size_eq_length, hemptied.speakers, List.length_nil, Nat.zero_min] at hcount
  queue := hemptied.queue htidy.staffed.rests.orders
  localSsrc := hemptied.localSsrc

theorem emptied_finish (env : Surroundings) (s : Session) (fault : Option Fault) :
    Emptied (s.finish env fault).hub :=
  have hemptied := emptied_shutdown env.dsp s.hub
  ⟨hemptied.speakers, hemptied.departed, hemptied.localSsrc, hemptied.queue⟩

variable {env : Surroundings} {s s' : Session}

/-- A session that is over has been emptied, as long as it cannot have broken down. -/
theorem emptied_step {stimulus : Stimulus} (hcountable : Countable [stimulus])
    (h : s.isLive = false → Emptied s.hub) :
    (s.step env stimulus).isLive = false → Emptied (s.step env stimulus).hub := by
  have hturn := turn_step env s stimulus
  generalize s.step env stimulus = s' at hturn ⊢
  intro hover
  cases hturn with
  | rested _ hrested => exact h hrested
  | steady hlive _ _ hsteady =>
      rw [isLive_of_standing hsteady.standing, hlive] at hover
      cases hover
  | opened _ =>
      rw [emitStateChange] at hover
      split at hover <;> cases hover
  | ended _ _ _ _ => exact emptied_finish env _ _
  | crashed now hread _ hinterval _ _ =>
      have hlong := (heartbeatInterval_eq_none_iff _).mp hinterval
      exact absurd hlong (hcountable _ _ now _ List.mem_cons_self hread)
  | @advanced _ meanwhile _ handshake todo _ _ _ hrunning _ _ _ hperformed hsteady =>
      obtain ⟨hstanding, -, -⟩ :=
        performAll_frame env meanwhile { s with handshake := handshake } todo
      rw [hperformed] at hstanding
      have hlive := isLive_of_running (hsteady.standing.trans (hstanding.trans hrunning))
      rw [hlive] at hover
      cases hover
  | broke _ _ _ _ _ _ => exact emptied_finish env _ _

theorem emptied_run {stimuli : List Stimulus} (hcountable : Countable stimuli)
    (h : s.isLive = false → Emptied s.hub) :
    (s.run env stimuli).isLive = false → Emptied (s.run env stimuli).hub := by
  induction stimuli generalizing s with
  | nil => exact h
  | cons stimulus stimuli ih =>
      have hfirst : Countable [stimulus] := fun content meanwhile now millis hmem =>
        hcountable content meanwhile now millis
          (List.mem_cons.mpr (.inl (List.mem_singleton.mp hmem)))
      have hrest : Countable stimuli := fun content meanwhile now millis hmem =>
        hcountable content meanwhile now millis (List.mem_cons_of_mem _ hmem)
      exact ih hrest (emptied_step hfirst h)

theorem clean_create (settings : Settings) : Clean (.create settings) :=
  ⟨rfl, rfl, rfl, rfl, rfl, rfl⟩

theorem Clean.control (dsp : Dsp) (hclean : Clean h) (change : Control) :
    Clean (h.control dsp change) := by
  cases change with
  | muteSpeaker ssrc muted =>
      refine { hclean with speakers := ?_ }
      exact (speakers_modify h.roster ssrc _).trans (List.map_eq_nil_iff.mpr hclean.speakers)
  | setSpeakerGain ssrc gain =>
      refine { hclean with speakers := ?_ }
      exact (speakers_modify h.roster ssrc _).trans (List.map_eq_nil_iff.mpr hclean.speakers)
  | removeSpeaker ssrc =>
      have hnobody : h.roster.find? ssrc = none := by
        rw [find?_eq, hclean.speakers, List.find?_nil]
      rw [Hub.control, Hub.removeSpeaker, Roster.remove, hnobody]
      exact hclean
  | _ => exact { hclean with }

theorem clean_controls (dsp : Dsp) (hclean : Clean h) (changes : List Control) :
    Clean (changes.foldl (Hub.control dsp) h) := by
  induction changes generalizing h with
  | nil => exact hclean
  | cons change changes ih => exact ih (hclean.control dsp change)

theorem tidy_controls (dsp : Dsp) (htidy : Tidy bounds h) (changes : List Control) :
    Tidy bounds (changes.foldl (Hub.control dsp) h) := by
  induction changes generalizing h with
  | nil => exact htidy
  | cons change changes ih => exact ih (htidy.apply dsp (.control change))

/-- The course of two sessions: each tells the same behind what was told before, and they send the
same. -/
structure SameCourse (before before' : List Event) (s s' : Session) : Prop where
  told : ∃ told, s.hub.events = before ++ told ∧ s'.hub.events = before' ++ told
  spoken : spoken s' = spoken s
  datagrams : s'.datagrams = s.datagrams

theorem SameCourse.symm {before before' : List Event} (h : SameCourse before before' s s') :
    SameCourse before' before s' s := by
  obtain ⟨told, htold, htold'⟩ := h.told
  exact ⟨⟨told, htold', htold⟩, h.spoken.symm, h.datagrams.symm⟩

theorem sameCourse_of_abreast {k : Nat} {before before' : List Event}
    (h : Abreast k before before' s s') : SameCourse before before' s s' := by
  obtain @⟨h', sent', htwin, hspoken⟩ := h
  exact ⟨htwin.told, hspoken, rfl⟩

theorem sameStimulus_symm {stimulus stimulus' : Stimulus} (h : SameStimulus stimulus stimulus') :
    SameStimulus stimulus' stimulus := by
  cases h with
  | same => exact .same _
  | beat nonce nonce' => exact .beat nonce' nonce

theorem renamed_clean {k : Nat} (hclean : Clean h) (hclean' : Clean h') (htidy : Tidy bounds h)
    (htidy' : Tidy bounds h') : Renamed (laterTask k) h.pool h'.pool where
  queue := by
    rw [hclean.queue, hclean'.queue]
    rfl
  phases := by
    rw [List.length_eq_zero_iff.mp hclean.workers, List.length_eq_zero_iff.mp hclean'.workers]
    rfl
  orders := htidy'.staffed.rests.orders.trans htidy.staffed.rests.orders.symm
  limits := htidy'.staffed.limits.trans htidy.staffed.limits.symm

theorem twin_clean (hclean : Clean h) (hclean' : Clean h') (htidy : Tidy bounds h)
    (htidy' : Tidy bounds h') (hsame : SameControls h h')
    (hserials : h.nextSerial ≤ h'.nextSerial) :
    Twin (h'.nextSerial - h.nextSerial) h.events h'.events h h' where
  toSameControls := hsame
  roster := by
    refine eq_delayed _ ?_ (hclean'.users.trans hclean.users.symm)
    rw [hclean.speakers, hclean'.speakers, List.map_nil]
  localSsrc := hclean'.localSsrc.trans hclean.localSsrc.symm
  departed := hclean'.departed.trans hclean.departed.symm
  nextSerial := (Nat.add_sub_cancel' hserials).symm
  told := ⟨[], (List.append_nil _).symm, (List.append_nil _).symm⟩
  pool := renamed_clean hclean hclean' htidy htidy'
  rests := ⟨_, htidy.staffed.rests⟩
  rests' := ⟨_, htidy'.staffed.rests⟩

theorem sameCourse_of_le (env : Surroundings) (hclean : Clean h) (hclean' : Clean h')
    (htidy : Tidy bounds h) (htidy' : Tidy bounds h') (hsame : SameControls h h')
    (hserials : h.nextSerial ≤ h'.nextSerial) (identity : Relay.Identity)
    {stimuli stimuli' : List Stimulus} (hstimuli : List.Forall₂ SameStimulus stimuli stimuli') :
    SameCourse h.events h'.events ((Session.start h identity).run env stimuli)
      ((Session.start h' identity).run env stimuli') := by
  have htwin := twin_clean hclean hclean' htidy htidy' hsame hserials
  have hstart : Abreast (h'.nextSerial - h.nextSerial) h.events h'.events
      (.start h identity) (.start h' identity) := .intro (htwin.emit _) rfl
  exact sameCourse_of_abreast (abreast_run env hstimuli hstart)

/-- Sessions on clean hubs with the same settings and controls take the same course. -/
theorem sameCourse_of_clean (env : Surroundings) (hclean : Clean h) (hclean' : Clean h')
    (htidy : Tidy bounds h) (htidy' : Tidy bounds h') (hsame : SameControls h h')
    (identity : Relay.Identity) {stimuli stimuli' : List Stimulus}
    (hstimuli : List.Forall₂ SameStimulus stimuli stimuli') :
    SameCourse h.events h'.events ((Session.start h identity).run env stimuli)
      ((Session.start h' identity).run env stimuli') := by
  rcases Nat.le_total h.nextSerial h'.nextSerial with hserials | hserials
  · exact sameCourse_of_le env hclean hclean' htidy htidy' hsame hserials identity hstimuli
  · refine (sameCourse_of_le env hclean' hclean htidy' htidy hsame.symm hserials identity ?_).symm
    exact hstimuli.flip.imp fun _ _ => sameStimulus_symm

/-- However a session ends, it leaves a clean hub behind, and everybody who had joined has left. If
it found the hub clean, the next session with the same settings and controls does as it did. -/
theorem teardown_restores (env : Surroundings) {hub : Hub} (howned : Owned env.dsp hub)
    (identity : Relay.Identity) {stimuli : List Stimulus} (hcountable : Countable stimuli) :
    let first := (Session.start hub identity).run env stimuli
    first.isLive = false → Clean first.hub ∧
      ∃ told, first.hub.events = hub.events ++ told ∧ Parted told ∧
        (Clean hub → ∀ (changes : List Control) (stimuli' : List Stimulus),
          List.Forall₂ SameStimulus stimuli stimuli' →
            let hub' := changes.foldl (Hub.control env.dsp) first.hub
            let second := (Session.start hub' identity).run env stimuli'
            SameControls hub hub' → second.hub.events = hub'.events ++ told ∧
              spoken second = spoken first ∧ second.datagrams = first.datagrams) := by
  intro first hover
  obtain ⟨bounds, htidy⟩ := howned.tidy
  have htidied : Tidy bounds first.hub := htidy.run env identity stimuli
  have hstart : (Session.start hub identity).isLive = false →
      Emptied (Session.start hub identity).hub := nofun
  have hcleaned : Clean first.hub := (emptied_run hcountable hstart hover).clean htidied
  have hanswered : Answered hub.events (ledger first.hub) := by
    have hnobody : Answered hub.events (ledger hub) :=
      ⟨htidy.traced.sources, [], (List.append_nil _).symm, fun _ _ _ _ hsplit => by simp at hsplit⟩
    have hbegun : Answered hub.events (ledger (Session.start hub identity).hub) :=
      hnobody.tell rfl
    exact hbegun.served (served_run env _ stimuli)
  obtain ⟨told, htold, hall⟩ := hanswered.told
  refine ⟨hcleaned, told, htold, ?_, ?_⟩
  · intro before ssrc user later hsplit
    refine (hall before ssrc user later hsplit).resolve_left ?_
    change (ssrc, user) ∉ first.hub.roster.speakers.map entryOf
    rw [hcleaned.speakers]
    exact List.not_mem_nil
  · intro hclean changes stimuli' hstimuli hub' second hsame
    have hclean' : Clean hub' := clean_controls env.dsp hcleaned changes
    have htidy' : Tidy bounds hub' := tidy_controls env.dsp htidied changes
    have hcourse := sameCourse_of_clean env hclean hclean' htidy htidy' hsame identity hstimuli
    obtain ⟨told', hfirst, hsecond⟩ := hcourse.told
    obtain rfl := List.append_cancel_left (htold.symm.trans hfirst)
    exact ⟨hsecond, hcourse.spoken, hcourse.datagrams⟩

/-- Whether a stimulus is a text that asks for an interval which is too long. -/
def overlong : Stimulus → Bool
  | .text content _ _ => (Relay.Message.ofJson content).toOption.any asksTooLong
  | _ => false

theorem countable_of_not_overlong {stimuli : List Stimulus}
    (h : stimuli.any overlong = false) : Countable stimuli := by
  intro content meanwhile now millis hmem hread hlong
  have hshort := List.any_eq_false.mp h _ hmem
  rw [overlong, hread] at hshort
  exact hshort ((asksTooLong_iff _).mpr ⟨millis, rfl, hlong⟩)

/-- Alice joins a call, which its user leaves and then enters again. -/
theorem teardown_restores_reentered :
    let told (message : Relay.Message) (meanwhile : List Media.Arrival) : Stimulus :=
      .text message.toJson meanwhile 0
    let reply : Octets := Octets.ofWord16 2 ++ Octets.ofWord16 70 ++ Octets.ofWord32 42 ++
      [49, 46, 49, 46, 49, 46, 49] ++ List.replicate 57 0 ++ Octets.ofWord16 5000
    let stimuli := [.opened, told (.hello 0) [],
      told (.ready ⟨42, "127.0.0.1", 5000, [Relay.supportedMode]⟩) [.datagram true reply],
      told (.speaking ⟨1, 0, 7, some "alice"⟩) [], .disconnect]
    let hub := Hub.create {}
    let identity : Relay.Identity := ⟨"server", "user", "session", "token"⟩
    let first := (Session.start hub identity).run .bare stimuli
    let second := (Session.start first.hub identity).run .bare stimuli
    .speakerJoined 7 (some "alice") ∈ first.hub.events ∧ Clean first.hub ∧
      second.hub.events = first.hub.events ++ first.hub.events ∧
        spoken second = spoken first ∧ second.datagrams = first.datagrams := by
  intro told reply stimuli hub identity first second
  have hrun : first.isLive = false ∧ .speakerJoined 7 (some "alice") ∈ first.hub.events ∧
      first.hub.settings = hub.settings ∧ first.hub.microphone = hub.microphone ∧
        first.hub.playback = hub.playback := by
    decide +kernel
  obtain ⟨hover, hjoined, hsettings, hmicrophone, hplayback⟩ := hrun
  have hsame : SameControls hub first.hub :=
    ⟨hsettings, ⟨_, _, _, hmicrophone⟩, ⟨_, hplayback⟩⟩
  have hcountable : Countable stimuli := countable_of_not_overlong (by decide +kernel)
  obtain ⟨hclean, events, hevents, -, hagain⟩ := teardown_restores .bare
    (.created {}) identity hcountable hover
  have hnext := hagain (clean_create {}) [] stimuli
    (List.forall₂_same.mpr fun stimulus _ => .same stimulus)
  simp only [List.foldl_nil] at hnext
  obtain ⟨hsecond, hspoken, hdatagrams⟩ := hnext hsame
  rw [show (Hub.create {}).events = [] from rfl, List.nil_append] at hevents
  refine ⟨hjoined, hclean, ?_, hspoken, hdatagrams⟩
  rw [hsecond, hevents]

end VoiceCall.Proofs.Session.Teardown
