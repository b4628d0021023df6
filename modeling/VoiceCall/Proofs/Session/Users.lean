import VoiceCall.Proofs.Hub.Index
import VoiceCall.Proofs.Relay.Text
import VoiceCall.Proofs.Session.Services

namespace VoiceCall.Proofs.Session.Users

open VoiceCall.Media
open VoiceCall.Relay
open VoiceCall.Session
open VoiceCall.Proofs.Hub.Departures
open VoiceCall.Proofs.Hub.History
open VoiceCall.Proofs.Hub.Index
open VoiceCall.Proofs.Hub.Bookkeeping
open VoiceCall.Proofs.Relay.Text
open VoiceCall.Proofs.Session.Services

/-- The index names the one source of every user, and nobody is registered who has departed. -/
structure Orderly (h : Hub) : Prop where
  indexed : Indexed h.roster
  apart : Apart (ledger h)

variable {dsp : Dsp} {h h' : Hub} {ssrc : UInt32} {user : String}

theorem orderly_apply (dsp : Dsp) (horderly : Orderly h) (call : Call)
    (hcall : ∀ ssrc user, call = .addSpeaker ssrc (some user) →
      h.roster.ssrcOfUser user = none) : Orderly (call.apply dsp h) := by
  refine ⟨?_, apart_apply dsp horderly.apart call⟩
  have htraced := horderly.indexed.traced
  by_cases hshutdown : call = .shutdown
  · subst hshutdown
    exact indexed_shutdown dsp htraced
  · refine indexed_change horderly.indexed (change_apply dsp htraced hshutdown) ?_
    intro s hguest user huser
    cases call with
    | addSpeaker ssrc holder =>
        obtain rfl : some user = holder := huser.symm.trans hguest
        exact hcall ssrc user rfl
    | admitUnknown ssrc => cases huser.symm.trans hguest
    | _ => exact absurd hguest id

theorem orderly_removeSpeaker (dsp : Dsp) (horderly : Orderly h) (ssrc : UInt32) :
    Orderly (h.removeSpeaker dsp ssrc).1 := by
  refine orderly_apply dsp horderly (.removeSpeaker ssrc) ?_
  rintro _ _ ⟨⟩

theorem ssrcOfUser_removeSpeaker (dsp : Dsp) (horderly : Orderly h)
    (hnamed : h.roster.ssrcOfUser user = some ssrc) :
    (h.removeSpeaker dsp ssrc).1.roster.ssrcOfUser user = none := by
  rw [Roster.ssrcOfUser, (alike_removeSpeaker dsp h ssrc).users]
  exact (ssrcOfUser_remove horderly.indexed.traced ssrc user).trans (if_pos hnamed)

theorem not_contains_removeSpeaker (dsp : Dsp) (h : Hub) (ssrc : UInt32) :
    ¬ (h.removeSpeaker dsp ssrc).1.roster.contains ssrc := by
  rw [contains_iff]
  rintro ⟨holder, hmem⟩
  rw [registered_removeSpeaker] at hmem
  exact of_decide_eq_true (List.mem_filter.mp hmem).2 rfl

/-- The user has this speaker, and no other. -/
structure Owns (h : Hub) (user : String) (ssrc : UInt32) : Prop where
  held : ∃ s, h.roster.find? ssrc = some s ∧ s.user = some user
  alone : ∀ s ∈ h.roster.speakers, s.user = some user → s.ssrc = ssrc
  present : ¬ h.isDeparted ssrc

theorem owns_of_mem (horderly : Orderly h) (hmem : (ssrc, some user) ∈ entries h.roster) :
    Owns h user ssrc := by
  refine ⟨horderly.indexed.traced.find?.mp hmem, ?_, ?_⟩
  · intro s hs huser
    have hother : (s.ssrc, some user) ∈ entries h.roster := huser ▸ List.mem_map_of_mem hs
    have hnamed := horderly.indexed.all user ssrc hmem
    rw [horderly.indexed.all user s.ssrc hother] at hnamed
    exact Option.some.inj hnamed
  · rw [isDeparted_iff]
    exact horderly.apart ssrc ⟨some user, hmem⟩

theorem orderly_addSpeaker (dsp : Dsp) (horderly : Orderly h)
    (hfree : h.roster.ssrcOfUser user = none) (hnew : ¬ h.roster.contains ssrc) :
    Orderly (h.addSpeaker dsp ssrc (some user)).1 ∧
      (ssrc, some user) ∈ entries (h.addSpeaker dsp ssrc (some user)).1.roster := by
  constructor
  · refine orderly_apply dsp horderly (.addSpeaker ssrc (some user)) ?_
    rintro _ _ ⟨⟩
    exact hfree
  · obtain ⟨s, rfl, huser, halike⟩ := alike_addSpeaker dsp h ssrc (some user)
    rw [halike.entries, entries_insert hnew]
    exact List.mem_append_right _ (List.mem_singleton.mpr (by rw [entryOf, huser]))

/-- A source that nobody has goes to a user, in place of the source that the user had. -/
theorem orderly_reassign (dsp : Dsp) (horderly : Orderly h) (hnew : ¬ h.roster.contains ssrc)
    (user : String) :
    let cleared :=
      match h.roster.ssrcOfUser user with
      | some previous => (h.removeSpeaker dsp previous).1
      | none => h
    Orderly (cleared.addSpeaker dsp ssrc (some user)).1 ∧
      (ssrc, some user) ∈ entries (cleared.addSpeaker dsp ssrc (some user)).1.roster := by
  dsimp only
  cases hnamed : h.roster.ssrcOfUser user with
  | none => exact orderly_addSpeaker dsp horderly hnamed hnew
  | some previous =>
      refine orderly_addSpeaker dsp (orderly_removeSpeaker dsp horderly previous)
        (ssrcOfUser_removeSpeaker dsp horderly hnamed) ?_
      rw [contains_iff]
      rintro ⟨holder, hmem⟩
      rw [registered_removeSpeaker] at hmem
      exact hnew (contains_iff.mpr ⟨holder, (List.mem_filter.mp hmem).1⟩)

theorem orderly_mapSpeaker (dsp : Dsp) (horderly : Orderly h) (ssrc : UInt32) (user : String) :
    Orderly (mapSpeaker dsp h ssrc user) ∧
      (ssrc, some user) ∈ entries (mapSpeaker dsp h ssrc user).roster := by
  rw [mapSpeaker]
  split
  · rename_i existing hfind
    split
    · rename_i huser
      exact ⟨horderly, horderly.indexed.traced.find?.mpr ⟨existing, hfind, huser⟩⟩
    · exact orderly_reassign dsp (orderly_removeSpeaker dsp horderly ssrc)
        (not_contains_removeSpeaker dsp h ssrc) user
  · rename_i hfind
    refine orderly_reassign dsp horderly ?_ user
    rw [contains_iff]
    exact find?_eq_none_iff.mp hfind

/-- The index is right, so that the speaker it names is all that a user has. -/
theorem not_mem_removeUser (dsp : Dsp) (horderly : Orderly h) (user : String) (ssrc : UInt32) :
    (ssrc, some user) ∉ entries (h.removeUser dsp user).1.roster := by
  rw [entries_removeUser dsp horderly.indexed.traced]
  intro hmem
  obtain ⟨hmem, hunnamed⟩ := List.mem_filter.mp hmem
  exact of_decide_eq_true hunnamed (horderly.indexed.all user ssrc hmem)

theorem orderly_service (horderly : Orderly h) (hservice : Service dsp h h') : Orderly h' := by
  cases hservice with
  | told _ => exact ⟨horderly.indexed, horderly.apart⟩
  | mapped ssrc user => exact (orderly_mapSpeaker dsp horderly ssrc user).1
  | called hcall =>
      refine orderly_apply dsp horderly _ ?_
      rintro ssrc user rfl
      exact absurd trivial hcall

theorem orderly_served (horderly : Orderly h) (hserved : Served dsp h h') : Orderly h' := by
  induction hserved with
  | refl => exact horderly
  | tail _ hservice ih => exact orderly_service ih hservice

/-- What an answer says of the users of speakers: nothing, or that one is mapped and perhaps silent,
or that one has left. -/
inductive Naming : List Action → Prop where
  | nobody {todo : List Action} : (∀ ssrc user, .speakerMapped ssrc user ∉ todo) →
      (∀ user, .userLeft user ∉ todo) → Naming todo
  | mapped {silent : List Action} (ssrc : UInt32) (user : String) :
      (∀ action ∈ silent, action = .speakerSilent ssrc) →
        Naming (.speakerMapped ssrc user :: silent)
  | left (user : String) : Naming [.userLeft user]

theorem naming_nil : Naming [] :=
  .nobody (fun _ _ => List.not_mem_nil) fun _ => List.not_mem_nil

theorem naming_onSpeaking {handshake : Handshake} {speaking : Speaking} {todo : List Action}
    (htodo : handshake.onSpeaking speaking = .actions todo) : Naming todo := by
  unfold Handshake.onSpeaking at htodo
  split at htodo
  · cases htodo
    exact naming_nil
  · cases htodo
    cases huser : speaking.user with
    | none =>
        dsimp only
        split
        · exact .nobody (by simp) (by simp)
        · exact naming_nil
    | some user =>
        refine .mapped speaking.ssrc user ?_
        intro action hmem
        split at hmem
        · exact List.mem_singleton.mp hmem
        · cases hmem

theorem naming_onMessage {handshake : Handshake} {message : Message} {todo : List Action}
    (htodo : (handshake.onMessage message).2 = .actions todo) : Naming todo := by
  cases message with
  | speaking speaking =>
      rw [Handshake.onMessage] at htodo
      dsimp only at htodo
      split at htodo
      · exact naming_onSpeaking htodo
      · cases htodo
        exact naming_nil
  | clientDisconnect user =>
      rw [Handshake.onMessage] at htodo
      cases htodo
      split
      · exact .left user
      · exact naming_nil
  | hello interval =>
      rw [Handshake.onMessage, Handshake.onHello] at htodo
      repeat' split at htodo
      all_goals cases htodo
      · exact .nobody (by simp) (by simp)
      · exact naming_nil
  | ready ready =>
      rw [Handshake.onMessage, Handshake.onReady] at htodo
      repeat' split at htodo
      all_goals cases htodo
      · exact .nobody (by simp) (by simp)
      · exact naming_nil
  | sessionDescription description =>
      rw [Handshake.onMessage, Handshake.onSessionDescription] at htodo
      repeat' split at htodo
      all_goals cases htodo
      · exact .nobody (by simp) (by simp)
      · exact naming_nil
  | _ =>
      cases htodo
      exact naming_nil

theorem roster_speakerSilent (s : Session) (ssrc : UInt32) :
    (s.speakerSilent ssrc).hub.roster = s.hub.roster := by
  rw [Session.speakerSilent]
  split
  · rfl
  · dsimp only
    split <;> rfl

theorem performAll_silent (env : Surroundings) (meanwhile : List Arrival) (s : Session)
    {todo : List Action} (hsilent : ∀ action ∈ todo, action = .speakerSilent ssrc) :
    ∃ s', performAll env meanwhile s todo = (s', none) ∧ s'.hub.roster = s.hub.roster := by
  induction todo generalizing s with
  | nil => exact ⟨s, rfl, rfl⟩
  | cons action todo ih =>
      obtain rfl := hsilent action List.mem_cons_self
      obtain ⟨s', hperformed, hroster⟩ := ih (s.speakerSilent ssrc) fun action hmem =>
        hsilent action (List.mem_cons_of_mem _ hmem)
      exact ⟨s', hperformed, hroster.trans (roster_speakerSilent s ssrc)⟩

theorem roster_take (now : Nat) (s : Session) (delivery : Delivery) :
    (s.take now delivery).hub.roster = s.hub.roster := by
  cases delivery with
  | packet header payload => exact roster_handlePacket s.hub header payload now
  | fault fault => rfl

theorem roster_receive (now : Nat) (s : Session) :
    (s.receive now).hub.roster = s.hub.roster := by
  have htaken (deliveries : List Delivery) (s : Session) :
      (deliveries.foldl (take now) s).hub.roster = s.hub.roster := by
    induction deliveries generalizing s with
    | nil => rfl
    | cons delivery deliveries ih => exact (ih _).trans (roster_take now s delivery)
  rw [Session.receive]
  split
  · rfl
  · rename_i link _
    exact htaken link.receiveAll.2 { s with link := some link.receiveAll.1 }

/-- A message that a running session acts on to the end. -/
theorem roster_step_text (env : Surroundings) {s s' : Session} {content : String}
    (meanwhile : List Arrival) (now : Nat) {message : Message} {todo : List Action}
    (hrunning : s.standing = .running) (hread : Message.ofJson content = .ok message)
    (htodo : (s.handshake.onMessage message).2 = .actions todo)
    (hperformed : performAll env meanwhile
      { s with handshake := (s.handshake.onMessage message).1 } todo = (s', none)) :
    (s.step env (.text content meanwhile now)).hub.roster = s'.hub.roster := by
  have hstep : s.step env (.text content meanwhile now) =
      (s'.emitStateChange s.handshake.state).receive now := by
    rw [Session.step, hrunning]
    dsimp only
    rw [Session.respond, hread]
    dsimp only
    rw [Session.onMessage]
    dsimp only
    rw [htodo]
    dsimp only
    rw [hperformed]
  have hroster : (s'.emitStateChange s.handshake.state).hub.roster = s'.hub.roster := by
    rw [Session.emitStateChange]
    split <;> rfl
  rw [hstep, roster_receive, hroster]

section

variable {s : Session} {content : String} {message : Message} {todo : List Action}

theorem mem_entries_of_mapped (env : Surroundings) (horderly : Orderly s.hub)
    (meanwhile : List Arrival) (now : Nat)
    (hrunning : s.standing = .running) (hread : Message.ofJson content = .ok message)
    (htodo : (s.handshake.onMessage message).2 = .actions todo)
    (hmapped : .speakerMapped ssrc user ∈ todo) :
    (ssrc, some user) ∈ entries (s.step env (.text content meanwhile now)).hub.roster := by
  cases naming_onMessage htodo with
  | nobody hnone _ => exact absurd hmapped (hnone ssrc user)
  | left other => simp at hmapped
  | mapped source holder hsilent =>
      obtain ⟨rfl, rfl⟩ : ssrc = source ∧ user = holder := by
        rcases List.mem_cons.mp hmapped with hsame | hmem
        · exact Action.speakerMapped.inj hsame
        · cases hsilent _ hmem
      obtain ⟨s', hperformed, hroster⟩ := performAll_silent env meanwhile
        { s with
          handshake := (s.handshake.onMessage message).1
          hub := mapSpeaker env.dsp s.hub ssrc user } hsilent
      rw [roster_step_text env meanwhile now hrunning hread htodo hperformed, hroster]
      exact (orderly_mapSpeaker env.dsp horderly ssrc user).2

theorem not_mem_entries_of_left (env : Surroundings) (horderly : Orderly s.hub)
    (meanwhile : List Arrival) (now : Nat)
    (hrunning : s.standing = .running) (hread : Message.ofJson content = .ok message)
    (htodo : (s.handshake.onMessage message).2 = .actions todo)
    (hleft : .userLeft user ∈ todo) (ssrc : UInt32) :
    (ssrc, some user) ∉ entries (s.step env (.text content meanwhile now)).hub.roster := by
  cases naming_onMessage htodo with
  | nobody _ hnone => exact absurd hleft (hnone user)
  | mapped source holder hsilent =>
      rcases List.mem_cons.mp hleft with hmapped | hmem
      · cases hmapped
      · cases hsilent _ hmem
  | left other =>
      obtain rfl : user = other := Action.userLeft.inj (List.mem_singleton.mp hleft)
      rw [roster_step_text env meanwhile now hrunning hread htodo rfl]
      exact not_mem_removeUser env.dsp horderly user ssrc

end

theorem nodup_users {r : Roster} (h : Indexed r) : (r.speakers.filterMap Speaker.user).Nodup := by
  have hsources : r.speakers.Pairwise fun s s' => s.ssrc ≠ s'.ssrc := by
    have hnodup := h.traced.sources
    rw [entries, List.map_map] at hnodup
    exact List.pairwise_map.mp hnodup
  refine List.pairwise_filterMap.mpr (hsources.imp_of_mem ?_)
  rintro s s' hs hs' hssrc user huser _ huser' rfl
  have hnamed := h.all user s.ssrc (huser ▸ List.mem_map_of_mem hs)
  rw [h.all user s'.ssrc (huser' ▸ List.mem_map_of_mem hs')] at hnamed
  exact hssrc (Option.some.inj hnamed).symm

theorem orderly_run (env : Surroundings) {hub : Hub} (horderly : Orderly hub)
    (identity : Identity) (stimuli : List Stimulus) :
    Orderly ((Session.start hub identity).run env stimuli).hub :=
  orderly_served horderly
    ((served_emit env.dsp hub rfl).trans (served_run env (Session.start hub identity) stimuli))

/-- A session that begins without speakers has at most one for each user, namely the one whose
source the index names. Once the relay has mapped a source, it is its user's and only that, and has
not departed; once a user has left, no speaker is of that user. -/
theorem one_speaker_per_user (env : Surroundings) (settings : Settings) (calls : List Call)
    (hnobody : (after env.dsp settings calls).roster.speakers = []) (identity : Identity)
    (stimuli : List Stimulus) :
    let s := (Session.start (after env.dsp settings calls) identity).run env stimuli
    (s.hub.roster.speakers.filterMap Speaker.user).Nodup ∧
      (∀ user ssrc, s.hub.roster.ssrcOfUser user = some ssrc ↔
        ∃ speaker, s.hub.roster.find? ssrc = some speaker ∧ speaker.user = some user) ∧
      ∀ content meanwhile now message todo,
        s.standing = .running → Message.ofJson content = .ok message →
          (s.handshake.onMessage message).2 = .actions todo →
            let s' := s.step env (.text content meanwhile now)
            (∀ ssrc user, .speakerMapped ssrc user ∈ todo → Owns s'.hub user ssrc) ∧
              ∀ user, .userLeft user ∈ todo →
                ∀ speaker ∈ s'.hub.roster.speakers, speaker.user ≠ some user := by
  intro s
  have hstart : Orderly (after env.dsp settings calls) :=
    ⟨(traced_after env.dsp settings calls).indexed_of_nil (congrArg (List.map entryOf) hnobody),
      apart_after env.dsp settings calls⟩
  have horderly : Orderly s.hub := orderly_run env hstart identity stimuli
  have hindexed := horderly.indexed
  refine ⟨nodup_users hindexed, ?_, ?_⟩
  · intro user ssrc
    rw [← hindexed.traced.find?]
    exact ⟨hindexed.traced.named user ssrc, hindexed.all user ssrc⟩
  · intro content meanwhile now message todo hrunning hread htodo s'
    constructor
    · intro ssrc user hmapped
      have hstepped : Orderly s'.hub := orderly_served horderly (served_step env s _)
      exact owns_of_mem hstepped
        (mem_entries_of_mapped env horderly meanwhile now hrunning hread htodo hmapped)
    · intro user hleft speaker hspeaker huser
      have hgone := not_mem_entries_of_left env horderly meanwhile now hrunning hread htodo hleft
      exact hgone speaker.ssrc (huser ▸ List.mem_map_of_mem hspeaker)

/-- Alice and Bob have a source each; then Alice's goes to Bob. -/
theorem one_speaker_per_user_taken_over :
    let told (message : Message) (meanwhile : List Arrival) : Stimulus :=
      .text message.toJson meanwhile 0
    let reply : Octets := Octets.ofWord16 2 ++ Octets.ofWord16 70 ++ Octets.ofWord32 42 ++
      [49, 46, 49, 46, 49, 46, 49] ++ List.replicate 57 0 ++ Octets.ofWord16 5000
    let s := (Session.start (after .quiet {} []) ⟨"server", "user", "session", "token"⟩).run
      .bare [.opened, told (.hello 0) [],
        told (.ready ⟨42, "127.0.0.1", 5000, [supportedMode]⟩) [.datagram true reply],
        told (.speaking ⟨1, 0, 7, some "alice"⟩) [], told (.speaking ⟨1, 0, 8, some "bob"⟩) []]
    let message : Message := .speaking ⟨1, 0, 7, some "bob"⟩
    s.hub.roster.speakers.map entryOf = [(7, some "alice"), (8, some "bob")] ∧
      Owns (s.step .bare (told message [])).hub "bob" 7 := by
  intro told reply s message
  have hrun : s.standing = .running ∧ s.handshake.state = .awaitingSessionDescription ∧
      s.handshake.ssrc = some 42 ∧
        s.hub.roster.speakers.map entryOf = [(7, some "alice"), (8, some "bob")] := by
    decide +kernel
  obtain ⟨hrunning, hstate, hssrc, hspeakers⟩ := hrun
  refine ⟨hspeakers, ?_⟩
  have htodo : (s.handshake.onMessage message).2 = .actions [.speakerMapped 7 "bob"] := by
    simp [message, Handshake.onMessage, Handshake.hasSource, hstate, Handshake.onSpeaking, hssrc]
  obtain ⟨-, -, hmessage⟩ := one_speaker_per_user .bare {} [] rfl
    ⟨"server", "user", "session", "token"⟩ _
  exact (hmessage message.toJson [] 0 message _ hrunning
    (ofJson_toJson (.speaking _)) htodo).1 7 "bob" List.mem_cons_self

end VoiceCall.Proofs.Session.Users
