import VoiceCall.Proofs.Hub.Reports
import VoiceCall.Proofs.Session.Upkeep

/-!
Sources that a hub has no speaker of and has told nothing of. Main statements: a session gives such
a source a speaker only if it maps the source or, unless the source is our own, admits it; and our
own source stays without one, and its packets are dropped, at whatever point of the session's work
they come in.
-/

namespace VoiceCall.Proofs.Session.Strangers

open VoiceCall.Session
open VoiceCall.Proofs.Hub.Errands
open VoiceCall.Proofs.Hub.History
open VoiceCall.Proofs.Hub.Bookkeeping
open VoiceCall.Proofs.Hub.Reports
open VoiceCall.Proofs.Session.Upkeep
open VoiceCall.Proofs.Speaker.Keys

/-- The source of the speaker that an event is about. -/
def speakerOf : Event → Option UInt32
  | .speakerJoined ssrc _ => some ssrc
  | .speakerLeft ssrc _ => some ssrc
  | .speakerActivity ssrc _ _ => some ssrc
  | _ => none

/-- The source is not registered, and nothing was told of it since some events were told. -/
structure Stranger (base : List Event) (ssrc : UInt32) (l : Ledger) : Prop where
  absent : ¬ l.Holds ssrc
  told : ∃ told, l.events = base ++ told ∧ ∀ event ∈ told, speakerOf event ≠ some ssrc

variable {base : List Event} {ssrc other own : UInt32} {l l' : Ledger} {dsp : Dsp} {h h' : Hub}

theorem Stranger.tell (hstranger : Stranger base ssrc l) (event : Event)
    (hevent : speakerOf event ≠ some ssrc) :
    Stranger base ssrc { l with events := l.events ++ [event] } := by
  obtain ⟨told, hevents, hnone⟩ := hstranger.told
  refine ⟨hstranger.absent, told ++ [event], ?_, ?_⟩
  · rw [hevents, List.append_assoc]
  · intro past hmem
    rcases List.mem_append.mp hmem with hpast | hlast
    · exact hnone past hpast
    · exact List.mem_singleton.mp hlast ▸ hevent

theorem stranger_emit (hstranger : Stranger base ssrc (ledger h)) {event : Event}
    (hevent : speakerOf event ≠ some ssrc) : Stranger base ssrc (ledger (h.emit event)) :=
  hstranger.tell event hevent

/-- A source that is not welcome stays a stranger. -/
theorem stranger_entry {welcome : UInt32 → Prop} (hstranger : Stranger base ssrc l)
    (hentry : Entry welcome l l') (hwelcome : ¬ welcome ssrc) : Stranger base ssrc l' := by
  have hother {other : UInt32} {user : Option String} (hmem : (other, user) ∈ l.registered) :
      some other ≠ some ssrc := by
    rintro ⟨rfl⟩
    exact hstranger.absent ⟨user, hmem⟩
  cases hentry with
  | kept => exact hstranger
  | lifted _ _ => exact ⟨hstranger.absent, hstranger.told⟩
  | @joined other user hother _ =>
      have hne : other ≠ ssrc := fun hsame => hwelcome (hsame ▸ hother)
      have htold := hstranger.tell (.speakerJoined other user) fun hsame =>
        hne (Option.some.inj hsame)
      refine ⟨?_, htold.told⟩
      rintro ⟨holder, hmem⟩
      rcases List.mem_append.mp hmem with hmem | hmem
      · exact hstranger.absent ⟨holder, hmem⟩
      · exact hne (congrArg Prod.fst (List.mem_singleton.mp hmem)).symm
  | @left other user departed hholds _ =>
      have htold := hstranger.tell (.speakerLeft other user) (hother hholds)
      refine ⟨?_, htold.told⟩
      rintro ⟨holder, hmem⟩
      exact hstranger.absent ⟨holder, (List.mem_filter.mp hmem).1⟩

theorem stranger_chores (hstranger : Stranger base ssrc (ledger h)) (hchores : Chores dsp h h') :
    Stranger base ssrc (ledger h') := by
  induction hchores with
  | refl => exact hstranger
  | @tail g _ _ hchore ih =>
      cases hchore with
      | @told event htellable =>
          refine stranger_emit ih ?_
          cases event with
          | speakerActivity other user speaking =>
              rintro ⟨rfl⟩
              exact ih.absent (contains_iff.mp htellable)
          | speakerJoined other user => exact htellable.elim
          | speakerLeft other user => exact htellable.elim
          | _ => exact (Option.some_ne_none ssrc).symm
      | @called call hcall =>
          refine stranger_entry ih (entry_apply dsp g ?_) ?_
          · rintro rfl
            exact hcall
          · cases call with
            | addSpeaker other user => exact hcall.elim
            | admitUnknown other => exact hcall.elim
            | _ => exact id

theorem stranger_addSpeaker (dsp : Dsp) (hstranger : Stranger base ssrc (ledger h))
    (hother : other ≠ ssrc) (user : Option String) :
    Stranger base ssrc (ledger (h.addSpeaker dsp other user).1) :=
  stranger_entry hstranger (entry_addSpeaker dsp h other user) (Ne.symm hother)

theorem stranger_removeSpeaker (dsp : Dsp) (hstranger : Stranger base ssrc (ledger h))
    (other : UInt32) : Stranger base ssrc (ledger (h.removeSpeaker dsp other).1) :=
  stranger_entry hstranger (entry_removeSpeaker dsp h other) id

theorem stranger_reassign (dsp : Dsp) (hstranger : Stranger base ssrc (ledger h))
    (hother : other ≠ ssrc) (user : String) :
    Stranger base ssrc (ledger ((match h.roster.ssrcOfUser user with
      | some previous => (h.removeSpeaker dsp previous).1
      | none => h).addSpeaker dsp other (some user)).1) := by
  refine stranger_addSpeaker dsp ?_ hother (some user)
  split
  · exact stranger_removeSpeaker dsp hstranger _
  · exact hstranger

theorem stranger_mapSpeaker (dsp : Dsp) (hstranger : Stranger base ssrc (ledger h))
    (hother : other ≠ ssrc) (user : String) :
    Stranger base ssrc (ledger (mapSpeaker dsp h other user)) := by
  rw [mapSpeaker]
  split
  · split
    · exact hstranger
    · exact stranger_reassign dsp (stranger_removeSpeaker dsp hstranger other) hother user
  · exact stranger_reassign dsp hstranger hother user

theorem stranger_admitUnknown (dsp : Dsp) (hstranger : Stranger base h.localSsrc (ledger h))
    (other : UInt32) : Stranger base h.localSsrc (ledger (h.admitUnknown dsp other).1) := by
  by_cases hown : other = h.localSsrc
  · rw [Hub.admitUnknown, if_pos (by simp [hown])]
    exact hstranger
  · exact stranger_entry hstranger (entry_admitUnknown dsp h other) fun hsame => hown hsame.1.symm

theorem stranger_shutdown (dsp : Dsp) (hstranger : Stranger base ssrc (ledger h)) :
    Stranger base ssrc (ledger (h.shutdown dsp)) := by
  obtain ⟨l, hentries, hledger⟩ := entries_shutdown dsp h
  have hleft : Stranger base ssrc l := by
    clear hledger
    induction hentries with
    | refl => exact hstranger
    | tail _ hentry ih => exact stranger_entry ih hentry id
  rw [hledger]
  exact ⟨hleft.absent, hleft.told⟩

theorem localSsrc_addSpeaker (dsp : Dsp) (h : Hub) (ssrc : UInt32) (user : Option String) :
    (h.addSpeaker dsp ssrc user).1.localSsrc = h.localSsrc := by
  by_cases hholds : h.roster.contains ssrc
  · rw [addSpeaker_of_contains dsp user hholds]
  · obtain ⟨roster, serial, -, hadded⟩ := addSpeaker_of_not_contains dsp user hholds
    rw [hadded]
    rfl

theorem localSsrc_removeSpeaker (dsp : Dsp) (h : Hub) (ssrc : UInt32) :
    (h.removeSpeaker dsp ssrc).1.localSsrc = h.localSsrc := by
  rw [Hub.removeSpeaker]
  split <;> rfl

theorem localSsrc_reassign (dsp : Dsp) (h : Hub) (ssrc : UInt32) (user : String) :
    ((match h.roster.ssrcOfUser user with
      | some previous => (h.removeSpeaker dsp previous).1
      | none => h).addSpeaker dsp ssrc (some user)).1.localSsrc = h.localSsrc := by
  rw [localSsrc_addSpeaker]
  split
  · exact localSsrc_removeSpeaker dsp h _
  · rfl

theorem localSsrc_mapSpeaker (dsp : Dsp) (h : Hub) (ssrc : UInt32) (user : String) :
    (mapSpeaker dsp h ssrc user).localSsrc = h.localSsrc := by
  rw [mapSpeaker]
  split
  · split
    · rfl
    · exact (localSsrc_reassign dsp _ ssrc user).trans (localSsrc_removeSpeaker dsp h ssrc)
  · exact localSsrc_reassign dsp h ssrc user

theorem localSsrc_admitUnknown (dsp : Dsp) (h : Hub) (ssrc : UInt32) :
    (h.admitUnknown dsp ssrc).1.localSsrc = h.localSsrc := by
  rw [Hub.admitUnknown]
  split
  · rfl
  · exact localSsrc_addSpeaker dsp h ssrc none

theorem localSsrc_handlePacket (h : Hub) (header : Packet.Header) (payload : Octets) (now : Nat) :
    (h.handlePacket header payload now).1.localSsrc = h.localSsrc := by
  rw [Hub.handlePacket]
  split
  · rfl
  · rfl
  · rw [Hub.deliver]
    split <;> rfl

theorem localSsrc_decode (dsp : Dsp) (place : Nat) (h : Hub) :
    (h.decode dsp place).localSsrc = h.localSsrc := by
  rw [Hub.decode]
  split <;> rfl

theorem localSsrc_control (dsp : Dsp) (h : Hub) (change : Control) :
    (h.control dsp change).localSsrc = h.localSsrc := by
  cases change with
  | removeSpeaker ssrc => exact localSsrc_removeSpeaker dsp h ssrc
  | _ => rfl

theorem localSsrc_removeUser (dsp : Dsp) (h : Hub) (user : String) :
    (h.removeUser dsp user).1.localSsrc = h.localSsrc := by
  rw [Hub.removeUser]
  split <;> rfl

theorem localSsrc_chores (hchores : Chores dsp h h') : h'.localSsrc = h.localSsrc := by
  induction hchores with
  | refl => rfl
  | @tail g _ _ hchore ih =>
      refine Eq.trans ?_ ih
      cases hchore with
      | told _ => rfl
      | @called call hcall =>
          cases call with
          | removeSpeaker ssrc => exact localSsrc_removeSpeaker dsp g ssrc
          | removeUser user => exact localSsrc_removeUser dsp g user
          | packet header payload now => exact localSsrc_handlePacket g header payload now
          | decode place => exact localSsrc_decode dsp place g
          | control change => exact localSsrc_control dsp g change
          | addSpeaker ssrc user => exact hcall.elim
          | admitUnknown ssrc => exact hcall.elim
          | setLocalSsrc ssrc => exact hcall.elim
          | shutdown => exact hcall.elim
          | _ => rfl

theorem destination_own {header : Packet.Header} (hown : header.ssrc = h.localSsrc) :
    h.destination header = .nowhere := by
  rw [Hub.destination, if_pos hown, ite_self]

theorem handlePacket_own {header : Packet.Header} (hown : header.ssrc = h.localSsrc)
    (payload : Octets) (now : Nat) : h.handlePacket header payload now = (h, .dropped) := by
  rw [Hub.handlePacket, destination_own hown]

/-- An errand that is to give the source a speaker. -/
def Concerns : Errand → UInt32 → Prop
  | .welcome other _, ssrc => ssrc = other
  | .check other _, ssrc => ssrc = other
  | .insert other _, ssrc => ssrc = other
  | .map other _, ssrc => ssrc = other
  | .reassign other _, ssrc => ssrc = other
  | _, _ => False

theorem contains_of_without {r : Roster} {users : List (String × UInt32)}
    (hholds : ({ r.without other with users := users } : Roster).contains ssrc) :
    r.contains ssrc := by
  obtain ⟨s, hmem, rfl⟩ := contains_iff_exists.mp hholds
  exact contains_of_mem (mem_without.mp hmem).1

theorem contains_of_remove {r : Roster} (other : UInt32)
    (hholds : (r.remove other).1.contains ssrc) : r.contains ssrc := by
  rw [Roster.remove] at hholds
  split at hholds
  · exact hholds
  · exact contains_of_without hholds

theorem contains_of_removeUser {r : Roster} (user : String)
    (hholds : (r.removeUser user).1.contains ssrc) : r.contains ssrc := by
  rw [Roster.removeUser] at hholds
  split at hholds
  · exact hholds
  · exact contains_of_without hholds

theorem contains_resizePool (dsp : Dsp) (event : Event)
    (hholds : ((h.resizePool dsp).emit event).roster.contains ssrc) : h.roster.contains ssrc := by
  rw [contains_iff, ledger_emit, ledger_resizePool] at hholds
  exact contains_iff.mpr hholds

/-- An errand registers no source but one that it concerns. -/
theorem contains_perform (dsp : Dsp) {errand : Errand}
    (hholds : (errand.perform dsp h).1.roster.contains ssrc) :
    h.roster.contains ssrc ∨ Concerns errand ssrc := by
  cases errand with
  | insert other user =>
      rw [Errand.perform] at hholds
      generalize hs : Speaker.create other user h.nextSerial h.settings.jitterDesired
        h.settings.jitterMax = s at hholds
      obtain rfl : s.ssrc = other := hs ▸ rfl
      split at hholds
      · rename_i roster hinsert
        have hsource := contains_insert.mp (show (h.roster.insert s).1.contains ssrc by
          rw [hinsert]
          exact hholds)
        exact hsource.imp_right Eq.symm
      · exact .inl hholds
  | joined other user => exact .inl (contains_resizePool dsp _ hholds)
  | left s => exact .inl (contains_resizePool dsp _ hholds)
  | remove other =>
      rw [Errand.perform] at hholds
      cases hremove : h.roster.remove other with
      | mk roster removed =>
          refine .inl (contains_of_remove other ?_)
          rw [hremove] at hholds ⊢
          cases removed <;> exact hholds
  | removeUser user =>
      rw [Errand.perform] at hholds
      cases hremove : h.roster.removeUser user with
      | mk roster removed =>
          refine .inl (contains_of_removeUser user ?_)
          rw [hremove] at hholds ⊢
          cases removed <;> exact hholds
  | map other user =>
      rw [Errand.perform] at hholds
      split at hholds <;> exact .inl hholds
  | reassign other user =>
      rw [Errand.perform] at hholds
      split at hholds <;> exact .inl hholds
  | _ => exact .inl hholds

/-- What an errand leads to concerns what it concerned, or a source that is not ours. -/
theorem concerns_perform (dsp : Dsp) {errand next : Errand}
    (hnext : next ∈ (errand.perform dsp h).2) (hconcerns : Concerns next ssrc) :
    Concerns errand ssrc ∨ ssrc ≠ h.localSsrc := by
  cases errand with
  | consider other =>
      rw [Errand.perform] at hnext
      dsimp only at hnext
      split at hnext
      · cases hnext
      · rename_i hguard
        obtain rfl := List.mem_singleton.mp hnext
        obtain rfl : ssrc = other := hconcerns
        exact .inr fun hown => hguard (by simp [hown])
  | welcome other user =>
      obtain rfl := List.mem_singleton.mp hnext
      exact .inl hconcerns
  | check other user =>
      rw [Errand.perform] at hnext
      dsimp only at hnext
      split at hnext
      · cases hnext
      · obtain rfl := List.mem_singleton.mp hnext
        exact .inl hconcerns
  | insert other user =>
      rw [Errand.perform] at hnext
      split at hnext
      · obtain rfl := List.mem_singleton.mp hnext
        exact hconcerns.elim
      · cases hnext
  | joined other user => cases hnext
  | remove other =>
      rw [Errand.perform] at hnext
      split at hnext
      · obtain rfl := List.mem_singleton.mp hnext
        exact hconcerns.elim
      · cases hnext
  | removeUser user =>
      rw [Errand.perform] at hnext
      split at hnext
      · obtain rfl := List.mem_singleton.mp hnext
        exact hconcerns.elim
      · cases hnext
  | depart s =>
      obtain rfl := List.mem_singleton.mp hnext
      exact hconcerns.elim
  | left s => cases hnext
  | map other user =>
      left
      rw [Errand.perform] at hnext
      split at hnext
      · dsimp only at hnext
        split at hnext
        · cases hnext
        · rcases List.mem_cons.mp hnext with rfl | hnext
          · exact hconcerns.elim
          · obtain rfl := List.mem_singleton.mp hnext
            exact hconcerns
      · obtain rfl := List.mem_singleton.mp hnext
        exact hconcerns
  | reassign other user =>
      left
      rw [Errand.perform] at hnext
      split at hnext
      · rcases List.mem_cons.mp hnext with rfl | hnext
        · exact hconcerns.elim
        · obtain rfl := List.mem_singleton.mp hnext
          exact hconcerns
      · obtain rfl := List.mem_singleton.mp hnext
        exact hconcerns

theorem localSsrc_perform (dsp : Dsp) (h : Hub) (errand : Errand) :
    (errand.perform dsp h).1.localSsrc = h.localSsrc := by
  cases errand with
  | insert other user =>
      rw [Errand.perform]
      split <;> rfl
  | remove other =>
      rw [Errand.perform]
      split <;> rfl
  | removeUser user =>
      rw [Errand.perform]
      split <;> rfl
  | map other user =>
      rw [Errand.perform]
      split <;> rfl
  | reassign other user =>
      rw [Errand.perform]
      split <;> rfl
  | _ => rfl

/-- Our own source has no speaker and is not about to get one, and no packet of it is on its way to
one. -/
structure Spared (own : UInt32) (s : System) : Prop where
  localSsrc : s.hub.localSsrc = own
  absent : ¬ s.hub.roster.contains own
  errands : ∀ errand ∈ s.errands, ¬ Concerns errand own
  flight : ∀ header payload now destination,
    s.flight = .found header payload now destination → header.ssrc = own → destination = .nowhere
  queued : own ∉ s.queued

variable {s : System}

theorem Spared.undisturbed (hspared : Spared own s) {hub : Hub}
    (hkept : Undisturbed s.hub hub) : Spared own { s with hub := hub } where
  localSsrc := hkept.localSsrc.trans hspared.localSsrc
  absent := by
    rw [hkept.contains]
    exact hspared.absent
  errands := hspared.errands
  flight := hspared.flight
  queued := hspared.queued

theorem spared_begin (hspared : Spared own s) {operation : Operation}
    (hoperation : ∀ user, operation ≠ .map own user) : Spared own (s.begin operation) := by
  have hbegun {channel : List Notice} {errand : Errand} (herrand : ¬ Concerns errand own) :
      Spared own { s with channel := channel, errands := [errand] } := by
    refine ⟨hspared.localSsrc, hspared.absent, ?_, hspared.flight, hspared.queued⟩
    intro other hmem
    exact List.mem_singleton.mp hmem ▸ herrand
  cases operation with
  | notice =>
      rw [System.begin]
      split
      · exact hspared
      · exact hbegun id
      · exact ⟨hspared.localSsrc, hspared.absent, hspared.errands, hspared.flight, hspared.queued⟩
  | map other user => exact hbegun fun (hsame : own = other) => hoperation user (hsame ▸ rfl)
  | userLeft user => exact hbegun id
  | remove other => exact hbegun id

theorem spared_proceed (dsp : Dsp) {errand : Errand} {errands : List Errand}
    (hspared : Spared own s) (herrands : s.errands = errand :: errands) :
    Spared own { s with
      hub := (errand.perform dsp s.hub).1
      errands := (errand.perform dsp s.hub).2 ++ errands } where
  localSsrc := (localSsrc_perform dsp s.hub errand).trans hspared.localSsrc
  absent hholds := by
    rcases contains_perform dsp hholds with hheld | hconcerns
    · exact hspared.absent hheld
    · exact hspared.errands errand (herrands ▸ List.mem_cons_self) hconcerns
  errands next hmem hconcerns := by
    rcases List.mem_append.mp hmem with hnew | hold
    · rcases concerns_perform dsp hnew hconcerns with hconcerned | hother
      · exact hspared.errands errand (herrands ▸ List.mem_cons_self) hconcerned
      · exact hother hspared.localSsrc.symm
    · exact hspared.errands next (herrands ▸ List.mem_cons_of_mem errand hold) hconcerns
  flight := hspared.flight
  queued := hspared.queued

theorem spared_route {header : Packet.Header} {payload : Octets} {now : Nat}
    {destination : Destination} (hspared : Spared own s)
    (hflight : s.flight = .found header payload now destination) (muted : Bool) :
    let forwarded := forward s.hub header payload now muted destination
    Spared own { s with
      hub := forwarded.1
      flight := .routed header.ssrc forwarded.2
      queued := if forwarded.2 = .queued then header.ssrc :: s.queued else s.queued } := by
  intro forwarded
  have hkept := hspared.undisturbed (undisturbed_forward s.hub header payload now muted destination)
  refine ⟨hkept.localSsrc, hkept.absent, hkept.errands, by simp, ?_⟩
  split
  · rename_i hqueued
    rw [List.mem_cons, not_or]
    refine ⟨?_, hspared.queued⟩
    rintro rfl
    obtain rfl := hspared.flight header payload now destination hflight rfl
    cases hqueued
  · exact hspared.queued

theorem spared_step (dsp : Dsp) (hspared : Spared own s) {move : Move}
    (hmove : ∀ user, move ≠ .begin (.map own user)) : Spared own (s.step dsp move) := by
  cases move with
  | arrive header payload now =>
      rw [System.step]
      split
      · exact ⟨hspared.localSsrc, hspared.absent, hspared.errands, by simp, hspared.queued⟩
      · exact hspared
  | look =>
      rw [System.step]
      split
      · refine ⟨hspared.localSsrc, hspared.absent, hspared.errands, ?_, hspared.queued⟩
        rintro header payload now destination ⟨⟩ hown
        exact destination_own (hown.trans hspared.localSsrc.symm)
      · exact hspared
  | route muted =>
      rw [System.step]
      split
      · rename_i hflight
        exact spared_route hspared hflight muted
      · exact hspared
  | report =>
      rw [System.step]
      split
      · exact ⟨hspared.localSsrc, hspared.absent, hspared.errands, by simp, hspared.queued⟩
      · exact hspared
  | begin operation =>
      rw [System.step]
      split
      · exact spared_begin hspared fun user hsame => hmove user (hsame ▸ rfl)
      · exact hspared
  | proceed =>
      rw [System.step]
      split
      · exact hspared
      · rename_i herrands
        exact spared_proceed dsp hspared herrands
  | beside change hkept => exact hspared.undisturbed (hkept s.hub)

/-- Packets may come in at any point of a session's work: as long as the session maps our own source
to nobody, the source has no speaker, and no packet of it is queued. -/
theorem spared_run (dsp : Dsp) {moves : List Move} (hspared : Spared own s)
    (hmoves : ∀ user, .begin (.map own user) ∉ moves) : Spared own (s.run dsp moves) := by
  induction moves generalizing s with
  | nil => exact hspared
  | cons move moves ih =>
      refine ih (spared_step dsp hspared ?_) fun user hmem =>
        hmoves user (List.mem_cons_of_mem move hmem)
      rintro user rfl
      exact hmoves user List.mem_cons_self

theorem spared_start (hown : h.localSsrc = own) (habsent : ¬ h.roster.contains own)
    (channel : List Notice) : Spared own (start h channel) := by
  refine ⟨hown, habsent, List.forall_mem_nil _, ?_, List.not_mem_nil⟩
  intro header payload now destination hidle
  cases hidle

end VoiceCall.Proofs.Session.Strangers
