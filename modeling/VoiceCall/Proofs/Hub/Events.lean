import VoiceCall.Proofs.Hub.History

namespace VoiceCall.Proofs.Hub.Events

open VoiceCall.Proofs.Decoding.Workers
open VoiceCall.Proofs.Hub.Bookkeeping
open VoiceCall.Proofs.Hub.History
open VoiceCall.Proofs.Speaker.Keys

/-- Who is there after an event, if it can happen: nobody joins who is there, and nobody leaves who
is not there or is there as somebody else. -/
def follow (present : List (UInt32 × Option String)) :
    Event → Option (List (UInt32 × Option String))
  | .speakerJoined ssrc user =>
    if present.any (·.1 = ssrc) then none else some (present ++ [(ssrc, user)])
  | .speakerLeft ssrc user =>
    if (ssrc, user) ∈ present then some (present.filter (·.1 ≠ ssrc)) else none
  | _ => some present

/-- Who is there after some events, if nobody was before and all of them can happen. -/
def replay (events : List Event) : Option (List (UInt32 × Option String)) :=
  events.foldlM follow []

theorem replay_concat {events : List Event} {present : List (UInt32 × Option String)}
    (h : replay events = some present) (event : Event) :
    replay (events ++ [event]) = follow present event := by
  rw [replay, List.foldlM_append]
  change (replay events).bind _ = _
  rw [h]
  simp

/-- The events tell who is registered. -/
def Mirrors (l : Ledger) : Prop :=
  replay l.events = some l.registered

theorem mirrors_entry {welcome : UInt32 → Prop} {l l' : Ledger} (h : Mirrors l)
    (hentry : Entry welcome l l') : Mirrors l' := by
  cases hentry with
  | kept => exact h
  | lifted _ _ => exact h
  | @joined ssrc user _ hnew =>
      have habsent : l.registered.any (·.1 = ssrc) = false := by
        rw [Bool.eq_false_iff, Ne, List.any_eq_true]
        rintro ⟨⟨other, user⟩, hmem, hssrc⟩
        exact hnew ⟨user, of_decide_eq_true hssrc ▸ hmem⟩
      rw [Mirrors, replay_concat h, follow, habsent]
      rfl
  | left hholds _ => rw [Mirrors, replay_concat h, follow, if_pos hholds]

theorem mirrors_entries {l l' : Ledger} (h : Mirrors l) (hentries : Entries l l') : Mirrors l' := by
  induction hentries with
  | refl => exact h
  | tail _ hentry ih => exact mirrors_entry ih hentry

theorem mirrors_apply (dsp : Dsp) {h : Hub} (hmirrors : Mirrors (ledger h)) (call : Call) :
    Mirrors (ledger (call.apply dsp h)) := by
  by_cases hcall : call = .shutdown
  · subst hcall
    obtain ⟨l, hentries, hledger⟩ := entries_shutdown dsp h
    rw [Call.apply, hledger]
    exact (mirrors_entries hmirrors hentries : Mirrors l)
  · exact mirrors_entry hmirrors (entry_apply dsp h hcall)

theorem mirrors_after (dsp : Dsp) (settings : Settings) (calls : List Call) :
    Mirrors (ledger (after dsp settings calls)) := by
  induction calls with
  | nil => rfl
  | cons call earlier ih => exact mirrors_apply dsp ih call

/-- The pool of a hub has these limits. Its owner has nothing left to do, and there is a worker for
each speaker, up to the most there may be. -/
structure Staffed (bounds : Nat × Nat) (h : Hub) : Prop where
  rests : Rests (min h.roster.size bounds.1) h.pool
  limits : limits h.pool = bounds

variable {bounds : Nat × Nat} {h : Hub}

theorem size_eq (h : Hub) : h.roster.size = (ledger h).registered.length :=
  (size_eq_length h.roster).trans (List.length_map entryOf).symm

theorem Staffed.of_pool_eq {h' : Hub} (hstaffed : Staffed bounds h) (hpool : h'.pool = h.pool)
    (hledger : (ledger h').registered.length = (ledger h).registered.length) :
    Staffed bounds h' := by
  refine ⟨?_, hpool ▸ hstaffed.limits⟩
  rw [size_eq, hledger, ← size_eq, hpool]
  exact hstaffed.rests

theorem Staffed.emit (hstaffed : Staffed bounds h) (event : Event) :
    Staffed bounds (h.emit event) :=
  hstaffed.of_pool_eq rfl rfl

theorem one_le_maxDecodeWorkers (settings : Settings) :
    1 ≤ settings.sanitized.maxDecodeWorkers.toNat := by
  change 1 ≤ (if settings.maxDecodeWorkers ≤ 1 then 1 else settings.maxDecodeWorkers).toNat
  split
  · exact Nat.le_refl 1
  · rename_i hmany
    exact Nat.le_of_lt (UInt64.lt_iff_toNat_lt.mp (UInt64.not_le.mp hmany))

theorem maxWorkers_create (settings : Settings) :
    (limits (Hub.create settings).pool).1 = settings.sanitized.maxDecodeWorkers.toNat :=
  Nat.max_eq_left (one_le_maxDecodeWorkers settings)

theorem staffed_create (settings : Settings) :
    Staffed (limits (Hub.create settings).pool) (.create settings) where
  rests := (Nat.zero_min _).symm ▸ rests_create _ _
  limits := rfl

theorem pool_decode (dsp : Dsp) (place : Nat) (h : Hub) :
    (h.decode dsp place).pool = h.pool ∨
      ∃ done,
        (h.pool.stepAt? place).bind h.pool.step? = some ((h.decode dsp place).pool, done) := by
  rw [Hub.decode]
  split
  · exact .inl rfl
  · rename_i hstep
    exact .inr ⟨_, hstep⟩
  · rename_i hstep
    exact .inr ⟨_, hstep⟩

theorem staffed_decode (dsp : Dsp) (hstaffed : Staffed bounds h) (place : Nat) :
    Staffed bounds (h.decode dsp place) := by
  have hsize : (h.decode dsp place).roster.size = h.roster.size := by
    rw [size_eq, ledger_decode, ← size_eq]
  rcases pool_decode dsp place h with hsame | ⟨done, hmoved⟩
  · exact hstaffed.of_pool_eq hsame (congrArg (·.registered.length) (ledger_decode dsp place h))
  · obtain ⟨step, -, hstep⟩ := Option.bind_eq_some_iff.mp hmoved
    exact ⟨hsize ▸ rests_stepAt hstaffed.rests hmoved, (limits_step hstep).trans hstaffed.limits⟩

theorem staffed_obey (dsp : Dsp) (hsound : Sound (min h.roster.size bounds.1) h.pool)
    (hlimits : limits h.pool = bounds) : Staffed bounds (h.obey dsp) := by
  constructor
  · rw [size_eq, ledger_obey, ← size_eq]
    exact rests_obey _ hsound _
  · exact (limits_runFor _ _ _).trans hlimits

theorem staffed_resizePool (dsp : Dsp) (hstaffed : Staffed bounds h) {h' : Hub}
    (hpool : h'.pool = h.pool) : Staffed bounds (h'.resizePool dsp) := by
  have hrests := hpool ▸ hstaffed.rests
  have hlimits : limits h'.pool = bounds := hpool ▸ hstaffed.limits
  refine staffed_obey dsp ?_ ((limits_resize _ _).trans hlimits)
  exact hlimits ▸ sound_resize hrests h'.roster.size

theorem staffed_speakerRemoved (dsp : Dsp) (hstaffed : Staffed bounds h) {h' : Hub}
    (hpool : h'.pool = h.pool) (s : Speaker) : Staffed bounds (h'.speakerRemoved dsp s) := by
  refine (staffed_resizePool dsp hstaffed ?_).emit (.speakerLeft s.ssrc s.user)
  exact hpool

theorem staffed_addSpeaker (dsp : Dsp) (hstaffed : Staffed bounds h) (ssrc : UInt32)
    (user : Option String) : Staffed bounds (h.addSpeaker dsp ssrc user).1 := by
  by_cases hholds : h.roster.contains ssrc
  · rw [addSpeaker_of_contains dsp user hholds]
    exact hstaffed.of_pool_eq rfl rfl
  · obtain ⟨roster, serial, -, hadded⟩ := addSpeaker_of_not_contains dsp user hholds
    rw [hadded]
    refine (staffed_resizePool dsp hstaffed ?_).emit (.speakerJoined ssrc user)
    rfl

theorem staffed_removeSpeaker (dsp : Dsp) (hstaffed : Staffed bounds h) (ssrc : UInt32) :
    Staffed bounds (h.removeSpeaker dsp ssrc).1 := by
  rw [Hub.removeSpeaker, Roster.remove]
  cases h.roster.find? ssrc with
  | none => exact hstaffed
  | some s =>
      refine staffed_speakerRemoved dsp hstaffed ?_ s
      rfl

theorem staffed_removeUser (dsp : Dsp) (hstaffed : Staffed bounds h) (user : String) :
    Staffed bounds (h.removeUser dsp user).1 := by
  rw [Hub.removeUser, Roster.removeUser]
  cases h.roster.users.lookup user with
  | none => exact hstaffed
  | some ssrc =>
      dsimp only
      cases hfind : h.roster.find? ssrc with
      | none =>
          refine hstaffed.of_pool_eq rfl ?_
          exact congrArg List.length (map_without_of_find? hfind)
      | some s =>
          refine staffed_speakerRemoved dsp hstaffed ?_ s
          rfl

theorem staffed_control (dsp : Dsp) (hstaffed : Staffed bounds h) (change : Control) :
    Staffed bounds (h.control dsp change) := by
  cases change with
  | muteSpeaker ssrc muted =>
      refine hstaffed.of_pool_eq rfl ?_
      exact congrArg (·.registered.length) (ledger_setSpeakerMuted h ssrc muted)
  | setSpeakerGain ssrc gain =>
      refine hstaffed.of_pool_eq rfl ?_
      exact congrArg (·.registered.length) (ledger_setSpeakerGain h ssrc gain)
  | removeSpeaker ssrc => exact staffed_removeSpeaker dsp hstaffed ssrc
  | _ => exact hstaffed.of_pool_eq rfl rfl

theorem staffed_handlePacket (hstaffed : Staffed bounds h) (header : Packet.Header)
    (payload : Octets) (now : Nat) : Staffed bounds (h.handlePacket header payload now).1 := by
  rw [Hub.handlePacket]
  split
  · exact hstaffed
  · exact hstaffed
  · rw [Hub.deliver]
    split
    · exact hstaffed
    · exact ⟨rests_submit hstaffed.rests _, (limits_submit _ _).trans hstaffed.limits⟩

theorem staffed_removeAll (dsp : Dsp) (hstaffed : Staffed bounds h) (speakers : List Speaker) :
    Staffed bounds (speakers.foldl (fun h s => (h.removeSpeaker dsp s.ssrc).1) h) := by
  induction speakers generalizing h with
  | nil => exact hstaffed
  | cons s speakers ih => exact ih (staffed_removeSpeaker dsp hstaffed s.ssrc)

theorem staffed_shutdown (dsp : Dsp) (hstaffed : Staffed bounds h) :
    Staffed bounds (h.shutdown dsp) := by
  let removed := h.roster.speakers.foldl (fun h s => (h.removeSpeaker dsp s.ssrc).1) h
  have hremoved : Staffed bounds removed := staffed_removeAll dsp hstaffed h.roster.speakers
  have hnone : removed.roster.size = 0 := by
    rw [size_eq, registered_removeAll]
    rfl
  have hcleared : Staffed bounds (Hub.obey dsp { removed with pool := removed.pool.clear }) := by
    refine staffed_obey dsp ?_ hremoved.limits
    change Sound (min removed.roster.size bounds.1) removed.pool.clear
    rw [hnone, Nat.zero_min]
    exact sound_clear hremoved.rests
  exact hcleared.of_pool_eq rfl rfl

theorem staffed_apply (dsp : Dsp) (hstaffed : Staffed bounds h) (call : Call) :
    Staffed bounds (call.apply dsp h) := by
  cases call with
  | addSpeaker ssrc user => exact staffed_addSpeaker dsp hstaffed ssrc user
  | removeSpeaker ssrc => exact staffed_removeSpeaker dsp hstaffed ssrc
  | removeUser user => exact staffed_removeUser dsp hstaffed user
  | admitUnknown ssrc =>
      rw [Call.apply, Hub.admitUnknown]
      split
      · exact hstaffed
      · exact staffed_addSpeaker dsp hstaffed ssrc none
  | packet header payload now => exact staffed_handlePacket hstaffed header payload now
  | decode place => exact staffed_decode dsp hstaffed place
  | setLocalSsrc ssrc => exact hstaffed.of_pool_eq rfl rfl
  | control change => exact staffed_control dsp hstaffed change
  | mix mixer length now =>
      refine hstaffed.of_pool_eq rfl ?_
      exact congrArg (·.registered.length) (ledger_mix h mixer length now)
  | capture pipeline pcm => exact hstaffed.of_pool_eq rfl rfl
  | shutdown => exact staffed_shutdown dsp hstaffed

theorem staffed_after (dsp : Dsp) (settings : Settings) (calls : List Call) :
    Staffed (limits (Hub.create settings).pool) (after dsp settings calls) := by
  induction calls with
  | nil => exact staffed_create settings
  | cons call earlier ih => exact staffed_apply dsp ih call

/-- The events of a hub tell exactly who is registered, and its pool follows their number. -/
theorem events_mirror_speakers (dsp : Dsp) (settings : Settings) (calls : List Call) :
    replay (after dsp settings calls).events =
        some ((after dsp settings calls).roster.speakers.map fun s => (s.ssrc, s.user)) ∧
      (after dsp settings calls).decodeWorkers =
        min (after dsp settings calls).roster.size settings.sanitized.maxDecodeWorkers.toNat := by
  have hworkers := (staffed_after dsp settings calls).rests.workerCount
  rw [maxWorkers_create] at hworkers
  exact ⟨mirrors_after dsp settings calls, hworkers⟩

end VoiceCall.Proofs.Hub.Events
