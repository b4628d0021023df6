import VoiceCall.Proofs.Hub.Index

namespace VoiceCall.Proofs.Hub.Doubles

open VoiceCall.Proofs.Hub.Bookkeeping
open VoiceCall.Proofs.Hub.History
open VoiceCall.Proofs.Hub.Index

variable {r r' : Roster} {h h' : Hub} {ssrc : UInt32} {user : String}

/-- The source that an event announces for a user. -/
def announced (user : String) : Event → Option UInt32
  | .speakerJoined ssrc holder => if holder = some user then some ssrc else none
  | _ => none

/-- The source of the speaker who joined last for a user, and who may have left since. -/
def lastJoined (user : String) (events : List Event) : Option UInt32 :=
  (events.filterMap (announced user)).getLast?

def Present (r : Roster) (user : String) : Prop :=
  ∃ s ∈ r.speakers, s.user = some user

/-- The index does not miss a user who has a speaker. -/
def Known (r : Roster) (user : String) : Prop :=
  Present r user → ∃ ssrc, r.ssrcOfUser user = some ssrc

/-- Nobody has two speakers. -/
def Single (r : Roster) : Prop :=
  ∀ user, ∀ s ∈ r.speakers, ∀ s' ∈ r.speakers, s.user = some user → s'.user = some user →
    s.ssrc = s'.ssrc

/-- Of all speakers of a user, the index names the one who joined last. -/
def Current (h : Hub) : Prop :=
  ∀ user ssrc, (ssrc, some user) ∈ entries h.roster →
    (h.roster.ssrcOfUser user = some ssrc ↔ lastJoined user h.events = some ssrc)

theorem mem_entries_iff :
    (ssrc, some user) ∈ entries r ↔ ∃ s ∈ r.speakers, s.user = some user ∧ s.ssrc = ssrc := by
  simp [entries, entryOf, and_comm]

theorem present_iff : Present r user ↔ ∃ ssrc, (ssrc, some user) ∈ entries r := by
  simp [Present, mem_entries_iff]

theorem lastJoined_concat (user : String) (events : List Event) (event : Event) :
    lastJoined user (events ++ [event]) = (announced user event).or (lastJoined user events) := by
  rw [lastJoined, List.filterMap_append, List.getLast?_append]
  congr 1
  cases hannounced : announced user event with
  | none => simp [hannounced]
  | some ssrc => simp [hannounced]

/-- Nobody is announced but with a new speaker. -/
theorem joined_or_quiet {welcome : UInt32 → Prop} {l l' : Ledger} (hentry : Entry welcome l l') :
    (∃ ssrc holder, l'.registered = l.registered ++ [(ssrc, holder)] ∧
        l'.events = l.events ++ [.speakerJoined ssrc holder]) ∨
      l'.registered.length ≤ l.registered.length ∧
        ∀ user, lastJoined user l'.events = lastJoined user l.events := by
  cases hentry with
  | kept => exact .inr ⟨Nat.le_refl _, fun _ => rfl⟩
  | lifted _ _ => exact .inr ⟨Nat.le_refl _, fun _ => rfl⟩
  | joined holder _ _ => exact .inl ⟨_, holder, rfl, rfl⟩
  | left _ _ =>
      refine .inr ⟨List.length_filter_le _ _, fun user => ?_⟩
      rw [lastJoined_concat]
      rfl

section
variable {welcome : UInt32 → Prop} (hentry : Entry welcome (ledger h) (ledger h'))
include hentry

theorem quiet_of_length_le (hlength : (entries h'.roster).length ≤ (entries h.roster).length)
    (user : String) : lastJoined user h'.events = lastJoined user h.events := by
  rcases joined_or_quiet hentry with ⟨ssrc, holder, hregistered, -⟩ | ⟨-, hquiet⟩
  · have hmore : (entries h'.roster).length = (entries h.roster ++ [(ssrc, holder)]).length :=
      congrArg List.length hregistered
    rw [List.length_append, List.length_singleton] at hmore
    omega
  · exact hquiet user

theorem events_of_concat {entry : UInt32 × Option String}
    (hentries : entries h'.roster = entries h.roster ++ [entry]) :
    h'.events = h.events ++ [.speakerJoined entry.1 entry.2] := by
  rcases joined_or_quiet hentry with ⟨ssrc, holder, hregistered, hevents⟩ | ⟨hlength, -⟩
  · obtain rfl : entry = (ssrc, holder) :=
      List.singleton_inj.mp (List.append_cancel_left (hentries.symm.trans hregistered))
    exact hevents
  · have hmore := congrArg List.length hentries
    rw [List.length_append, List.length_singleton] at hmore
    exact absurd (hmore ▸ hlength : _ + 1 ≤ (entries h.roster).length) (Nat.not_succ_le_self _)

theorem current_alike (hcurrent : Current h) (halike : Alike h.roster h'.roster) : Current h' := by
  intro user ssrc hmem
  rw [halike.entries] at hmem
  rw [quiet_of_length_le hentry (Nat.le_of_eq (congrArg List.length halike.entries)),
    Roster.ssrcOfUser, halike.users]
  exact hcurrent user ssrc hmem

theorem current_joined {s : Speaker} (hcurrent : Current h) (hnew : ¬ h.roster.contains s.ssrc)
    (halike : Alike (h.roster.insert s).1 h'.roster) : Current h' := by
  have hentries : entries h'.roster = entries h.roster ++ [entryOf s] :=
    halike.entries.trans (entries_insert hnew)
  intro user ssrc hmem
  rw [Roster.ssrcOfUser, halike.users, ← Roster.ssrcOfUser, ssrcOfUser_insert hnew,
    events_of_concat hentry hentries, lastJoined_concat]
  change _ ↔ (if s.user = some user then some s.ssrc else none).or _ = _
  by_cases huser : s.user = some user
  · rw [if_pos huser, if_pos huser]
    rfl
  · rw [if_neg huser, if_neg huser]
    rw [hentries] at hmem
    rcases List.mem_append.mp hmem with hmem | hlast
    · exact hcurrent user ssrc hmem
    · exact absurd (Prod.mk.inj (List.mem_singleton.mp hlast)).2.symm huser

theorem current_left {other : UInt32} (htraced : Traced h.roster) (hcurrent : Current h)
    (halike : Alike (h.roster.remove other).1 h'.roster) : Current h' := by
  have hentries : entries h'.roster = (entries h.roster).filter (·.1 ≠ other) :=
    halike.entries.trans (entries_remove h.roster other)
  have hlength := List.length_filter_le (·.1 ≠ other) (entries h.roster)
  intro user ssrc hmem
  rw [hentries] at hmem
  obtain ⟨hmem, hother⟩ := List.mem_filter.mp hmem
  rw [quiet_of_length_le hentry (hentries ▸ hlength), ← hcurrent user ssrc hmem, Roster.ssrcOfUser,
    halike.users, ← Roster.ssrcOfUser, ssrcOfUser_remove htraced]
  split
  · rename_i hnamed
    have hne : other ≠ ssrc := Ne.symm (of_decide_eq_true hother)
    simp [hnamed, hne]
  · rfl

end

theorem current_apply (dsp : Dsp) (htraced : Traced h.roster) (hcurrent : Current h) (call : Call) :
    Current (call.apply dsp h) := by
  by_cases hcall : call = .shutdown
  · -- nobody is left whom the index could miss
    subst hcall
    intro user ssrc hmem
    rw [Call.apply, entries_shutdown_eq_nil] at hmem
    cases hmem
  · have hentry := entry_apply dsp h hcall
    cases change_apply dsp htraced hcall with
    | same halike => exact current_alike hentry hcurrent halike
    | @joined s hguest halike =>
        by_cases hheld : h.roster.contains s.ssrc
        · rw [insert_of_contains hheld] at halike
          exact current_alike hentry hcurrent halike
        · exact current_joined hentry hcurrent hheld halike
    | left halike => exact current_left hentry htraced hcurrent halike

theorem current_after (dsp : Dsp) (settings : Settings) (calls : List Call) :
    Current (after dsp settings calls) := by
  induction calls with
  | nil => exact nofun
  | cons call earlier ih => exact current_apply dsp (traced_after dsp settings earlier) ih call

theorem not_present_removeUser_iff (dsp : Dsp) (htraced : Traced h.roster) (user : String) :
    ¬ Present (h.removeUser dsp user).1.roster user ↔
      ∀ ssrc, (ssrc, some user) ∈ entries h.roster → h.roster.ssrcOfUser user = some ssrc := by
  rw [present_iff, entries_removeUser dsp htraced]
  simp

theorem known_iff (htraced : Traced h.roster) (hcurrent : Current h) (user : String) :
    Known h.roster user ↔ (Present h.roster user →
      ∃ s ∈ h.roster.speakers, s.user = some user ∧ lastJoined user h.events = some s.ssrc) := by
  constructor
  · intro hknown hpresent
    obtain ⟨ssrc, hnamed⟩ := hknown hpresent
    have hmem := htraced.named user ssrc hnamed
    obtain ⟨s, hs, huser, rfl⟩ := mem_entries_iff.mp hmem
    exact ⟨s, hs, huser, (hcurrent user s.ssrc hmem).mp hnamed⟩
  · intro hlast hpresent
    obtain ⟨s, hs, huser, hjoined⟩ := hlast hpresent
    exact ⟨s.ssrc, (hcurrent user s.ssrc (mem_entries_iff.mpr ⟨s, hs, huser, rfl⟩)).mpr hjoined⟩

theorem removed_iff (dsp : Dsp) (htraced : Traced h.roster) (hcurrent : Current h) (user : String) :
    ¬ Present (h.removeUser dsp user).1.roster user ↔
      ∀ s ∈ h.roster.speakers, s.user = some user → lastJoined user h.events = some s.ssrc := by
  rw [not_present_removeUser_iff dsp htraced]
  constructor
  · intro hnamed s hs huser
    have hmem := mem_entries_iff.mpr ⟨s, hs, huser, rfl⟩
    exact (hcurrent user s.ssrc hmem).mp (hnamed s.ssrc hmem)
  · intro hlast ssrc hmem
    obtain ⟨s, hs, huser, rfl⟩ := mem_entries_iff.mp hmem
    exact (hcurrent user s.ssrc hmem).mpr (hlast s hs huser)

theorem single_iff : Single r ↔ ∀ user ssrc other, (ssrc, some user) ∈ entries r →
    (other, some user) ∈ entries r → ssrc = other := by
  constructor
  · intro hsingle user ssrc other hfirst hsecond
    obtain ⟨s, hs, huser, rfl⟩ := mem_entries_iff.mp hfirst
    obtain ⟨s', hs', huser', rfl⟩ := mem_entries_iff.mp hsecond
    exact hsingle user s hs s' hs' huser huser'
  · intro hsingle user s hs s' hs' huser huser'
    exact hsingle user s.ssrc s'.ssrc (mem_entries_iff.mpr ⟨s, hs, huser, rfl⟩)
      (mem_entries_iff.mpr ⟨s', hs', huser', rfl⟩)

/-- A user who has a speaker is not given a second one if nobody has two afterwards. -/
theorem indexed_joined {s : Speaker} (hindexed : Indexed r) (halike : Alike (r.insert s).1 r')
    (hsingle : Single r') : Indexed r' := by
  by_cases hheld : r.contains s.ssrc
  · rw [insert_of_contains hheld] at halike
    exact hindexed.alike halike
  · refine (indexed_insert hindexed fun user huser => ?_).alike halike
    have hentries : entries r' = entries r ++ [entryOf s] :=
      halike.entries.trans (entries_insert hheld)
    cases hnamed : r.ssrcOfUser user with
    | none => rfl
    | some ssrc =>
        -- the speaker that the index names already would be the first of two
        have hold := hindexed.traced.named user ssrc hnamed
        have hsame : ssrc = s.ssrc := by
          refine single_iff.mp hsingle user ssrc s.ssrc ?_ ?_
          · rw [hentries]
            exact List.mem_append_left _ hold
          · rw [hentries, entryOf, huser]
            exact List.mem_append_right _ List.mem_cons_self
        exact absurd (List.mem_map_of_mem (f := Prod.fst) hold) (hsame ▸ not_mem_sources hheld)

theorem indexed_step (dsp : Dsp) (hindexed : Indexed h.roster) (call : Call)
    (hsingle : Single (call.apply dsp h).roster) : Indexed (call.apply dsp h).roster := by
  by_cases hcall : call = .shutdown
  · subst hcall
    exact indexed_shutdown dsp hindexed.traced
  · cases change_apply dsp hindexed.traced hcall with
    | same halike => exact hindexed.alike halike
    | joined _ halike => exact indexed_joined hindexed halike hsingle
    | left halike => exact (indexed_remove hindexed _).alike halike

theorem indexed_after (dsp : Dsp) (settings : Settings) {calls : List Call}
    (hsingle : ∀ earlier, earlier <:+ calls → Single (after dsp settings earlier).roster) :
    Indexed (after dsp settings calls).roster := by
  induction calls with
  | nil => exact (traced_after dsp settings []).indexed_of_nil rfl
  | cons call earlier ih =>
      have hearlier := ih fun before hbefore =>
        hsingle before (hbefore.trans (List.suffix_cons _ _))
      exact indexed_step dsp hearlier call (hsingle _ List.suffix_rfl)

/-- The index names the speaker who joined last for a user, while that speaker is there. So it
misses the user, and a removal of the user misses a speaker, exactly in these cases; and nobody is
ever missed exactly if nobody has two speakers. -/
theorem users_missed_iff (dsp : Dsp) (settings : Settings) (calls : List Call) :
    let h := after dsp settings calls
    (∀ user, Known h.roster user ↔ (Present h.roster user →
        ∃ s ∈ h.roster.speakers, s.user = some user ∧ lastJoined user h.events = some s.ssrc)) ∧
      (∀ user, ¬ Present (after dsp settings (.removeUser user :: calls)).roster user ↔
        ∀ s ∈ h.roster.speakers, s.user = some user → lastJoined user h.events = some s.ssrc) ∧
      ((∀ earlier, earlier <:+ calls → ∀ user, Known (after dsp settings earlier).roster user ∧
          ¬ Present (after dsp settings (.removeUser user :: earlier)).roster user) ↔
        ∀ earlier, earlier <:+ calls → Single (after dsp settings earlier).roster) := by
  intro h
  have hknown (earlier : List Call) :=
    known_iff (traced_after dsp settings earlier) (current_after dsp settings earlier)
  have hremoved (earlier : List Call) :=
    removed_iff dsp (traced_after dsp settings earlier) (current_after dsp settings earlier)
  refine ⟨hknown calls, hremoved calls, ?_⟩
  constructor
  · intro hnever earlier hsuffix user s hs s' hs' huser huser'
    have hlast := (hremoved earlier user).mp (hnever earlier hsuffix user).2
    exact Option.some.inj ((hlast s hs huser).symm.trans (hlast s' hs' huser'))
  · intro hsingle earlier hsuffix user
    have hindexed : Indexed (after dsp settings earlier).roster :=
      indexed_after dsp settings fun before hbefore => hsingle before (hbefore.trans hsuffix)
    constructor
    · intro hpresent
      obtain ⟨ssrc, hmem⟩ := present_iff.mp hpresent
      exact ⟨ssrc, hindexed.all user ssrc hmem⟩
    · exact (not_present_removeUser_iff dsp hindexed.traced user).mpr (hindexed.all user)

/-- A user is given two speakers, of whom the second one leaves. -/
def doubled : List Call :=
  [.removeSpeaker 8, .addSpeaker 8 (some "alice"), .addSpeaker 7 (some "alice")]

theorem not_known_doubled :
    ¬ Known (after .quiet {} doubled).roster "alice" ∧
      Present (after .quiet {} (.removeUser "alice" :: doubled)).roster "alice" := by
  have hbefore : entries (after .quiet {} doubled).roster = [(7, some "alice")] := by rfl
  have hbehind : entries (after .quiet {} (.removeUser "alice" :: doubled)).roster =
      [(7, some "alice")] := by rfl
  have hnamed : (after .quiet {} doubled).roster.ssrcOfUser "alice" = none := by rfl
  constructor
  · intro hknown
    obtain ⟨ssrc, hssrc⟩ :=
      hknown (present_iff.mpr ⟨7, by rw [hbefore]; exact List.mem_cons_self⟩)
    rw [hnamed] at hssrc
    cases hssrc
  · refine present_iff.mpr ⟨7, ?_⟩
    rw [hbehind]
    exact List.mem_cons_self

end VoiceCall.Proofs.Hub.Doubles
