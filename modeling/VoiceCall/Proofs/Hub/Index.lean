import Mathlib.Data.List.Nodup
import VoiceCall.Proofs.Hub.Departures

namespace VoiceCall.Proofs.Hub.Index

open VoiceCall.Proofs.Decoding.Workers (effect_runFor)
open VoiceCall.Proofs.Hub.Bookkeeping
open VoiceCall.Proofs.Hub.History
open VoiceCall.Proofs.Speaker.Keys

variable {r r' : Roster} {s : Speaker} {ssrc other : UInt32} {user : String}

/-- The sources of a roster and the users they are of. -/
def entries (r : Roster) : List (UInt32 × Option String) :=
  r.speakers.map entryOf

/-- Rosters with the same speakers, whatever these have been doing. -/
structure Alike (r r' : Roster) : Prop where
  entries : entries r' = entries r
  users : r'.users = r.users

/-- No source has two speakers, and the index names the source of a user only. -/
structure Traced (r : Roster) : Prop where
  sources : ((entries r).map Prod.fst).Nodup
  named : ∀ user ssrc, r.ssrcOfUser user = some ssrc → (ssrc, some user) ∈ entries r

/-- The index names the source of every user, and so there is only one. -/
structure Indexed (r : Roster) : Prop where
  traced : Traced r
  all : ∀ user ssrc, (ssrc, some user) ∈ entries r → r.ssrcOfUser user = some ssrc

theorem Alike.refl (r : Roster) : Alike r r :=
  ⟨rfl, rfl⟩

theorem Alike.trans {r'' : Roster} (hfirst : Alike r r') (hsecond : Alike r' r'') : Alike r r'' :=
  ⟨hsecond.entries.trans hfirst.entries, hsecond.users.trans hfirst.users⟩

theorem Traced.alike (h : Traced r) (halike : Alike r r') : Traced r' := by
  constructor
  · rw [halike.entries]
    exact h.sources
  · intro user ssrc hnamed
    rw [Roster.ssrcOfUser, halike.users] at hnamed
    rw [halike.entries]
    exact h.named user ssrc hnamed

theorem Indexed.alike (h : Indexed r) (halike : Alike r r') : Indexed r' := by
  refine ⟨h.traced.alike halike, ?_⟩
  intro user ssrc hmem
  rw [halike.entries] at hmem
  rw [Roster.ssrcOfUser, halike.users]
  exact h.all user ssrc hmem

theorem Traced.indexed_of_nil (h : Traced r) (hnobody : entries r = []) : Indexed r := by
  refine ⟨h, ?_⟩
  intro user ssrc hmem
  rw [hnobody] at hmem
  cases hmem

theorem find?_of_mem (hsources : ((entries r).map Prod.fst).Nodup) (hmem : s ∈ r.speakers) :
    r.find? s.ssrc = some s := by
  rw [entries, List.map_map] at hsources
  cases hfind : r.find? s.ssrc with
  | none => exact absurd (contains_of_mem hmem) (find?_eq_none_iff_not_contains.mp hfind)
  | some s' =>
      exact congrArg some (List.inj_on_of_nodup_map hsources (mem_of_find? hfind) hmem
        (ssrc_of_find? hfind))

theorem Traced.find? (h : Traced r) {holder : Option String} :
    (ssrc, holder) ∈ entries r ↔ ∃ s, r.find? ssrc = some s ∧ s.user = holder := by
  constructor
  · intro hmem
    obtain ⟨s, hs, hentry⟩ := List.mem_map.mp hmem
    obtain ⟨rfl, rfl⟩ := Prod.mk.inj hentry
    exact ⟨s, find?_of_mem h.sources hs, rfl⟩
  · rintro ⟨s, hfind, rfl⟩
    obtain rfl := ssrc_of_find? hfind
    exact List.mem_map_of_mem (mem_of_find? hfind)

theorem lookup_filter {α β : Type} [DecidableEq α] (pairs : List (α × β)) (p : α → Bool) (key : α) :
    (pairs.filter fun pair => p pair.1).lookup key = if p key then pairs.lookup key else none := by
  induction pairs with
  | nil => simp
  | cons pair pairs ih =>
      obtain ⟨first, value⟩ := pair
      by_cases hfirst : key = first
      · subst hfirst
        cases hp : p key with
        | true => simp [hp]
        | false => simpa [hp] using ih
      · have hskip (rest : List (α × β)) :
            ((first, value) :: rest).lookup key = rest.lookup key := by
          rw [List.lookup_cons, beq_false_of_ne hfirst]
        rw [hskip, ← ih, List.filter_cons]
        split
        · exact hskip _
        · rfl

theorem lookup_filter_ne {α β : Type} [DecidableEq α] (pairs : List (α × β)) (key other : α) :
    (pairs.filter (·.1 ≠ key)).lookup other = if other = key then none else pairs.lookup other := by
  rw [lookup_filter pairs (fun first => decide (first ≠ key))]
  by_cases hother : other = key <;> simp [hother]

theorem lookup_put {α β : Type} [DecidableEq α] (pairs : List (α × β)) (key : α) (value : β)
    (other : α) :
    ((key, value) :: pairs.filter (·.1 ≠ key)).lookup other =
      if other = key then some value else pairs.lookup other := by
  rw [List.lookup_cons, lookup_filter_ne]
  by_cases hother : other = key
  · subst hother
    simp only [beq_self_eq_true, if_pos]
  · rw [beq_false_of_ne hother, if_neg hother, if_neg hother]

theorem entries_insert (hnew : ¬ r.contains s.ssrc) :
    entries (r.insert s).1 = entries r ++ [entryOf s] := by
  rw [entries, speakers_insert hnew, List.map_append]
  rfl

theorem ssrcOfUser_insert (hnew : ¬ r.contains s.ssrc) (user : String) :
    (r.insert s).1.ssrcOfUser user =
      if s.user = some user then some s.ssrc else r.ssrcOfUser user := by
  rw [Roster.insert, if_neg hnew, Roster.ssrcOfUser]
  cases hholder : s.user with
  | none => rfl
  | some holder =>
      refine (lookup_put r.users holder s.ssrc user).trans ?_
      simp only [Option.some.injEq, eq_comm (a := user)]
      rfl

theorem insert_of_contains (hheld : r.contains s.ssrc) : (r.insert s).1 = r := by
  rw [Roster.insert, if_pos hheld]

theorem not_mem_sources (hnew : ¬ r.contains ssrc) : ssrc ∉ (entries r).map Prod.fst := by
  intro hmem
  simp only [entries, List.map_map, List.mem_map] at hmem
  obtain ⟨s, hs, rfl⟩ := hmem
  exact hnew (contains_of_mem hs)

theorem traced_insert (h : Traced r) (s : Speaker) : Traced (r.insert s).1 := by
  by_cases hheld : r.contains s.ssrc
  · rwa [insert_of_contains hheld]
  · constructor
    · rw [entries_insert hheld, List.map_append, List.nodup_append_comm]
      exact List.nodup_cons.mpr ⟨not_mem_sources hheld, h.sources⟩
    · intro user ssrc hnamed
      rw [ssrcOfUser_insert hheld] at hnamed
      rw [entries_insert hheld]
      split at hnamed
      · rename_i huser
        cases hnamed
        exact List.mem_append_right _ (List.mem_singleton.mpr (by rw [entryOf, huser]))
      · exact List.mem_append_left _ (h.named user ssrc hnamed)

/-- A speaker whose user has none yet. -/
theorem indexed_insert (h : Indexed r)
    (hfree : ∀ user, s.user = some user → r.ssrcOfUser user = none) :
    Indexed (r.insert s).1 := by
  refine ⟨traced_insert h.traced s, ?_⟩
  by_cases hheld : r.contains s.ssrc
  · rw [insert_of_contains hheld]
    exact h.all
  · intro user ssrc hmem
    rw [entries_insert hheld] at hmem
    rw [ssrcOfUser_insert hheld]
    rcases List.mem_append.mp hmem with hmem | hs
    · have hnamed := h.all user ssrc hmem
      rw [if_neg, hnamed]
      intro huser
      rw [hfree user huser] at hnamed
      cases hnamed
    · obtain ⟨hssrc, huser⟩ := Prod.mk.inj (List.mem_singleton.mp hs)
      rw [if_pos huser.symm, hssrc]

theorem remove_of_none (hfind : r.find? ssrc = none) : (r.remove ssrc).1 = r := by
  rw [Roster.remove, hfind]

theorem entries_remove (r : Roster) (ssrc : UInt32) :
    entries (r.remove ssrc).1 = (entries r).filter (·.1 ≠ ssrc) := by
  rw [Roster.remove]
  cases hfind : r.find? ssrc with
  | none =>
      refine (List.filter_eq_self.mpr ?_).symm
      intro entry hmem
      obtain ⟨s, hs, rfl⟩ := List.mem_map.mp hmem
      refine decide_eq_true fun hssrc => find?_eq_none_iff_not_contains.mp hfind ?_
      exact hssrc ▸ contains_of_mem hs
  | some s => exact map_without r ssrc

theorem ssrcOfUser_remove (h : Traced r) (ssrc : UInt32) (user : String) :
    (r.remove ssrc).1.ssrcOfUser user =
      if r.ssrcOfUser user = some ssrc then none else r.ssrcOfUser user := by
  have hholder (hnamed : r.ssrcOfUser user = some ssrc) :
      ∃ s, r.find? ssrc = some s ∧ s.user = some user := h.find?.mp (h.named user ssrc hnamed)
  cases hfind : r.find? ssrc with
  | none =>
      rw [remove_of_none hfind, if_neg]
      intro hnamed
      obtain ⟨s, hs, -⟩ := hholder hnamed
      cases hfind.symm.trans hs
  | some s =>
      have hother (hne : s.user ≠ some user) : r.ssrcOfUser user ≠ some ssrc := by
        intro hnamed
        obtain ⟨s', hs', huser⟩ := hholder hnamed
        cases hfind.symm.trans hs'
        exact hne huser
      rw [Roster.remove, hfind]
      change List.lookup user _ = _
      dsimp only
      cases hs : s.user with
      | none => exact (if_neg (hother (by simp [hs]))).symm
      | some holder =>
          dsimp only
          by_cases huser : user = holder
          · subst huser
            split
            · rename_i hnamed
              rw [Roster.dropUser, lookup_filter_ne, if_pos rfl, Roster.ssrcOfUser, if_pos hnamed]
            · rename_i hnamed
              exact (if_neg hnamed).symm
          · rw [if_neg (hother (by simpa [hs] using Ne.symm huser))]
            split
            · rw [Roster.dropUser, lookup_filter_ne, if_neg huser]
              rfl
            · rfl

theorem traced_remove (h : Traced r) (ssrc : UInt32) : Traced (r.remove ssrc).1 := by
  constructor
  · rw [entries_remove]
    exact h.sources.sublist (List.filter_sublist.map Prod.fst)
  · intro user other hnamed
    rw [ssrcOfUser_remove h] at hnamed
    rw [entries_remove]
    split at hnamed
    · cases hnamed
    · rename_i hkept
      refine List.mem_filter.mpr ⟨h.named user other hnamed, decide_eq_true ?_⟩
      rintro rfl
      exact hkept hnamed

theorem indexed_remove (h : Indexed r) (ssrc : UInt32) : Indexed (r.remove ssrc).1 := by
  refine ⟨traced_remove h.traced ssrc, ?_⟩
  intro user other hmem
  rw [entries_remove] at hmem
  obtain ⟨hmem, hother⟩ := List.mem_filter.mp hmem
  have hnamed := h.all user other hmem
  rw [ssrcOfUser_remove h.traced, if_neg, hnamed]
  rw [hnamed]
  rintro ⟨⟩
  exact of_decide_eq_true hother rfl

/-- The speaker of a user is the one whose source the index names. -/
theorem removeUser_eq_remove (h : Traced r) (hnamed : r.ssrcOfUser user = some ssrc) :
    r.removeUser user = r.remove ssrc := by
  obtain ⟨s, hfind, huser⟩ := h.find?.mp (h.named user ssrc hnamed)
  have hlookup : r.users.lookup user = some ssrc := hnamed
  simp only [Roster.removeUser, Roster.remove, hlookup, hfind, huser, if_pos]

variable {dsp : Dsp} {h : Hub}

theorem alike_of_ledger {h h' : Hub} (hledger : ledger h' = ledger h)
    (husers : h'.roster.users = h.roster.users) : Alike h.roster h'.roster :=
  ⟨congrArg Ledger.registered hledger, husers⟩

theorem users_serve (dsp : Dsp) (t : Decoding.Task) (r : Roster) :
    (t.serve dsp r).users = r.users :=
  rfl

theorem users_obey (dsp : Dsp) (h : Hub) : (h.obey dsp).roster.users = h.roster.users :=
  effect_runFor Roster.users (users_serve dsp) _ h.pool h.roster

theorem alike_obey (dsp : Dsp) (h : Hub) : Alike h.roster (h.obey dsp).roster :=
  alike_of_ledger (ledger_obey dsp h) (users_obey dsp h)

theorem alike_decode (dsp : Dsp) (place : Nat) (h : Hub) :
    Alike h.roster (h.decode dsp place).roster := by
  refine alike_of_ledger (ledger_decode dsp place h) ?_
  rw [Hub.decode]
  split <;> rfl

theorem users_resizePool (dsp : Dsp) (h : Hub) :
    (h.resizePool dsp).roster.users = h.roster.users :=
  users_obey dsp { h with pool := h.pool.resize h.roster.size }

theorem alike_resizePool (dsp : Dsp) (h : Hub) : Alike h.roster (h.resizePool dsp).roster :=
  alike_of_ledger (ledger_resizePool dsp h) (users_resizePool dsp h)

theorem alike_modifySpeaker (h : Hub) (ssrc : UInt32) {f : Speaker → Speaker}
    (hf : ∀ s, entryOf (f s) = entryOf s) :
    Alike h.roster (h.modifySpeaker ssrc f fun s => ssrc_of_entryOf (hf s)).1.roster :=
  alike_of_ledger (ledger_modifySpeaker h ssrc hf) rfl

theorem alike_mix (h : Hub) (mixer : Playback.Mixer) (length now : Nat) :
    Alike h.roster (h.mix mixer length now).1.roster :=
  alike_of_ledger (ledger_mix h mixer length now) rfl

theorem roster_handlePacket (h : Hub) (header : Packet.Header) (payload : Octets) (now : Nat) :
    (h.handlePacket header payload now).1.roster = h.roster := by
  rw [Hub.handlePacket]
  split
  · rfl
  · rfl
  · rw [Hub.deliver]
    split <;> rfl

theorem alike_speakerRemoved (dsp : Dsp) (h : Hub) (s : Speaker) :
    Alike h.roster (h.speakerRemoved dsp s).roster := by
  have hregistered := congrArg Ledger.registered (ledger_speakerRemoved dsp h s)
  exact ⟨hregistered, users_resizePool dsp _⟩

theorem alike_addSpeaker (dsp : Dsp) (h : Hub) (ssrc : UInt32) (holder : Option String) :
    ∃ s : Speaker, s.ssrc = ssrc ∧ s.user = holder ∧
      Alike (h.roster.insert s).1 (h.addSpeaker dsp ssrc holder).1.roster := by
  let s := Speaker.create ssrc holder h.nextSerial h.settings.jitterDesired h.settings.jitterMax
  refine ⟨s, rfl, rfl, ?_⟩
  by_cases hheld : h.roster.contains ssrc
  · rw [addSpeaker_of_contains dsp holder hheld, insert_of_contains (s := s) hheld]
    exact .refl h.roster
  · let joined : Hub :=
      { h with
        roster := (h.roster.insert s).1
        departed := h.departed.filter (· ≠ ssrc)
        nextSerial := h.nextSerial + 1 }
    have hjoined : (h.addSpeaker dsp ssrc holder).1.roster = (joined.resizePool dsp).roster := by
      have hadded : (h.roster.insert s).2 = true := by
        rw [Roster.insert, if_neg (show ¬ h.roster.contains s.ssrc from hheld)]
      rw [Hub.addSpeaker]
      dsimp only
      rw [if_neg hheld, if_pos hadded]
      rfl
    rw [hjoined]
    exact alike_resizePool dsp joined

theorem alike_removeSpeaker (dsp : Dsp) (h : Hub) (ssrc : UInt32) :
    Alike (h.roster.remove ssrc).1 (h.removeSpeaker dsp ssrc).1.roster := by
  rw [Hub.removeSpeaker]
  split
  · rename_i roster s hremoved
    rw [hremoved]
    exact alike_speakerRemoved dsp { h with roster := roster } s
  · rename_i hremoved
    rw [hremoved]
    exact .refl _

theorem removeUser_eq_removeSpeaker (dsp : Dsp) (htraced : Traced h.roster)
    (hnamed : h.roster.ssrcOfUser user = some ssrc) :
    h.removeUser dsp user = h.removeSpeaker dsp ssrc := by
  rw [Hub.removeUser, Hub.removeSpeaker, removeUser_eq_remove htraced hnamed]

theorem removeUser_of_none (dsp : Dsp) (hnamed : h.roster.ssrcOfUser user = none) :
    h.removeUser dsp user = (h, false) := by
  have hlookup : h.roster.users.lookup user = none := hnamed
  rw [Hub.removeUser, Roster.removeUser, hlookup]

/-- Nobody leaves with a user but the speaker whose source the index names. -/
theorem entries_removeUser (dsp : Dsp) (htraced : Traced h.roster) (user : String) :
    entries (h.removeUser dsp user).1.roster =
      (entries h.roster).filter fun entry => h.roster.ssrcOfUser user ≠ some entry.1 := by
  cases hnamed : h.roster.ssrcOfUser user with
  | none =>
      rw [removeUser_of_none dsp hnamed]
      exact (List.filter_eq_self.mpr (by simp)).symm
  | some ssrc =>
      rw [removeUser_eq_removeSpeaker dsp htraced hnamed, (alike_removeSpeaker dsp h ssrc).entries,
        entries_remove]
      refine List.filter_congr fun entry _ => ?_
      simp [eq_comm]

/-- What happens to a roster at once, if only certain speakers are let in. -/
inductive Change (guest : Speaker → Prop) (r : Roster) : Roster → Prop where
  | same {r' : Roster} : Alike r r' → Change guest r r'
  | joined {r' : Roster} {s : Speaker} : guest s → Alike (r.insert s).1 r' → Change guest r r'
  | left {r' : Roster} {ssrc : UInt32} : Alike (r.remove ssrc).1 r' → Change guest r r'

theorem traced_change {guest : Speaker → Prop} (h : Traced r) (hchange : Change guest r r') :
    Traced r' := by
  cases hchange with
  | same halike => exact h.alike halike
  | joined _ halike => exact (traced_insert h _).alike halike
  | left halike => exact (traced_remove h _).alike halike

theorem indexed_change {guest : Speaker → Prop} (h : Indexed r) (hchange : Change guest r r')
    (hfree : ∀ s, guest s → ∀ user, s.user = some user → r.ssrcOfUser user = none) :
    Indexed r' := by
  cases hchange with
  | same halike => exact h.alike halike
  | joined hguest halike => exact (indexed_insert h (hfree _ hguest)).alike halike
  | left halike => exact (indexed_remove h _).alike halike

/-- The speakers that a call can let in. -/
def brings : Call → Speaker → Prop
  | .addSpeaker _ holder, s => s.user = holder
  | .admitUnknown _, s => s.user = none
  | _, _ => False

theorem change_apply (dsp : Dsp) (htraced : Traced h.roster) {call : Call}
    (hcall : call ≠ .shutdown) :
    Change (brings call) h.roster (call.apply dsp h).roster := by
  cases call with
  | addSpeaker ssrc holder =>
      obtain ⟨s, -, hholder, halike⟩ := alike_addSpeaker dsp h ssrc holder
      exact .joined hholder halike
  | removeSpeaker ssrc => exact .left (alike_removeSpeaker dsp h ssrc)
  | removeUser user =>
      rw [Call.apply]
      cases hnamed : h.roster.ssrcOfUser user with
      | none =>
          rw [removeUser_of_none dsp hnamed]
          exact .same (.refl h.roster)
      | some ssrc =>
          rw [removeUser_eq_removeSpeaker dsp htraced hnamed]
          exact .left (alike_removeSpeaker dsp h ssrc)
  | admitUnknown ssrc =>
      rw [Call.apply, Hub.admitUnknown]
      split
      · exact .same (.refl h.roster)
      · obtain ⟨s, -, hholder, halike⟩ := alike_addSpeaker dsp h ssrc none
        exact .joined hholder halike
  | packet header payload now =>
      rw [Call.apply, roster_handlePacket]
      exact .same (.refl h.roster)
  | decode place => exact .same (alike_decode dsp place h)
  | setLocalSsrc ssrc => exact .same (.refl h.roster)
  | control change =>
      cases change with
      | muteSpeaker ssrc muted =>
          exact .same (alike_modifySpeaker h ssrc (f := (·.setMuted muted)) fun _ => rfl)
      | setSpeakerGain ssrc gain =>
          exact .same (alike_modifySpeaker h ssrc (f := (·.setGain gain)) fun _ => rfl)
      | removeSpeaker ssrc => exact .left (alike_removeSpeaker dsp h ssrc)
      | _ => exact .same (.refl h.roster)
  | mix mixer length now => exact .same (alike_mix h mixer length now)
  | capture pipeline pcm => exact .same (.refl h.roster)
  | shutdown => exact absurd rfl hcall

theorem traced_shutdown (dsp : Dsp) (htraced : Traced h.roster) :
    Traced (h.shutdown dsp).roster := by
  have hremoved (speakers : List Speaker) :
      Traced (speakers.foldl (fun h s => (h.removeSpeaker dsp s.ssrc).1) h).roster := by
    induction speakers generalizing h with
    | nil => exact htraced
    | cons s speakers ih =>
        exact ih ((traced_remove htraced s.ssrc).alike (alike_removeSpeaker dsp h s.ssrc))
  let removed := h.roster.speakers.foldl (fun h s => (h.removeSpeaker dsp s.ssrc).1) h
  refine (hremoved h.roster.speakers).alike ?_
  exact alike_obey dsp { removed with pool := removed.pool.clear }

theorem entries_shutdown_eq_nil (dsp : Dsp) (h : Hub) : entries (h.shutdown dsp).roster = [] := by
  let removed := h.roster.speakers.foldl (fun h s => (h.removeSpeaker dsp s.ssrc).1) h
  exact (alike_obey dsp { removed with pool := removed.pool.clear }).entries.trans
    (registered_removeAll dsp h)

theorem traced_apply (dsp : Dsp) (htraced : Traced h.roster) (call : Call) :
    Traced (call.apply dsp h).roster := by
  by_cases hcall : call = .shutdown
  · subst hcall
    exact traced_shutdown dsp htraced
  · exact traced_change htraced (change_apply dsp htraced hcall)

theorem indexed_shutdown (dsp : Dsp) (htraced : Traced h.roster) :
    Indexed (h.shutdown dsp).roster :=
  (traced_shutdown dsp htraced).indexed_of_nil (entries_shutdown_eq_nil dsp h)

theorem traced_after (dsp : Dsp) (settings : Settings) (calls : List Call) :
    Traced (after dsp settings calls).roster := by
  induction calls with
  | nil => exact ⟨List.nodup_nil, nofun⟩
  | cons call calls ih => exact traced_apply dsp ih call

end VoiceCall.Proofs.Hub.Index
