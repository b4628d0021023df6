import VoiceCall.Proofs.Hub.Index

namespace VoiceCall.Proofs.Speaker.Registration

open VoiceCall.Proofs.Hub.Index
open VoiceCall.Proofs.Speaker.Keys

inductive Operation where
  | insert (s : Speaker)
  | remove (ssrc : UInt32)
  | removeUser (user : String)
  | clear

def Operation.apply (r : Roster) : Operation → Roster
  | insert s => (r.insert s).1
  | remove ssrc => (r.remove ssrc).1
  | removeUser user => (r.removeUser user).1
  | clear => r.clear

/-- The roster after some operations, the latest of which is the first in the list. -/
def after : List Operation → Roster
  | [] => .empty
  | operation :: earlier => operation.apply (after earlier)

/-- One speaker more is registered. The index names it for its user. -/
structure Joins (r r' : Roster) (s : Speaker) : Prop where
  vacant : r.find? s.ssrc = none
  found : r'.find? s.ssrc = some s
  others : ∀ ssrc, ssrc ≠ s.ssrc → r'.find? ssrc = r.find? ssrc
  named : ∀ user, s.user = some user → r'.ssrcOfUser user = some s.ssrc
  users : ∀ user, s.user ≠ some user → r'.ssrcOfUser user = r.ssrcOfUser user

/-- One speaker less is registered. The index does not name it any more. -/
structure Leaves (r r' : Roster) (s : Speaker) : Prop where
  found : r.find? s.ssrc = some s
  vacant : r'.find? s.ssrc = none
  others : ∀ ssrc, ssrc ≠ s.ssrc → r'.find? ssrc = r.find? ssrc
  unnamed : ∀ user, r'.ssrcOfUser user ≠ some s.ssrc
  users : ∀ user, s.user ≠ some user → r'.ssrcOfUser user = r.ssrcOfUser user

/-- A removal of nobody changes nothing; any other one returns the speaker who leaves. -/
inductive Removal (r : Roster) : Option Speaker → Roster × Option Speaker → Prop where
  | nobody : Removal r none (r, none)
  | speaker {r' : Roster} {s : Speaker} : Leaves r r' s → Removal r (some s) (r', some s)

variable {r : Roster} {s : Speaker}

theorem find?_eq_some_iff (htraced : Traced r) (ssrc : UInt32) (s : Speaker) :
    r.find? ssrc = some s ↔ s ∈ r.speakers ∧ s.ssrc = ssrc := by
  constructor
  · intro hfind
    exact ⟨mem_of_find? hfind, ssrc_of_find? hfind⟩
  · rintro ⟨hmem, rfl⟩
    exact find?_of_mem htraced.sources hmem

theorem find?_insert (hnew : ¬ r.contains s.ssrc) (ssrc : UInt32) :
    (r.insert s).1.find? ssrc = if ssrc = s.ssrc then some s else r.find? ssrc := by
  rw [find?_eq, speakers_insert hnew, List.find?_append, ← find?_eq]
  split
  · rename_i hssrc
    rw [hssrc, find?_eq_none_iff_not_contains.mpr hnew]
    simp
  · rename_i hother
    simp [Ne.symm hother]

theorem find?_remove (r : Roster) (ssrc other : UInt32) :
    (r.remove ssrc).1.find? other = if other = ssrc then none else r.find? other := by
  cases hfind : r.find? ssrc with
  | none =>
      rw [remove_of_none hfind]
      split
      · rename_i hssrc
        rw [hssrc, hfind]
      · rfl
  | some s =>
      rw [Roster.remove, hfind]
      exact lookup_filter_ne r.entries ssrc other

theorem traced_removeUser (htraced : Traced r) (user : String) : Traced (r.removeUser user).1 := by
  cases hnamed : r.ssrcOfUser user with
  | none =>
      have hlookup : r.users.lookup user = none := hnamed
      rw [Roster.removeUser, hlookup]
      exact htraced
  | some ssrc =>
      rw [removeUser_eq_remove htraced hnamed]
      exact traced_remove htraced ssrc

theorem traced_empty : Traced .empty :=
  ⟨List.nodup_nil, nofun⟩

theorem traced_apply (htraced : Traced r) (operation : Operation) :
    Traced (operation.apply r) := by
  cases operation with
  | insert s => exact traced_insert htraced s
  | remove ssrc => exact traced_remove htraced ssrc
  | removeUser user => exact traced_removeUser htraced user
  | clear => exact traced_empty

theorem traced_after (operations : List Operation) : Traced (after operations) := by
  induction operations with
  | nil => exact traced_empty
  | cons operation earlier ih => exact traced_apply ih operation

theorem insert_of_not_contains (hnew : ¬ r.contains s.ssrc) :
    ∃ r', r.insert s = (r', true) ∧ Joins r r' s := by
  refine ⟨(r.insert s).1, by rw [Roster.insert, if_neg hnew], ?_⟩
  constructor
  · exact find?_eq_none_iff_not_contains.mpr hnew
  · rw [find?_insert hnew, if_pos rfl]
  · intro ssrc hother
    rw [find?_insert hnew, if_neg hother]
  · intro user huser
    rw [ssrcOfUser_insert hnew, if_pos huser]
  · intro user huser
    rw [ssrcOfUser_insert hnew, if_neg huser]

theorem leaves_remove (htraced : Traced r) {ssrc : UInt32} (hfind : r.find? ssrc = some s) :
    Leaves r (r.remove ssrc).1 s := by
  obtain rfl := ssrc_of_find? hfind
  constructor
  · exact hfind
  · rw [find?_remove, if_pos rfl]
  · intro ssrc hother
    rw [find?_remove, if_neg hother]
  · intro user
    rw [ssrcOfUser_remove htraced]
    split
    · exact nofun
    · assumption
  · intro user huser
    rw [ssrcOfUser_remove htraced, if_neg]
    intro hnamed
    obtain ⟨s', hfind', huser'⟩ := htraced.find?.mp (htraced.named user s.ssrc hnamed)
    cases hfind.symm.trans hfind'
    exact huser huser'

theorem removal_remove (htraced : Traced r) (ssrc : UInt32) :
    Removal r (r.find? ssrc) (r.remove ssrc) := by
  cases hfind : r.find? ssrc with
  | none =>
      rw [Roster.remove, hfind]
      exact .nobody
  | some s =>
      have hreturned : (r.remove ssrc).2 = some s := by rw [Roster.remove, hfind]
      rw [← Prod.eta (r.remove ssrc), hreturned]
      exact .speaker (leaves_remove htraced hfind)

theorem removal_removeUser (htraced : Traced r) (user : String) :
    Removal r ((r.ssrcOfUser user).bind r.find?) (r.removeUser user) := by
  cases hnamed : r.ssrcOfUser user with
  | none =>
      have hlookup : r.users.lookup user = none := hnamed
      rw [Roster.removeUser, hlookup]
      exact .nobody
  | some ssrc =>
      rw [removeUser_eq_remove htraced hnamed]
      exact removal_remove htraced ssrc

/-- Whatever was asked of a roster before, its index names nobody who is not there, and every
speaker is found under its own source. Who joins does so under a source that is free, and whoever is
removed leaves everybody else as they were. -/
theorem index_never_dangles (operations : List Operation) :
    let r := after operations
    (∀ user ssrc, r.ssrcOfUser user = some ssrc →
        ∃ s, r.find? ssrc = some s ∧ s.user = some user) ∧
      (∀ ssrc s, r.find? ssrc = some s ↔ s ∈ r.speakers ∧ s.ssrc = ssrc) ∧
      (∀ s, r.contains s.ssrc → r.insert s = (r, false)) ∧
      (∀ s, ¬ r.contains s.ssrc → ∃ r', r.insert s = (r', true) ∧ Joins r r' s) ∧
      (∀ ssrc, Removal r (r.find? ssrc) (r.remove ssrc)) ∧
      ∀ user, Removal r ((r.ssrcOfUser user).bind r.find?) (r.removeUser user) := by
  intro r
  have htraced : Traced r := traced_after operations
  refine ⟨?_, find?_eq_some_iff htraced, ?_, fun _ => insert_of_not_contains,
    removal_remove htraced, removal_removeUser htraced⟩
  · intro user ssrc hnamed
    exact htraced.find?.mp (htraced.named user ssrc hnamed)
  · intro s hheld
    rw [Roster.insert, if_pos hheld]

end VoiceCall.Proofs.Speaker.Registration
