import VoiceCall.Speaker.Roster

namespace VoiceCall.Proofs.Speaker.Keys

variable {r r' : Roster} {s : Speaker} {ssrc : UInt32}

/-- A roster of these speakers, of whom the index names none. -/
def rosterOf (speakers : List Speaker) : Roster :=
  ⟨speakers.map fun s => (s.ssrc, s), [], List.forall_mem_map.mpr fun _ _ => rfl⟩

@[simp] theorem speakers_rosterOf (speakers : List Speaker) :
    (rosterOf speakers).speakers = speakers := by
  rw [Roster.speakers, rosterOf, List.map_map]
  exact List.map_id speakers

theorem entries_eq_map (r : Roster) : r.entries = r.speakers.map fun s => (s.ssrc, s) := by
  rw [Roster.speakers, List.map_map]
  refine (List.map_id r.entries).symm.trans (List.map_congr_left fun entry hmem => ?_)
  exact Prod.ext (r.keyed entry hmem).symm rfl

theorem eq_of_speakers (hspeakers : r.speakers = r'.speakers) (husers : r.users = r'.users) :
    r = r' := by
  have hentries : r.entries = r'.entries := by
    rw [entries_eq_map r, hspeakers, ← entries_eq_map r']
  cases r
  cases r'
  cases hentries
  cases husers
  rfl

theorem find?_eq (r : Roster) (ssrc : UInt32) :
    r.find? ssrc = r.speakers.find? (·.ssrc = ssrc) := by
  rw [Roster.find?, entries_eq_map]
  induction r.speakers with
  | nil => rfl
  | cons s speakers ih =>
      rw [List.map_cons, List.lookup_cons, List.find?_cons, ih, BEq.comm]
      rfl

theorem contains_eq (r : Roster) (ssrc : UInt32) :
    r.contains ssrc = r.speakers.any (·.ssrc = ssrc) := by
  rw [Roster.contains, entries_eq_map, List.any_map]
  rfl

theorem size_eq_length (r : Roster) : r.size = r.speakers.length :=
  (List.length_map Prod.snd).symm

theorem speakers_insert (hnew : ¬ r.contains s.ssrc) :
    (r.insert s).1.speakers = r.speakers ++ [s] := by
  rw [Roster.insert, if_neg hnew]
  exact List.map_append

theorem speakers_without (r : Roster) (ssrc : UInt32) :
    (r.without ssrc).speakers = r.speakers.filter (·.ssrc ≠ ssrc) := by
  change (r.entries.filter (·.1 ≠ ssrc)).map Prod.snd = _
  rw [entries_eq_map, List.filter_map, List.map_map]
  exact List.map_id _

theorem mem_without : s ∈ (r.without ssrc).speakers ↔ s ∈ r.speakers ∧ s.ssrc ≠ ssrc := by
  rw [speakers_without, List.mem_filter, decide_eq_true_eq]

theorem speakers_modify (r : Roster) (ssrc : UInt32) {f : Speaker → Speaker}
    (hf : ∀ s, (f s).ssrc = s.ssrc) :
    (r.modify ssrc f hf).speakers = r.speakers.map fun s => if s.ssrc = ssrc then f s else s := by
  change (r.entries.map _).map Prod.snd = _
  rw [entries_eq_map, List.map_map, List.map_map]
  rfl

theorem speakers_replace (r : Roster) {speakers : List Speaker}
    (h : speakers.map Speaker.ssrc = r.speakers.map Speaker.ssrc) :
    (r.replace speakers h).speakers = speakers := by
  refine List.map_snd_zip (Nat.le_of_eq ?_)
  rw [r.map_fst_entries, ← h, List.length_map]

theorem ssrc_of_find? (hfind : r.find? ssrc = some s) : s.ssrc = ssrc := by
  rw [find?_eq] at hfind
  simpa using List.find?_some hfind

theorem mem_of_find? (hfind : r.find? ssrc = some s) : s ∈ r.speakers := by
  rw [find?_eq] at hfind
  exact List.mem_of_find?_eq_some hfind

theorem contains_iff_exists : r.contains ssrc ↔ ∃ s ∈ r.speakers, s.ssrc = ssrc := by
  simp [contains_eq]

theorem contains_of_mem (hmem : s ∈ r.speakers) : r.contains s.ssrc :=
  contains_iff_exists.mpr ⟨s, hmem, rfl⟩

theorem find?_eq_none_iff_not_contains : r.find? ssrc = none ↔ ¬ r.contains ssrc := by
  rw [find?_eq, contains_eq, List.find?_eq_none]
  simp

end VoiceCall.Proofs.Speaker.Keys
