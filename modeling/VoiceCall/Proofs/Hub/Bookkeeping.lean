import VoiceCall.Hub.Control
import VoiceCall.Hub.Receiver
import VoiceCall.Proofs.Decoding.Workers
import VoiceCall.Proofs.Speaker.Keys

namespace VoiceCall.Proofs.Hub.Bookkeeping

open VoiceCall.Proofs.Decoding.Workers
open VoiceCall.Proofs.Speaker.Keys

/-- Who is registered and of which user, which sources have departed, and what was told. -/
structure Ledger where
  registered : List (UInt32 × Option String)
  departed : List UInt32
  events : List Event

def entryOf (s : Speaker) : UInt32 × Option String :=
  (s.ssrc, s.user)

theorem ssrc_of_entryOf {s s' : Speaker} (h : entryOf s = entryOf s') : s.ssrc = s'.ssrc :=
  congrArg Prod.fst h

def ledger (h : Hub) : Ledger :=
  ⟨h.roster.speakers.map entryOf, h.departed, h.events⟩

def Ledger.Holds (l : Ledger) (ssrc : UInt32) : Prop :=
  ∃ user, (ssrc, user) ∈ l.registered

/-- What happens to a record at once. A departure is lifted only for a source that is welcome. -/
inductive Entry (welcome : UInt32 → Prop) (l : Ledger) : Ledger → Prop where
  | kept : Entry welcome l l
  | lifted {ssrc : UInt32} (hwelcome : welcome ssrc) (hholds : l.Holds ssrc) :
      Entry welcome l { l with departed := l.departed.filter (· ≠ ssrc) }
  | joined {ssrc : UInt32} (user : Option String) (hwelcome : welcome ssrc)
      (hnew : ¬ l.Holds ssrc) :
      Entry welcome l
        ⟨l.registered ++ [(ssrc, user)], l.departed.filter (· ≠ ssrc),
          l.events ++ [.speakerJoined ssrc user]⟩
  | left {ssrc : UInt32} {user : Option String} {departed : List UInt32}
      (hholds : (ssrc, user) ∈ l.registered)
      (hdeparted : ∀ other, other ∈ departed ↔ other = ssrc ∨ other ∈ l.departed) :
      Entry welcome l
        ⟨l.registered.filter (·.1 ≠ ssrc), departed, l.events ++ [.speakerLeft ssrc user]⟩

theorem Entry.mono {welcome welcome' : UInt32 → Prop} {l l' : Ledger} (h : Entry welcome l l')
    (hwelcome : ∀ ssrc, welcome ssrc → welcome' ssrc) : Entry welcome' l l' := by
  cases h with
  | kept => exact .kept
  | lifted hssrc hholds => exact .lifted (hwelcome _ hssrc) hholds
  | joined user hssrc hnew => exact .joined user (hwelcome _ hssrc) hnew
  | left hholds hdeparted => exact .left hholds hdeparted

theorem contains_iff {h : Hub} {ssrc : UInt32} :
    h.roster.contains ssrc ↔ (ledger h).Holds ssrc := by
  simp only [contains_iff_exists, Ledger.Holds, ledger, List.mem_map]
  constructor
  · rintro ⟨s, hmem, rfl⟩
    exact ⟨s.user, s, hmem, rfl⟩
  · rintro ⟨user, s, hmem, hentry⟩
    exact ⟨s, hmem, congrArg Prod.fst hentry⟩

theorem find?_eq_none_iff {h : Hub} {ssrc : UInt32} :
    h.roster.find? ssrc = none ↔ ¬ (ledger h).Holds ssrc := by
  rw [← contains_iff, find?_eq_none_iff_not_contains]

theorem entry_mem_of_find? {h : Hub} {ssrc : UInt32} {s : Speaker}
    (hfind : h.roster.find? ssrc = some s) :
    s.ssrc = ssrc ∧ (ssrc, s.user) ∈ (ledger h).registered := by
  obtain rfl := ssrc_of_find? hfind
  exact ⟨rfl, List.mem_map.mpr ⟨s, mem_of_find? hfind, rfl⟩⟩

theorem map_without (r : Roster) (ssrc : UInt32) :
    (r.without ssrc).speakers.map entryOf = (r.speakers.map entryOf).filter (·.1 ≠ ssrc) := by
  rw [speakers_without, List.filter_map]
  rfl

theorem map_without_of_find? {h : Hub} {ssrc : UInt32} (hfind : h.roster.find? ssrc = none) :
    (h.roster.without ssrc).speakers.map entryOf = h.roster.speakers.map entryOf := by
  rw [map_without, List.filter_eq_self]
  rintro ⟨other, user⟩ hmem
  refine decide_eq_true fun hssrc => find?_eq_none_iff.mp hfind ⟨user, ?_⟩
  exact hssrc ▸ hmem

theorem map_entryOf_serve (dsp : Dsp) (t : Decoding.Task) (r : Roster) :
    (t.serve dsp r).speakers.map entryOf = r.speakers.map entryOf := by
  rw [Decoding.Task.serve, speakers_replace]
  exact t.map_apply (fun _ _ _ => rfl) dsp r.speakers

theorem ledger_decode (dsp : Dsp) (place : Nat) (h : Hub) :
    ledger (h.decode dsp place) = ledger h := by
  rw [Hub.decode]
  split
  · rfl
  · rfl
  · simp only [ledger, map_entryOf_serve]

theorem ledger_obey (dsp : Dsp) (h : Hub) : ledger (h.obey dsp) = ledger h := by
  have hspeakers :
      (h.pool.obey (Decoding.Task.serve dsp) h.roster).2.speakers.map entryOf = _ :=
    effect_runFor (fun r : Roster => r.speakers.map entryOf) (map_entryOf_serve dsp) _ h.pool
      h.roster
  simp only [ledger, Hub.obey, hspeakers]

theorem ledger_resizePool (dsp : Dsp) (h : Hub) : ledger (h.resizePool dsp) = ledger h :=
  ledger_obey dsp _

theorem ledger_emit (h : Hub) (event : Event) :
    ledger (h.emit event) = { ledger h with events := (ledger h).events ++ [event] } :=
  rfl

theorem addSpeaker_of_contains (dsp : Dsp) {h : Hub} {ssrc : UInt32} (user : Option String)
    (hholds : h.roster.contains ssrc) :
    h.addSpeaker dsp ssrc user =
      ({ h with departed := h.departed.filter (· ≠ ssrc) }, false) := by
  rw [Hub.addSpeaker]
  exact if_pos hholds

theorem addSpeaker_of_not_contains (dsp : Dsp) {h : Hub} {ssrc : UInt32} (user : Option String)
    (hnew : ¬ h.roster.contains ssrc) :
    ∃ roster serial, roster.speakers.map entryOf = h.roster.speakers.map entryOf ++ [(ssrc, user)] ∧
      h.addSpeaker dsp ssrc user =
        ((({ h with
          roster := roster
          departed := h.departed.filter (· ≠ ssrc)
          nextSerial := serial } : Hub).resizePool dsp).emit (.speakerJoined ssrc user), true) := by
  let s := Speaker.create ssrc user h.nextSerial h.settings.jitterDesired h.settings.jitterMax
  have hs : ¬ h.roster.contains s.ssrc := hnew
  have hinsert : (h.roster.insert s).2 = true := by
    rw [Roster.insert, if_neg hs]
  refine ⟨(h.roster.insert s).1, h.nextSerial + 1, ?_, ?_⟩
  · rw [speakers_insert hs, List.map_append]
    rfl
  · rw [Hub.addSpeaker]
    exact (if_neg hnew).trans (if_pos hinsert)

theorem entry_addSpeaker (dsp : Dsp) (h : Hub) (ssrc : UInt32) (user : Option String) :
    Entry (· = ssrc) (ledger h) (ledger (h.addSpeaker dsp ssrc user).1) := by
  by_cases hholds : h.roster.contains ssrc
  · rw [addSpeaker_of_contains dsp user hholds]
    exact .lifted rfl (contains_iff.mp hholds)
  · obtain ⟨roster, serial, hspeakers, hadded⟩ := addSpeaker_of_not_contains dsp user hholds
    rw [hadded, ledger_emit, ledger_resizePool]
    change Entry _ _ ⟨roster.speakers.map entryOf, _, _⟩
    rw [hspeakers]
    exact .joined user rfl fun hheld => hholds (contains_iff.mpr hheld)

theorem ledger_speakerRemoved (dsp : Dsp) (h : Hub) (s : Speaker) :
    ledger (h.speakerRemoved dsp s) =
      ⟨(ledger h).registered,
        if h.isDeparted s.ssrc then h.departed else s.ssrc :: h.departed,
        h.events ++ [.speakerLeft s.ssrc s.user]⟩ := by
  rw [Hub.speakerRemoved, ledger_emit, ledger_resizePool]
  rfl

theorem mem_depart (h : Hub) (ssrc other : UInt32) :
    other ∈ (if h.isDeparted ssrc then h.departed else ssrc :: h.departed) ↔
      other = ssrc ∨ other ∈ h.departed := by
  split
  · rename_i hdeparted
    have hmem : ssrc ∈ h.departed := by simpa [Hub.isDeparted] using hdeparted
    constructor
    · exact .inr
    · rintro (rfl | hother)
      · exact hmem
      · exact hother
  · exact List.mem_cons

theorem entry_speakerRemoved (dsp : Dsp) {h : Hub} {roster : Roster} {ssrc : UInt32} {s : Speaker}
    (hspeakers : roster.speakers = (h.roster.without ssrc).speakers)
    (hfind : h.roster.find? ssrc = some s) :
    Entry (fun _ => False) (ledger h)
      (ledger (({ h with roster := roster } : Hub).speakerRemoved dsp s)) := by
  obtain ⟨rfl, hmem⟩ := entry_mem_of_find? hfind
  rw [ledger_speakerRemoved]
  change Entry _ _ ⟨roster.speakers.map entryOf, _, _⟩
  rw [hspeakers, map_without]
  exact .left hmem (mem_depart h s.ssrc)

theorem entry_removeSpeaker (dsp : Dsp) (h : Hub) (ssrc : UInt32) :
    Entry (fun _ => False) (ledger h) (ledger (h.removeSpeaker dsp ssrc).1) := by
  rw [Hub.removeSpeaker, Roster.remove]
  cases hfind : h.roster.find? ssrc with
  | none => exact .kept
  | some s => exact entry_speakerRemoved dsp rfl hfind

theorem entry_removeUser (dsp : Dsp) (h : Hub) (user : String) :
    Entry (fun _ => False) (ledger h) (ledger (h.removeUser dsp user).1) := by
  rw [Hub.removeUser, Roster.removeUser]
  cases hlookup : h.roster.users.lookup user with
  | none => exact .kept
  | some ssrc =>
      dsimp only
      cases hfind : h.roster.find? ssrc with
      | none =>
          change Entry _ _ ⟨(h.roster.without ssrc).speakers.map entryOf, _, _⟩
          rw [map_without_of_find? hfind]
          exact .kept
      | some s => exact entry_speakerRemoved dsp rfl hfind

theorem entry_admitUnknown (dsp : Dsp) (h : Hub) (ssrc : UInt32) :
    Entry (fun other => other = ssrc ∧ other ∉ h.departed) (ledger h)
      (ledger (h.admitUnknown dsp ssrc).1) := by
  rw [Hub.admitUnknown]
  split
  · exact .kept
  · rename_i hguard
    have hwelcome : ssrc ∉ h.departed := by
      simp [Hub.isDeparted] at hguard
      exact hguard.2
    refine (entry_addSpeaker dsp h ssrc none).mono ?_
    rintro _ rfl
    exact ⟨rfl, hwelcome⟩

end VoiceCall.Proofs.Hub.Bookkeeping
