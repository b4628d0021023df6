import VoiceCall.Proofs.Hub.History

namespace VoiceCall.Proofs.Hub.Departures

open VoiceCall.Proofs.Hub.Bookkeeping
open VoiceCall.Proofs.Hub.History

variable {welcome : UInt32 → Prop} {l l' : Ledger} {ssrc : UInt32}

theorem isDeparted_iff {h : Hub} : h.isDeparted ssrc ↔ ssrc ∈ h.departed :=
  List.contains_iff_mem

/-- Nobody is registered whose departure is on record. -/
def Apart (l : Ledger) : Prop :=
  ∀ ssrc, l.Holds ssrc → ssrc ∉ l.departed

theorem apart_entry (h : Apart l) (hentry : Entry welcome l l') : Apart l' := by
  intro other hholds
  cases hentry with
  | kept => exact h other hholds
  | lifted _ _ => exact fun hmem => h other hholds (List.mem_filter.mp hmem).1
  | @joined ssrc user _ _ =>
      intro hmem
      obtain ⟨hmem, hother⟩ := List.mem_filter.mp hmem
      obtain ⟨holder, hheld⟩ := hholds
      rcases List.mem_append.mp hheld with hheld | hheld
      · exact h other ⟨holder, hheld⟩ hmem
      · cases List.mem_singleton.mp hheld
        exact of_decide_eq_true hother rfl
  | @left ssrc user departed _ hdeparted =>
      obtain ⟨holder, hheld⟩ := hholds
      obtain ⟨hheld, hother⟩ := List.mem_filter.mp hheld
      intro hmem
      rcases (hdeparted other).mp hmem with rfl | hmem
      · exact of_decide_eq_true hother rfl
      · exact h other ⟨holder, hheld⟩ hmem

/-- Whoever is not registered any more has departed. -/
theorem departed_of_removed (hholds : l.Holds ssrc) (hgone : ¬ l'.Holds ssrc)
    (hentry : Entry welcome l l') : ssrc ∈ l'.departed := by
  obtain ⟨user, hmem⟩ := hholds
  cases hentry with
  | kept => exact absurd ⟨user, hmem⟩ hgone
  | lifted _ _ => exact absurd ⟨user, hmem⟩ hgone
  | joined _ _ _ => exact absurd ⟨user, List.mem_append_left _ hmem⟩ hgone
  | @left other _ _ _ hdeparted =>
      refine (hdeparted ssrc).mpr (.inl (Decidable.byContradiction fun hother => hgone ⟨user, ?_⟩))
      exact List.mem_filter.mpr ⟨hmem, decide_eq_true hother⟩

/-- Nobody was told between two moments that a source has joined. -/
def Unheard (ssrc : UInt32) (before behind : List Event) : Prop :=
  ∃ told, behind = before ++ told ∧ ∀ user, .speakerJoined ssrc user ∉ told

theorem Unheard.refl (ssrc : UInt32) (events : List Event) : Unheard ssrc events events :=
  ⟨[], (List.append_nil events).symm, nofun⟩

theorem Unheard.trans {before between behind : List Event} (h : Unheard ssrc before between)
    (hbehind : Unheard ssrc between behind) : Unheard ssrc before behind := by
  obtain ⟨one, rfl, hone⟩ := h
  obtain ⟨other, rfl, hother⟩ := hbehind
  refine ⟨one ++ other, List.append_assoc _ _ _, fun user hmem => ?_⟩
  exact (List.mem_append.mp hmem).elim (hone user) (hother user)

/-- A departure stays on record if its source is not welcome, and nobody is told that it joins. -/
theorem departed_entry (hdeparted : ssrc ∈ l.departed) (hunwelcome : ¬ welcome ssrc)
    (hentry : Entry welcome l l') : ssrc ∈ l'.departed ∧ Unheard ssrc l.events l'.events := by
  cases hentry with
  | kept => exact ⟨hdeparted, .refl ssrc _⟩
  | @lifted other hwelcome _ =>
      have hother : ssrc ≠ other := by
        rintro rfl
        exact hunwelcome hwelcome
      exact ⟨List.mem_filter.mpr ⟨hdeparted, decide_eq_true hother⟩, .refl ssrc _⟩
  | @joined other user hwelcome _ =>
      have hother : ssrc ≠ other := by
        rintro rfl
        exact hunwelcome hwelcome
      refine ⟨List.mem_filter.mpr ⟨hdeparted, decide_eq_true hother⟩, [_], rfl, ?_⟩
      intro holder hmem
      exact hother (Event.speakerJoined.inj (List.mem_singleton.mp hmem)).1
  | left _ hdeparted' =>
      exact ⟨(hdeparted' ssrc).mpr (.inr hdeparted), [_], rfl, by simp⟩

theorem apart_apply (dsp : Dsp) {h : Hub} (hapart : Apart (ledger h)) (call : Call) :
    Apart (ledger (call.apply dsp h)) := by
  by_cases hcall : call = .shutdown
  · subst hcall
    obtain ⟨l, -, hledger⟩ := entries_shutdown dsp h
    rw [Call.apply, hledger]
    exact fun _ _ => List.not_mem_nil
  · exact apart_entry hapart (entry_apply dsp h hcall)

theorem apart_after (dsp : Dsp) (settings : Settings) (calls : List Call) :
    Apart (ledger (after dsp settings calls)) := by
  induction calls with
  | nil => exact fun _ _ => List.not_mem_nil
  | cons call earlier ih => exact apart_apply dsp ih call

theorem not_welcomes {h : Hub} {call : Call} (hdeparted : ssrc ∈ h.departed)
    (hcall : ∀ user, call ≠ .addSpeaker ssrc user) : ¬ call.Welcomes h ssrc := by
  cases call with
  | addSpeaker other user =>
      rintro rfl
      exact hcall user rfl
  | admitUnknown other => exact fun hwelcome => hwelcome.2 hdeparted
  | _ => exact id

theorem departed_after (dsp : Dsp) (settings : Settings) {calls : List Call}
    (hdeparted : ssrc ∈ (after dsp settings calls).departed) {later : List Call}
    (hlater : .shutdown ∉ later ∧ ∀ user, .addSpeaker ssrc user ∉ later) :
    ssrc ∈ (after dsp settings (later ++ calls)).departed ∧
      Unheard ssrc (after dsp settings calls).events
        (after dsp settings (later ++ calls)).events := by
  induction later with
  | nil => exact ⟨hdeparted, .refl ssrc _⟩
  | cons call later ih =>
      obtain ⟨hshutdown, hadd⟩ := hlater
      obtain ⟨hgone, hunheard⟩ := ih ⟨fun hmem => hshutdown (List.mem_cons_of_mem call hmem),
        fun user hmem => hadd user (List.mem_cons_of_mem call hmem)⟩
      have hcall : call ≠ .shutdown := by
        rintro rfl
        exact hshutdown List.mem_cons_self
      have hother : ∀ user, call ≠ .addSpeaker ssrc user := by
        rintro user rfl
        exact hadd user List.mem_cons_self
      obtain ⟨hstill, hnext⟩ :=
        departed_entry hgone (not_welcomes hgone hother) (entry_apply dsp _ hcall)
      exact ⟨hstill, hunheard.trans hnext⟩

theorem handlePacket_of_departed {h : Hub} {header : Packet.Header}
    (hdeparted : h.isDeparted header.ssrc) (hgone : ¬ h.roster.contains header.ssrc)
    (payload : Octets) (now : Nat) : h.handlePacket header payload now = (h, .dropped) := by
  have hnobody : h.roster.find? header.ssrc = none := by
    rwa [find?_eq_none_iff, ← contains_iff]
  rw [Hub.handlePacket, Hub.destination, hnobody]
  split
  · rfl
  · rw [Hub.routeUnknown, if_pos hdeparted]
  · rename_i s hdestination
    repeat' split at hdestination
    all_goals cases hdestination
    rename_i hfound
    cases hfound

theorem admitUnknown_of_departed (dsp : Dsp) {h : Hub} (hdeparted : h.isDeparted ssrc) :
    h.admitUnknown dsp ssrc = (h, false) := by
  rw [Hub.admitUnknown, hdeparted, Bool.or_true, if_pos rfl]

theorem addSpeaker_welcomes (dsp : Dsp) (h : Hub) (ssrc : UInt32) (user : Option String) :
    (h.addSpeaker dsp ssrc user).1.roster.contains ssrc ∧
      ¬ (h.addSpeaker dsp ssrc user).1.isDeparted ssrc := by
  have hlifted : ssrc ∉ h.departed.filter (· ≠ ssrc) := by simp
  rw [isDeparted_iff]
  by_cases hholds : h.roster.contains ssrc
  · rw [addSpeaker_of_contains dsp user hholds]
    exact ⟨hholds, hlifted⟩
  · obtain ⟨roster, serial, hspeakers, hadded⟩ := addSpeaker_of_not_contains dsp user hholds
    rw [hadded, contains_iff, ledger_emit, ledger_resizePool]
    refine ⟨⟨user, ?_⟩, hlifted⟩
    change (ssrc, user) ∈ roster.speakers.map entryOf
    rw [hspeakers]
    exact List.mem_append_right _ List.mem_cons_self

/-- A source is not registered, and neither its packets nor a report of it change anything. -/
structure Gone (dsp : Dsp) (h : Hub) (ssrc : UInt32) : Prop where
  absent : ¬ h.roster.contains ssrc
  departed : h.isDeparted ssrc
  packets (header : Packet.Header) (payload : Octets) (now : Nat) (hssrc : header.ssrc = ssrc) :
    h.handlePacket header payload now = (h, .dropped)
  reports : h.admitUnknown dsp ssrc = (h, false)

theorem gone_of_departed (dsp : Dsp) {h : Hub} (hapart : Apart (ledger h))
    (hdeparted : ssrc ∈ h.departed) : Gone dsp h ssrc := by
  have habsent : ¬ h.roster.contains ssrc := fun hholds =>
    hapart ssrc (contains_iff.mp hholds) hdeparted
  refine ⟨habsent, isDeparted_iff.mpr hdeparted, ?_, ?_⟩
  · rintro header payload now rfl
    exact handlePacket_of_departed (isDeparted_iff.mpr hdeparted) habsent payload now
  · exact admitUnknown_of_departed dsp (isDeparted_iff.mpr hdeparted)

/-- No source is registered and departed at once. One that was removed is gone until it is announced
again, and nobody is told that it has joined; and an announcement makes it welcome. -/
theorem departed_stay_gone (dsp : Dsp) (settings : Settings) :
    (∀ calls ssrc, ¬ ((after dsp settings calls).roster.contains ssrc ∧
        (after dsp settings calls).isDeparted ssrc)) ∧
      (∀ earlier call later ssrc, (after dsp settings earlier).roster.contains ssrc →
        ¬ (after dsp settings (call :: earlier)).roster.contains ssrc →
        call ≠ .shutdown → .shutdown ∉ later → (∀ user, .addSpeaker ssrc user ∉ later) →
        Gone dsp (after dsp settings (later ++ call :: earlier)) ssrc ∧
          Unheard ssrc (after dsp settings (call :: earlier)).events
            (after dsp settings (later ++ call :: earlier)).events) ∧
      ∀ calls ssrc user,
        (after dsp settings (.addSpeaker ssrc user :: calls)).roster.contains ssrc ∧
          ¬ (after dsp settings (.addSpeaker ssrc user :: calls)).isDeparted ssrc := by
  refine ⟨?_, ?_, ?_⟩
  · rintro calls ssrc ⟨hholds, hdeparted⟩
    exact apart_after dsp settings calls ssrc (contains_iff.mp hholds) (isDeparted_iff.mp hdeparted)
  · intro earlier call later ssrc hheld hgone hcall hshutdown hadd
    have hdeparted : ssrc ∈ (after dsp settings (call :: earlier)).departed :=
      departed_of_removed (contains_iff.mp hheld) (fun hholds => hgone (contains_iff.mpr hholds))
        (entry_apply dsp _ hcall)
    obtain ⟨hstill, hunheard⟩ := departed_after dsp settings hdeparted ⟨hshutdown, hadd⟩
    exact ⟨gone_of_departed dsp (apart_after dsp settings _) hstill, hunheard⟩
  · intro calls ssrc user
    exact addSpeaker_welcomes dsp _ ssrc user

theorem departed_stay_gone_removed :
    Gone .quiet (after .quiet {} [.admitUnknown 7, .removeSpeaker 7, .addSpeaker 7 none]) 7 := by
  obtain ⟨-, hgone, hwelcome⟩ := departed_stay_gone .quiet {}
  have hremoved :
      ¬ (after .quiet {} [.removeSpeaker 7, .addSpeaker 7 none]).roster.contains 7 := by
    rw [contains_iff]
    rintro ⟨user, hmem⟩
    rw [after, Call.apply, registered_removeSpeaker] at hmem
    exact of_decide_eq_true (List.mem_filter.mp hmem).2 rfl
  exact (hgone [.addSpeaker 7 none] (.removeSpeaker 7) [.admitUnknown 7] 7 (hwelcome [] 7 none).1
    hremoved (by simp) (by simp) (by simp)).1

end VoiceCall.Proofs.Hub.Departures
