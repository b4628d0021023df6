import Mathlib.Logic.Relation
import VoiceCall.Proofs.Hub.Index
import VoiceCall.Session.Run

namespace VoiceCall.Proofs.Session.Activity

open VoiceCall.Session
open VoiceCall.Proofs.Hub.Index
open VoiceCall.Proofs.Hub.Bookkeeping
open VoiceCall.Proofs.Speaker.Keys

inductive Call where
  | mapped (ssrc : UInt32) (user : String)
  | admitted (ssrc : UInt32)
  | userLeft (user : String)
  | silent (ssrc : UInt32)
  /-- The speakers are heard at these levels from now on. -/
  | heard (level : UInt32 → Sample)
  | poll

def atLevels (level : UInt32 → Sample) (r : Roster) : Roster :=
  r.replace (r.speakers.map fun speaker => { speaker with level := level speaker.ssrc })
    (by rw [List.map_map]; rfl)

def Call.apply (dsp : Dsp) (s : Session) : Call → Session
  | mapped ssrc user => { s with hub := mapSpeaker dsp s.hub ssrc user }
  | admitted ssrc => (s.onNotice dsp (.unknownSource ssrc)).1
  | userLeft user => s.userLeft dsp user
  | silent ssrc => s.speakerSilent ssrc
  | heard level => { s with hub := { s.hub with roster := atLevels level s.hub.roster } }
  | poll => s.pollDevices.pollSpeakers

/-- A session after a history, the latest call first. -/
def after (dsp : Dsp) (s₀ : Session) : List Call → Session
  | [] => s₀
  | call :: earlier => call.apply dsp (after dsp s₀ earlier)

/-- Whether a source is told to be speaking after an event, if it was told to be so before. -/
def hear (ssrc : UInt32) (speaking : Bool) : Event → Bool
  | .speakerJoined other _ => if other = ssrc then false else speaking
  | .speakerActivity other _ now => if other = ssrc then now else speaking
  | _ => speaking

def told (ssrc : UInt32) (events : List Event) : Bool :=
  events.foldl (hear ssrc) false

def isJoin (ssrc : UInt32) : Event → Bool
  | .speakerJoined other _ => other = ssrc
  | _ => false

/-- How often a source has joined. -/
def joins (ssrc : UInt32) (events : List Event) : Nat :=
  events.countP (isJoin ssrc)

/-- What is told of each speaker is whether it speaks. -/
def Mirrored (s : Session) : Prop :=
  ∀ speaker ∈ s.hub.roster.speakers, told speaker.ssrc s.hub.events = isSpeaking speaker

/-- Whether a source is registered and speaks. -/
def speaks (s : Session) (ssrc : UInt32) : Bool :=
  (s.hub.roster.find? ssrc).any isSpeaking

/-- The source has joined, perhaps anew. -/
def Joins (dsp : Dsp) (s : Session) (call : Call) (ssrc : UInt32) : Prop :=
  joins ssrc s.hub.events < joins ssrc (call.apply dsp s).hub.events

/-- The source is reported silent, its user leaves, or it is found not to speak. -/
def Forgets (s : Session) : Call → UInt32 → Prop
  | .silent other, ssrc => ssrc = other ∧ s.hub.roster.contains other
  | .userLeft user, ssrc => s.hub.roster.ssrcOfUser user = some ssrc
  | .poll, ssrc => speaks s ssrc = false
  | _, _ => False

/-- The source was found to speak, and nothing has made the session forget that. -/
def Remembered (dsp : Dsp) (s₀ : Session) : List Call → UInt32 → Prop
  | [], _ => False
  | call :: earlier, ssrc =>
    ¬ Forgets (after dsp s₀ earlier) call ssrc ∧
      (call = .poll ∨ Remembered dsp s₀ earlier ssrc)

/-- The source has joined while it was remembered, and is remembered still. -/
def Overlooked (dsp : Dsp) (s₀ : Session) : List Call → UInt32 → Prop
  | [], _ => False
  | call :: earlier, ssrc =>
    ¬ Forgets (after dsp s₀ earlier) call ssrc ∧
      (Overlooked dsp s₀ earlier ssrc ∨
        Remembered dsp s₀ earlier ssrc ∧ Joins dsp (after dsp s₀ earlier) call ssrc)

variable {dsp : Dsp} {s₀ s s' : Session} {calls : List Call} {ssrc : UInt32}

theorem remembered_of_overlooked (h : Overlooked dsp s₀ calls ssrc) :
    Remembered dsp s₀ calls ssrc := by
  induction calls with
  | nil => exact h
  | cons call earlier ih =>
      obtain ⟨hkept, hbefore⟩ := h
      refine ⟨hkept, .inr ?_⟩
      rcases hbefore with hoverlooked | ⟨hremembered, -⟩
      · exact ih hoverlooked
      · exact hremembered

theorem overlooked_cons {call : Call} (hjoins : ¬ Joins dsp (after dsp s₀ calls) call ssrc) :
    Overlooked dsp s₀ (call :: calls) ssrc ↔
      ¬ Forgets (after dsp s₀ calls) call ssrc ∧ Overlooked dsp s₀ calls ssrc := by
  rw [Overlooked]
  tauto

/-- What the session has in mind of a source. -/
def recalls (s : Session) (ssrc : UInt32) : Bool :=
  (s.activity.lookup ssrc).getD false

/-- Several speakers have come and gone. -/
def Traffic : Ledger → Ledger → Prop :=
  Relation.ReflTransGen (Entry fun _ => True)

theorem traffic_entry {welcome : UInt32 → Prop} {l l' : Ledger} (hentry : Entry welcome l l') :
    Traffic l l' :=
  .single (hentry.mono fun _ _ => trivial)

theorem traffic_reassign (dsp : Dsp) (h : Hub) (ssrc : UInt32) (user : String) :
    let cleared :=
      match h.roster.ssrcOfUser user with
      | some previous => (h.removeSpeaker dsp previous).1
      | none => h
    Traffic (ledger h) (ledger (cleared.addSpeaker dsp ssrc (some user)).1) := by
  intro cleared
  refine Relation.ReflTransGen.trans ?_ (traffic_entry (entry_addSpeaker dsp _ ssrc (some user)))
  dsimp only [cleared]
  split
  · exact traffic_entry (entry_removeSpeaker dsp h _)
  · exact .refl

theorem traffic_mapSpeaker (dsp : Dsp) (h : Hub) (ssrc : UInt32) (user : String) :
    Traffic (ledger h) (ledger (mapSpeaker dsp h ssrc user)) := by
  rw [mapSpeaker]
  split
  · split
    · exact .refl
    · exact (traffic_entry (entry_removeSpeaker dsp h ssrc)).trans
        (traffic_reassign dsp _ ssrc user)
  · exact traffic_reassign dsp h ssrc user

theorem nodup_traffic {l l' : Ledger} (hsources : (l.registered.map Prod.fst).Nodup)
    (htraffic : Traffic l l') : (l'.registered.map Prod.fst).Nodup := by
  induction htraffic with
  | refl => exact hsources
  | tail _ hentry ih =>
      cases hentry with
      | kept => exact ih
      | lifted _ _ => exact ih
      | joined user _ hnew =>
          rw [List.map_append, List.nodup_append_comm]
          refine List.nodup_cons.mpr ⟨?_, ih⟩
          intro hmem
          obtain ⟨⟨_, holder⟩, hholds, rfl⟩ := List.mem_map.mp hmem
          exact hnew ⟨holder, hholds⟩
      | left _ _ => exact ih.sublist (List.filter_sublist.map Prod.fst)

theorem told_concat (ssrc : UInt32) (events : List Event) (event : Event) :
    told ssrc (events ++ [event]) = hear ssrc (told ssrc events) event := by
  rw [told, List.foldl_append]
  rfl

theorem joins_concat (ssrc : UInt32) (events : List Event) (event : Event) :
    joins ssrc (events ++ [event]) = joins ssrc events + if isJoin ssrc event then 1 else 0 := by
  rw [joins, List.countP_append, List.countP_singleton, joins]

/-- Whoever comes or goes, a source is told to speak by nothing, and no more once it has joined. -/
theorem told_traffic {l l' : Ledger} (htraffic : Traffic l l') (ssrc : UInt32) :
    told ssrc l'.events = false ∧ joins ssrc l.events < joins ssrc l'.events ∨
      told ssrc l'.events = told ssrc l.events ∧ joins ssrc l'.events = joins ssrc l.events ∧
        (l'.Holds ssrc → l.Holds ssrc) := by
  induction htraffic with
  | refl => exact .inr ⟨rfl, rfl, id⟩
  | tail _ hentry ih =>
      cases hentry with
      | kept => exact ih
      | lifted _ _ => exact ih
      | @joined other user _ _ =>
          by_cases hother : other = ssrc
          · have hjoin : isJoin ssrc (.speakerJoined other user) := decide_eq_true hother
            rw [told_concat, joins_concat, if_pos hjoin, hear, if_pos hother]
            refine .inl ⟨rfl, ?_⟩
            rcases ih with ⟨-, hmore⟩ | ⟨-, hsame, -⟩
            · omega
            · omega
          · have hjoin : ¬ isJoin ssrc (.speakerJoined other user) := by simpa [isJoin] using hother
            rw [told_concat, joins_concat, if_neg hjoin, hear, if_neg hother]
            refine ih.imp_right ?_
            rintro ⟨htold, hsame, hheld⟩
            refine ⟨htold, hsame, ?_⟩
            rintro ⟨holder, hmem⟩
            rcases List.mem_append.mp hmem with hmem | hmem
            · exact hheld ⟨holder, hmem⟩
            · exact absurd (Prod.mk.inj (List.mem_singleton.mp hmem)).1.symm hother
      | left _ _ =>
          rw [told_concat, joins_concat]
          refine ih.imp_right ?_
          rintro ⟨htold, hsame, hheld⟩
          refine ⟨htold, hsame, ?_⟩
          rintro ⟨holder, hmem⟩
          exact hheld ⟨holder, (List.mem_filter.mp hmem).1⟩

theorem recalls_put (s : Session) (ssrc other : UInt32) (speaking : Bool) :
    recalls { s with activity := putActivity s.activity ssrc speaking } other =
      if other = ssrc then speaking else recalls s other := by
  rw [recalls, putActivity, lookup_put]
  split <;> rfl

theorem told_activity (ssrc other : UInt32) (events : List Event) (user : Option String)
    (speaking : Bool) :
    told ssrc (events ++ [.speakerActivity other user speaking]) =
      if other = ssrc then speaking else told ssrc events :=
  told_concat ssrc events _

theorem joins_activity (ssrc other : UInt32) (events : List Event) (user : Option String)
    (speaking : Bool) :
    joins ssrc (events ++ [.speakerActivity other user speaking]) = joins ssrc events :=
  joins_concat ssrc events _

theorem pollSpeaker_effect (s : Session) (speaker : Speaker) (ssrc : UInt32) :
    recalls (s.pollSpeaker speaker) ssrc =
        (if ssrc = speaker.ssrc then isSpeaking speaker else recalls s ssrc) ∧
      told ssrc (s.pollSpeaker speaker).hub.events =
        (if ssrc = speaker.ssrc ∧ isSpeaking speaker ≠ recalls s ssrc then isSpeaking speaker
          else told ssrc s.hub.events) ∧
      joins ssrc (s.pollSpeaker speaker).hub.events = joins ssrc s.hub.events ∧
      (s.pollSpeaker speaker).hub.roster = s.hub.roster := by
  have hput := recalls_put s speaker.ssrc ssrc (isSpeaking speaker)
  rw [Session.pollSpeaker]
  split
  · rename_i hsame
    refine ⟨hput, ?_, rfl, rfl⟩
    rw [if_neg]
    rintro ⟨rfl, hother⟩
    exact hother hsame
  · rename_i hother
    refine ⟨hput, ?_, joins_activity ssrc _ _ _ _, rfl⟩
    refine (told_activity ssrc _ _ _ _).trans ?_
    by_cases hssrc : ssrc = speaker.ssrc
    · subst hssrc
      rw [if_pos rfl, if_pos ⟨rfl, hother⟩]
    · rw [if_neg (Ne.symm hssrc), if_neg fun hboth => hssrc hboth.1]

/-- What a session has in mind of a source and tells of it after a look at some speakers. -/
theorem foldl_pollSpeaker {speakers : List Speaker} (hsources : (speakers.map Speaker.ssrc).Nodup)
    (s : Session) (ssrc : UInt32) :
    let s' := speakers.foldl pollSpeaker s
    s'.hub.roster = s.hub.roster ∧ joins ssrc s'.hub.events = joins ssrc s.hub.events ∧
      match speakers.find? (·.ssrc = ssrc) with
      | none => recalls s' ssrc = recalls s ssrc ∧ told ssrc s'.hub.events = told ssrc s.hub.events
      | some speaker => recalls s' ssrc = isSpeaking speaker ∧
          told ssrc s'.hub.events =
            if isSpeaking speaker ≠ recalls s ssrc then isSpeaking speaker
            else told ssrc s.hub.events := by
  induction speakers generalizing s with
  | nil => exact ⟨rfl, rfl, rfl, rfl⟩
  | cons speaker speakers ih =>
      obtain ⟨hnew, hsources⟩ := List.nodup_cons.mp hsources
      obtain ⟨hroster, hjoins, hrest⟩ := ih hsources (s.pollSpeaker speaker)
      obtain ⟨hrecalls, htold, hjoin, hsame⟩ := pollSpeaker_effect s speaker ssrc
      refine ⟨hroster.trans hsame, hjoins.trans hjoin, ?_⟩
      rw [hrecalls, htold] at hrest
      by_cases hssrc : ssrc = speaker.ssrc
      · subst hssrc
        have hnone : speakers.find? (·.ssrc = speaker.ssrc) = none := by
          refine List.find?_eq_none.mpr ?_
          intro other hmem hother
          exact hnew (List.mem_map.mpr ⟨other, hmem, of_decide_eq_true hother⟩)
        rw [hnone] at hrest
        rw [List.find?_cons_of_pos (by simp)]
        simpa using hrest
      · rw [List.find?_cons_of_neg (by simpa using Ne.symm hssrc)]
        simp only [hssrc, false_and, if_false] at hrest
        exact hrest

/-- Between two moments nothing was told of a source, and nothing has become of the speakers. -/
structure Unmoved (ssrc : UInt32) (s s' : Session) : Prop where
  roster : s'.hub.roster = s.hub.roster
  activity : s'.activity = s.activity
  told : told ssrc s'.hub.events = told ssrc s.hub.events
  joins : joins ssrc s'.hub.events = joins ssrc s.hub.events

theorem unmoved_pollDevices (s : Session) (ssrc : UInt32) : Unmoved ssrc s s.pollDevices := by
  rw [Session.pollDevices]
  cases s.intake.bind fun intake => intake.stream.line.checkFault.2 with
  | none =>
      dsimp only
      split
      · exact ⟨rfl, rfl, told_concat ssrc _ _, joins_concat ssrc _ _⟩
      · exact ⟨rfl, rfl, rfl, rfl⟩
  | some message =>
      dsimp only
      split
      · exact ⟨rfl, rfl, (told_concat ssrc _ _).trans (told_concat ssrc _ _),
          (joins_concat ssrc _ _).trans (joins_concat ssrc _ _)⟩
      · exact ⟨rfl, rfl, told_concat ssrc _ _, joins_concat ssrc _ _⟩

/-- After a look at the speakers a session has in mind who speaks, and tells what is new of it. -/
theorem pollSpeakers_effect (hsources : (s.hub.roster.speakers.map Speaker.ssrc).Nodup)
    (ssrc : UInt32) :
    s.pollSpeakers.hub.roster = s.hub.roster ∧
      joins ssrc s.pollSpeakers.hub.events = joins ssrc s.hub.events ∧
      recalls s.pollSpeakers ssrc = speaks s ssrc ∧
      (s.hub.roster.contains ssrc → told ssrc s.pollSpeakers.hub.events =
        if speaks s ssrc ≠ recalls s ssrc then speaks s ssrc else told ssrc s.hub.events) := by
  let known := s.activity.filter fun entry => s.hub.roster.speakers.any (·.ssrc = entry.1)
  have hknown : known.lookup ssrc =
      if s.hub.roster.contains ssrc then s.activity.lookup ssrc else none := by
    rw [contains_eq]
    exact lookup_filter s.activity (fun other => s.hub.roster.speakers.any (·.ssrc = other)) ssrc
  obtain ⟨hroster, hjoins, hpolled⟩ :=
    foldl_pollSpeaker hsources { s with activity := known } ssrc
  refine ⟨hroster, hjoins, ?_⟩
  rw [← find?_eq] at hpolled
  rw [speaks]
  cases hfind : s.hub.roster.find? ssrc with
  | none =>
      have hnobody : ¬ s.hub.roster.contains ssrc := by
        rw [contains_iff]
        exact find?_eq_none_iff.mp hfind
      rw [hfind] at hpolled
      rw [if_neg hnobody] at hknown
      refine ⟨hpolled.1.trans ?_, fun hholds => absurd hholds hnobody⟩
      rw [recalls, hknown]
      rfl
  | some speaker =>
      have hholds : s.hub.roster.contains ssrc :=
        contains_iff.mpr ⟨speaker.user, (entry_mem_of_find? hfind).2⟩
      have hrecalls : recalls { s with activity := known } ssrc = recalls s ssrc := by
        rw [if_pos hholds] at hknown
        rw [recalls, hknown, recalls]
      rw [hfind, hrecalls] at hpolled
      exact ⟨hpolled.1, fun _ => hpolled.2⟩

theorem poll_effect (hsources : ((ledger s.hub).registered.map Prod.fst).Nodup) (ssrc : UInt32) :
    let s' := s.pollDevices.pollSpeakers
    s'.hub.roster = s.hub.roster ∧ joins ssrc s'.hub.events = joins ssrc s.hub.events ∧
      recalls s' ssrc = speaks s ssrc ∧
      ((ledger s.hub).Holds ssrc → told ssrc s'.hub.events =
        if speaks s ssrc ≠ recalls s ssrc then speaks s ssrc else told ssrc s.hub.events) := by
  obtain ⟨hroster, hactivity, htold, hjoins⟩ := unmoved_pollDevices s ssrc
  have hspeakers : (s.pollDevices.hub.roster.speakers.map Speaker.ssrc).Nodup := by
    rw [ledger, List.map_map] at hsources
    rwa [hroster]
  have heffect := pollSpeakers_effect hspeakers ssrc
  have hrecalls : recalls s.pollDevices ssrc = recalls s ssrc := by
    rw [recalls, hactivity, recalls]
  have hspeaks : speaks s.pollDevices ssrc = speaks s ssrc := by
    rw [speaks, hroster, speaks]
  rw [hroster, hjoins, hrecalls, hspeaks, htold, contains_iff] at heffect
  exact heffect

theorem speakerSilent_effect {speaker : Speaker} (hfind : s.hub.roster.find? ssrc = some speaker)
    (other : UInt32) :
    recalls (s.speakerSilent ssrc) other = (if other = ssrc then false else recalls s other) ∧
      told other (s.speakerSilent ssrc).hub.events =
        (if other = ssrc ∧ s.activity.lookup ssrc ≠ some false then false
          else told other s.hub.events) ∧
      joins other (s.speakerSilent ssrc).hub.events = joins other s.hub.events ∧
      (s.speakerSilent ssrc).hub.roster = s.hub.roster := by
  have hput := recalls_put s ssrc other false
  rw [Session.speakerSilent, hfind]
  dsimp only
  split
  · rename_i hsame
    refine ⟨hput, ?_, rfl, rfl⟩
    rw [if_neg]
    rintro ⟨-, hother⟩
    exact hother hsame
  · rename_i hother
    refine ⟨hput, ?_, joins_activity other _ _ _ _, rfl⟩
    refine (told_activity other _ _ _ _).trans ?_
    by_cases hssrc : ssrc = other
    · rw [if_pos hssrc, if_pos ⟨hssrc.symm, hother⟩]
    · rw [if_neg hssrc, if_neg fun hboth => hssrc hboth.1.symm]

/-- The session remembers what it should, and what is told of a speaker is what it remembers, unless
the speaker has been overlooked. -/
structure Kept (dsp : Dsp) (s₀ : Session) (calls : List Call) : Prop where
  sources : ((ledger (after dsp s₀ calls).hub).registered.map Prod.fst).Nodup
  recalled : ∀ ssrc, recalls (after dsp s₀ calls) ssrc ↔ Remembered dsp s₀ calls ssrc
  told : ∀ ssrc, (ledger (after dsp s₀ calls).hub).Holds ssrc →
    (told ssrc (after dsp s₀ calls).hub.events ↔
      Remembered dsp s₀ calls ssrc ∧ ¬ Overlooked dsp s₀ calls ssrc)

theorem kept_traffic (h : Kept dsp s₀ calls) {call : Call} (hcall : call ≠ .poll)
    (htraffic : Traffic (ledger (after dsp s₀ calls).hub)
      (ledger (after dsp s₀ (call :: calls)).hub))
    (hrecalls : ∀ ssrc, recalls (after dsp s₀ (call :: calls)) ssrc ↔
      ¬ Forgets (after dsp s₀ calls) call ssrc ∧ recalls (after dsp s₀ calls) ssrc)
    (hgone : ∀ ssrc, Forgets (after dsp s₀ calls) call ssrc →
      ¬ (ledger (after dsp s₀ (call :: calls)).hub).Holds ssrc) :
    Kept dsp s₀ (call :: calls) := by
  refine ⟨nodup_traffic h.sources htraffic, ?_, ?_⟩
  · intro ssrc
    rw [hrecalls, h.recalled, Remembered]
    simp only [hcall, false_or]
  · intro ssrc hholds
    have hkept : ¬ Forgets (after dsp s₀ calls) call ssrc := fun hforgets =>
      hgone ssrc hforgets hholds
    rw [Remembered, Overlooked]
    simp only [hkept, hcall, not_false_eq_true, true_and, false_or]
    rcases told_traffic htraffic ssrc with ⟨hsilent, hjoins⟩ | ⟨hsame, hjoins, hheld⟩
    · have hjoined : Joins dsp (after dsp s₀ calls) call ssrc := hjoins
      rw [show told ssrc (after dsp s₀ (call :: calls)).hub.events = false from hsilent]
      simp only [hjoined, and_true, Bool.false_eq_true, false_iff]
      tauto
    · have hjoined : ¬ Joins dsp (after dsp s₀ calls) call ssrc := fun hmore =>
        Nat.ne_of_gt hmore hjoins
      rw [show told ssrc (after dsp s₀ (call :: calls)).hub.events = _ from hsame]
      simp only [hjoined, and_false, or_false]
      exact h.told ssrc (hheld hholds)

theorem not_holds_removeUser (dsp : Dsp) {h : Hub} {user : String}
    (hnamed : h.roster.ssrcOfUser user = some ssrc) :
    ¬ (ledger (h.removeUser dsp user).1).Holds ssrc := by
  have hlookup : h.roster.users.lookup user = some ssrc := hnamed
  have hregistered : (ledger (h.removeUser dsp user).1).registered =
      (h.roster.without ssrc).speakers.map entryOf := by
    rw [Hub.removeUser, Roster.removeUser, hlookup]
    dsimp only
    split
    · rename_i hremoved
      obtain ⟨rfl, -⟩ := Prod.mk.inj hremoved
      rw [ledger_speakerRemoved]
      rfl
    · rename_i hremoved
      obtain ⟨rfl, -⟩ := Prod.mk.inj hremoved
      rfl
  rintro ⟨holder, hmem⟩
  rw [hregistered, map_without] at hmem
  exact of_decide_eq_true (List.mem_filter.mp hmem).2 rfl

theorem kept_userLeft (h : Kept dsp s₀ calls) (user : String) :
    Kept dsp s₀ (.userLeft user :: calls) := by
  refine kept_traffic h (by rintro ⟨⟩) (traffic_entry (entry_removeUser dsp _ user)) ?_ ?_
  · intro ssrc
    simp only [after, Call.apply, Forgets, recalls, Session.userLeft]
    cases hnamed : (after dsp s₀ calls).hub.roster.ssrcOfUser user with
    | none => simp
    | some other =>
        dsimp only
        rw [lookup_filter_ne]
        by_cases hother : ssrc = other
        · simp [hother]
        · simp [hother, Ne.symm hother]
  · intro ssrc hforgets
    exact not_holds_removeUser dsp hforgets

theorem kept_mapped (h : Kept dsp s₀ calls) (ssrc : UInt32) (user : String) :
    Kept dsp s₀ (.mapped ssrc user :: calls) := by
  refine kept_traffic h (by rintro ⟨⟩) (traffic_mapSpeaker dsp _ ssrc user) ?_ ?_
  · intro ssrc
    exact (and_iff_right id).symm
  · intro ssrc hforgets
    exact hforgets.elim

theorem kept_admitted (h : Kept dsp s₀ calls) (ssrc : UInt32) :
    Kept dsp s₀ (.admitted ssrc :: calls) := by
  refine kept_traffic h (by rintro ⟨⟩) (traffic_entry (entry_admitUnknown dsp _ ssrc)) ?_ ?_
  · intro ssrc
    exact (and_iff_right id).symm
  · intro ssrc hforgets
    exact hforgets.elim

theorem kept_heard (h : Kept dsp s₀ calls) (level : UInt32 → Sample) :
    Kept dsp s₀ (.heard level :: calls) := by
  have hledger : ledger (after dsp s₀ (.heard level :: calls)).hub =
      ledger (after dsp s₀ calls).hub := by
    simp only [after, Call.apply, ledger, atLevels, speakers_replace, List.map_map]
    rfl
  refine kept_traffic h (by rintro ⟨⟩) ?_ ?_ ?_
  · rw [hledger]
    exact .refl
  · intro ssrc
    exact (and_iff_right id).symm
  · intro ssrc hforgets
    exact hforgets.elim

theorem nodup_of_roster_eq {h h' : Hub} (hroster : h'.roster = h.roster)
    (hsources : ((ledger h).registered.map Prod.fst).Nodup) :
    ((ledger h').registered.map Prod.fst).Nodup := by
  rw [ledger, hroster]
  exact hsources

theorem kept_silent_stranger (h : Kept dsp s₀ calls)
    (hfind : (after dsp s₀ calls).hub.roster.find? ssrc = none) :
    Kept dsp s₀ (.silent ssrc :: calls) := by
  have hsame : after dsp s₀ (.silent ssrc :: calls) = after dsp s₀ calls := by
    rw [after, Call.apply, Session.speakerSilent, hfind]
  have hkept (other : UInt32) : ¬ Forgets (after dsp s₀ calls) (.silent ssrc) other := by
    rintro ⟨-, hholds⟩
    exact find?_eq_none_iff.mp hfind (contains_iff.mp hholds)
  refine kept_traffic h (by rintro ⟨⟩) ?_ ?_ ?_
  · rw [hsame]
    exact .refl
  · intro other
    rw [hsame]
    exact (and_iff_right (hkept other)).symm
  · intro other hforgets
    exact absurd hforgets (hkept other)

theorem kept_silent_speaker (h : Kept dsp s₀ calls) {speaker : Speaker}
    (hfind : (after dsp s₀ calls).hub.roster.find? ssrc = some speaker) :
    Kept dsp s₀ (.silent ssrc :: calls) := by
  have hforgets (other : UInt32) :
      Forgets (after dsp s₀ calls) (.silent ssrc) other ↔ other = ssrc :=
    and_iff_left (contains_iff.mpr ⟨speaker.user, (entry_mem_of_find? hfind).2⟩)
  have hremembered (other : UInt32) : Remembered dsp s₀ (.silent ssrc :: calls) other ↔
      other ≠ ssrc ∧ Remembered dsp s₀ calls other := by
    rw [Remembered, hforgets]
    simp
  refine ⟨?_, ?_, ?_⟩
  · exact nodup_of_roster_eq (speakerSilent_effect hfind ssrc).2.2.2 h.sources
  · intro other
    rw [hremembered, ← h.recalled]
    change recalls ((after dsp s₀ calls).speakerSilent ssrc) other ↔ _
    rw [(speakerSilent_effect hfind other).1]
    by_cases hother : other = ssrc <;> simp [hother]
  · intro other hheld
    obtain ⟨-, htold, hjoins, hroster⟩ := speakerSilent_effect hfind other
    have hheld' : (ledger (after dsp s₀ calls).hub).Holds other := by
      rw [← contains_iff] at hheld ⊢
      rwa [← hroster]
    have hbefore := h.told other hheld'
    rw [hremembered, overlooked_cons fun hmore => Nat.ne_of_gt hmore hjoins, hforgets]
    change told other ((after dsp s₀ calls).speakerSilent ssrc).hub.events ↔ _
    rw [htold]
    by_cases hother : other = ssrc
    · subst hother
      -- If nothing is told now, silence was told before, or nothing since the source joined.
      split
      · simp
      · rename_i hsilent
        have hforgotten : recalls (after dsp s₀ calls) other = false := by
          rw [recalls, Classical.not_not.mp fun hnew => hsilent ⟨rfl, hnew⟩]
          rfl
        rw [hbefore, ← h.recalled, hforgotten]
        simp
    · simp only [hother, false_and, if_false, ne_eq, not_false_eq_true, true_and]
      exact hbefore

theorem kept_silent (h : Kept dsp s₀ calls) (ssrc : UInt32) :
    Kept dsp s₀ (.silent ssrc :: calls) := by
  cases hfind : (after dsp s₀ calls).hub.roster.find? ssrc with
  | none => exact kept_silent_stranger h hfind
  | some speaker => exact kept_silent_speaker h hfind

theorem remembered_poll :
    Remembered dsp s₀ (.poll :: calls) ssrc ↔ speaks (after dsp s₀ calls) ssrc := by
  rw [Remembered, Forgets]
  simp

theorem overlooked_poll (h : Kept dsp s₀ calls) :
    Overlooked dsp s₀ (.poll :: calls) ssrc ↔
      speaks (after dsp s₀ calls) ssrc ∧ Overlooked dsp s₀ calls ssrc := by
  have hjoined : ¬ Joins dsp (after dsp s₀ calls) .poll ssrc := fun hmore =>
    Nat.ne_of_gt hmore (poll_effect h.sources ssrc).2.1
  rw [overlooked_cons hjoined, Forgets, Bool.not_eq_false]

/-- A look at the speakers tells whether they speak, but does not make up for what was
overlooked. -/
theorem told_poll (h : Kept dsp s₀ calls) (hheld : (ledger (after dsp s₀ calls).hub).Holds ssrc) :
    told ssrc (after dsp s₀ (.poll :: calls)).hub.events ↔
      speaks (after dsp s₀ calls) ssrc ∧ ¬ Overlooked dsp s₀ calls ssrc := by
  have htold := (poll_effect h.sources ssrc).2.2.2 hheld
  have hmind := h.recalled ssrc
  have hbefore := h.told ssrc hheld
  change told ssrc (after dsp s₀ calls).pollDevices.pollSpeakers.hub.events ↔ _
  rw [htold]
  cases hrecall : recalls (after dsp s₀ calls) ssrc with
  | false =>
      have hforgotten : ¬ Remembered dsp s₀ calls ssrc := by
        rw [← hmind, hrecall]
        exact Bool.false_ne_true
      have hseen : ¬ Overlooked dsp s₀ calls ssrc := mt remembered_of_overlooked hforgotten
      cases speaks (after dsp s₀ calls) ssrc with
      | false => simp [hbefore, hforgotten]
      | true => simp [hseen]
  | true =>
      have hremembered : Remembered dsp s₀ calls ssrc := hmind.mp hrecall
      cases speaks (after dsp s₀ calls) ssrc with
      | false => simp
      | true => simp [hbefore, hremembered]

theorem kept_poll (h : Kept dsp s₀ calls) : Kept dsp s₀ (.poll :: calls) := by
  have hroster : (after dsp s₀ (.poll :: calls)).hub.roster = (after dsp s₀ calls).hub.roster :=
    (poll_effect h.sources 0).1
  refine ⟨nodup_of_roster_eq hroster h.sources, ?_, ?_⟩
  · intro ssrc
    rw [remembered_poll, ← (poll_effect h.sources ssrc).2.2.1]
    rfl
  · intro ssrc hheld
    rw [← contains_iff, hroster, contains_iff] at hheld
    rw [told_poll h hheld, remembered_poll, overlooked_poll h]
    tauto

theorem kept_start (dsp : Dsp) {hub : Hub} (hnobody : hub.roster.speakers = [])
    (identity : Relay.Identity) : Kept dsp (.start hub identity) [] := by
  have hregistered :
      (ledger (after dsp (.start hub identity) []).hub).registered = [] := by
    rw [ledger, List.map_eq_nil_iff]
    exact hnobody
  refine ⟨?_, ?_, ?_⟩
  · rw [hregistered]
    exact List.nodup_nil
  · intro ssrc
    exact iff_of_false Bool.false_ne_true id
  · rintro ssrc ⟨holder, hmem⟩
    rw [hregistered] at hmem
    exact absurd hmem List.not_mem_nil

theorem kept_after (h : Kept dsp s₀ []) (calls : List Call) : Kept dsp s₀ calls := by
  induction calls with
  | nil => exact h
  | cons call earlier ih =>
      cases call with
      | mapped ssrc user => exact kept_mapped ih ssrc user
      | admitted ssrc => exact kept_admitted ih ssrc
      | userLeft user => exact kept_userLeft ih user
      | silent ssrc => exact kept_silent ih ssrc
      | heard level => exact kept_heard ih level
      | poll => exact kept_poll ih

/-- A session that began without speakers tells who speaks at each look at them, exactly for those
it has not overlooked. -/
theorem mirrored_iff (dsp : Dsp) (hub : Hub) (hnobody : hub.roster.speakers = [])
    (identity : Relay.Identity) (calls : List Call) :
    Mirrored (after dsp (.start hub identity) (.poll :: calls)) ↔
      ∀ speaker ∈ (after dsp (.start hub identity) calls).hub.roster.speakers,
        isSpeaking speaker → ¬ Overlooked dsp (.start hub identity) calls speaker.ssrc := by
  have hkept := kept_after (kept_start dsp hnobody identity) calls
  have hroster : (after dsp (.start hub identity) (.poll :: calls)).hub.roster =
      (after dsp (.start hub identity) calls).hub.roster := (poll_effect hkept.sources 0).1
  rw [Mirrored, hroster]
  refine forall₂_congr ?_
  intro speaker hmem
  have hheld : (ledger (after dsp (.start hub identity) calls).hub).Holds speaker.ssrc :=
    ⟨speaker.user, List.mem_map_of_mem hmem⟩
  have hspeaks : speaks (after dsp (.start hub identity) calls) speaker.ssrc =
      isSpeaking speaker := by
    rw [speaks, find?_of_mem hkept.sources hmem]
    rfl
  rw [Bool.eq_iff_iff, told_poll hkept hheld, hspeaks]
  tauto

/-- Alice speaks, leaves, comes back and speaks. -/
theorem mirrored_returned :
    let calls : List Call := [.heard fun _ => Sample.one, .mapped 7 "alice", .userLeft "alice",
      .poll, .heard fun _ => Sample.one, .mapped 7 "alice"]
    let s := after .quiet (.start (.create {}) ⟨"server", "user", "session", "token"⟩) calls
    s.hub.roster.speakers.map (fun speaker => (speaker.ssrc, isSpeaking speaker)) = [(7, true)] ∧
      Mirrored (Call.poll.apply .quiet s) := by
  have hspeakers : (after .quiet (.start (.create {}) ⟨"server", "user", "session", "token"⟩)
      [.heard fun _ => Sample.one, .mapped 7 "alice", .userLeft "alice", .poll,
        .heard fun _ => Sample.one, .mapped 7 "alice"]).hub.roster.speakers.map
      (fun speaker => (speaker.ssrc, isSpeaking speaker)) = [(7, true)] := by
    decide +kernel
  refine ⟨hspeakers, (mirrored_iff .quiet (.create {}) rfl _ _).mpr ?_⟩
  intro speaker hmem _ hoverlooked
  have hssrc := List.mem_map_of_mem (f := fun speaker => (speaker.ssrc, isSpeaking speaker)) hmem
  rw [hspeakers] at hssrc
  have hremembered := remembered_of_overlooked hoverlooked
  rw [(Prod.mk.inj (List.mem_singleton.mp hssrc)).1] at hremembered
  simp only [Remembered, reduceCtorEq, false_or] at hremembered
  obtain ⟨-, -, hstayed, -⟩ := hremembered
  refine hstayed ?_
  rw [Forgets]
  decide +kernel

/-- A source that speaks is given to a user, and speaks on. -/
theorem not_mirrored_renamed :
    ¬ Mirrored (after .quiet (.start (.create {}) ⟨"server", "user", "session", "token"⟩)
      [.poll, .heard fun _ => Sample.one, .mapped 7 "alice", .poll, .heard fun _ => Sample.one,
        .admitted 7]) := by
  unfold Mirrored
  decide +kernel

end VoiceCall.Proofs.Session.Activity
