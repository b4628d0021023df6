import VoiceCall.Proofs.Hub.Bookkeeping
import VoiceCall.Session.Speakers

/-!
What a session asks of a hub, cut into the steps between which others may look at the hub. Main
statements: done without a break, the steps are the operations of the hub; and no step loses a
source that is registered, has departed, or is about to.
-/

namespace VoiceCall.Proofs.Hub.Errands

open VoiceCall.Proofs.Hub.Bookkeeping
open VoiceCall.Proofs.Speaker.Keys

/-- What a session has still to do. -/
inductive Errand where
  /-- Ask whether a source that was reported is to have a speaker. -/
  | consider (ssrc : UInt32)
  /-- Lift the departure of a source that is to have a speaker. -/
  | welcome (ssrc : UInt32) (user : Option String)
  /-- Ask whether the source has a speaker already. -/
  | check (ssrc : UInt32) (user : Option String)
  | insert (ssrc : UInt32) (user : Option String)
  /-- Bring the pool to the new number of speakers, and tell who has joined. -/
  | joined (ssrc : UInt32) (user : Option String)
  | remove (ssrc : UInt32)
  | removeUser (user : String)
  /-- Put the source of a speaker that was removed on record. -/
  | depart (s : Speaker)
  /-- Bring the pool to the new number of speakers, and tell who has left. -/
  | left (s : Speaker)
  /-- Give a source to a user, in place of whoever has it. -/
  | map (ssrc : UInt32) (user : String)
  /-- Give a source that nobody has to a user, in place of the one that the user has. -/
  | reassign (ssrc : UInt32) (user : String)

/-- The hub after a step, and the steps that follow from it. -/
def Errand.perform (dsp : Dsp) (h : Hub) : Errand → Hub × List Errand
  | consider ssrc =>
    (h, if ssrc = h.localSsrc || h.isDeparted ssrc then [] else [welcome ssrc none])
  | welcome ssrc user => ({ h with departed := h.departed.filter (· ≠ ssrc) }, [check ssrc user])
  | check ssrc user => (h, if h.roster.contains ssrc then [] else [insert ssrc user])
  | insert ssrc user =>
    let s := Speaker.create ssrc user h.nextSerial h.settings.jitterDesired h.settings.jitterMax
    match h.roster.insert s with
    | (roster, true) =>
      ({ h with roster := roster, nextSerial := h.nextSerial + 1 }, [joined ssrc user])
    | (_, false) => (h, [])
  | joined ssrc user => ((h.resizePool dsp).emit (.speakerJoined ssrc user), [])
  | remove ssrc =>
    match h.roster.remove ssrc with
    | (roster, some s) => ({ h with roster := roster }, [depart s])
    | (roster, none) => ({ h with roster := roster }, [])
  | removeUser user =>
    match h.roster.removeUser user with
    | (roster, some s) => ({ h with roster := roster }, [depart s])
    | (roster, none) => ({ h with roster := roster }, [])
  | depart s =>
    ({ h with departed := if h.isDeparted s.ssrc then h.departed else s.ssrc :: h.departed },
      [left s])
  | left s => ((h.resizePool dsp).emit (.speakerLeft s.ssrc s.user), [])
  | map ssrc user =>
    match h.roster.find? ssrc with
    | some existing =>
      (h, if existing.user = some user then [] else [remove ssrc, reassign ssrc user])
    | none => (h, [reassign ssrc user])
  | reassign ssrc user =>
    match h.roster.ssrcOfUser user with
    | some previous => (h, [remove previous, welcome ssrc (some user)])
    | none => (h, [welcome ssrc (some user)])

/-- A hub and what is to be done with it, and the hub when all is done. -/
inductive Finishes (dsp : Dsp) : Hub → List Errand → Hub → Prop where
  | done (h : Hub) : Finishes dsp h [] h
  | next {h h' : Hub} {errand : Errand} {errands : List Errand}
      (hrest : Finishes dsp (errand.perform dsp h).1 ((errand.perform dsp h).2 ++ errands) h') :
      Finishes dsp h (errand :: errands) h'

variable {dsp : Dsp} {h h' h'' : Hub}

theorem Finishes.append {errands later : List Errand} (hfirst : Finishes dsp h errands h')
    (hlater : Finishes dsp h' later h'') : Finishes dsp h (errands ++ later) h'' := by
  induction hfirst with
  | done h => exact hlater
  | next _ ih =>
      have hrest := ih hlater
      rw [List.append_assoc] at hrest
      exact .next hrest

theorem finishes_welcome (dsp : Dsp) (h : Hub) (ssrc : UInt32) (user : Option String) :
    Finishes dsp h [.welcome ssrc user] (h.addSpeaker dsp ssrc user).1 := by
  refine .next (.next ?_)
  rw [Errand.perform, Errand.perform, Hub.addSpeaker]
  dsimp only
  split
  · exact .done _
  · refine .next ?_
    rw [Errand.perform]
    dsimp only
    cases h.roster.insert
        (Speaker.create ssrc user h.nextSerial h.settings.jitterDesired h.settings.jitterMax) with
    | mk roster added =>
        cases added with
        | false => exact .done _
        | true => exact .next (.done _)

theorem finishes_remove (dsp : Dsp) (h : Hub) (ssrc : UInt32) :
    Finishes dsp h [.remove ssrc] (h.removeSpeaker dsp ssrc).1 := by
  refine .next ?_
  rw [Errand.perform, Hub.removeSpeaker]
  cases hremove : h.roster.remove ssrc with
  | mk roster removed =>
      cases removed with
      | none => exact .done _
      | some s => exact .next (.next (.done _))

theorem finishes_removeUser (dsp : Dsp) (h : Hub) (user : String) :
    Finishes dsp h [.removeUser user] (h.removeUser dsp user).1 := by
  refine .next ?_
  rw [Errand.perform, Hub.removeUser]
  cases hremove : h.roster.removeUser user with
  | mk roster removed =>
      cases removed with
      | none => exact .done _
      | some s => exact .next (.next (.done _))

theorem finishes_consider (dsp : Dsp) (h : Hub) (ssrc : UInt32) :
    Finishes dsp h [.consider ssrc] (h.admitUnknown dsp ssrc).1 := by
  refine .next ?_
  rw [Errand.perform, Hub.admitUnknown]
  split
  · exact .done h
  · exact finishes_welcome dsp h ssrc none

theorem finishes_reassign (dsp : Dsp) (h : Hub) (ssrc : UInt32) (user : String) :
    Finishes dsp h [.reassign ssrc user]
      ((match h.roster.ssrcOfUser user with
        | some previous => (h.removeSpeaker dsp previous).1
        | none => h).addSpeaker dsp ssrc (some user)).1 := by
  refine .next ?_
  rw [Errand.perform]
  split
  · exact (finishes_remove dsp h _).append (finishes_welcome dsp _ ssrc (some user))
  · exact finishes_welcome dsp h ssrc (some user)

theorem finishes_map (dsp : Dsp) (h : Hub) (ssrc : UInt32) (user : String) :
    Finishes dsp h [.map ssrc user] (Session.mapSpeaker dsp h ssrc user) := by
  refine .next ?_
  rw [Errand.perform, Session.mapSpeaker]
  cases h.roster.find? ssrc with
  | none => exact finishes_reassign dsp h ssrc user
  | some existing =>
      dsimp only
      split
      · exact .done h
      · exact (finishes_remove dsp h ssrc).append (finishes_reassign dsp _ ssrc user)

/-- A source needs no report: it has a speaker, it has departed, or it is our own. -/
def Settled (h : Hub) (ssrc : UInt32) : Prop :=
  h.roster.contains ssrc ∨ h.isDeparted ssrc ∨ ssrc = h.localSsrc

/-- A step that leads to a settled source if nothing else does. -/
def Errand.Promises : Errand → UInt32 → Prop
  | consider ssrc, other => other = ssrc
  | welcome ssrc _, other => other = ssrc
  | check ssrc _, other => other = ssrc
  | insert ssrc _, other => other = ssrc
  | depart s, other => other = s.ssrc
  | _, _ => False

variable {ssrc : UInt32}

theorem Settled.of_contains (hsettled : Settled h ssrc)
    (hroster : h.roster.contains ssrc → h'.roster.contains ssrc)
    (hdeparted : h.isDeparted ssrc → h'.isDeparted ssrc) (hlocal : h'.localSsrc = h.localSsrc) :
    Settled h' ssrc := by
  rcases hsettled with hholds | hgone | hown
  · exact .inl (hroster hholds)
  · exact .inr (.inl (hdeparted hgone))
  · exact .inr (.inr (hlocal ▸ hown))

theorem settled_resizePool (dsp : Dsp) (event : Event) (hsettled : Settled h ssrc) :
    Settled ((h.resizePool dsp).emit event) ssrc := by
  refine hsettled.of_contains (fun hholds => ?_) id rfl
  rw [contains_iff] at hholds ⊢
  rw [ledger_emit, ledger_resizePool]
  exact hholds

theorem contains_insert {r : Roster} {s : Speaker} :
    (r.insert s).1.contains ssrc ↔ r.contains ssrc ∨ s.ssrc = ssrc := by
  by_cases hheld : r.contains s.ssrc
  · rw [Roster.insert, if_pos hheld]
    constructor
    · exact .inl
    · rintro (hsame | rfl)
      · exact hsame
      · exact hheld
  · simp [contains_iff_exists, speakers_insert hheld, or_and_right, exists_or]

theorem eq_of_insert {r roster : Roster} {s : Speaker} (hinsert : r.insert s = (roster, false)) :
    roster = r := by
  rw [Roster.insert] at hinsert
  split at hinsert
  · exact (Prod.mk.inj hinsert).1.symm
  · cases hinsert

/-- Whoever is not left without a source is the speaker that had it. -/
theorem contains_without {r : Roster} {other : UInt32} (hholds : r.contains ssrc)
    (users : List (String × UInt32)) :
    ({ r.without other with users := users } : Roster).contains ssrc ∨
      ∃ s, r.find? other = some s ∧ ssrc = s.ssrc := by
  obtain ⟨s, hmem, rfl⟩ := contains_iff_exists.mp hholds
  by_cases hother : s.ssrc = other
  · obtain ⟨found, hfind⟩ : ∃ found, r.find? other = some found :=
      Option.ne_none_iff_exists'.mp fun hnobody =>
        find?_eq_none_iff_not_contains.mp hnobody (hother ▸ contains_of_mem hmem)
    have hfound : found.ssrc = other := ssrc_of_find? hfind
    exact .inr ⟨found, hfind, hother.trans hfound.symm⟩
  · exact .inl (contains_iff_exists.mpr ⟨s, mem_without.mpr ⟨hmem, hother⟩, rfl⟩)

/-- A source stays settled when a speaker is taken off the roster, if its own is to depart. -/
theorem settled_without {other : UInt32} {users : List (String × UInt32)}
    (hsettled : Settled h ssrc) :
    Settled { h with roster := { h.roster.without other with users := users } } ssrc ∨
      ∃ s, h.roster.find? other = some s ∧ ssrc = s.ssrc := by
  rcases hsettled with hholds | hkept
  · exact (contains_without hholds users).imp_left .inl
  · exact .inl (.inr hkept)

theorem settled_depart {other : UInt32} {users : List (String × UInt32)} {s : Speaker}
    (hsettled : Settled h ssrc) (hfind : h.roster.find? other = some s) :
    Settled { h with roster := { h.roster.without other with users := users } } ssrc ∨
      ∃ next ∈ [Errand.depart s], next.Promises ssrc := by
  refine (settled_without hsettled).imp_right ?_
  rintro ⟨removed, hremoved, hssrc⟩
  obtain rfl := Option.some.inj (hfind.symm.trans hremoved)
  exact ⟨_, List.mem_cons_self, hssrc⟩

/-- Whether a speaker is registered now or was before, its source has one. -/
theorem settled_insert (dsp : Dsp) {other : UInt32} (user : Option String)
    (hsource : Settled h ssrc ∨ ssrc = other) :
    Settled ((Errand.insert other user).perform dsp h).1 ssrc := by
  rw [Errand.perform]
  generalize hs : Speaker.create other user h.nextSerial h.settings.jitterDesired
    h.settings.jitterMax = s
  obtain rfl : s.ssrc = other := hs ▸ rfl
  cases hinsert : h.roster.insert s with
  | mk roster added =>
      have hroster : roster.contains ssrc ↔ h.roster.contains ssrc ∨ s.ssrc = ssrc := by
        rw [← contains_insert, hinsert]
      cases added with
      | false =>
          obtain rfl := eq_of_insert hinsert
          exact hsource.elim id fun hsame => .inl (hroster.mpr (.inr hsame.symm))
      | true =>
          rcases hsource with hsettled | hsame
          · exact hsettled.of_contains (fun hholds => hroster.mpr (.inl hholds)) id rfl
          · exact .inl (hroster.mpr (.inr hsame.symm))

/-- No step loses a source that is settled, or that it promises to settle. -/
theorem settled_perform (dsp : Dsp) {errand : Errand}
    (hsource : Settled h ssrc ∨ errand.Promises ssrc) :
    Settled (errand.perform dsp h).1 ssrc ∨
      ∃ next ∈ (errand.perform dsp h).2, next.Promises ssrc := by
  cases errand with
  | consider other =>
      rw [Errand.perform]
      dsimp only
      split
      · rename_i hguard
        left
        rcases hsource with hsettled | hsame
        · exact hsettled
        · obtain rfl : ssrc = other := hsame
          simp only [Bool.or_eq_true, decide_eq_true_eq] at hguard
          rcases hguard with hown | hgone
          · exact .inr (.inr hown)
          · exact .inr (.inl hgone)
      · exact hsource.imp_right fun hsame => ⟨_, List.mem_cons_self, hsame⟩
  | welcome other user =>
      by_cases hsame : ssrc = other
      · exact .inr ⟨_, List.mem_cons_self, hsame⟩
      · left
        refine (hsource.resolve_right hsame).of_contains id (fun hgone => ?_) rfl
        simpa [Errand.perform, Hub.isDeparted, hsame] using hgone
  | check other user =>
      rw [Errand.perform]
      dsimp only
      split
      · rename_i hholds
        left
        rcases hsource with hsettled | hsame
        · exact hsettled
        · obtain rfl : ssrc = other := hsame
          exact .inl hholds
      · exact hsource.imp_right fun hsame => ⟨_, List.mem_cons_self, hsame⟩
  | insert other user => exact .inl (settled_insert dsp user hsource)
  | joined other user =>
      exact .inl (settled_resizePool dsp _ (hsource.resolve_right id))
  | remove other =>
      have hsettled := hsource.resolve_right id
      rw [Errand.perform, Roster.remove]
      cases hfind : h.roster.find? other with
      | none => exact .inl hsettled
      | some s => exact settled_depart hsettled hfind
  | removeUser user =>
      have hsettled := hsource.resolve_right id
      rw [Errand.perform, Roster.removeUser]
      cases h.roster.users.lookup user with
      | none => exact .inl hsettled
      | some other =>
          dsimp only
          cases hfind : h.roster.find? other with
          | none =>
              refine .inl ((settled_without hsettled).resolve_right ?_)
              rintro ⟨removed, hremoved, -⟩
              cases hfind.symm.trans hremoved
          | some s => exact settled_depart hsettled hfind
  | depart s =>
      left
      have hdeparted (hgone : ssrc = s.ssrc ∨ h.isDeparted ssrc) :
          ((Errand.depart s).perform dsp h).1.isDeparted ssrc :=
        List.contains_iff_mem.mpr
          ((mem_depart h s.ssrc ssrc).mpr (hgone.imp_right List.contains_iff_mem.mp))
      rcases hsource with hsettled | hsame
      · exact hsettled.of_contains id (fun hgone => hdeparted (.inr hgone)) rfl
      · exact .inr (.inl (hdeparted (.inl hsame)))
  | left s =>
      exact .inl (settled_resizePool dsp _ (hsource.resolve_right id))
  | map other user =>
      left
      rw [Errand.perform]
      split <;> exact hsource.resolve_right id
  | reassign other user =>
      left
      rw [Errand.perform]
      split <;> exact hsource.resolve_right id

end VoiceCall.Proofs.Hub.Errands
