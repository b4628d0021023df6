import Mathlib.Tactic.SplitIfs
import VoiceCall.Proofs.Json.Characters

/-!
Where a character stands in a text: in a string, or outside of strings and behind so many open
brackets. Main statement: a field that stands at the level of a text is not looked for in the
strings and brackets of that text.
-/

namespace VoiceCall.Proofs.Json.Places

open VoiceCall.Json
open VoiceCall.Proofs.Json.Tokens
open VoiceCall.Proofs.Json.Characters

inductive Place where
  | outside (depth : Nat)
  | inside (depth : Nat)
  | escaped (depth : Nat)
  /-- Behind a bracket that closes what was not opened. -/
  | beyond
deriving DecidableEq

namespace Place

def next : Place → Char → Place
  | outside depth, c =>
    if c = '"' then inside depth
    else if c = '[' ∨ c = '\x7b' then outside (depth + 1)
    else if c = ']' ∨ c = '\x7d' then
      match depth with
      | 0 => beyond
      | depth + 1 => outside depth
    else outside depth
  | inside depth, c =>
    if c = '"' then outside depth
    else if c = '\\' then escaped depth
    else inside depth
  | escaped depth, _ => inside depth
  | beyond, _ => beyond

def walk (place : Place) (text : List Char) : Place :=
  text.foldl next place

/-- The same place behind one more open bracket. -/
def deepen : Place → Place
  | outside depth => outside (depth + 1)
  | inside depth => inside (depth + 1)
  | escaped depth => escaped (depth + 1)
  | beyond => beyond

theorem walk_cons (place : Place) (c : Char) (text : List Char) :
    place.walk (c :: text) = (place.next c).walk text :=
  rfl

theorem walk_append (place : Place) (one other : List Char) :
    place.walk (one ++ other) = (place.walk one).walk other :=
  List.foldl_append

theorem walk_beyond (text : List Char) : beyond.walk text = beyond := by
  induction text with
  | nil => rfl
  | cons c text ih => exact ih

theorem next_deepen {place : Place} {c : Char} (h : place.next c ≠ beyond) :
    place.deepen.next c = (place.next c).deepen := by
  cases place with
  | outside depth =>
      cases depth with
      | zero =>
          simp only [next, deepen] at h ⊢
          split_ifs at h ⊢
          · rfl
          · rfl
          · exact absurd rfl h
          · rfl
      | succ depth =>
          simp only [next, deepen]
          split_ifs <;> rfl
  | inside depth =>
      simp only [next, deepen]
      split_ifs <;> rfl
  | escaped depth => rfl
  | beyond => rfl

theorem walk_deepen {place : Place} {text : List Char} (h : place.walk text ≠ beyond) :
    place.deepen.walk text = (place.walk text).deepen := by
  induction text generalizing place with
  | nil => rfl
  | cons c text ih =>
      rw [walk_cons] at h ⊢
      have hnext : place.next c ≠ beyond := by
        intro hbeyond
        rw [hbeyond, walk_beyond] at h
        exact h rfl
      rw [next_deepen hnext, ih h, walk_cons]

end Place

open Place

/-- All strings and brackets of a text are closed in it, and it closes no others. -/
def Paired (text : List Char) : Prop :=
  (outside 0).walk text = outside 0

theorem Paired.walk_outside {text : List Char} (h : Paired text) (depth : Nat) :
    (outside depth).walk text = outside depth := by
  induction depth with
  | zero => exact h
  | succ depth ih =>
      have hinside : (outside depth).walk text ≠ beyond := by
        rw [ih]
        exact nofun
      have hdeepen := walk_deepen hinside
      rwa [ih] at hdeepen

theorem paired_append {one other : List Char} (hone : Paired one) (hother : Paired other) :
    Paired (one ++ other) := by
  rw [Paired, walk_append, hone, hother]

theorem paired_of_append {one other : List Char} (hone : Paired one)
    (h : Paired (one ++ other)) : Paired other := by
  rwa [Paired, walk_append, hone] at h

/-- A character that neither opens nor closes anything. -/
def Quiet (c : Char) : Prop :=
  c ≠ '"' ∧ c ≠ '[' ∧ c ≠ '\x7b' ∧ c ≠ ']' ∧ c ≠ '\x7d'

instance : DecidablePred Quiet := fun c =>
  inferInstanceAs (Decidable (c ≠ '"' ∧ c ≠ '[' ∧ c ≠ '\x7b' ∧ c ≠ ']' ∧ c ≠ '\x7d'))

theorem next_of_quiet {c : Char} (h : Quiet c) (depth : Nat) :
    (outside depth).next c = outside depth := by
  obtain ⟨hquote, hbracket, hbrace, hbracket', hbrace'⟩ := h
  simp [next, hquote, hbracket, hbrace, hbracket', hbrace']

theorem paired_of_quiet {text : List Char} (h : ∀ c ∈ text, Quiet c) : Paired text := by
  induction text with
  | nil => rfl
  | cons c text ih =>
      rw [Paired, walk_cons, next_of_quiet (h c List.mem_cons_self)]
      exact ih fun d hmem => h d (List.mem_cons_of_mem c hmem)

theorem quiet_of_isBlank {c : Char} (h : isBlank c) : Quiet c := by
  simp only [isBlank, Bool.or_eq_true, decide_eq_true_eq, or_assoc] at h
  rcases h with rfl | rfl | rfl | rfl <;> decide

/-- What may stand between two quotes: no quote but behind a backslash. -/
inductive Inside : List Char → Prop where
  | nil : Inside []
  | plain {c : Char} {text : List Char} (hquote : c ≠ '"') (hescape : c ≠ '\\')
      (htail : Inside text) : Inside (c :: text)
  | escape (c : Char) {text : List Char} (htail : Inside text) : Inside ('\\' :: c :: text)

theorem Inside.walk_inside {text : List Char} (h : Inside text) (depth : Nat) :
    (inside depth).walk text = inside depth := by
  induction h with
  | nil => rfl
  | plain hquote hescape _ ih =>
      rw [walk_cons, next, if_neg hquote, if_neg hescape]
      exact ih
  | escape c _ ih => exact ih

/-- A string ends with the first quote that no backslash escapes. -/
theorem Inside.exists_eq_append {text behind lead rest : List Char} (h : Inside text)
    (heq : text ++ '"' :: behind = lead ++ rest)
    (hlead : (inside 0).walk lead = outside 0) : ∃ more, lead = text ++ '"' :: more := by
  induction h generalizing lead with
  | nil =>
      cases lead with
      | nil => cases hlead
      | cons d lead =>
          obtain ⟨rfl, -⟩ := List.cons.inj heq
          exact ⟨lead, rfl⟩
  | plain hquote hescape _ ih =>
      cases lead with
      | nil => cases hlead
      | cons d lead =>
          obtain ⟨rfl, hrest⟩ := List.cons.inj heq
          rw [walk_cons, next, if_neg hquote, if_neg hescape] at hlead
          obtain ⟨more, rfl⟩ := ih hrest hlead
          exact ⟨more, rfl⟩
  | escape c _ ih =>
      match lead with
      | [] => cases hlead
      | [d] =>
          obtain ⟨rfl, -⟩ := List.cons.inj heq
          cases hlead
      | d :: e :: lead =>
          obtain ⟨rfl, hbehind⟩ := List.cons.inj heq
          obtain ⟨rfl, hrest⟩ := List.cons.inj hbehind
          obtain ⟨more, rfl⟩ := ih hrest hlead
          exact ⟨more, rfl⟩

theorem Inside.inj {one other behind rest : List Char} (hone : Inside one) (hother : Inside other)
    (heq : one ++ '"' :: behind = other ++ '"' :: rest) : one = other ∧ behind = rest := by
  induction hone generalizing other with
  | nil =>
      cases hother with
      | nil => exact ⟨rfl, (List.cons.inj heq).2⟩
      | plain hquote => exact absurd (List.cons.inj heq).1.symm hquote
      | escape => exact absurd (List.cons.inj heq).1 (by decide)
  | plain hquote hescape _ ih =>
      cases hother with
      | nil => exact absurd (List.cons.inj heq).1 hquote
      | plain _ _ htail =>
          obtain ⟨rfl, hrest⟩ := List.cons.inj heq
          obtain ⟨rfl, hbehind⟩ := ih htail hrest
          exact ⟨rfl, hbehind⟩
      | escape => exact absurd (List.cons.inj heq).1 hescape
  | escape c _ ih =>
      cases hother with
      | nil => exact absurd (List.cons.inj heq).1 (by decide)
      | plain _ hescape => exact absurd (List.cons.inj heq).1.symm hescape
      | escape _ htail =>
          obtain ⟨rfl, hrest⟩ := List.cons.inj (List.cons.inj heq).2
          obtain ⟨rfl, hbehind⟩ := ih htail hrest
          exact ⟨rfl, hbehind⟩

theorem paired_quoted {text : List Char} (h : Inside text) :
    Paired ('"' :: (text ++ ['"'])) := by
  change (inside 0).walk (text ++ ['"']) = outside 0
  rw [walk_append, h.walk_inside]
  rfl

theorem plain_of_hexDigit? {c : Char} {n : Nat} (h : hexDigit? c = some n) :
    c ≠ '"' ∧ c ≠ '\\' := by
  constructor <;>
    · rintro rfl
      cases h

theorem inside_hexUnit {a b c d : Char} {n : Nat} {text : List Char}
    (h : hexUnit? a b c d = some n) (htail : Inside text) :
    Inside ('\\' :: 'u' :: a :: b :: c :: d :: text) := by
  simp only [hexUnit?, Option.bind_eq_bind, Option.bind_eq_some_iff] at h
  obtain ⟨_, ha, _, hb, _, hc, _, hd, -⟩ := h
  obtain ⟨haquote, haescape⟩ := plain_of_hexDigit? ha
  obtain ⟨hbquote, hbescape⟩ := plain_of_hexDigit? hb
  obtain ⟨hcquote, hcescape⟩ := plain_of_hexDigit? hc
  obtain ⟨hdquote, hdescape⟩ := plain_of_hexDigit? hd
  exact .escape 'u' (.plain haquote haescape (.plain hbquote hbescape
    (.plain hcquote hcescape (.plain hdquote hdescape htail))))

theorem inside_of_spells {spelled cs : List Char} (h : Spells spelled cs) : Inside spelled := by
  induction h with
  | nil => exact .nil
  | plain hquote hescape _ _ ih => exact .plain hquote hescape ih
  | letter _ _ ih => exact .escape _ ih
  | unit hunit _ _ ih => exact inside_hexUnit hunit ih
  | pair hhigh _ hlow _ _ ih => exact inside_hexUnit hhigh (inside_hexUnit hlow ih)

/-- A field of this name stands in a text, in no string and behind no open bracket; and what stands
behind its colon. -/
def HasField (text : List Char) (name : String) (behind : List Char) : Prop :=
  ∃ lead spelled gap, text = lead ++ '"' :: (spelled ++ '"' :: (gap ++ ':' :: behind)) ∧
    Paired lead ∧ Spells spelled name.toList ∧ Blank gap

variable {text behind : List Char} {name : String}

theorem HasField.append {lead : List Char} (hlead : Paired lead) (h : HasField text name behind) :
    HasField (lead ++ text) name behind := by
  obtain ⟨between, spelled, gap, rfl, hbetween, hspelled, hgap⟩ := h
  exact ⟨lead ++ between, spelled, gap, (List.append_assoc _ _ _).symm,
    paired_append hlead hbetween, hspelled, hgap⟩

theorem HasField.of_quiet {lead : List Char} (hlead : ∀ c ∈ lead, Quiet c)
    (h : HasField (lead ++ text) name behind) : HasField text name behind := by
  induction lead with
  | nil => exact h
  | cons c lead ih =>
      have hc := hlead c List.mem_cons_self
      refine ih (fun d hmem => hlead d (List.mem_cons_of_mem c hmem)) ?_
      obtain ⟨between, spelled, gap, heq, hbetween, hspelled, hgap⟩ := h
      cases between with
      | nil => exact absurd (List.cons.inj heq).1 hc.1
      | cons d between =>
          obtain ⟨rfl, hrest⟩ := List.cons.inj heq
          rw [Paired, walk_cons, next_of_quiet hc] at hbetween
          exact ⟨between, spelled, gap, hrest, hbetween, hspelled, hgap⟩

theorem HasField.of_quoted {string : List Char} (hstring : Inside string)
    (h : HasField ('"' :: (string ++ '"' :: text)) name behind) :
    (Spells string name.toList ∧ ∃ gap, text = gap ++ ':' :: behind ∧ Blank gap) ∨
      HasField text name behind := by
  obtain ⟨between, spelled, gap, heq, hbetween, hspelled, hgap⟩ := h
  cases between with
  | nil =>
      obtain ⟨rfl, htext⟩ := hstring.inj (inside_of_spells hspelled) (List.cons.inj heq).2
      exact .inl ⟨hspelled, gap, htext, hgap⟩
  | cons c between =>
      obtain ⟨rfl, hrest⟩ := List.cons.inj heq
      obtain ⟨more, rfl⟩ := hstring.exists_eq_append hrest hbetween
      have hmore : Paired more := by
        refine paired_of_append (paired_quoted hstring) ?_
        simpa using hbetween
      refine .inr ⟨more, spelled, gap, ?_, hmore, hspelled, hgap⟩
      simpa using hrest

theorem HasField.of_bracketed {opening closing : Char} {content : List Char}
    (hopening : opening = '[' ∨ opening = '\x7b') (hclosing : closing = ']' ∨ closing = '\x7d')
    (hcontent : Paired content)
    (h : HasField (opening :: (content ++ closing :: text)) name behind) :
    HasField text name behind := by
  obtain ⟨between, spelled, gap, heq, hbetween, hspelled, hgap⟩ := h
  cases between with
  | nil => rcases hopening with rfl | rfl <;> exact absurd (List.cons.inj heq).1 (by decide)
  | cons c between =>
      obtain ⟨rfl, hrest⟩ := List.cons.inj heq
      have hopen : (outside 1).walk between = outside 0 := by
        rcases hopening with rfl | rfl <;> exact hbetween
      rcases List.append_eq_append_iff.mp hrest with ⟨more, rfl, hmore⟩ | ⟨more, rfl, -⟩
      · rw [walk_append, hcontent.walk_outside] at hopen
        cases more with
        | nil => cases hopen
        | cons d more =>
            obtain ⟨rfl, htext⟩ := List.cons.inj hmore
            refine ⟨more, spelled, gap, htext, ?_, hspelled, hgap⟩
            rcases hclosing with rfl | rfl <;> exact hopen
      · -- what is left of the content closes nothing outside of it
        have hclosed : (outside 0).walk between ≠ beyond := by
          intro hbeyond
          rw [Paired, walk_append, hbeyond, walk_beyond] at hcontent
          cases hcontent
        have hdeepen := walk_deepen hclosed
        rw [deepen, hopen] at hdeepen
        generalize (outside 0).walk between = place at hdeepen
        cases place <;> cases hdeepen

/-- A field is not behind a bracket that closes what was not opened. -/
theorem not_hasField_closing {closing : Char} (hclosing : closing = ']' ∨ closing = '\x7d') :
    ¬ HasField (closing :: text) name behind := by
  rintro ⟨between, spelled, gap, heq, hbetween, -, -⟩
  cases between with
  | nil => rcases hclosing with rfl | rfl <;> exact absurd (List.cons.inj heq).1 (by decide)
  | cons c between =>
      obtain ⟨rfl, -⟩ := List.cons.inj heq
      rw [Paired, walk_cons] at hbetween
      have hbeyond : (outside 0).next closing = beyond := by
        rcases hclosing with rfl | rfl <;> rfl
      rw [hbeyond, walk_beyond] at hbetween
      cases hbetween

end VoiceCall.Proofs.Json.Places
