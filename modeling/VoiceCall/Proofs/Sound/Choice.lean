import Mathlib.Data.List.Basic
import VoiceCall.Sound.Config

namespace VoiceCall.Proofs.Sound.Choice

open VoiceCall.Sound

/-- A range in one of three formats that includes 48 kHz. -/
def Suitable (r : Range) : Prop :=
  (r.format = .f32 ∨ r.format = .i16 ∨ r.format = .u16) ∧ r.lowest ≤ 48000 ∧ 48000 ≤ r.highest

/-- Stereo comes before mono, and mono before anything else. -/
def ChannelsBefore (c d : UInt16) : Prop :=
  c = 2 ∧ d ≠ 2 ∨ c = 1 ∧ d ≠ 2 ∧ d ≠ 1

/-- Of the formats that suit a call, floats come before signed words, and these before unsigned
ones. -/
def FormatBefore (f g : SampleFormat) : Prop :=
  f = .f32 ∧ (g = .i16 ∨ g = .u16) ∨ f = .i16 ∧ g = .u16

/-- Channels count first, and the format where the channels are equally good. -/
def Better (r s : Range) : Prop :=
  ChannelsBefore r.channels s.channels ∨
    ¬ ChannelsBefore s.channels r.channels ∧ FormatBefore r.format s.format

/-- A range that suits a call, none that does is better, and every one in front of it that does is
worse. -/
structure Selected (ranges : List Range) (r : Range) : Prop where
  suitable : Suitable r
  optimal : ∀ s ∈ ranges, Suitable s → ¬ Better s r
  first : ∃ before behind, ranges = before ++ r :: behind ∧ ∀ s ∈ before, Suitable s → Better r s

variable {ranges : List Range} {r s t : Range}

theorem qualifies_iff : r.qualifies ↔ Suitable r := by
  have hformat : usableFormats.contains r.format ↔
      r.format = .f32 ∨ r.format = .i16 ∨ r.format = .u16 := by
    simp [usableFormats]
  have hrate : r.includesVoiceRate ↔ r.lowest ≤ 48000 ∧ 48000 ≤ r.highest := by
    simp only [Range.includesVoiceRate, Bool.and_eq_true, decide_eq_true_eq,
      UInt32.le_iff_toNat_le]
    rfl
  rw [Range.qualifies, Bool.and_eq_true, hformat, hrate, Suitable]

theorem precedes_iff : r.precedes s ↔ r.channelRank < s.channelRank ∨
    r.channelRank = s.channelRank ∧ r.formatRank < s.formatRank := by
  simp [Range.precedes]

theorem precedes_asymm (hrs : r.precedes s) : ¬ s.precedes r := by
  rw [precedes_iff] at *
  omega

/-- What precedes a range precedes whatever does not precede it. -/
theorem precedes_of_not_precedes (hrs : r.precedes s) (hts : ¬ t.precedes s) : r.precedes t := by
  rw [precedes_iff] at *
  omega

theorem channelRank_lt_iff : r.channelRank < s.channelRank ↔
    ChannelsBefore r.channels s.channels := by
  unfold Range.channelRank ChannelsBefore
  split_ifs <;> simp_all

theorem formatRank_lt_iff (hr : Suitable r) (hs : Suitable s) :
    r.formatRank < s.formatRank ↔ FormatBefore r.format s.format := by
  unfold Range.formatRank
  obtain ⟨hr | hr | hr, -⟩ := hr <;> obtain ⟨hs | hs | hs, -⟩ := hs <;> rw [hr, hs] <;>
    simp [FormatBefore, usableFormats]

theorem precedes_iff_better (hr : Suitable r) (hs : Suitable s) : r.precedes s ↔ Better r s := by
  rw [precedes_iff, formatRank_lt_iff hr hs, Better, ← channelRank_lt_iff, ← channelRank_lt_iff]
  rcases Nat.lt_trichotomy r.channelRank s.channelRank with hlt | heq | hgt
  · simp [hlt]
  · simp [heq]
  · simp [hgt, Nat.ne_of_gt hgt, Nat.not_lt_of_gt hgt]

theorem best_eq_none_iff : best ranges = none ↔ ranges = [] := by
  cases ranges with
  | nil => simp [best]
  | cons r rest =>
      rw [best]
      split
      · simp
      · split <;> simp

/-- The best range precedes all in front of it, and none precedes it. -/
theorem exists_of_best (hbest : best ranges = some r) : (∀ s ∈ ranges, ¬ s.precedes r) ∧
    ∃ before behind, ranges = before ++ r :: behind ∧ ∀ s ∈ before, r.precedes s := by
  induction ranges generalizing r with
  | nil => cases hbest
  | cons s rest ih =>
      have hirrefl : ¬ s.precedes s := fun h => precedes_asymm h h
      rw [best] at hbest
      cases hrest : best rest with
      | none =>
          obtain rfl := best_eq_none_iff.mp hrest
          rw [hrest] at hbest
          obtain rfl := Option.some.inj hbest
          exact ⟨by simpa using hirrefl, [], [], rfl, by simp⟩
      | some t =>
          obtain ⟨hleast, before, behind, hsplit, hbefore⟩ := ih hrest
          rw [hrest] at hbest
          by_cases hts : t.precedes s
          · obtain rfl : t = r := by simpa [hts] using hbest
            refine ⟨?_, s :: before, behind, by rw [hsplit, List.cons_append], ?_⟩
            · exact List.forall_mem_cons.mpr ⟨precedes_asymm hts, hleast⟩
            · exact List.forall_mem_cons.mpr ⟨hts, hbefore⟩
          · obtain rfl : s = r := by simpa [hts] using hbest
            refine ⟨?_, [], rest, rfl, by simp⟩
            refine List.forall_mem_cons.mpr ⟨hirrefl, fun u hu hus => ?_⟩
            exact hleast u hu (precedes_of_not_precedes hus hts)

theorem selected_of_best (hbest : best (ranges.filter Range.qualifies) = some r) :
    Selected ranges r := by
  obtain ⟨hleast, before, behind, hsplit, hbefore⟩ := exists_of_best hbest
  obtain ⟨front, rest, rfl, hfront, hrest⟩ := List.filter_eq_append_iff.mp hsplit
  obtain ⟨skipped, later, rfl, hskipped, hr, -⟩ := List.filter_eq_cons_iff.mp hrest
  have hsuitable := qualifies_iff.mp hr
  refine ⟨hsuitable, fun s hmem hs hbetter => ?_, front ++ skipped, later, ?_, fun s hmem hs => ?_⟩
  · refine hleast s (List.mem_filter.mpr ⟨hmem, qualifies_iff.mpr hs⟩) ?_
    exact (precedes_iff_better hs hsuitable).mpr hbetter
  · rw [List.append_assoc]
  · rcases List.mem_append.mp hmem with hmem | hmem
    · refine (precedes_iff_better hsuitable hs).mp (hbefore s ?_)
      rw [← hfront]
      exact List.mem_filter.mpr ⟨hmem, qualifies_iff.mpr hs⟩
    · exact absurd (qualifies_iff.mpr hs) (hskipped s hmem)

theorem best_filter_eq_none_iff :
    best (ranges.filter Range.qualifies) = none ↔ ∀ r ∈ ranges, ¬ Suitable r := by
  rw [best_eq_none_iff, List.filter_eq_nil_iff]
  simp only [qualifies_iff]

/-- The order and the place in the list leave one range to select. -/
theorem Selected.unique (hr : Selected ranges r) (hs : Selected ranges s) : r = s := by
  obtain ⟨before, behind, hsplit, hbefore⟩ := hr.first
  obtain ⟨before', behind', hsplit', hbefore'⟩ := hs.first
  -- neither stands in front of the other, which would have to be better than it
  have hrs : r ∉ before' := fun hmem =>
    hr.optimal s (by simp [hsplit']) hs.suitable (hbefore' r hmem hr.suitable)
  have hsr : s ∉ before := fun hmem =>
    hs.optimal r (by simp [hsplit]) hr.suitable (hbefore s hmem hs.suitable)
  rcases List.append_eq_append_iff.mp (hsplit.symm.trans hsplit') with
    ⟨between, rfl, heq⟩ | ⟨between, rfl, heq⟩
  · cases between with
    | nil => exact (List.cons.inj heq).1
    | cons t between =>
        obtain rfl := (List.cons.inj heq).1
        exact absurd (by simp) hrs
  · cases between with
    | nil => exact (List.cons.inj heq).1.symm
    | cons t between =>
        obtain rfl := (List.cons.inj heq).1
        exact absurd (by simp) hsr

theorem best_filter_eq_some_iff :
    best (ranges.filter Range.qualifies) = some r ↔ Selected ranges r := by
  refine ⟨selected_of_best, fun hselected => ?_⟩
  cases hbest : best (ranges.filter Range.qualifies) with
  | none =>
      obtain ⟨before, behind, rfl, -⟩ := hselected.first
      exact absurd hselected.suitable (best_filter_eq_none_iff.mp hbest r (by simp))
  | some s => rw [(selected_of_best hbest).unique hselected]

theorem chooseLayout_eq_none_iff : chooseLayout ranges = none ↔ ∀ r ∈ ranges, ¬ Suitable r := by
  rw [chooseLayout, Option.map_eq_none_iff]
  exact best_filter_eq_none_iff

theorem chooseLayout_eq_some_iff {layout : Layout} : chooseLayout ranges = some layout ↔
    ∃ r, Selected ranges r ∧ layout = ⟨r.channels, r.format⟩ := by
  rw [chooseLayout, Option.map_eq_some_iff]
  simp only [best_filter_eq_some_iff]
  exact exists_congr fun r => and_congr_right fun _ => eq_comm

/-- Whatever ranges a device has, it gets no layout exactly if none of them suits a call, and
otherwise that of the range that is selected. -/
theorem chosen_layout_optimal (ranges : List Range) :
    (chooseLayout ranges = none ↔ ∀ r ∈ ranges, ¬ Suitable r) ∧
      ∀ layout, chooseLayout ranges = some layout ↔
        ∃ r, Selected ranges r ∧ layout = ⟨r.channels, r.format⟩ :=
  ⟨chooseLayout_eq_none_iff, fun _ => chooseLayout_eq_some_iff⟩

/-- A better range hides nothing while it is not suitable, and of equals the first counts. -/
example :
    chooseLayout [⟨2, 44100, 44100, .f32⟩, ⟨2, 48000, 48000, .i32⟩, ⟨6, 8000, 96000, .i16⟩,
      ⟨4, 8000, 96000, .i16⟩] = some ⟨6, .i16⟩ := by
  decide

end VoiceCall.Proofs.Sound.Choice
