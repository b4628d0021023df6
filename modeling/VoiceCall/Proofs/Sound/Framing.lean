import VoiceCall.Proofs.Buffer.Memory
import VoiceCall.Proofs.Sound.Groups
import VoiceCall.Sound.Framer

namespace VoiceCall.Proofs.Sound.Framing

open VoiceCall.Sound
open VoiceCall.Proofs.Buffer.Memory
open VoiceCall.Proofs.Sound.Groups

variable {α : Type} [DeviceSample α]

/-- What the two ears hear of a device frame: its first two channels, or its only one twice. -/
def ears (frame : List α) : List Sample :=
  ((frame ++ frame).take 2).map DeviceSample.toSample

/-- What is heard of a buffer: a device frame that it does not hold whole is passed over. -/
def heard (width : Nat) (data : List α) : List Sample :=
  (groups width data).flatMap ears

/-- A framer that was given one buffer after the other, and the periods that it delivered. -/
def feed (f : Framer) : List (List α) → Framer × List (List Sample)
  | [] => (f, [])
  | data :: buffers =>
    let (f, full) := f.push data
    let (f, rest) := feed f buffers
    (f, full ++ rest)

/-- Memory for one period, and how much of it is filled. -/
structure Tray where
  channels : Nat
  period : List Sample
  filled : Nat

namespace Tray

def create (channels : UInt16) : Tray :=
  ⟨frameWidth channels, List.replicate Audio.periodLength Sample.zero, 0⟩

/-- Puts down a device frame, and delivers the period if that fills it. -/
def put? (t : Tray) (frame : List α) : Option (Tray × List (List Sample)) := do
  let left ← frame[0]?
  let right := frame[1]?.getD left
  let period ← write? t.period t.filled (DeviceSample.toSample left)
  let period ← write? period (t.filled + 1) (DeviceSample.toSample right)
  let filled := t.filled + Audio.channels
  if filled = Audio.periodLength then
    some ({ t with period := period, filled := 0 }, [period])
  else
    some ({ t with period := period, filled := filled }, [])

def push? (t : Tray) (data : List α) : Option (Tray × List (List Sample)) :=
  runAll? put? t (groups t.channels data)

def feed? (t : Tray) (buffers : List (List α)) : Option (Tray × List (List Sample)) :=
  runAll? push? t buffers

end Tray

/-- A tray for frames of a width in which so much of a period is put down. -/
structure Holds (width : Nat) (t : Tray) (pending : List Sample) : Prop where
  channels : t.channels = width
  length : t.period.length = Audio.periodLength
  filled : t.filled = pending.length
  front : t.period.take t.filled = pending
  short : pending.length < Audio.periodLength
  even : Audio.channels ∣ pending.length

theorem length_ears {frame : List α} (h : 0 < frame.length) :
    (ears frame).length = Audio.channels := by
  rw [ears, List.length_map]
  apply List.length_take_of_le
  rw [List.length_append]
  omega

theorem pair_eq_ears (frame : List α) : Framer.pair frame = ears frame := by
  match frame with
  | [] => rfl
  | [only] => rfl
  | left :: right :: rest => rfl

theorem stereo_eq {width : Nat} (hwidth : 0 < width) (data : List α) :
    Framer.stereo width data = heard width data := by
  unfold heard
  induction data using groups_induction hwidth with
  | short data h =>
      have hnone : data.drop (width - 1) = [] := List.drop_eq_nil_of_le (by omega)
      rw [groups_of_lt h, Framer.stereo, List.flatMap_nil]
      split
      · rfl
      · rename_i hsome
        rw [hnone] at hsome
        cases hsome
  | full data h ih =>
      have hsome : (data.drop (width - 1)).length ≠ 0 := by
        rw [List.length_drop]
        omega
      rw [groups_of_le hwidth h, Framer.stereo, List.flatMap_cons, ← ih]
      split
      · rename_i hnone
        rw [hnone] at hsome
        exact absurd rfl hsome
      · rename_i last rest hcons
        have hrest : data.drop width = rest := by
          have htail := congrArg (List.drop 1) hcons
          rwa [List.drop_drop, Nat.sub_add_cancel hwidth, List.drop_one, List.tail_cons] at htail
        rw [hrest, pair_eq_ears]

theorem periods_eq (samples : List Sample) :
    Framer.periods samples =
      (groups Audio.periodLength samples, remainder Audio.periodLength samples) := by
  have hperiod : 0 < Audio.periodLength := by decide
  induction samples using groups_induction hperiod with
  | short samples h =>
      rw [Framer.periods, if_neg (Nat.not_le_of_lt h), groups_of_lt h, remainder_of_lt h]
  | full samples h ih =>
      rw [Framer.periods, if_pos h, ih, groups_of_le hperiod h, remainder_of_le hperiod h]

theorem push_eq {width : Nat} (hwidth : 0 < width) (pending : List Sample) (data : List α) :
    Framer.push ⟨width, pending⟩ data =
      (⟨width, remainder Audio.periodLength (pending ++ heard width data)⟩,
        groups Audio.periodLength (pending ++ heard width data)) := by
  rw [Framer.push, stereo_eq hwidth, periods_eq]

theorem feed_eq {width : Nat} (hwidth : 0 < width) {pending : List Sample}
    (hshort : pending.length < Audio.periodLength) (buffers : List (List α)) :
    feed ⟨width, pending⟩ buffers =
      (⟨width, remainder Audio.periodLength (pending ++ buffers.flatMap (heard width))⟩,
        groups Audio.periodLength (pending ++ buffers.flatMap (heard width))) := by
  have hperiod : 0 < Audio.periodLength := by decide
  induction buffers generalizing pending with
  | nil =>
      rw [List.flatMap_nil, List.append_nil, remainder_of_lt hshort, groups_of_lt hshort]
      rfl
  | cons data buffers ih =>
      rw [feed, push_eq hwidth]
      dsimp only
      rw [ih (length_remainder_lt hperiod _), List.flatMap_cons, ← List.append_assoc,
        groups_append hperiod (pending ++ _), remainder_append hperiod (pending ++ _)]

theorem heard_flatten {width : Nat} (hwidth : 0 < width) {buffers : List (List α)}
    (hwhole : ∀ data ∈ buffers, width ∣ data.length) :
    buffers.flatMap (heard width) = heard width buffers.flatten := by
  rw [heard, groups_flatten hwidth hwhole, List.flatMap_assoc]
  rfl

/-- What is heard of a buffer makes full periods where its frames make full groups. -/
theorem cut_heard (width : Nat) (data : List α) (hwidth : 0 < width) :
    groups Audio.periodLength (heard width data) =
        (groups Audio.periodFrames (groups width data)).map (·.flatMap ears) ∧
      remainder Audio.periodLength (heard width data) =
        (remainder Audio.periodFrames (groups width data)).flatMap ears := by
  rw [Audio.periodLength_eq, heard]
  refine cut_flatMap (by decide) (by decide) fun frame hframe => length_ears ?_
  rwa [length_of_mem_groups hframe]

theorem holds_create (channels : UInt16) :
    Holds (frameWidth channels) (Tray.create channels) [] where
  channels := rfl
  length := List.length_replicate
  filled := rfl
  front := List.take_zero
  short := by decide
  even := Nat.dvd_zero _

theorem exists_put? {width : Nat} {t : Tray} {pending : List Sample} (h : Holds width t pending)
    {frame : List α} (hframe : 0 < frame.length) :
    ∃ t', t.put? frame = some (t', groups Audio.periodLength (pending ++ ears frame)) ∧
      Holds width t' (remainder Audio.periodLength (pending ++ ears frame)) := by
  obtain ⟨left, more, rfl⟩ := List.exists_cons_of_length_pos hframe
  have hroom : t.filled + 1 < t.period.length := by
    have hshort := h.short
    have heven := h.even
    rw [h.filled, h.length]
    simp only [Audio.periodLength, Audio.channels] at hshort heven ⊢
    omega
  have hears : ears (left :: more) =
      [DeviceSample.toSample left, DeviceSample.toSample (more[0]?.getD left)] := by
    cases more <;> rfl
  obtain ⟨between, period, hfirst, hsecond, hlength, hfront⟩ :=
    exists_write?_write? hroom (DeviceSample.toSample left)
      (DeviceSample.toSample (more[0]?.getD left))
  have hput : t.put? (left :: more) =
      if t.filled + Audio.channels = Audio.periodLength then
        some ({ t with period := period, filled := 0 }, [period])
      else
        some ({ t with period := period, filled := t.filled + Audio.channels }, []) := by
    simp only [Tray.put?, List.getElem?_cons_zero, List.getElem?_cons_succ, Option.bind_eq_bind,
      Option.bind_some, hfirst, hsecond]
  rw [h.length] at hlength
  rw [h.front, ← hears] at hfront
  have htotal : (pending ++ ears (left :: more)).length = t.filled + Audio.channels := by
    rw [List.length_append, length_ears hframe, h.filled]
  rw [hput]
  by_cases hfull : t.filled + Audio.channels = Audio.periodLength
  · have hperiod : period = pending ++ ears (left :: more) :=
      (List.take_of_length_le (Nat.le_of_eq (hlength.trans hfull.symm))).symm.trans hfront
    rw [if_pos hfull, groups_of_length_eq (by decide) (htotal.trans hfull), ← hperiod,
      remainder_eq_nil (hlength ▸ Nat.dvd_refl _)]
    exact ⟨_, rfl, ⟨h.channels, hlength, rfl, List.take_zero, by decide, Nat.dvd_zero _⟩⟩
  · have hshort : (pending ++ ears (left :: more)).length < Audio.periodLength := by
      rw [htotal]
      rw [h.length] at hroom
      exact Nat.lt_of_le_of_ne hroom hfull
    rw [if_neg hfull, groups_of_lt hshort, remainder_of_lt hshort]
    refine ⟨_, rfl, ⟨h.channels, hlength, htotal.symm, hfront, hshort, ?_⟩⟩
    rw [htotal, h.filled]
    exact Nat.dvd_add h.even (Nat.dvd_refl _)

/-- A program that puts down what is heard of each input puts down what is heard of all of them. -/
theorem exists_runAll? {ι : Type} {width : Nat} {heard : ι → List Sample}
    {step : Tray → ι → Option (Tray × List (List Sample))} {inputs : List ι}
    (hstep : ∀ input ∈ inputs, ∀ t pending, Holds width t pending →
      ∃ t', step t input = some (t', groups Audio.periodLength (pending ++ heard input)) ∧
        Holds width t' (remainder Audio.periodLength (pending ++ heard input)))
    {t : Tray} {pending : List Sample} (h : Holds width t pending) :
    ∃ t', runAll? step t inputs =
        some (t', groups Audio.periodLength (pending ++ inputs.flatMap heard)) ∧
      Holds width t' (remainder Audio.periodLength (pending ++ inputs.flatMap heard)) := by
  have hperiod : 0 < Audio.periodLength := by decide
  induction inputs generalizing t pending with
  | nil =>
      rw [List.flatMap_nil, List.append_nil, groups_of_lt h.short, remainder_of_lt h.short]
      exact ⟨t, rfl, h⟩
  | cons input inputs ih =>
      rw [List.forall_mem_cons] at hstep
      obtain ⟨t', hfirst, h'⟩ := hstep.1 t pending h
      obtain ⟨t'', hrest, h''⟩ := ih hstep.2 h'
      rw [List.flatMap_cons, ← List.append_assoc, groups_append hperiod,
        remainder_append hperiod (pending ++ _)]
      exact ⟨t'', runAll?_cons hfirst hrest, h''⟩

theorem exists_push? {width : Nat} (hwidth : 0 < width) {t : Tray} {pending : List Sample}
    (h : Holds width t pending) (data : List α) :
    ∃ t', t.push? data = some (t', groups Audio.periodLength (pending ++ heard width data)) ∧
      Holds width t' (remainder Audio.periodLength (pending ++ heard width data)) := by
  rw [Tray.push?, h.channels]
  refine exists_runAll? ?_ h
  intro frame hframe t pending h
  apply exists_put? h
  rwa [length_of_mem_groups hframe]

theorem exists_feed? {width : Nat} (hwidth : 0 < width) {t : Tray} {pending : List Sample}
    (h : Holds width t pending) (buffers : List (List α)) :
    ∃ t', t.feed? buffers =
        some (t', groups Audio.periodLength (pending ++ buffers.flatMap (heard width))) ∧
      Holds width t' (remainder Audio.periodLength (pending ++ buffers.flatMap (heard width))) := by
  rw [Tray.feed?]
  refine exists_runAll? ?_ h
  intro data _ t pending h
  exact exists_push? hwidth h data

theorem feed_create_eq (channels : UInt16) {buffers : List (List α)}
    (hwhole : ∀ data ∈ buffers, frameWidth channels ∣ data.length) :
    let samples := heard (frameWidth channels) buffers.flatten
    feed (Framer.create channels) buffers =
      (⟨frameWidth channels, remainder Audio.periodLength samples⟩,
        groups Audio.periodLength samples) := by
  have hwidth := frameWidth_pos channels
  have hempty : ([] : List Sample).length < Audio.periodLength := by decide
  rw [← heard_flatten hwidth hwhole]
  exact feed_eq hwidth hempty buffers

/-- However their samples are divided among them, the periods are the full groups of the device
frames that the buffers make together, less than a period is kept back, and all of it can be done in
memory for one period. -/
theorem periods_are_groups (channels : UInt16) {buffers : List (List α)}
    (hwhole : ∀ data ∈ buffers, frameWidth channels ∣ data.length) :
    let frames := groups (frameWidth channels) buffers.flatten
    let fed := feed (Framer.create channels) buffers
    fed.2 = (groups Audio.periodFrames frames).map (·.flatMap ears) ∧
      fed.1.pending = (remainder Audio.periodFrames frames).flatMap ears ∧
      (remainder Audio.periodFrames frames).length < Audio.periodFrames ∧
      (∃ t, (Tray.create channels).feed? buffers = some (t, fed.2) ∧
        Holds (frameWidth channels) t fed.1.pending) ∧
      ∀ others : List (List α), (∀ data ∈ others, frameWidth channels ∣ data.length) →
        others.flatten = buffers.flatten → feed (Framer.create channels) others = fed := by
  intro frames fed
  have hwidth := frameWidth_pos channels
  obtain ⟨hfull, hrest⟩ := cut_heard (frameWidth channels) buffers.flatten hwidth
  have hfed : fed = _ := feed_create_eq channels hwhole
  refine ⟨?_, ?_, length_remainder_lt (by decide) _, ?_, ?_⟩
  · rw [hfed]
    exact hfull
  · rw [hfed]
    exact hrest
  · rw [hfed, ← heard_flatten hwidth hwhole]
    exact exists_feed? hwidth (holds_create channels) buffers
  · intro others hothers hsame
    rw [hfed, feed_create_eq channels hothers, hsame]

/-- Five hundred frames of three channels, of which the first buffer brings one hundred. -/
theorem periods_are_groups_uneven :
    let buffers : List (List Int16) := [List.replicate 300 1, [], List.replicate 1200 (-1)]
    (∀ data ∈ buffers, frameWidth 3 ∣ data.length) ∧
      (feed (Framer.create 3) buffers).2.length = 1 ∧
      feed (Framer.create 3) [buffers.flatten] = feed (Framer.create 3) buffers := by
  intro buffers
  have hwhole : ∀ data ∈ buffers, frameWidth 3 ∣ data.length := by
    simp only [buffers, List.forall_mem_cons, List.length_replicate]
    exact ⟨by decide, by decide, by decide, nofun⟩
  obtain ⟨hperiods, -, -, -, hothers⟩ := periods_are_groups 3 hwhole
  refine ⟨hwhole, ?_, hothers [buffers.flatten] ?_ (List.append_nil _)⟩
  · rw [hperiods, List.length_map, length_groups, length_groups]
    simp only [buffers, List.flatten_cons, List.flatten_nil, List.length_append,
      List.length_replicate, List.length_nil]
    decide
  · rintro data hdata
    rw [List.mem_singleton.mp hdata]
    simp only [buffers, List.flatten_cons, List.flatten_nil, List.length_append,
      List.length_replicate, List.length_nil]
    decide

end VoiceCall.Proofs.Sound.Framing
