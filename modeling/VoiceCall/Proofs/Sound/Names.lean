import VoiceCall.Proofs.Sound.Choice
import VoiceCall.Sound.Device

namespace VoiceCall.Proofs.Sound.Names

open VoiceCall.Sound
open VoiceCall.Proofs.Sound.Choice

/-- The default device comes first, and behind it every other name once, in the order in which the
names first occur. -/
structure Lists (names : List String) (list : List Listing) : Prop where
  head : list.head? = some .systemDefault
  once : ∀ name ∈ defaultName :: names, (list.map Listing.name).count name = 1
  only : ∀ entry ∈ list.tail, entry.name ∈ names ∧ entry.isDefault = false
  order : list.tail.Pairwise fun a b => names.idxOf a.name < names.idxOf b.name

/-- A device that has a name, while no device before it does. -/
def First (name : String) (devices : List Device) (d : Device) : Prop :=
  d.name = some name ∧
    ∃ before behind, devices = before ++ d :: behind ∧ ∀ other ∈ before, other.name ≠ some name

/-- What comes of opening a device: the first thing that is in the way, or else the layout and the
period of the stream. -/
inductive Opens (direction : Direction) : Option Device → Except Fault (Layout × Nat) → Prop where
  | notFound : Opens direction none (.error (.device (direction.title ++ " device not found")))
  | mute {d : Device} (hranges : d.ranges = none) :
      Opens direction (some d) (.error (.device "Failed to get supported configs"))
  | unsuitable {d : Device} {ranges : List Range} (hranges : d.ranges = some ranges)
      (hnone : ∀ r ∈ ranges, ¬ Suitable r) :
      Opens direction (some d) (.error (.device (direction.title ++
        " device doesn't support 48kHz. Device supports: " ++ describeRates ranges)))
  | refused {d : Device} {ranges : List Range} {r : Range} (hranges : d.ranges = some ranges)
      (hselected : Selected ranges r) (hrefused : d.buildable = false) :
      Opens direction (some d)
        (.error (.device ("Failed to build " ++ direction.word ++ " stream")))
  | built {d : Device} {ranges : List Range} {r : Range} (hranges : d.ranges = some ranges)
      (hselected : Selected ranges r) (hbuilt : d.buildable = true) :
      Opens direction (some d) (.ok (⟨r.channels, r.format⟩, d.period))

/-- A name stands for a device, and whoever opens that name opens this device. -/
structure Chooses (h : Host) (direction : Direction) (name : String) (device : Option Device) :
    Prop where
  found : h.find? direction name = device
  opened : Opens direction device (h.open? direction name)

variable {names : List String} {list : List Listing} {name : String}

theorem lists_nil : Lists [] [.systemDefault] where
  head := rfl
  once := by simp [Listing.systemDefault]
  only := nofun
  order := .nil

theorem Lists.mem_iff (h : Lists names list) :
    name ∈ list.map Listing.name ↔ name ∈ defaultName :: names := by
  constructor
  · intro hmem
    obtain ⟨entry, hentry, rfl⟩ := List.mem_map.mp hmem
    obtain ⟨rest, rfl⟩ := List.head?_eq_some_iff.mp h.head
    rcases List.mem_cons.mp hentry with rfl | hrest
    · exact List.mem_cons_self
    · exact List.mem_cons_of_mem defaultName (h.only entry hrest).1
  · intro hmem
    rw [← List.count_pos_iff, h.once name hmem]
    exact Nat.one_pos

theorem addName_of_mem (hmem : name ∈ list.map Listing.name) : addName list name = list := by
  rw [addName, if_pos]
  simpa using hmem

theorem addName_of_not_mem (hnew : name ∉ list.map Listing.name) :
    addName list name = list ++ [⟨name, false⟩] := by
  rw [addName, if_neg]
  simpa using hnew

/-- More names behind the others leave in order what was in order. -/
theorem Lists.order_append (h : Lists names list) (more : List String) :
    list.tail.Pairwise fun a b => (names ++ more).idxOf a.name < (names ++ more).idxOf b.name := by
  refine h.order.imp_of_mem fun ha hb hlt => ?_
  rwa [List.idxOf_append_of_mem (h.only _ ha).1, List.idxOf_append_of_mem (h.only _ hb).1]

theorem Lists.of_mem (h : Lists names list) (hmem : name ∈ list.map Listing.name) :
    Lists (names ++ [name]) list where
  head := h.head
  once other hother := by
    refine h.once other ?_
    rw [← List.cons_append, List.mem_append, List.mem_singleton] at hother
    rcases hother with hother | rfl
    · exact hother
    · exact h.mem_iff.mp hmem
  only entry hentry :=
    ⟨List.mem_append_left [name] (h.only entry hentry).1, (h.only entry hentry).2⟩
  order := h.order_append [name]

theorem Lists.concat (h : Lists names list) (hnew : name ∉ list.map Listing.name) :
    Lists (names ++ [name]) (list ++ [⟨name, false⟩]) := by
  have horder := h.order_append [name]
  obtain ⟨rest, rfl⟩ := List.head?_eq_some_iff.mp h.head
  have hunheard : name ∉ names := fun hold => hnew (h.mem_iff.mpr (List.mem_cons_of_mem _ hold))
  refine ⟨rfl, ?_, ?_, ?_⟩
  · intro other hother
    rw [List.map_append, List.count_append]
    rcases List.mem_append.mp (List.cons_append ▸ hother) with hother | hother
    · have hne : name ≠ other := by
        rintro rfl
        exact hnew (h.mem_iff.mpr hother)
      rw [h.once other hother, List.count_eq_zero.mpr (by simpa using hne.symm)]
    · obtain rfl := List.mem_singleton.mp hother
      rw [List.count_eq_zero.mpr hnew]
      simp
  · intro entry hentry
    rcases List.mem_append.mp hentry with hentry | hentry
    · exact ⟨List.mem_append_left [name] (h.only entry hentry).1, (h.only entry hentry).2⟩
    · obtain rfl := List.mem_singleton.mp hentry
      exact ⟨List.mem_append_right names List.mem_cons_self, rfl⟩
  · refine List.pairwise_append.mpr ⟨horder, List.pairwise_singleton _ _, ?_⟩
    intro entry hentry last hlast
    obtain rfl := List.mem_singleton.mp hlast
    have hold := (h.only entry hentry).1
    rw [List.idxOf_append_of_mem hold, List.idxOf_append_of_notMem hunheard]
    exact Nat.lt_add_right _ (List.idxOf_lt_length_of_mem hold)

theorem Lists.addName (h : Lists names list) (name : String) :
    Lists (names ++ [name]) (addName list name) := by
  by_cases hmem : name ∈ list.map Listing.name
  · rw [addName_of_mem hmem]
    exact h.of_mem hmem
  · rw [addName_of_not_mem hmem]
    exact h.concat hmem

theorem Lists.foldl_addName (h : Lists names list) (more : List String) :
    Lists (names ++ more) (more.foldl Sound.addName list) := by
  induction more generalizing names list with
  | nil => rwa [List.append_nil]
  | cons name more ih =>
      rw [List.append_cons]
      exact ih (h.addName name)

theorem lists_listNames (devices : List Device) :
    Lists (devices.filterMap Device.name) (listNames devices) :=
  lists_nil.foldl_addName (devices.filterMap Device.name)

variable {h : Host} {direction : Direction} {devices : List Device}

theorem opens_open? : Opens direction (h.find? direction name) (h.open? direction name) := by
  rw [Host.open?]
  cases h.find? direction name with
  | none => exact .notFound
  | some d =>
      cases hranges : d.ranges with
      | none =>
          dsimp only
          rw [hranges]
          exact .mute hranges
      | some ranges =>
          dsimp only
          rw [hranges]
          cases hlayout : chooseLayout ranges with
          | none =>
              dsimp only
              rw [hlayout]
              exact .unsuitable hranges (chooseLayout_eq_none_iff.mp hlayout)
          | some layout =>
              obtain ⟨r, hselected, rfl⟩ := chooseLayout_eq_some_iff.mp hlayout
              dsimp only
              rw [hlayout]
              dsimp only
              split
              · rename_i hbuilt
                exact .built hranges hselected hbuilt
              · rename_i hrefused
                exact .refused hranges hselected (Bool.eq_false_iff.mpr hrefused)

theorem chooses_of_find? {device : Option Device} (hfind : h.find? direction name = device) :
    Chooses h direction name device := by
  subst hfind
  exact ⟨rfl, opens_open?⟩

theorem isDefaultName_iff : isDefaultName name ↔ name = "" ∨ name = defaultName := by
  simp [isDefaultName]

theorem not_isDefaultName (hempty : name ≠ "") (hdefault : name ≠ defaultName) :
    ¬ isDefaultName name := by
  rw [isDefaultName_iff, not_or]
  exact ⟨hempty, hdefault⟩

theorem find?_of_default (hname : name = "" ∨ name = defaultName) :
    h.find? direction name = h.default direction := by
  rw [Host.find?, if_pos (isDefaultName_iff.mpr hname)]

theorem find?_of_mem (hdevices : h.devices direction = some devices) (hempty : name ≠ "")
    (hdefault : name ≠ defaultName) (hmem : name ∈ devices.filterMap Device.name) :
    ∃ d, First name devices d ∧ h.find? direction name = some d := by
  have hother := not_isDefaultName hempty hdefault
  obtain ⟨bearer, hbearer, hname⟩ := List.mem_filterMap.mp hmem
  cases hfind : devices.find? (·.name = some name) with
  | none => exact absurd (decide_eq_true hname) (List.find?_eq_none.mp hfind bearer hbearer)
  | some d =>
      obtain ⟨hd, before, behind, hsplit, hbefore⟩ := List.find?_eq_some_iff_append.mp hfind
      refine ⟨d, ⟨of_decide_eq_true hd, before, behind, hsplit, ?_⟩, ?_⟩
      · intro other hother
        simpa using hbefore other hother
      · rw [Host.find?, if_neg hother, hdevices]
        dsimp only
        rw [hfind]
        rfl

/-- Whatever devices there are, each name in the list chooses one: the default device, or the first
one of that name. -/
theorem listed_names_choose (h : Host) (direction : Direction) (devices : List Device)
    (hdevices : h.devices direction = some devices) :
    Lists (devices.filterMap Device.name) (h.list direction) ∧
      (∀ name, name = "" ∨ name = defaultName →
        Chooses h direction name (h.default direction)) ∧
      ∀ entry ∈ h.list direction, entry.name ≠ "" → entry.name ≠ defaultName →
        ∃ d, First entry.name devices d ∧ Chooses h direction entry.name (some d) := by
  have hlists : Lists (devices.filterMap Device.name) (h.list direction) := by
    rw [Host.list, hdevices]
    exact lists_listNames devices
  refine ⟨hlists, ?_, ?_⟩
  · intro name hname
    exact chooses_of_find? (find?_of_default hname)
  · intro entry hentry hempty hdefault
    have hmem := hlists.mem_iff.mp (List.mem_map_of_mem hentry)
    obtain ⟨d, hfirst, hfind⟩ :=
      find?_of_mem hdevices hempty hdefault ((List.mem_cons.mp hmem).resolve_left hdefault)
    exact ⟨d, hfirst, chooses_of_find? hfind⟩

/-- Two devices of one name, one without a name, and two with names of the default device. -/
def crowded : Host where
  devices _ := some [⟨none, none, false, 0⟩, ⟨some "Speakers", some [], true, 480⟩,
    ⟨some "System Default", none, false, 0⟩, ⟨some "", none, false, 0⟩,
    ⟨some "Speakers", some [], true, 960⟩]
  default _ := none

theorem listed_names_choose_crowded :
    Chooses crowded .output "Speakers" (some ⟨some "Speakers", some [], true, 480⟩) := by
  obtain ⟨-, -, hchosen⟩ := listed_names_choose crowded .output _ rfl
  obtain ⟨d, -, hd⟩ := hchosen ⟨"Speakers", false⟩ (by decide) (by decide) (by decide)
  obtain rfl : d = ⟨some "Speakers", some [], true, 480⟩ :=
    Option.some.inj (hd.found.symm.trans (by decide))
  exact hd

end VoiceCall.Proofs.Sound.Names
