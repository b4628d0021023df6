import VoiceCall.Proofs.Sound.Names

namespace VoiceCall.Proofs.Sound.Fallback

open VoiceCall.Sound
open VoiceCall.Proofs.Sound.Names

variable {h : Host} {direction : Direction} {name : String} {devices : List Device}

/-- A device that the system lists bears the name. -/
def HasDevice (h : Host) (direction : Direction) (name : String) : Prop :=
  ∃ devices, h.devices direction = some devices ∧ ∃ d ∈ devices, d.name = some name

/-- Nothing is found only if there is neither a device of the name nor a default device, and where
there is none of the name, the default device is found. -/
structure FallsBack (h : Host) (direction : Direction) (name : String) : Prop where
  nothing : h.find? direction name = none →
    h.default direction = none ∧ ¬ HasDevice h direction name
  missing : ¬ HasDevice h direction name →
    ∀ d, h.default direction = some d → h.find? direction name = some d

theorem hasDevice_iff (hdevices : h.devices direction = some devices) :
    HasDevice h direction name ↔ name ∈ devices.filterMap Device.name := by
  simp [HasDevice, hdevices, List.mem_filterMap]

theorem find?_of_not_hasDevice (hdevices : h.devices direction = some devices)
    (hother : ¬ isDefaultName name) (hmissing : ¬ HasDevice h direction name) :
    h.find? direction name = h.default direction := by
  have hnone : devices.find? (·.name = some name) = none := by
    refine List.find?_eq_none.mpr fun d hd hname => hmissing ?_
    exact ⟨devices, hdevices, d, hd, of_decide_eq_true hname⟩
  rw [Host.find?, if_neg hother, hdevices]
  dsimp only
  rw [hnone, Option.none_or]

/-- Where the devices cannot be listed, the default device is not tried either. -/
theorem find?_of_not_listed (hdevices : h.devices direction = none)
    (hother : ¬ isDefaultName name) : h.find? direction name = none := by
  rw [Host.find?, if_neg hother, hdevices]

theorem fallsBack_iff_of_other (hempty : name ≠ "") (hdefault : name ≠ defaultName) :
    FallsBack h direction name ↔ (h.devices direction = none → h.default direction = none) := by
  have hother := not_isDefaultName hempty hdefault
  cases hdevices : h.devices direction with
  | none =>
      have hmissing : ¬ HasDevice h direction name := by simp [HasDevice, hdevices]
      have hfind := find?_of_not_listed hdevices hother
      constructor
      · intro hfalls _
        exact (hfalls.nothing hfind).1
      · intro hnone
        refine ⟨fun _ => ⟨hnone rfl, hmissing⟩, fun _ d hd => ?_⟩
        cases hd.symm.trans (hnone rfl)
  | some devices =>
      refine iff_of_true ⟨fun hnothing => ?_, fun hmissing d hd => ?_⟩ (by simp)
      · by_cases hhas : HasDevice h direction name
        · have hmem := (hasDevice_iff hdevices).mp hhas
          obtain ⟨d, -, hfind⟩ := find?_of_mem hdevices hempty hdefault hmem
          cases hnothing.symm.trans hfind
        · rw [find?_of_not_hasDevice hdevices hother hhas] at hnothing
          exact ⟨hnothing, hhas⟩
      · rw [find?_of_not_hasDevice hdevices hother hmissing, hd]

theorem fallsBack_iff_of_default (hname : name = "" ∨ name = defaultName) :
    FallsBack h direction name ↔
      (h.default direction = none → ¬ HasDevice h direction name) := by
  have hfind : h.find? direction name = h.default direction := find?_of_default hname
  constructor
  · intro hfalls hnone
    exact (hfalls.nothing (hfind.trans hnone)).2
  · intro hlacks
    refine ⟨fun hnothing => ?_, fun _ d hd => hfind.trans hd⟩
    have hnone := hfind.symm.trans hnothing
    exact ⟨hnone, hlacks hnone⟩

/-- A name falls back as it should unless the devices cannot be listed, where a name of its own
finds nothing even if there is a default device, or the name is one of the default device that there
is not. -/
theorem falls_back_iff (h : Host) (direction : Direction) (name : String) :
    (FallsBack h direction name ↔
      (name = "" ∨ name = defaultName →
        h.default direction = none → ¬ HasDevice h direction name) ∧
      (name ≠ "" → name ≠ defaultName →
        h.devices direction = none → h.default direction = none)) ∧
    (name ≠ "" → name ≠ defaultName → h.devices direction = none →
      h.find? direction name = none) := by
  constructor
  · by_cases hname : name = "" ∨ name = defaultName
    · rw [fallsBack_iff_of_default hname]
      constructor
      · intro hlacks
        refine ⟨fun _ => hlacks, fun hempty hdefault => ?_⟩
        exact absurd hname (not_or.mpr ⟨hempty, hdefault⟩)
      · exact fun hboth => hboth.1 hname
    · obtain ⟨hempty, hdefault⟩ := not_or.mp hname
      rw [fallsBack_iff_of_other hempty hdefault]
      constructor
      · exact fun hnone => ⟨fun halias => absurd halias hname, fun _ _ => hnone⟩
      · exact fun hboth => hboth.2 hempty hdefault
  · intro hempty hdefault hdevices
    exact find?_of_not_listed hdevices (not_isDefaultName hempty hdefault)

/-- A headset, which is the default device, on a system that cannot list its devices. -/
def unlisted : Host where
  devices _ := none
  default _ := some ⟨some "Headset", some [], true, 480⟩

/-- No default device, and a device that bears the name of the entry for it. -/
def unplugged : Host where
  devices _ := some [⟨some "System Default", some [⟨2, 48000, 48000, .f32⟩], true, 480⟩]
  default _ := none

/-- The default device is not tried where the list is missing, and what bears the name of the entry
for it does not stand in for it. -/
theorem not_falls_back_unlisted :
    ¬ FallsBack unlisted .output "Webcam" ∧ ¬ FallsBack unplugged .output "System Default" := by
  constructor
  · intro hfalls
    cases (fallsBack_iff_of_other (by decide) (by decide)).mp hfalls rfl
  · intro hfalls
    refine (fallsBack_iff_of_default (.inr rfl)).mp hfalls rfl ((hasDevice_iff rfl).mpr ?_)
    decide

end VoiceCall.Proofs.Sound.Fallback
