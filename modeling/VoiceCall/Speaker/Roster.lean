import VoiceCall.Speaker.Basic

/-!
The speakers of a call under their source numbers, and an index from users to source numbers. A
source number occurs once; a user may have several speakers, of which the index names one.
-/

namespace VoiceCall

structure Roster where
  entries : List (UInt32 × Speaker)
  users : List (String × UInt32)
  /-- Every speaker is entered under its own source number. -/
  keyed : ∀ entry ∈ entries, entry.2.ssrc = entry.1
deriving DecidableEq

namespace Roster

def empty : Roster := ⟨[], [], by simp⟩

variable (r : Roster)

def speakers : List Speaker := r.entries.map Prod.snd

def size : Nat := r.entries.length

def find? (ssrc : UInt32) : Option Speaker :=
  r.entries.lookup ssrc

def contains (ssrc : UInt32) : Bool :=
  r.entries.any (·.1 = ssrc)

/-- The source number last announced for a user. -/
def ssrcOfUser (user : String) : Option UInt32 :=
  r.users.lookup user

/-- The index with another source number for a user. -/
def putUser (users : List (String × UInt32)) (user : String) (ssrc : UInt32) :
    List (String × UInt32) :=
  (user, ssrc) :: users.filter (·.1 ≠ user)

def dropUser (users : List (String × UInt32)) (user : String) : List (String × UInt32) :=
  users.filter (·.1 ≠ user)

/-- Adds a speaker unless its source number is taken, and says whether it did. -/
def insert (s : Speaker) : Roster × Bool :=
  if r.contains s.ssrc then
    (r, false)
  else
    let users :=
      match s.user with
      | some user => putUser r.users user s.ssrc
      | none => r.users
    ({ entries := r.entries ++ [(s.ssrc, s)]
       users := users
       keyed := List.forall_mem_append.mpr ⟨r.keyed, List.forall_mem_singleton.mpr rfl⟩ }, true)

/-- The roster without the speaker of a source number, whom the index may name yet. -/
def without (ssrc : UInt32) : Roster :=
  { r with
    entries := r.entries.filter (·.1 ≠ ssrc)
    keyed := fun entry hmem => r.keyed entry (List.mem_filter.mp hmem).1 }

/-- Removes a speaker; its user leaves the index if the index names this speaker. -/
def remove (ssrc : UInt32) : Roster × Option Speaker :=
  match r.find? ssrc with
  | none => (r, none)
  | some s =>
    let users :=
      match s.user with
      | some user => if r.users.lookup user = some ssrc then dropUser r.users user else r.users
      | none => r.users
    ({ r.without ssrc with users := users }, some s)

def removeUser (user : String) : Roster × Option Speaker :=
  match r.users.lookup user with
  | none => (r, none)
  | some ssrc => ({ r.without ssrc with users := dropUser r.users user }, r.find? ssrc)

/-- Forgets every speaker and every user. -/
def clear (_ : Roster) : Roster := empty

def modify (ssrc : UInt32) (f : Speaker → Speaker) (hf : ∀ s, (f s).ssrc = s.ssrc) : Roster :=
  { r with
    entries := r.entries.map fun (key, s) => (key, if key = ssrc then f s else s)
    keyed := by
      refine List.forall_mem_map.mpr fun (key, s) hmem => ?_
      have hkey : s.ssrc = key := r.keyed (key, s) hmem
      dsimp only
      split
      · exact (hf s).trans hkey
      · exact hkey }

/-- Queues samples in the buffer of a speaker, if there is one; the count is of older samples that
were dropped for them. -/
def write (ssrc : UInt32) (samples : List Sample) (now : Nat) : Roster × Option Nat :=
  (r.modify ssrc (fun s => (s.write samples now).1) fun _ => rfl,
    (r.find? ssrc).map fun s => (s.write samples now).2)

theorem map_fst_entries : r.entries.map Prod.fst = r.speakers.map Speaker.ssrc := by
  rw [speakers, List.map_map]
  exact List.map_congr_left fun entry hmem => (r.keyed entry hmem).symm

/-- The roster after something has happened to the speakers, under the keys they had. -/
def replace (speakers : List Speaker)
    (h : speakers.map Speaker.ssrc = r.speakers.map Speaker.ssrc) : Roster :=
  { r with
    entries := (r.entries.map Prod.fst).zip speakers
    keyed := by
      have hzip := List.zip_map' (f := Speaker.ssrc) (g := id) (l := speakers)
      rw [List.map_id] at hzip
      rw [map_fst_entries, ← h, hzip]
      exact List.forall_mem_map.mpr fun _ _ => rfl }

end Roster

end VoiceCall
