/-!
Programs on memory of a fixed length. An access outside of it gives nothing, and a program stops at
the first one.
-/

namespace VoiceCall.Proofs.Buffer.Memory

variable {β σ ι : Type}

/-- Writes one place. -/
def write? (memory : List β) (place : Nat) (value : β) : Option (List β) :=
  if place < memory.length then some (memory.set place value) else none

/-- The first places. -/
def front? (memory : List β) (count : Nat) : Option (List β) :=
  if count ≤ memory.length then some (memory.take count) else none

/-- Writes the first places. -/
def writeFront? (memory values : List β) : Option (List β) :=
  if values.length ≤ memory.length then some (values ++ memory.drop values.length) else none

/-- Writes as much as there is room for, and reads it back. -/
def fill? (memory values : List β) : Option (List β × List β) := do
  let memory' ← writeFront? memory (values.take memory.length)
  let written ← front? memory' (values.take memory.length).length
  return (memory', written)

/-- Runs a program for one input after the other, and puts together what it gives. -/
def runAll? (step : σ → ι → Option (σ × List β)) : σ → List ι → Option (σ × List β)
  | s, [] => some (s, [])
  | s, input :: inputs => do
    let (s, first) ← step s input
    let (s, rest) ← runAll? step s inputs
    return (s, first ++ rest)

theorem exists_write? {memory : List β} {place : Nat} (h : place < memory.length) (value : β) :
    ∃ memory', write? memory place value = some memory' ∧ memory'.length = memory.length ∧
      memory'.take (place + 1) = memory.take place ++ [value] := by
  refine ⟨memory.set place value, if_pos h, List.length_set, ?_⟩
  rw [List.take_add_one, List.take_set_of_le (Nat.le_refl place), List.getElem?_set_self h,
    Option.toList_some]

theorem exists_write?_write? {memory : List β} {place : Nat} (h : place + 1 < memory.length)
    (first second : β) :
    ∃ between memory', write? memory place first = some between ∧
      write? between (place + 1) second = some memory' ∧ memory'.length = memory.length ∧
        memory'.take (place + 2) = memory.take place ++ [first, second] := by
  obtain ⟨between, hfirst, hlength, hfront⟩ := exists_write? (Nat.lt_of_succ_lt h) first
  obtain ⟨memory', hsecond, hlength', hfront'⟩ := exists_write? (hlength ▸ h) second
  refine ⟨between, memory', hfirst, hsecond, hlength'.trans hlength, ?_⟩
  rw [hfront', hfront, List.append_assoc, List.singleton_append]

theorem exists_writeFront? {memory values : List β} (h : values.length ≤ memory.length) :
    ∃ memory', writeFront? memory values = some memory' ∧ memory'.length = memory.length ∧
      front? memory' values.length = some values := by
  refine ⟨values ++ memory.drop values.length, if_pos h, ?_, ?_⟩
  · rw [List.length_append, List.length_drop, Nat.add_sub_cancel' h]
  · rw [front?, List.length_append, if_pos (Nat.le_add_right _ _), List.take_left]

/-- What the memory held before plays no part. -/
theorem exists_fill? (memory values : List β) :
    ∃ memory', fill? memory values = some (memory', values.take memory.length) ∧
      memory'.length = memory.length ∧
        memory'.take (values.take memory.length).length = values.take memory.length := by
  obtain ⟨memory', hwrite, hlength, hfront⟩ :=
    exists_writeFront? (List.length_take_le memory.length values)
  have hfits : (values.take memory.length).length ≤ memory'.length :=
    hlength ▸ List.length_take_le memory.length values
  refine ⟨memory', ?_, hlength, ?_⟩
  · rw [fill?, hwrite, Option.bind_eq_bind, Option.bind_some, hfront]
    rfl
  · rw [front?, if_pos hfits] at hfront
    exact Option.some.inj hfront

theorem runAll?_cons {step : σ → ι → Option (σ × List β)} {s s' s'' : σ} {input : ι}
    {inputs : List ι} {first rest : List β} (hfirst : step s input = some (s', first))
    (hrest : runAll? step s' inputs = some (s'', rest)) :
    runAll? step s (input :: inputs) = some (s'', first ++ rest) := by
  simp only [runAll?, hfirst, hrest, Option.bind_eq_bind, Option.bind_some, pure]

end VoiceCall.Proofs.Buffer.Memory
