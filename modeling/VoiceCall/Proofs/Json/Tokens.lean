import VoiceCall.Json.Reader

namespace VoiceCall.Proofs.Json.Tokens

open VoiceCall.Json

variable {ε α β : Type}

theorem exists_of_map_eq_ok {f : α → β} {read : Except ε α} {b : β} (h : read.map f = .ok b) :
    ∃ a, read = .ok a ∧ f a = b := by
  cases read with
  | error fault => cases h
  | ok a => exact ⟨a, rfl, Except.ok.inj h⟩

theorem exists_of_bind_eq_ok {f : α → Except ε β} {read : Except ε α} {b : β}
    (h : read >>= f = .ok b) : ∃ a, read = .ok a ∧ f a = .ok b := by
  cases read with
  | error fault => cases h
  | ok a => exact ⟨a, rfl, h⟩

def Blank (text : List Char) : Prop :=
  ∀ c ∈ text, isBlank c

theorem blank_nil : Blank [] :=
  List.forall_mem_nil _

theorem exists_blank_append_skipBlank (text : List Char) :
    ∃ blanks, text = blanks ++ skipBlank text ∧ Blank blanks :=
  ⟨text.takeWhile isBlank, List.takeWhile_append_dropWhile.symm,
    List.all_eq_true.mp List.all_takeWhile⟩

theorem exists_blank_of_skipBlank_eq {text rest : List Char} (h : skipBlank text = rest) :
    ∃ blanks, text = blanks ++ rest ∧ Blank blanks :=
  h ▸ exists_blank_append_skipBlank text

theorem skipBlank_cons {c : Char} (hc : isBlank c = false) (rest : List Char) :
    skipBlank (c :: rest) = c :: rest :=
  List.dropWhile_cons_of_neg (by simp [hc])

theorem skipBlank_append {blanks : List Char} (h : Blank blanks) (text : List Char) :
    skipBlank (blanks ++ text) = skipBlank text :=
  List.dropWhile_append_of_pos h

theorem expectWord_eq_ok_iff {word text rest : List Char} :
    expectWord word text = .ok rest ↔ text = word ++ rest := by
  induction word generalizing text with
  | nil => simp [expectWord]
  | cons c word ih =>
      cases text with
      | nil => simp [expectWord]
      | cons d text =>
          rw [expectWord]
          split
          · rename_i hsame
            simp [hsame, ih]
          · rename_i hother
            simp [Ne.symm hother]

end VoiceCall.Proofs.Json.Tokens
