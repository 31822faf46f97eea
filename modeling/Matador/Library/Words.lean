import Mathlib.Data.List.Basic

/-!
# Words of a line

A line is taken apart at its blanks, and the words are the parts between them that are not
empty. A blank between two texts separates their words, so a line that is glued together
from texts with blanks in between has the words of these texts, one after another. Lists in
configuration files are split at a comma with a blank instead.
-/

namespace Words

variable {α : Type*} {blank : α → Bool}

/-- The maximal runs of elements that are not blank. -/
def words (blank : α → Bool) (line : List α) : List (List α) :=
  (line.splitOnP blank).filter fun word => word ≠ []

theorem words_append_cons (x y : List α) {c : α} (hc : blank c = true) :
    words blank (x ++ c :: y) = words blank x ++ words blank y := by
  rw [words, List.splitOnP_append_cons x y hc, List.filter_append]
  rfl

theorem words_of_forall {x : List α} (hne : x ≠ []) (hx : ∀ c ∈ x, blank c = false) :
    words blank x = [x] := by
  rw [words, List.splitOnP_eq_singleton hx]
  simp [hne]

theorem not_blank_of_mem_words {line word : List α} (h : word ∈ words blank line) {c : α}
    (hc : c ∈ word) : blank c = false := by
  have hparts : ∀ part ∈ line.splitOnP blank, ∀ c ∈ part, blank c = false := by
    clear h
    induction line with
    | nil => simp
    | cons b line ih =>
        obtain ⟨part, parts, hparts⟩ := List.exists_cons_of_ne_nil (List.splitOnP_ne_nil blank line)
        rw [List.splitOnP_cons_eq_if_modifyHead, hparts]
        rw [hparts, List.forall_mem_cons] at ih
        split_ifs with hb
        · exact List.forall_mem_cons.mpr ⟨by simp, List.forall_mem_cons.mpr ih⟩
        · rw [List.modifyHead_cons]
          refine List.forall_mem_cons.mpr ⟨List.forall_mem_cons.mpr ⟨?_, ih.1⟩, ih.2⟩
          simpa using hb
  exact hparts word (List.mem_of_mem_filter h) c hc

/-- A text split at every comma that is followed by a blank, as Python's `split(', ')`. -/
def splitCommaBlank : List Char → List (List Char)
  | [] => [[]]
  | ',' :: ' ' :: rest => [] :: splitCommaBlank rest
  | c :: rest =>
      match splitCommaBlank rest with
      | [] => [[c]]
      | entry :: entries => (c :: entry) :: entries

end Words
