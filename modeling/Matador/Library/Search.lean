import Mathlib.Data.List.Basic
import Mathlib.Data.List.Infix

/-!
# The first occurrence of a word

`after word l` is what follows the first occurrence of the word in a list. Where a word
stands at its first place, it is found there whatever comes behind it.
-/

namespace Search

variable {α : Type*}

def after [DecidableEq α] (word : List α) : List α → Option (List α)
  | [] => none
  | a :: l => if word <+: a :: l then some ((a :: l).drop word.length) else after word l

/-- The word does not begin within `front` if it stands right behind. -/
def First (word front : List α) : Prop :=
  ∀ i < front.length, ¬ word <+: (front ++ word).drop i

instance [DecidableEq α] (word front : List α) : Decidable (First word front) :=
  inferInstanceAs (Decidable (∀ i < front.length, ¬ word <+: (front ++ word).drop i))

/-- A shorter text before the word keeps it the first one. -/
theorem First.of_append {word x front : List α} (h : First word (x ++ front)) :
    First word front := by
  intro i hi hpre
  refine h (x.length + i) (by simpa using hi) ?_
  rwa [List.append_assoc, List.drop_append, List.drop_eq_nil_of_le (Nat.le_add_right _ _),
    List.nil_append, Nat.add_sub_cancel_left]

theorem First.tail {word front : List α} {a : α} (h : First word (a :: front)) :
    First word front :=
  First.of_append (x := [a]) h

end Search
