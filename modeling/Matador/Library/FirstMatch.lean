import Mathlib.Data.List.Basic
import Mathlib.Tactic.Common

/-!
# Rules of which the first match decides

`verdict covers action otherwise rules x` is the action of the first rule that covers
`x`, and `otherwise` if none does. A list of rules is read from the front: in a
concatenation the second part decides what the first one leaves open, and a part whose
rules all have the same action decides by what it covers.
-/

namespace FirstMatch

variable {ρ χ α : Type} (covers : ρ → χ → Bool) (action : ρ → α)

/-- The action of the first rule that covers `x`. -/
def verdict (otherwise : α) (rules : List ρ) (x : χ) : α :=
  ((rules.find? fun r => covers r x).map action).getD otherwise

theorem verdict_append (otherwise : α) (front back : List ρ) (x : χ) :
    verdict covers action otherwise (front ++ back) x =
      verdict covers action (verdict covers action otherwise back x) front x := by
  unfold verdict
  rw [List.find?_append]
  cases front.find? fun r => covers r x with
  | none => rfl
  | some r => rfl

theorem verdict_of_not_covered {rules : List ρ} {x : χ} (h : ∀ r ∈ rules, ¬ covers r x = true)
    (otherwise : α) : verdict covers action otherwise rules x = otherwise := by
  rw [verdict, List.find?_eq_none.mpr h]
  rfl

theorem verdict_uniform {rules : List ρ} {a : α} (h : ∀ r ∈ rules, action r = a) (otherwise : α)
    (x : χ) :
    verdict covers action otherwise rules x =
      if ∃ r ∈ rules, covers r x = true then a else otherwise := by
  unfold verdict
  cases hfind : rules.find? fun r => covers r x with
  | none =>
      rw [List.find?_eq_none] at hfind
      rw [if_neg fun ⟨r, hr, hcovers⟩ => hfind r hr hcovers]
      rfl
  | some r =>
      have hmem := List.mem_of_find?_eq_some hfind
      have hcovers : covers r x = true := by simpa using List.find?_some hfind
      rw [if_pos ⟨r, hmem, hcovers⟩]
      exact h r hmem

end FirstMatch
