import Mathlib.Tactic.Common

/-!
# Checks that stop the program

A function with assertions that stop the process has the result `none` where one of them
fails.
-/

namespace Check

/-- Nothing happens if the condition holds; otherwise the process stops. -/
def assert (p : Prop) [Decidable p] : Option Unit := if p then some () else none

@[simp] theorem assert_eq_some {p : Prop} [Decidable p] {u : Unit} : assert p = some u ↔ p := by
  simp [assert]

theorem assert_of {p : Prop} [Decidable p] (h : p) : assert p = some () := if_pos h

@[simp] theorem assert_bind_eq_some {α : Type*} {p : Prop} [Decidable p] {f : Unit → Option α}
    {a : α} : (assert p).bind f = some a ↔ p ∧ f () = some a := by
  by_cases h : p <;> simp [assert, h]

end Check
