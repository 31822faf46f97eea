import Mathlib.Data.List.Basic

/-!
# Lists in which one entry is updated

A table of processes, timers or sessions changes one entry at a time. What is said about the
entries of the table below a bound, or about all of them, stays true if the update keeps it,
and the bound moves on over an entry that meets it.
-/

namespace Modify

variable {α β : Type*} {f : α → α} {P : α → Prop}

/-- An entry after the update comes from the entry at the same place. -/
theorem exists_of_getElem?_modify {l : List α} {k j : ℕ} {x : α}
    (h : (l.modify k f)[j]? = some x) :
    ∃ y, l[j]? = some y ∧ (k ≠ j ∧ x = y ∨ k = j ∧ x = f y) := by
  rw [List.getElem?_modify] at h
  obtain ⟨y, hy, hx⟩ := Option.map_eq_some_iff.mp h
  refine ⟨y, hy, ?_⟩
  by_cases hk : k = j
  · exact Or.inr ⟨hk, by rw [← hx, if_pos hk]⟩
  · exact Or.inl ⟨hk, by rw [← hx, if_neg hk]⟩

theorem map_modify_of_eq {g : α → β} (hg : ∀ x, g (f x) = g x) (l : List α) (k : ℕ) :
    (l.modify k f).map g = l.map g := by
  refine List.ext_getElem? fun j => ?_
  rw [List.getElem?_map, List.getElem?_map, List.getElem?_modify]
  rcases l[j]? with _ | x
  · rfl
  · by_cases hk : k = j
    · simp [hk, hg]
    · simp [hk]

def Below (P : α → Prop) (k : ℕ) (l : List α) : Prop := ∀ j < k, ∀ x, l[j]? = some x → P x

theorem below_zero (l : List α) : Below P 0 l := fun j hj => absurd hj (Nat.not_lt_zero j)

theorem Below.modify {l : List α} {k : ℕ} (h : Below P k l) (hf : ∀ x, P x → P (f x)) (j : ℕ) :
    Below P k (l.modify j f) := by
  intro i hi x hx
  obtain ⟨y, hy, ⟨-, rfl⟩ | ⟨-, rfl⟩⟩ := exists_of_getElem?_modify hx
  · exact h i hi x hy
  · exact hf y (h i hi y hy)

theorem Below.succ {l : List α} {k : ℕ} (h : Below P k l) (hk : ∀ x, l[k]? = some x → P x) :
    Below P (k + 1) l := by
  intro j hj x hx
  rcases Nat.lt_succ_iff_lt_or_eq.mp hj with hlt | rfl
  · exact h j hlt x hx
  · exact hk x hx

/-- The entry at the bound gets the property by the update. -/
theorem Below.modify_succ {l : List α} {k : ℕ} (h : Below P k l) (hf : ∀ x, P x → P (f x))
    (hk : ∀ x, l[k]? = some x → P (f x)) : Below P (k + 1) (l.modify k f) := by
  refine (h.modify hf k).succ fun x hx => ?_
  obtain ⟨y, hy, ⟨hne, -⟩ | ⟨-, rfl⟩⟩ := exists_of_getElem?_modify hx
  · exact absurd rfl hne
  · exact hk y hy

theorem Below.forall_mem {l : List α} {k : ℕ} (h : Below P k l) (hk : l[k]? = none) :
    ∀ x ∈ l, P x := by
  intro x hx
  obtain ⟨j, hj⟩ := List.getElem?_of_mem hx
  have hlen := List.getElem?_eq_none_iff.mp hk
  obtain ⟨hlt, -⟩ := List.getElem?_eq_some_iff.mp hj
  exact h j (Nat.lt_of_lt_of_le hlt hlen) x hj

theorem forall_mem_modify {l : List α} (h : ∀ x ∈ l, P x) (hf : ∀ x, P x → P (f x)) (k : ℕ) :
    ∀ x ∈ l.modify k f, P x := by
  intro x hx
  obtain ⟨j, hj⟩ := List.getElem?_of_mem hx
  obtain ⟨y, hy, ⟨-, rfl⟩ | ⟨-, rfl⟩⟩ := exists_of_getElem?_modify hj
  · exact h x (List.mem_of_getElem? hy)
  · exact hf y (h y (List.mem_of_getElem? hy))

end Modify
