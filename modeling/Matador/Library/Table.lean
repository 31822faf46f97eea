import Mathlib.Data.Nat.Notation
import Mathlib.Tactic.Common
import Mathlib.Tactic.TypeStar

/-!
# Square tables with checked access

`Table n α` is a list of `n` rows of `n` cells; the shape is part of the type, so
no operation can lose it. Cells are addressed by plain natural numbers and the
access is checked: `get?` and `set?` return `none` outside the table, as an
indexed access of a list raises an error there.

`mapIdx` rewrites every cell by a function of its position. The loops that
update a table cell by cell are compared with it: `set?` inside the table is a
`mapIdx`, two passes of `mapIdx` are one, and a table is determined by its cells.
-/

/-- A square table with `n` rows of `n` cells. -/
structure Table (n : ℕ) (α : Type*) where
  rows : Vector (Vector α n) n
  deriving DecidableEq

namespace Table

variable {n : ℕ} {α : Type*}

def fill (n : ℕ) (a : α) : Table n α := ⟨Vector.replicate n (Vector.replicate n a)⟩

/-- The cell in row `i` and column `j`; `none` outside the table. -/
def get? (t : Table n α) (i j : ℕ) : Option α := t.rows[i]?.bind fun row => row[j]?

/-- Overwrite the cell in row `i` and column `j`; `none` outside the table. -/
def set? (t : Table n α) (i j : ℕ) (a : α) : Option (Table n α) :=
  if hi : i < n then
    if hj : j < n then some ⟨t.rows.set i (t.rows[i].set j a)⟩ else none
  else none

def mapIdx (f : ℕ → ℕ → α → α) (t : Table n α) : Table n α :=
  ⟨Vector.ofFn fun i => Vector.ofFn fun j => f i j (t.rows[i][j])⟩

theorem lt_of_get?_eq_some {t : Table n α} {i j : ℕ} {a : α} (h : t.get? i j = some a) :
    i < n ∧ j < n := by
  unfold get? at h
  obtain ⟨row, hrow, hcell⟩ := Option.bind_eq_some_iff.mp h
  obtain ⟨hi, -⟩ := Vector.getElem?_eq_some_iff.mp hrow
  obtain ⟨hj, -⟩ := Vector.getElem?_eq_some_iff.mp hcell
  exact ⟨hi, hj⟩

theorem get?_eq_getElem {t : Table n α} {i j : ℕ} (hi : i < n) (hj : j < n) :
    t.get? i j = some t.rows[i][j] := by
  simp [get?, hi, hj]

theorem exists_get?_eq_some (t : Table n α) {i j : ℕ} (hi : i < n) (hj : j < n) :
    ∃ a, t.get? i j = some a :=
  ⟨_, get?_eq_getElem hi hj⟩

theorem get?_eq_none {t : Table n α} {i j : ℕ} (h : ¬ (i < n ∧ j < n)) :
    t.get? i j = none := by
  cases hget : t.get? i j with
  | none => rfl
  | some a => exact absurd (lt_of_get?_eq_some hget) h

@[simp] theorem get?_fill {a : α} {i j : ℕ} :
    (fill n a).get? i j = if i < n ∧ j < n then some a else none := by
  split
  · rename_i h
    rw [get?_eq_getElem h.1 h.2]
    simp [fill]
  · rename_i h
    exact get?_eq_none h

@[simp] theorem get?_mapIdx (f : ℕ → ℕ → α → α) (t : Table n α) (i j : ℕ) :
    (t.mapIdx f).get? i j = (t.get? i j).map (f i j) := by
  by_cases h : i < n ∧ j < n
  · rw [get?_eq_getElem h.1 h.2, get?_eq_getElem h.1 h.2]
    simp [mapIdx]
  · rw [get?_eq_none h, get?_eq_none h, Option.map_none]

/-- A table is determined by its cells. -/
theorem ext_get? {t t' : Table n α} (h : ∀ i j, t.get? i j = t'.get? i j) : t = t' := by
  obtain ⟨rows⟩ := t
  obtain ⟨rows'⟩ := t'
  congr 1
  ext i hi j hj
  have hcell := h i j
  rw [get?_eq_getElem hi hj, get?_eq_getElem hi hj] at hcell
  exact Option.some.inj hcell

theorem mapIdx_congr {f g : ℕ → ℕ → α → α} {t : Table n α}
    (h : ∀ i j a, t.get? i j = some a → f i j a = g i j a) : t.mapIdx f = t.mapIdx g := by
  apply ext_get?
  intro i j
  rw [get?_mapIdx, get?_mapIdx]
  cases hget : t.get? i j with
  | none => rfl
  | some a => rw [Option.map_some, Option.map_some, h i j a hget]

theorem mapIdx_mapIdx (f g : ℕ → ℕ → α → α) (t : Table n α) :
    (t.mapIdx f).mapIdx g = t.mapIdx fun i j a => g i j (f i j a) := by
  apply ext_get?
  intro i j
  simp only [get?_mapIdx, Option.map_map]
  rfl

theorem mapIdx_eq_self {f : ℕ → ℕ → α → α} {t : Table n α}
    (h : ∀ i j a, t.get? i j = some a → f i j a = a) : t.mapIdx f = t := by
  apply ext_get?
  intro i j
  rw [get?_mapIdx]
  cases hget : t.get? i j with
  | none => rfl
  | some a => rw [Option.map_some, h i j a hget]

/-- Inside the table a checked write succeeds and rewrites the one cell. -/
theorem set?_eq_some {t : Table n α} {i j : ℕ} (hi : i < n) (hj : j < n) (a : α) :
    t.set? i j a = some (t.mapIdx fun x y b => if x = i ∧ y = j then a else b) := by
  rw [set?, dif_pos hi, dif_pos hj]
  congr 1
  apply ext_get?
  intro x y
  rw [get?_mapIdx]
  by_cases hxy : x < n ∧ y < n
  · rw [get?_eq_getElem hxy.1 hxy.2, get?_eq_getElem hxy.1 hxy.2, Option.map_some]
    by_cases hx : x = i
    · subst hx
      by_cases hy : y = j
      · subst hy
        simp
      · simp [Ne.symm hy, hy]
    · simp [Ne.symm hx, hx]
  · rw [get?_eq_none hxy, get?_eq_none hxy, Option.map_none]

end Table
