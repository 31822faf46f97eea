import Mathlib.Data.Sym.Sym2
import Matador.Library.Table

/-!
# The matrix of country pairs

The matrix has one row and one column per country and holds the state of the
experiment of a pair of countries: `1` not used yet, `3` measured, `2` measured
with a host that failed later, `4` ended with a small error, `0` without a host,
and in `wrapper_delta` `5` for two countries of the same input file.

Two pieces of code rewrite it while the pairs are tried. `relabelCross` is the
`while k < dif_countries` loop that turns one value into another in the row and
the column of a country; it occurs for `3` to `2` and for `1` to `0`. `setPair`
writes the two cells of a pair after an experiment. Inside the table each of them
is one `Table.mapIdx`, which is how the rest of the development uses them. The
initialisation loop of `wrapper_delta` is in `Wrapper/Blocks.lean`.
-/

namespace Matador

namespace Wrapper

variable {n : ℕ}

def relabelCell (matrix : Table n ℕ) (x y a b : ℕ) : Option (Table n ℕ) :=
  (matrix.get? x y).bind fun v => if v = a then matrix.set? x y b else some matrix

/-- The first `k` iterations of the loop over the row and the column of `c`. -/
def relabelLoop (matrix : Table n ℕ) (c a b : ℕ) : ℕ → Option (Table n ℕ)
  | 0 => some matrix
  | k + 1 => do
      let matrix ← relabelLoop matrix c a b k
      let matrix ← relabelCell matrix k c a b
      relabelCell matrix c k a b

def relabelCross (matrix : Table n ℕ) (c a b : ℕ) : Option (Table n ℕ) :=
  relabelLoop matrix c a b n

def setPair (matrix : Table n ℕ) (i j v : ℕ) : Option (Table n ℕ) :=
  (matrix.set? i j v).bind fun matrix => matrix.set? j i v

/-- The value `v` of the cell `(x, y)` after the pass over row and column `c`. -/
def relabelled (c a b x y v : ℕ) : ℕ := if (x = c ∨ y = c) ∧ v = a then b else v

/-- The value `w` of the cell `(x, y)` after the pair `{i, j}` was set to `v`. -/
def pairSet (i j v x y w : ℕ) : ℕ := if s(x, y) = s(i, j) then v else w

theorem relabelCell_eq_some {matrix : Table n ℕ} {x y : ℕ} (hx : x < n) (hy : y < n)
    (a b : ℕ) :
    relabelCell matrix x y a b =
      some (matrix.mapIdx fun x' y' v => if (x' = x ∧ y' = y) ∧ v = a then b else v) := by
  obtain ⟨v, hv⟩ := matrix.exists_get?_eq_some hx hy
  have hcell : ∀ {x' y' w : ℕ}, matrix.get? x' y' = some w → x' = x ∧ y' = y → w = v := by
    rintro x' y' w hw ⟨rfl, rfl⟩
    exact Option.some.inj (hw.symm.trans hv)
  rw [relabelCell, hv, Option.bind_some]
  by_cases hva : v = a
  · rw [if_pos hva, Table.set?_eq_some hx hy]
    congr 1
    apply Table.mapIdx_congr
    intro x' y' w hw
    by_cases hxy : x' = x ∧ y' = y
    · simp [hxy, hcell hw hxy, hva]
    · simp [hxy]
  · rw [if_neg hva, Table.mapIdx_eq_self]
    intro x' y' w hw
    by_cases hxy : x' = x ∧ y' = y
    · simp [hcell hw hxy, hva]
    · simp [hxy]

/-- After `k` iterations the pass has rewritten the cells of row and column `c`
whose other index is below `k`. A cell met twice keeps its new value. -/
theorem relabelLoop_eq_some {matrix : Table n ℕ} {c : ℕ} (hc : c < n) (a b : ℕ) {k : ℕ}
    (hk : k ≤ n) :
    relabelLoop matrix c a b k =
      some (matrix.mapIdx fun x y v =>
        if (y = c ∧ x < k ∨ x = c ∧ y < k) ∧ v = a then b else v) := by
  induction k with
  | zero =>
      rw [relabelLoop, Table.mapIdx_eq_self]
      intro x y v _
      simp
  | succ k ih =>
      have hkn : k < n := hk
      simp only [relabelLoop, ih hkn.le, relabelCell_eq_some hkn hc, relabelCell_eq_some hc hkn,
        Option.bind_eq_bind, Option.bind_some, Table.mapIdx_mapIdx]
      congr 1
      apply Table.mapIdx_congr
      intro x y v _
      by_cases hva : v = a
      · subst hva
        simp only [and_true]
        split_ifs <;> first | rfl | omega
      · simp [hva]

theorem relabelCross_eq_some {matrix : Table n ℕ} {c : ℕ} (hc : c < n) (a b : ℕ) :
    relabelCross matrix c a b = some (matrix.mapIdx (relabelled c a b)) := by
  rw [relabelCross, relabelLoop_eq_some hc a b le_rfl]
  congr 1
  apply Table.mapIdx_congr
  intro x y v hv
  obtain ⟨hx, hy⟩ := Table.lt_of_get?_eq_some hv
  simp only [relabelled, hx, hy, and_true]
  exact if_congr (by tauto) rfl rfl

theorem setPair_eq_some {matrix : Table n ℕ} {i j : ℕ} (hi : i < n) (hj : j < n) (v : ℕ) :
    setPair matrix i j v = some (matrix.mapIdx (pairSet i j v)) := by
  rw [setPair, Table.set?_eq_some hi hj, Option.bind_some, Table.set?_eq_some hj hi,
    Table.mapIdx_mapIdx]
  congr 1
  apply Table.mapIdx_congr
  intro x y w _
  simp only [pairSet, Sym2.eq_iff]
  split_ifs <;> first | rfl | tauto

end Wrapper

end Matador
