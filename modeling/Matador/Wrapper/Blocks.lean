import Mathlib.Algebra.BigOperators.Group.List.Basic
import Mathlib.Algebra.Order.Ring.Nat
import Matador.Wrapper.Move

/-!
# The start of the two wrappers

`wrapper` starts with `1` in every cell. `wrapper_delta` first sets the pairs of
countries of the same input file to `5`: `fillBlocks` is its loop over
`length_of_each_input`, with the row index `i` shared by all blocks and the
running offset `base`. `fileOf` says which input file an index of `country_list`
belongs to, and `fillBlocks_eq_some` says that the loop marks exactly the pairs
of one file.

The later modules only need what the two starts have in common: `Initial` is
that, and `Start` the two starts themselves.
-/

namespace Matador

namespace Wrapper

variable {n : ℕ}

/-- `k` iterations of `while j < base + length`. -/
def fillRow (matrix : Table n ℕ) (i j : ℕ) : ℕ → Option (Table n ℕ)
  | 0 => some matrix
  | k + 1 => (matrix.set? i j 5).bind fun matrix => fillRow matrix i (j + 1) k

/-- `k` iterations of `while i < base + length`. -/
def fillRows (matrix : Table n ℕ) (base length i : ℕ) : ℕ → Option (Table n ℕ)
  | 0 => some matrix
  | k + 1 =>
      (fillRow matrix i base length).bind fun matrix => fillRows matrix base length (i + 1) k

/-- `for length in length_of_each_input`. The row index is not reset: after the
rows of a block it is where the next block starts. -/
def fillBlocks (matrix : Table n ℕ) (base i : ℕ) : List ℕ → Option (Table n ℕ)
  | [] => some matrix
  | length :: rest =>
      (fillRows matrix base length i (base + length - i)).bind fun matrix =>
        fillBlocks matrix (base + length) (max i (base + length)) rest

def fileOf : List ℕ → ℕ → Option ℕ
  | [], _ => none
  | length :: rest, x => if x < length then some 0 else (fileOf rest (x - length)).map (· + 1)

def SameFile (lengths : List ℕ) (x y : ℕ) : Prop :=
  (fileOf lengths x).isSome ∧ fileOf lengths x = fileOf lengths y

instance (lengths : List ℕ) (x y : ℕ) : Decidable (SameFile lengths x y) :=
  inferInstanceAs (Decidable (_ ∧ _))

theorem SameFile.symm {lengths : List ℕ} {x y : ℕ} (h : SameFile lengths x y) :
    SameFile lengths y x := by
  obtain ⟨hsome, heq⟩ := h
  exact ⟨heq ▸ hsome, heq.symm⟩

theorem sameFile_comm (lengths : List ℕ) (x y : ℕ) :
    SameFile lengths x y ↔ SameFile lengths y x :=
  ⟨SameFile.symm, SameFile.symm⟩

theorem sameFile_cons (length : ℕ) (rest : List ℕ) (x y : ℕ) :
    SameFile (length :: rest) x y ↔
      (x < length ∧ y < length) ∨
        (length ≤ x ∧ length ≤ y ∧ SameFile rest (x - length) (y - length)) := by
  by_cases hx : x < length
  · by_cases hy : y < length
    · simp [SameFile, fileOf, hx, hy]
    · have hxy : ¬ length ≤ x := by omega
      cases hf : fileOf rest (y - length) <;> simp [SameFile, fileOf, hx, hy, hxy, hf]
  · by_cases hy : y < length
    · have hxy : ¬ length ≤ y := by omega
      cases hf : fileOf rest (x - length) <;> simp [SameFile, fileOf, hx, hy, hxy, hf]
    · have hx' : length ≤ x := by omega
      have hy' : length ≤ y := by omega
      cases hf : fileOf rest (x - length) <;> cases hg : fileOf rest (y - length) <;>
        simp [SameFile, fileOf, hx, hy, hx', hy', hf, hg]

theorem fileOf_isSome_iff (lengths : List ℕ) (x : ℕ) :
    (fileOf lengths x).isSome ↔ x < lengths.sum := by
  induction lengths generalizing x with
  | nil => simp [fileOf]
  | cons length rest ih =>
      by_cases hx : x < length
      · simp only [fileOf, hx, if_true, Option.isSome_some, List.sum_cons, true_iff]
        omega
      · simp only [fileOf, hx, if_false, Option.isSome_map, ih, List.sum_cons]
        omega

theorem sameFile_self {lengths : List ℕ} {x : ℕ} (h : x < lengths.sum) :
    SameFile lengths x x := ⟨(fileOf_isSome_iff lengths x).mpr h, rfl⟩

theorem SameFile.lt_sum {lengths : List ℕ} {x y : ℕ} (h : SameFile lengths x y) :
    x < lengths.sum ∧ y < lengths.sum :=
  ⟨(fileOf_isSome_iff lengths x).mp h.1, (fileOf_isSome_iff lengths y).mp h.symm.1⟩

theorem fillRow_eq_some {matrix : Table n ℕ} {i j k : ℕ} (hi : i < n) (hk : j + k ≤ n) :
    fillRow matrix i j k =
      some (matrix.mapIdx fun x y v => if x = i ∧ j ≤ y ∧ y < j + k then 5 else v) := by
  induction k generalizing matrix j with
  | zero =>
      rw [fillRow, Table.mapIdx_eq_self]
      intro x y v _
      rw [if_neg (by omega)]
  | succ k ih =>
      rw [fillRow, Table.set?_eq_some hi (by omega), Option.bind_some, ih (by omega),
        Table.mapIdx_mapIdx]
      congr 1
      apply Table.mapIdx_congr
      intro x y v _
      split_ifs <;> first | rfl | omega

theorem fillRows_eq_some {matrix : Table n ℕ} {base length i k : ℕ} (hi : i + k ≤ n)
    (hlength : base + length ≤ n) :
    fillRows matrix base length i k =
      some (matrix.mapIdx fun x y v =>
        if (i ≤ x ∧ x < i + k) ∧ base ≤ y ∧ y < base + length then 5 else v) := by
  induction k generalizing matrix i with
  | zero =>
      rw [fillRows, Table.mapIdx_eq_self]
      intro x y v _
      rw [if_neg (by omega)]
  | succ k ih =>
      rw [fillRows, fillRow_eq_some (by omega) hlength, Option.bind_some, ih (by omega),
        Table.mapIdx_mapIdx]
      congr 1
      apply Table.mapIdx_congr
      intro x y v _
      split_ifs <;> first | rfl | omega

/-- The initialisation marks the pairs of one file. The invariant of the loop over
the blocks is that the row index equals the offset of the block. -/
theorem fillBlocks_eq_some {matrix : Table n ℕ} {base : ℕ} {lengths : List ℕ}
    (h : base + lengths.sum ≤ n) :
    fillBlocks matrix base base lengths =
      some (matrix.mapIdx fun x y v =>
        if base ≤ x ∧ base ≤ y ∧ SameFile lengths (x - base) (y - base) then 5 else v) := by
  induction lengths generalizing matrix base with
  | nil =>
      rw [fillBlocks, Table.mapIdx_eq_self]
      intro x y v _
      simp [SameFile, fileOf]
  | cons length rest ih =>
      rw [List.sum_cons] at h
      have hmax : max base (base + length) = base + length := by omega
      have hcount : base + length - base = length := by omega
      rw [fillBlocks, hcount, fillRows_eq_some (by omega) (by omega), Option.bind_some, hmax,
        ih (by omega), Table.mapIdx_mapIdx]
      congr 1
      apply Table.mapIdx_congr
      intro x y v _
      have hx : x - base - length = x - (base + length) := by omega
      have hy : y - base - length = y - (base + length) := by omega
      by_cases hlow : base ≤ x ∧ base ≤ y
      · have hcons := sameFile_cons length rest (x - base) (y - base)
        rw [hx, hy] at hcons
        by_cases hsame : SameFile rest (x - (base + length)) (y - (base + length))
        · simp only [hsame, and_true] at hcons
          simp only [hlow, hcons, hsame, and_true, true_and]
          split_ifs <;> first | rfl | omega
        · simp only [hsame, and_false, or_false] at hcons
          simp only [hlow, hcons, hsame, and_false, true_and, if_false]
          split_ifs <;> first | rfl | omega
      · have hbase : ¬ (base ≤ x ∧ base ≤ y ∧ SameFile (length :: rest) (x - base) (y - base)) :=
          fun hall => hlow ⟨hall.1, hall.2.1⟩
        rw [if_neg hbase]
        split_ifs <;> first | rfl | omega

/-! ## The two starts -/

/-- `wrapper_delta.execute`: the pairs of one input file start as `5`, all other
cells as `1`, and the counter as `46`. -/
def deltaStart (countryList : List Country) (lengthOfEachInput : List ℕ) :
    State countryList.length :=
  match fillBlocks (Table.fill _ 1) 0 0 lengthOfEachInput with
  | none => (State.start countryList (Table.fill _ 1) 46).fail
  | some matrix => State.start countryList matrix 46

/-- The starts of the two wrappers, for any country list of `wrapper` and any list
of countries per input file of `wrapper_delta`. -/
inductive Start : {n : ℕ} → State n → Prop where
  | wrapper (countryList : List Country) : Start (wrapperStart countryList)
  | delta (inputs : List (List Country)) :
      Start (deltaStart inputs.flatten (inputs.map List.length))

/-- What the two starts have in common. -/
structure Initial (s : State n) : Prop where
  control : s.control = .outer
  i : s.i = 0
  log : s.log = []
  symm : ∀ x y, s.matrix.get? x y = s.matrix.get? y x
  cell : ∀ x y v, s.matrix.get? x y = some v → v = 1 ∨ v = 5

theorem deltaStart_eq {countryList : List Country} {lengths : List ℕ}
    (h : lengths.sum ≤ countryList.length) :
    deltaStart countryList lengths =
      State.start countryList ((Table.fill countryList.length 1).mapIdx fun x y v =>
        if SameFile lengths x y then 5 else v) 46 := by
  rw [deltaStart, fillBlocks_eq_some (by omega)]
  simp

theorem sum_length_inputs (inputs : List (List Country)) :
    (inputs.map List.length).sum = inputs.flatten.length :=
  (List.length_flatten).symm

theorem initial_wrapperStart (countryList : List Country) : Initial (wrapperStart countryList) where
  control := rfl
  i := rfl
  log := rfl
  symm x y := by
    simp only [wrapperStart, State.start, Table.get?_fill, and_comm]
  cell x y v h := by
    simp only [wrapperStart, State.start, Table.get?_fill, Option.ite_none_right_eq_some,
      Option.some.injEq] at h
    exact Or.inl h.2.symm

theorem initial_deltaStart {countryList : List Country} {lengths : List ℕ}
    (h : lengths.sum ≤ countryList.length) : Initial (deltaStart countryList lengths) := by
  rw [deltaStart_eq h]
  refine ⟨rfl, rfl, rfl, ?_, ?_⟩
  · intro x y
    simp only [State.start, Table.get?_mapIdx, Table.get?_fill, sameFile_comm lengths x y, and_comm]
  · intro x y v hv
    simp only [State.start, Table.get?_mapIdx, Table.get?_fill, Option.map_eq_some_iff,
      Option.ite_none_right_eq_some, Option.some.injEq] at hv
    obtain ⟨w, ⟨-, rfl⟩, rfl⟩ := hv
    split_ifs <;> simp

theorem Start.initial {s : State n} (h : Start s) : Initial s := by
  cases h with
  | wrapper countryList => exact initial_wrapperStart countryList
  | delta inputs => exact initial_deltaStart (sum_length_inputs inputs).le

theorem Initial.cached {s : State n} (h : Initial s) : s.Cached := by
  intro row j hc
  rw [h.control] at hc
  cases hc

end Wrapper

end Matador
