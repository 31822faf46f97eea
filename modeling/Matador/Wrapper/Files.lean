import Matador.Wrapper.History

/-!
# Pairs of countries of one input file

`wrapper_delta` marks the pairs of countries of one input file with `5` before the
scheduling loops, and no branch of the loops touches such a cell: a pass over a row
and a column only rewrites `1` and `3`, and an experiment is only made in a cell
with `1` or `2`. So the cells with `5` are the same in every state of a run, and
no experiment is made for such a pair.
-/

namespace Matador

namespace Wrapper

variable {n : ℕ}

/-- The cells with `5` are those of the start, and no call was made in one of them. -/
structure FileInv (s₀ s : State n) : Prop where
  five : ∀ x y, s.matrix.get? x y = some 5 ↔ s₀.matrix.get? x y = some 5
  calls : ∀ c ∈ s.log, s₀.matrix.get? c.host1.entry.country c.host2.entry.country ≠ some 5

theorem Initial.fileInv {s₀ : State n} (h : Initial s₀) : FileInv s₀ s₀ where
  five _ _ := Iff.rfl
  calls c hc := by
    rw [h.log] at hc
    cases hc

theorem get?_relabelled_eq_five {matrix : Table n ℕ} {c a b : ℕ} (ha : a ≠ 5) (hb : b ≠ 5)
    (x y : ℕ) :
    (matrix.mapIdx (relabelled c a b)).get? x y = some 5 ↔ matrix.get? x y = some 5 := by
  rw [Table.get?_mapIdx]
  cases matrix.get? x y with
  | none => simp
  | some v =>
      simp only [Option.map_some, Option.some.injEq, relabelled]
      split_ifs <;> omega

theorem FileInv.of_five {s₀ s s' : State n} (h : FileInv s₀ s)
    (hmatrix : ∀ x y, s'.matrix.get? x y = some 5 ↔ s.matrix.get? x y = some 5)
    (hlog : s'.log = s.log) : FileInv s₀ s' where
  five x y := (hmatrix x y).trans (h.five x y)
  calls c hc := h.calls c (hlog ▸ hc)

/-- A call in an open cell is not one of two countries of the same file. -/
theorem FileInv.call {o : Outcome} {s₀ s s' : State n} {row node2 : Node} {j v : ℕ}
    (h : FileInv s₀ s) (hv : s.matrix.get? s.i j = some v) (hopen : 0 < v ∧ v ≤ 2)
    (hmatrix : ∀ x y, s'.matrix.get? x y = some 5 ↔ s.matrix.get? x y = some 5)
    (hlog : s'.log = s.call o row node2 j :: s.log) : FileInv s₀ s' where
  five x y := (hmatrix x y).trans (h.five x y)
  calls c hc := by
    rw [hlog] at hc
    rcases List.mem_cons.mp hc with rfl | hc
    · intro hfive
      have hcell : s.matrix.get? s.i j = some 5 := (h.five s.i j).mpr hfive
      rw [hv, Option.some.injEq] at hcell
      omega
    · exact h.calls c hc

theorem Move.fileInv {o : Outcome} {s₀ s s' : State n} (hm : Move o s s') (hinv : MatrixInv s)
    (h : FileInv s₀ s) : FileInv s₀ s' := by
  cases hm with
  | finish | enterRow | endRow | skipCell | indexError =>
      exact h.of_five (fun _ _ => Iff.rfl) rfl
  | skipRow | skipColumn =>
      exact h.of_five (get?_relabelled_eq_five (by omega) (by omega)) rfl
  | fatal row node2 j v hc hnode hv hopen ho => exact h.call hv hopen (fun _ _ => Iff.rfl) rfl
  | dropHost row node2 j v c next hc hnode hv hopen ho =>
      exact h.call hv hopen (get?_relabelled_eq_five (by omega) (by omega)) rfl
  | complete row node2 j v w hc hnode hv hopen ho =>
      refine h.call hv hopen (fun x y => ?_) rfl
      have hw : w ≠ 5 := by omega
      rw [Table.get?_mapIdx]
      by_cases hpair : s(x, y) = s(s.i, j)
      · have hcell : s.matrix.get? x y = some v := by
          rcases Sym2.eq_iff.mp hpair with ⟨rfl, rfl⟩ | ⟨rfl, rfl⟩
          · exact hv
          · rw [hinv.symm]
            exact hv
        have hv5 : v ≠ 5 := by omega
        simp [hcell, pairSet, hpair, hw, hv5]
      · simp [pairSet, hpair]

theorem fileInv_of_reachable {ok : Outcome → State n → Prop} {s₀ s : State n}
    (h₀ : Initial s₀) (h : Transition.Reachable step ok s₀ s) : FileInv s₀ s :=
  invariant_of_move h₀.cached h h₀.fileInv fun _ _ _ hreach hfile _ hm =>
    hm.fileInv (matrixInv_of_reachable h₀ hreach) hfile

theorem wrapperStart_ne_five (countryList : List Country) (x y : ℕ) :
    (wrapperStart countryList).matrix.get? x y ≠ some 5 := by
  simp [wrapperStart, State.start]

/-! ## The input files -/

theorem readFiles_eq_some {files : List (List String)} {countryList : List Country}
    {lengths : List ℕ} (h : readFiles files = some (countryList, lengths)) :
    ∃ inputs, files.mapM readFile = some inputs ∧ countryList = inputs.flatten ∧
      lengths = inputs.map List.length := by
  rw [readFiles_eq, Option.map_eq_some_iff] at h
  obtain ⟨inputs, hinputs, heq⟩ := h
  obtain ⟨rfl, rfl⟩ := Prod.mk.inj heq
  exact ⟨inputs, hinputs, rfl, rfl⟩

theorem start_of_readFiles {files : List (List String)} {countryList : List Country}
    {lengths : List ℕ} (h : readFiles files = some (countryList, lengths)) :
    lengths.sum = countryList.length ∧ Start (deltaStart countryList lengths) := by
  obtain ⟨inputs, -, rfl, rfl⟩ := readFiles_eq_some h
  exact ⟨sum_length_inputs inputs, Start.delta inputs⟩

theorem deltaStart_five {countryList : List Country} {lengths : List ℕ}
    (h : lengths.sum = countryList.length) {x y : ℕ} (hx : x < countryList.length)
    (hy : y < countryList.length) :
    (deltaStart countryList lengths).matrix.get? x y = some 5 ↔ SameFile lengths x y := by
  rw [deltaStart_eq h.le]
  simp [State.start, hx, hy]

/-- For any input files that can be read, `wrapper_delta` starts with `5` in exactly
the cells of two countries of one file; in every state of every run those cells
are still `5` and no others are, and no call was made for two countries of one
file. -/
theorem delta_spares_files {files : List (List String)} {countryList : List Country}
    {lengths : List ℕ} (hread : readFiles files = some (countryList, lengths))
    {s : State countryList.length} (h : Run (deltaStart countryList lengths) s) :
    (∀ x y, x < countryList.length → y < countryList.length →
      ((deltaStart countryList lengths).matrix.get? x y = some 5 ↔ SameFile lengths x y)) ∧
    (∀ x y, x < countryList.length → y < countryList.length →
      (s.matrix.get? x y = some 5 ↔ SameFile lengths x y)) ∧
    ∀ c ∈ s.log, ¬ SameFile lengths c.host1.entry.country c.host2.entry.country := by
  obtain ⟨hsum, hstart⟩ := start_of_readFiles hread
  have hfile := fileInv_of_reachable hstart.initial h
  have hfive : ∀ x y, x < countryList.length → y < countryList.length →
      ((deltaStart countryList lengths).matrix.get? x y = some 5 ↔ SameFile lengths x y) :=
    fun x y hx hy => deltaStart_five hsum hx hy
  refine ⟨hfive, fun x y hx hy => (hfile.five x y).trans (hfive x y hx hy), ?_⟩
  intro c hc hsame
  obtain ⟨hx, hy⟩ := hsame.lt_sum
  rw [hsum] at hx hy
  exact hfile.calls c hc ((hfive _ _ hx hy).mpr hsame)

/-- Two files with two countries and one country: the only pairs that are tried are
the ones between them. -/
theorem delta_spares_files_two :
    let countryList : List Country :=
      [.entry "BE" [["a", "1", "2"]], .entry "CH" [["b", "3", "4"]], .entry "DE" [["c", "5", "6"]]]
    let s := execute (fun _ => .returns) 9 (deltaStart countryList [2, 1])
    readFiles [["BE a 1 2", "CH b 3 4"], ["DE c 5 6"]] = some (countryList, [2, 1]) ∧
      s.log.length = 2 ∧ s.matrix.get? 0 1 = some 5 ∧
      ∀ c ∈ s.log, ¬ SameFile [2, 1] c.host1.entry.country c.host2.entry.country := by
  have hread : readFiles [["BE a 1 2", "CH b 3 4"], ["DE c 5 6"]] =
      some ([.entry "BE" [["a", "1", "2"]], .entry "CH" [["b", "3", "4"]],
        .entry "DE" [["c", "5", "6"]]], [2, 1]) := by decide
  have hspared := delta_spares_files hread (execute_run (fun _ => .returns) 9 _)
  exact ⟨hread, by decide, (hspared.2.1 0 1 (by decide) (by decide)).mpr (by decide),
    hspared.2.2⟩

end Wrapper

end Matador
