import Matador.Library.Delimited
import Matador.Wrapper.Grouping
import Matador.Wrapper.Termination

/-!
# The list accesses of a campaign

A campaign reads its input files, tries the pairs of countries and writes the matrix with
the codes of the countries around it. If every file has a line, all of its countries have a
code and hosts with three values, and no access is refused: `i` is set to `-1` or to `j - 1`
only where `i = i+1` follows before it is used again. A file without lines is read as one
country without a code. The loops refuse it when they come to it, and the result table would
in any case, so a campaign with such a file never ends regularly.
-/

namespace Matador

namespace Wrapper

variable {n : ℕ}

/-! ## The result table -/

def State.resultRow (s : State n) (i : ℕ) : Option String := do
  let code ← s.countryList[i]?.bind Country.code?
  let row ← s.matrix.rows[i]?
  return code ++ " " ++
    String.join (row.toList.map fun value => Delimited.zfill 2 (toString value) ++ " ") ++ "\n"

def State.resultTable (s : State n) : Option String := do
  let codes ← s.countryList.toList.mapM Country.code?
  let rows ← (List.range n).mapM s.resultRow
  return "\n   " ++ String.join (codes.map fun code => code ++ " ") ++ "\n" ++ String.join rows

theorem isSome_mapM_iff {α β : Type} (f : α → Option β) (l : List α) :
    (l.mapM f).isSome ↔ ∀ a ∈ l, (f a).isSome := by
  induction l with
  | nil => simp
  | cons a l ih =>
      rw [List.forall_mem_cons, ← ih, List.mapM_cons]
      cases f a with
      | none => simp
      | some b => cases l.mapM f <;> simp

theorem State.resultRow_isSome {s : State n} {i : ℕ} {country : Country}
    (h : s.countryList[i]? = some country) (hcode : country.code?.isSome) :
    (s.resultRow i).isSome := by
  obtain ⟨code, hcode⟩ := Option.isSome_iff_exists.mp hcode
  have hi : i < n := (Vector.getElem?_eq_some_iff.mp h).1
  rw [State.resultRow, h, Option.bind_some, hcode, Vector.getElem?_eq_getElem hi]
  rfl

/-- The table is written if and only if every country has a code. -/
theorem State.resultTable_isSome_iff (s : State n) :
    s.resultTable.isSome ↔
      ∀ (x : ℕ) country, s.countryList[x]? = some country → country.code?.isSome := by
  constructor
  · intro h x country hx
    have hcodes : (s.countryList.toList.mapM Country.code?).isSome := by
      unfold State.resultTable at h
      cases hmapM : s.countryList.toList.mapM Country.code? with
      | none =>
          rw [hmapM] at h
          cases h
      | some codes => rfl
    refine (isSome_mapM_iff _ _).mp hcodes country ?_
    rw [Vector.mem_toList_iff]
    exact Vector.mem_of_getElem? hx
  · intro h
    have hcodes : (s.countryList.toList.mapM Country.code?).isSome := by
      refine (isSome_mapM_iff _ _).mpr fun country hmem => ?_
      obtain ⟨x, hx⟩ := Vector.getElem?_of_mem (Vector.mem_toList_iff.mp hmem)
      exact h x country hx
    have hrows : ((List.range n).mapM s.resultRow).isSome := by
      refine (isSome_mapM_iff _ _).mpr fun i hi => ?_
      obtain ⟨country, hcountry⟩ := s.exists_country (List.mem_range.mp hi)
      exact State.resultRow_isSome hcountry (h i country hcountry)
    obtain ⟨codes, hcodes⟩ := Option.isSome_iff_exists.mp hcodes
    obtain ⟨rows, hrows⟩ := Option.isSome_iff_exists.mp hrows
    simp [State.resultTable, hcodes, hrows]

/-! ## The loops -/

/-- The value of `i` behind a `break` of the inner loop and the `i = i+1` that follows, as an
integer. -/
def rowAfterBreak (o : Outcome) (i j : ℕ) : ℤ :=
  match o with
  | .host1Exception => (i : ℤ) - 1 + 1
  | .host2Exception => (if j < i then (j : ℤ) - 1 else i) + 1
  | _ => (i : ℤ) + 1

/-- From the loops to the result table, no list access is refused, and the integer that `i`
becomes behind a `break` is the natural number that the loops go on with, so that no index
is negative. -/
structure NeverRefused (s₀ : State n) : Prop where
  loops : ∀ s, Run s₀ s → s.control ≠ .indexError
  breaks : ∀ s o s' row j, Run s₀ s → s.control = .inner row j → j < n →
    step o s = some s' → s'.control = .outer → rowAfterBreak o s.i j = s'.i
  table : ∀ s, Run s₀ s → s.control = .finished → s.resultTable.isSome

theorem rowAfterBreak_eq {o : Outcome} {s s' : State n} {row : Node} {j : ℕ} (hm : Move o s s')
    (hc : s.control = .inner row j) (hj : j < n) (hc' : s'.control = .outer) :
    rowAfterBreak o s.i j = s'.i := by
  cases hm with
  | finish hc₁ | enterRow _ hc₁ | skipRow hc₁ =>
      rw [hc₁] at hc
      cases hc
  | endRow row₁ j₁ hc₁ hj₁ =>
      obtain ⟨-, rfl⟩ := Control.inner.inj (hc₁.symm.trans hc)
      exact absurd hj (Nat.not_lt.mpr hj₁)
  | skipColumn | skipCell | complete | fatal | indexError => cases hc'
  | dropHost row₁ node2 j₁ v c next hc₁ hnode hv hopen ho =>
      obtain ⟨-, rfl⟩ := Control.inner.inj (hc₁.symm.trans hc)
      rcases ho with ⟨rfl, -, rfl⟩ | ⟨rfl, -, rfl⟩
      · exact Int.sub_add_cancel _ 1
      · simp only [rowAfterBreak]
        split_ifs <;> omega

theorem neverRefused_of_wellFormed {s₀ : State n} (h₀ : Start s₀)
    (hwf : ∀ (x : ℕ) country, s₀.countryList[x]? = some country → country.WellFormed) :
    NeverRefused s₀ where
  loops _ h := control_ne_indexError h₀.initial hwf h
  breaks s o s' row j h hc hj hstep hc' :=
    rowAfterBreak_eq (move_of_step (cached_of_reachable h₀.initial.cached h) hstep) hc hj hc'
  table s h _ := by
    refine s.resultTable_isSome_iff.mpr fun x country hx => ?_
    rw [listsFrom_of_reachable h₀.initial h x] at hx
    obtain ⟨country₀, hcountry₀, rfl⟩ := Option.map_eq_some_iff.mp hx
    exact ((hwf x country₀ hcountry₀).readable_drop _).1

/-- With a country without a code, the run in which every experiment returns ends with a
refused access: in the loops or at the latest in the result table. -/
theorem not_neverRefused_of_empty {s₀ : State n} (h₀ : Start s₀) {x : ℕ}
    (hx : s₀.countryList[x]? = some .empty) : ¬ NeverRefused s₀ := by
  intro hnever
  -- The measure is a number of steps after which the loops have ended.
  let s := execute (fun _ => .returns) s₀.measure s₀
  have hrun : Run s₀ s := execute_run _ _ _
  have hreturns : ∀ t : State n, nextOutcome (fun _ => .returns) t ≠ .fatalException :=
    fun _ h => Outcome.noConfusion h
  have hreach : Transition.Reachable step (fun o _ => o ≠ .fatalException) s₀ s :=
    Transition.run_reachable hreturns s₀.measure s₀
  rcases execute_ended h₀.initial.cached (fun _ => .returns) with hfinished | hexited | herror
  · have hcodes := s.resultTable_isSome_iff.mp (hnever.table s hrun hfinished)
    have hempty := listsFrom_of_reachable h₀.initial hrun x
    rw [hx] at hempty
    exact absurd (hcodes x _ hempty) (by simp [Country.drop, Country.code?])
  · exact control_ne_exited h₀.initial hreach hexited
  · exact hnever.loops s hrun herror

/-! ## The input files -/

def entriesOf (lines : List String) : List Country :=
  if lines = [] then [.empty] else (Runs.runs codeOf lines).map countryOf

theorem readFile_entriesOf {lines : List String} (h : ∀ line ∈ lines, split line ≠ []) :
    readFile lines = some (entriesOf lines) := by
  by_cases hne : lines = []
  · subst hne
    rfl
  · rw [entriesOf, if_neg hne]
    exact readFile_eq hne h

theorem wellFormed_of_mem_entriesOf {lines : List String} (hne : lines ≠ [])
    (h : ∀ line ∈ lines, 4 ≤ (split line).length) {country : Country}
    (hmem : country ∈ entriesOf lines) : country.WellFormed := by
  rw [entriesOf, if_neg hne] at hmem
  obtain ⟨group, hgroup, rfl⟩ := List.mem_map.mp hmem
  cases group with
  | nil => exact absurd hgroup (List.nil_notMem_splitBy _ lines)
  | cons first rest =>
      intro host hhost
      obtain ⟨line, hline, rfl⟩ := List.mem_map.mp hhost
      have hmem : line ∈ lines := by
        rw [← List.flatten_splitBy (fun a b => decide (codeOf a = codeOf b)) lines]
        exact List.mem_flatten_of_mem hgroup hline
      exact (length_hostOf (h line hmem)).ge

theorem getElem?_start (countryList : List Country) (matrix : Table countryList.length ℕ)
    (counter x : ℕ) :
    (State.start countryList matrix counter).countryList[x]? = countryList[x]? := by
  simp [State.start]

theorem getElem?_deltaStart (inputs : List (List Country)) (x : ℕ) :
    (deltaStart inputs.flatten (inputs.map List.length)).countryList[x]? =
      inputs.flatten[x]? := by
  rw [deltaStart_eq (sum_length_inputs inputs).le]
  exact getElem?_start _ _ _ x

/-- A start from a list of countries refuses no access if all of them are well formed, and
some access if one of them is empty. -/
theorem neverRefused_iff_of_entries {countryList : List Country}
    {s₀ : State countryList.length} (h₀ : Start s₀)
    (hlist : ∀ x : ℕ, s₀.countryList[x]? = countryList[x]?)
    (hentries : ∀ country ∈ countryList, country ≠ .empty → country.WellFormed) :
    NeverRefused s₀ ↔ .empty ∉ countryList := by
  constructor
  · intro hnever hmem
    obtain ⟨x, hx⟩ := List.getElem?_of_mem hmem
    exact not_neverRefused_of_empty h₀ ((hlist x).trans hx) hnever
  · intro hempty
    refine neverRefused_of_wellFormed h₀ fun x country hx => ?_
    rw [hlist x] at hx
    have hmem := List.mem_of_getElem? hx
    exact hentries country hmem fun heq => hempty (heq ▸ hmem)

theorem empty_mem_entriesOf_iff {lines : List String}
    (h : ∀ line ∈ lines, 4 ≤ (split line).length) : .empty ∈ entriesOf lines ↔ lines = [] := by
  constructor
  · intro hmem
    by_contra hne
    exact wellFormed_of_mem_entriesOf hne h hmem
  · rintro rfl
    exact List.mem_singleton_self _

theorem wellFormed_of_ne_empty {lines : List String}
    (h : ∀ line ∈ lines, 4 ≤ (split line).length) {country : Country}
    (hmem : country ∈ entriesOf lines) (hne : country ≠ .empty) : country.WellFormed := by
  by_cases hlines : lines = []
  · rw [entriesOf, if_pos hlines] at hmem
    exact absurd (List.mem_singleton.mp hmem) hne
  · exact wellFormed_of_mem_entriesOf hlines h hmem

/-- For any files whose lines have four fields, `wrapper_delta` refuses no list access in any
run, from reading the files to the result table, if and only if every file has a line; and
the same holds for `wrapper` and its only file. -/
theorem never_refused_iff {files : List (List String)}
    (h : ∀ lines ∈ files, ∀ line ∈ lines, 4 ≤ (split line).length) :
    ((∃ countryList lengths, readFiles files = some (countryList, lengths) ∧
        NeverRefused (deltaStart countryList lengths)) ↔ ∀ lines ∈ files, lines ≠ []) ∧
      ∀ lines ∈ files, (∃ countryList, readFile lines = some countryList ∧
        NeverRefused (wrapperStart countryList)) ↔ lines ≠ [] := by
  have hread : ∀ lines ∈ files, readFile lines = some (entriesOf lines) :=
    fun lines hlines => readFile_entriesOf fun line hline =>
      split_ne_nil (h lines hlines line hline)
  constructor
  · have hdelta : NeverRefused (deltaStart (files.map entriesOf).flatten
        ((files.map entriesOf).map List.length)) ↔ ∀ lines ∈ files, lines ≠ [] := by
      rw [neverRefused_iff_of_entries (Start.delta _) (getElem?_deltaStart _)]
      · simp only [List.mem_flatten, List.mem_map, not_exists, not_and, forall_exists_index,
          and_imp, forall_apply_eq_imp_iff₂]
        exact forall₂_congr fun lines hlines => (empty_mem_entriesOf_iff (h lines hlines)).not
      · intro country hmem hne
        obtain ⟨entries, hentries, hmem⟩ := List.mem_flatten.mp hmem
        obtain ⟨lines, hlines, rfl⟩ := List.mem_map.mp hentries
        exact wellFormed_of_ne_empty (h lines hlines) hmem hne
    rw [← hdelta]
    constructor
    · rintro ⟨countryList, lengths, heq, hnever⟩
      rw [readFiles_of_forall hread] at heq
      obtain ⟨rfl, rfl⟩ := Prod.mk.inj (Option.some.inj heq)
      exact hnever
    · intro hnever
      exact ⟨_, _, readFiles_of_forall hread, hnever⟩
  · intro lines hlines
    have hwrapper : NeverRefused (wrapperStart (entriesOf lines)) ↔ lines ≠ [] :=
      (neverRefused_iff_of_entries (Start.wrapper _) (getElem?_start _ _ _)
        fun _ hmem hne => wellFormed_of_ne_empty (h lines hlines) hmem hne).trans
        (empty_mem_entriesOf_iff (h lines hlines)).not
    rw [← hwrapper]
    constructor
    · rintro ⟨countryList, heq, hnever⟩
      rw [hread lines hlines] at heq
      obtain rfl := Option.some.inj heq
      exact hnever
    · intro hnever
      exact ⟨_, hread lines hlines, hnever⟩

theorem never_refused_iff_two :
    let files := [["BE a 1 2"], ["CH b 3 4"]]
    ((∃ countryList lengths, readFiles files = some (countryList, lengths) ∧
        NeverRefused (deltaStart countryList lengths)) ↔ ∀ lines ∈ files, lines ≠ []) ∧
      ∀ lines ∈ files, (∃ countryList, readFile lines = some countryList ∧
        NeverRefused (wrapperStart countryList)) ↔ lines ≠ [] :=
  never_refused_iff (by decide +kernel)

/-- A second file without lines: in the row of the first country, the code of the empty one is
asked for. `wrapper` is refused the code in its first step. -/
theorem empty_file_refused :
    readFiles [["BE a 1 2"], []] = some ([.entry "BE" [["a", "1", "2"]], .empty], [1, 1]) ∧
      (execute (fun _ => .returns) 4
        (deltaStart [.entry "BE" [["a", "1", "2"]], .empty] [1, 1])).control = .indexError ∧
      readFile [] = some [.empty] ∧
      (execute (fun _ => .returns) 1 (wrapperStart [.empty])).control = .indexError := by
  refine ⟨by decide, by decide, rfl, by decide⟩

end Wrapper

end Matador
