import Mathlib.Algebra.BigOperators.Group.List.Lemmas
import Mathlib.Algebra.Order.Ring.Nat
import Matador.Library.Runs
import Matador.Library.Words
import Matador.Wrapper.Country

/-!
# How the lines of the input files are grouped

The reading loop appends a line to the country that is open as long as the code stays the
same, and puts the country into the list when another code comes. It starts with a dummy
country, which is cut off behind the loop, where the last country is added. What it
computes is the list of the maximal runs of lines with one code. In a file that is sorted
by the code, no two runs have the same one: every code has one country, with all of its
lines and in the order of the file, and nothing is lost.
-/

namespace Matador

namespace Wrapper

def codeOf (line : String) : String := (split line).headD ""

def hostOf (line : String) : List String := ((split line).drop 1).take 3

def countryOf : List String → Country
  | [] => .empty
  | line :: lines => .entry (codeOf line) ((line :: lines).map hostOf)

/-- The lines of a country: its code and the values of a host each. -/
def Country.rows : Country → List (List String)
  | .empty => []
  | .entry code hosts => hosts.map fun host => code :: host

/-- A file with lines of at least four fields, sorted by the country code. -/
structure InputFile (r : String → String → Prop) (lines : List String) : Prop where
  nonempty : lines ≠ []
  fields : ∀ line ∈ lines, 4 ≤ (split line).length
  sorted : lines.Pairwise fun line line' => r (codeOf line) (codeOf line')

/-- One entry for each code of the file in file order, each with exactly its lines in file
order and three values of each, such that the entries give the first four fields of the
lines of the file again. -/
structure Grouped (lines : List String) (entries : List Country) : Prop where
  codes : ∃ codes, entries.map Country.code? = codes.map some ∧
    FirstOccurrence.Lists (lines.map codeOf) codes
  hosts : ∀ entry ∈ entries, ∀ code, entry.code? = some code →
    entry.hosts = (lines.filter fun line => codeOf line = code).map hostOf
  triples : ∀ entry ∈ entries, ∀ host ∈ entry.hosts, host.length = 3
  written : entries.flatMap Country.rows = lines.map fun line => (split line).take 4

/-! ## The fields of a line -/

/-- No field is the blank that `country_code` starts with. -/
theorem codeOf_ne_blank {line : String} (h : split line ≠ []) : codeOf line ≠ " " := by
  intro hblank
  have hmem : " " ∈ split line := by
    cases hfields : split line with
    | nil => exact absurd hfields h
    | cons field fields =>
        rw [codeOf, hfields, List.headD_cons] at hblank
        exact hblank ▸ List.mem_cons_self
  obtain ⟨word, hword, heq⟩ := List.mem_map.mp hmem
  have hchars : word = [' '] := by simpa using congrArg String.toList heq
  have hspace : isSpace ' ' = false :=
    Words.not_blank_of_mem_words hword (hchars ▸ List.mem_singleton_self ' ')
  exact absurd hspace (by decide)

theorem codeOf_cons_hostOf {line : String} (h : split line ≠ []) :
    codeOf line :: hostOf line = (split line).take 4 := by
  obtain ⟨code, fields, hfields⟩ := List.exists_cons_of_ne_nil h
  rw [codeOf, hostOf, hfields]
  rfl

theorem length_hostOf {line : String} (h : 4 ≤ (split line).length) :
    (hostOf line).length = 3 := by
  rw [hostOf, List.length_take, List.length_drop]
  omega

/-! ## The loop computes the runs -/

theorem readLine_eq (r : Reading) {line : String} (h : split line ≠ []) :
    readLine r line = some (if r.countryCode = codeOf line
      then { r with country := r.country.append (hostOf line) }
      else ⟨r.countryList ++ [r.country], .entry (codeOf line) [hostOf line], codeOf line⟩) := by
  obtain ⟨code, fields, hfields⟩ := List.exists_cons_of_ne_nil h
  simp only [readLine, codeOf, hostOf, hfields, List.getElem?_cons_zero, List.headD_cons]
  split_ifs <;> rfl

theorem countryOf_reverse {line : String} {group : List String}
    (h : ∀ line' ∈ group, codeOf line' = codeOf line) :
    countryOf (line :: group).reverse =
      .entry (codeOf line) ((line :: group).reverse.map hostOf) := by
  cases hreverse : (line :: group).reverse with
  | nil => simp at hreverse
  | cons first rest =>
      have hfirst : first ∈ line :: group := by
        rw [← List.mem_reverse, hreverse]
        exact List.mem_cons_self
      have hcode : codeOf first = codeOf line := by
        rcases List.mem_cons.mp hfirst with rfl | hmem
        · rfl
        · exact h first hmem
      rw [countryOf, hcode]

/-- The loop with a country that is open: `line` is the line before, `group` the lines of the
country before it, newest first, and `groups` the runs that are in the list already. -/
theorem foldlM_readLine {lines : List String} (h : ∀ line ∈ lines, split line ≠ [])
    (front : List Country) (line : String) (group : List String) (groups : List (List String))
    (hgroup : ∀ line' ∈ group, codeOf line' = codeOf line) :
    ∃ r, lines.foldlM readLine ⟨front ++ groups.reverse.map countryOf,
        countryOf (line :: group).reverse, codeOf line⟩ = some r ∧
      r.countryList ++ [r.country] = front ++
        (List.splitBy.loop (fun a b => codeOf a = codeOf b) lines line group groups).map
          countryOf := by
  induction lines generalizing line group groups with
  | nil =>
      refine ⟨_, rfl, ?_⟩
      simp [List.splitBy.loop]
  | cons next lines ih =>
      rw [List.forall_mem_cons] at h
      rw [List.foldlM_cons, readLine_eq _ h.1, List.splitBy.loop]
      -- The next line belongs to the open country, or it closes it.
      by_cases hcode : codeOf line = codeOf next
      · have hopen : ∀ line' ∈ line :: group, codeOf line' = codeOf next :=
          List.forall_mem_cons.mpr ⟨hcode, fun line' hmem => (hgroup line' hmem).trans hcode⟩
        have happend : (countryOf (line :: group).reverse).append (hostOf next) =
            countryOf (next :: line :: group).reverse := by
          rw [countryOf_reverse hgroup, countryOf_reverse hopen, hcode,
            List.reverse_cons (a := next), List.map_append]
          rfl
        simp only [hcode, if_true, decide_true, happend]
        exact ih h.2 next (line :: group) groups hopen
      · simp only [hcode, if_false, decide_false]
        have hnew := ih h.2 next [] ((line :: group).reverse :: groups) (by simp)
        rw [List.reverse_cons (a := (line :: group).reverse), List.map_append,
          ← List.append_assoc] at hnew
        exact hnew

theorem readFile_eq {lines : List String} (hne : lines ≠ [])
    (h : ∀ line ∈ lines, split line ≠ []) :
    readFile lines = some ((Runs.runs codeOf lines).map countryOf) := by
  obtain ⟨line, lines, rfl⟩ := List.exists_cons_of_ne_nil hne
  rw [List.forall_mem_cons] at h
  have hfirst : readLine Reading.start line =
      some ⟨[.empty] ++ ([] : List (List String)).reverse.map countryOf,
        countryOf [line].reverse, codeOf line⟩ := by
    have hblank : Reading.start.countryCode ≠ codeOf line := (codeOf_ne_blank h.1).symm
    rw [readLine_eq _ h.1, if_neg hblank]
    rfl
  obtain ⟨r, hfold, hr⟩ := foldlM_readLine h.2 [.empty] line [] [] (by simp)
  have hdrop : r.countryList.drop 1 ++ [r.country] = (Runs.runs codeOf (line :: lines)).map
      countryOf := by
    -- The dummy country is in front, and something is behind it.
    cases hlist : r.countryList with
    | nil =>
        rw [hlist] at hr
        have hempty := congrArg List.tail hr
        rw [List.singleton_append, List.tail_cons] at hempty
        have hruns : Runs.runs codeOf (line :: lines) ≠ [] :=
          List.splitBy_ne_nil.mpr (List.cons_ne_nil _ _)
        exact absurd (List.map_eq_nil_iff.mp hempty.symm) hruns
    | cons dummy rest =>
        rw [hlist, List.cons_append] at hr
        exact (List.cons.inj hr).2
  rw [readFile, List.foldlM_cons, hfirst]
  change ((List.foldlM readLine _ lines).map _) = _
  rw [hfold, Option.map_some, hdrop]

/-! ## The runs of a sorted file -/

theorem rows_countryOf {group : List String}
    (hcode : ∀ line ∈ group, ∀ line' ∈ group, codeOf line = codeOf line')
    (hfields : ∀ line ∈ group, split line ≠ []) :
    (countryOf group).rows = group.map fun line => (split line).take 4 := by
  cases group with
  | nil => rfl
  | cons first rest =>
      rw [countryOf, Country.rows, List.map_map]
      refine List.map_congr_left fun line hline => ?_
      rw [Function.comp_apply, ← codeOf_cons_hostOf (hfields line hline),
        hcode first List.mem_cons_self line hline]

theorem split_ne_nil {line : String} (h : 4 ≤ (split line).length) : split line ≠ [] := by
  rintro hnil
  rw [hnil] at h
  cases h

theorem InputFile.grouped {r : String → String → Prop} (hr : ∀ x y, r x y → r y x → x = y)
    {lines : List String} (h : InputFile r lines) :
    Grouped lines ((Runs.runs codeOf lines).map countryOf) := by
  have hapart : Runs.Apart codeOf (Runs.runs codeOf lines) := Runs.apart_runs hr h.sorted
  have hflatten : (Runs.runs codeOf lines).flatten = lines := List.flatten_splitBy _ lines
  have hmem : ∀ group ∈ Runs.runs codeOf lines, ∀ line ∈ group, line ∈ lines := by
    intro group hgroup line hline
    rw [← hflatten]
    exact List.mem_flatten_of_mem hgroup hline
  refine ⟨?_, ?_, ?_, ?_⟩
  · obtain ⟨codes, hcodes, hlists⟩ := hapart.lists_keys
    rw [hflatten] at hlists
    refine ⟨codes, ?_, hlists⟩
    rw [← hcodes, List.map_map]
    refine List.map_congr_left fun group _ => ?_
    cases group <;> rfl
  · intro entry hentry code hcode
    obtain ⟨group, hgroup, rfl⟩ := List.mem_map.mp hentry
    cases group with
    | nil => cases hcode
    | cons line rest =>
        obtain rfl : codeOf line = code := Option.some.inj hcode
        have hfilter := hapart.filter_eq hgroup (a := line) List.mem_cons_self
        rw [hflatten] at hfilter
        rw [hfilter]
        rfl
  · intro entry hentry host hhost
    obtain ⟨group, hgroup, rfl⟩ := List.mem_map.mp hentry
    cases group with
    | nil => cases hhost
    | cons line rest =>
        obtain ⟨line', hline', rfl⟩ := List.mem_map.mp hhost
        exact length_hostOf (h.fields line' (hmem _ hgroup line' hline'))
  · have hrows : ∀ group ∈ Runs.runs codeOf lines,
        (countryOf group).rows = group.map fun line => (split line).take 4 :=
      fun group hgroup => rows_countryOf (hapart.constant group hgroup) fun line hline =>
        split_ne_nil (h.fields line (hmem group hgroup line hline))
    rw [List.flatMap_map, List.flatMap_def, List.map_congr_left hrows, ← List.map_flatten,
      hflatten]

theorem readFiles_of_forall {files : List (List String)} {group : List String → List Country}
    (h : ∀ lines ∈ files, readFile lines = some (group lines)) :
    readFiles files =
      some ((files.map group).flatten, (files.map group).map List.length) := by
  have hmapM : files.mapM readFile = some (files.map group) := by
    induction files with
    | nil => rfl
    | cons lines files ih =>
        rw [List.forall_mem_cons] at h
        rw [List.mapM_cons, h.1, ih h.2]
        rfl
  rw [readFiles_eq, hmapM, Option.map_some]

/-- Every list of input files that are sorted by the country code is read: each file gives
one entry per code with exactly its lines, the list of the countries is that of all files
one after another, and the prefix sums of `length_of_each_input` delimit the entries of each
file. `wrapper` reads its only file in the same way. -/
theorem files_grouped {r : String → String → Prop} (hr : ∀ x y, r x y → r y x → x = y)
    {files : List (List String)} (h : ∀ lines ∈ files, InputFile r lines) :
    ∃ inputs, readFiles files = some (inputs.flatten, inputs.map List.length) ∧
      List.Forall₂ (fun lines entries => readFile lines = some entries ∧ Grouped lines entries)
        files inputs ∧
      ∀ k entries, inputs[k]? = some entries →
        (inputs.flatten.take ((inputs.map List.length).take (k + 1)).sum).drop
          ((inputs.map List.length).take k).sum = entries := by
  let group (lines : List String) := (Runs.runs codeOf lines).map countryOf
  have hread : ∀ lines ∈ files, readFile lines = some (group lines) := fun lines hlines =>
    readFile_eq (h lines hlines).nonempty fun line hline =>
      split_ne_nil ((h lines hlines).fields line hline)
  refine ⟨files.map group, readFiles_of_forall hread, ?_, ?_⟩
  · rw [List.forall₂_map_right_iff, List.forall₂_same]
    exact fun lines hlines => ⟨hread lines hlines, (h lines hlines).grouped hr⟩
  · intro k entries hk
    obtain ⟨hlt, rfl⟩ := List.getElem?_eq_some_iff.mp hk
    exact List.drop_take_succ_flatten_eq_getElem _ k hlt

theorem files_grouped_two :
    let files := [["BE a 1 2", "BE b 3 4\n", "CH c 5 6 x"], ["BE d 7 8"]]
    (∀ lines ∈ files, InputFile (· ≤ ·) lines) ∧
    ∃ inputs, readFiles files = some (inputs.flatten, inputs.map List.length) ∧
      List.Forall₂ (fun lines entries => readFile lines = some entries ∧ Grouped lines entries)
        files inputs ∧
      ∀ k entries, inputs[k]? = some entries →
        (inputs.flatten.take ((inputs.map List.length).take (k + 1)).sum).drop
          ((inputs.map List.length).take k).sum = entries := by
  intro files
  have hfiles : ∀ lines ∈ files, InputFile (· ≤ ·) lines := by
    refine List.forall_mem_cons.mpr ⟨?_, List.forall_mem_cons.mpr ⟨?_, by simp⟩⟩
    · exact ⟨by decide, by decide +kernel, by decide +kernel⟩
    · exact ⟨by decide, by decide +kernel, by decide +kernel⟩
  exact ⟨hfiles, files_grouped (fun _ _ => String.le_antisymm) hfiles⟩

end Wrapper

end Matador
