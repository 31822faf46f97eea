import Matador.Wrapper.Schedule

/-!
# What one step of the scheduling loops does

`Move o s s'` lists the transitions of the machine with their guards and their
effects written out: the loops over the matrix appear as one `Table.mapIdx`, the
two host failures as one transition with the popped country and the next row, and
the two completed outcomes as one transition with the value they write. Every
invariant of the later modules is proved by cases on `Move`; `move_of_step` is the
only place where the step function is unfolded.

The inversion needs one invariant. The values of the row are cached when the row
is entered and the inner loop relies on them, so `Cached` says that they are
still the ones of the first host of country `i`. It holds because every branch
that pops a host also leaves the inner loop.
-/

namespace Matador

namespace Wrapper

variable {n : ℕ}

/-- Inside a row, `i` is a row of the matrix and the cached values are those of
the first host of country `i`. -/
def State.Cached (s : State n) : Prop :=
  ∀ row j, s.control = .inner row j → s.i < n ∧ s.node? s.i = some row

def popped (countryList : Vector Country n) (c : ℕ) : Vector Country n :=
  countryList.mapIdx fun x country => if x = c then country.drop 1 else country

/-- The transitions of the scheduling loops. -/
inductive Move (o : Outcome) (s : State n) : State n → Prop where
  | finish (hc : s.control = .outer) (hi : n ≤ s.i) :
      Move o s { s with control := .finished }
  | enterRow (row : Node) (hc : s.control = .outer) (hi : s.i < n)
      (hrow : s.node? s.i = some row) : Move o s { s with control := .inner row 0 }
  | skipRow (hc : s.control = .outer) (hi : s.i < n) (hempty : s.hostsLeft s.i = 0) :
      Move o s { s with matrix := s.matrix.mapIdx (relabelled s.i 1 0), i := s.i + 1 }
  | endRow (row : Node) (j : ℕ) (hc : s.control = .inner row j) (hj : n ≤ j) :
      Move o s { s with i := s.i + 1, control := .outer }
  | skipColumn (row : Node) (j : ℕ) (hc : s.control = .inner row j) (hj : j < n)
      (hempty : s.hostsLeft j = 0) :
      Move o s { s with
        matrix := s.matrix.mapIdx (relabelled j 1 0), control := .inner row (j + 1) }
  | skipCell (row node2 : Node) (j v : ℕ) (hc : s.control = .inner row j)
      (hnode : s.node? j = some node2) (hv : s.matrix.get? s.i j = some v)
      (hclosed : ¬ (0 < v ∧ v ≤ 2)) : Move o s { s with control := .inner row (j + 1) }
  | complete (row node2 : Node) (j v w : ℕ) (hc : s.control = .inner row j)
      (hnode : s.node? j = some node2) (hv : s.matrix.get? s.i j = some v)
      (hopen : 0 < v ∧ v ≤ 2)
      (ho : o = .returns ∧ w = 3 ∨ o = .smallException ∧ w = 4) :
      Move o s { s with
        matrix := s.matrix.mapIdx (pairSet s.i j w), counter := s.counter + 1,
        control := .inner row (j + 1), log := s.call o row node2 j :: s.log }
  | dropHost (row node2 : Node) (j v c next : ℕ) (hc : s.control = .inner row j)
      (hnode : s.node? j = some node2) (hv : s.matrix.get? s.i j = some v)
      (hopen : 0 < v ∧ v ≤ 2)
      (ho : o = .host1Exception ∧ c = s.i ∧ next = s.i ∨
        o = .host2Exception ∧ c = j ∧ next = if j < s.i then j else s.i + 1) :
      Move o s { s with
        countryList := popped s.countryList c
        matrix := s.matrix.mapIdx (relabelled c 3 2), i := next, control := .outer,
        log := s.call o row node2 j :: s.log }
  | fatal (row node2 : Node) (j v : ℕ) (hc : s.control = .inner row j)
      (hnode : s.node? j = some node2) (hv : s.matrix.get? s.i j = some v)
      (hopen : 0 < v ∧ v ≤ 2) (ho : o = .fatalException) :
      Move o s { s with control := .exited, log := s.call o row node2 j :: s.log }
  | indexError (x : ℕ) (country : Country)
      (hc : s.control ≠ .finished ∧ s.control ≠ .exited ∧ s.control ≠ .indexError)
      (hx : s.countryList[x]? = some country) (hbad : ¬ country.Readable) : Move o s s.fail

namespace State

theorem node?_eq_some {s : State n} {c : ℕ} {node : Node} (h : s.node? c = some node) :
    ∃ country, s.countryList[c]? = some country ∧ country.node? = some node :=
  Option.bind_eq_some_iff.mp h

theorem hostsLeft_of_some {s : State n} {c : ℕ} {country : Country}
    (h : s.countryList[c]? = some country) : s.hostsLeft c = country.hosts.length := by
  simp [hostsLeft, h]

theorem exists_country (s : State n) {c : ℕ} (hc : c < n) :
    ∃ country, s.countryList[c]? = some country :=
  ⟨_, Vector.getElem?_eq_getElem hc⟩

theorem hostsLeft_eq_zero {s : State n} {c : ℕ} {country : Country}
    (h : s.countryList[c]? = some country) (hlen : ¬ 1 < country.len) : s.hostsLeft c = 0 := by
  have hnil : country.hosts = [] := by
    by_contra hne
    exact hlen ((country.one_lt_len_iff).mpr hne)
  rw [hostsLeft_of_some h, hnil, List.length_nil]

theorem hostsLeft_pos_of_node? {s : State n} {c : ℕ} {node : Node}
    (h : s.node? c = some node) : 0 < s.hostsLeft c := by
  obtain ⟨country, hcountry, hnode⟩ := node?_eq_some h
  rw [hostsLeft_of_some hcountry]
  exact List.length_pos_iff.mpr (Country.hosts_ne_nil_of_node? hnode)

theorem lt_of_node? {s : State n} {c : ℕ} {node : Node} (h : s.node? c = some node) :
    c < n := by
  obtain ⟨country, hcountry, -⟩ := node?_eq_some h
  exact (Vector.getElem?_eq_some_iff.mp hcountry).1

theorem dropHost_eq {s : State n} {c : ℕ} {node : Node} (hnode : s.node? c = some node)
    (next : ℤ) :
    s.dropHost c next = { s with
      countryList := popped s.countryList c
      matrix := s.matrix.mapIdx (relabelled c 3 2), i := (next + 1).toNat,
      control := .outer } := by
  obtain ⟨country, hcountry, hhost⟩ := node?_eq_some hnode
  have hpop := Country.pop?_eq_some (Country.hosts_ne_nil_of_node? hhost)
  have hlist : s.countryList.setIfInBounds c (country.drop 1) = popped s.countryList c := by
    ext x hx : 1
    have hcn : c < n := lt_of_node? hnode
    by_cases hxc : c = x
    · subst hxc
      have hget : s.countryList[c] = country := by
        rw [Vector.getElem?_eq_getElem hx] at hcountry
        exact Option.some.inj hcountry
      simp [popped, hget]
    · simp [popped, hxc, Ne.symm hxc]
  simp only [dropHost, hcountry, Option.bind_some, hpop, relabelCross_eq_some (lt_of_node? hnode),
    hlist]

end State

theorem move_of_experiment {o : Outcome} {s : State n} {row node2 : Node} {j v : ℕ}
    (hc : s.control = .inner row j) (hi : s.i < n) (hrow : s.node? s.i = some row)
    (hnode : s.node? j = some node2) (hv : s.matrix.get? s.i j = some v)
    (hopen : 0 < v ∧ v ≤ 2) : Move o s (s.experiment o row node2 j) := by
  have hj : j < n := State.lt_of_node? hnode
  cases o with
  | returns =>
      simp only [State.experiment, State.complete, setPair_eq_some hi hj]
      exact Move.complete row node2 j v 3 hc hnode hv hopen (Or.inl ⟨rfl, rfl⟩)
  | smallException =>
      simp only [State.experiment, State.complete, setPair_eq_some hi hj]
      exact Move.complete row node2 j v 4 hc hnode hv hopen (Or.inr ⟨rfl, rfl⟩)
  | fatalException => exact Move.fatal row node2 j v hc hnode hv hopen rfl
  | host1Exception =>
      have hdrop := State.dropHost_eq
        (s := { s with log := s.call .host1Exception row node2 j :: s.log }) hrow ((s.i : ℤ) - 1)
      have hnext : ((s.i : ℤ) - 1 + 1).toNat = s.i := by omega
      rw [hnext] at hdrop
      rw [State.experiment, hdrop]
      exact Move.dropHost row node2 j v s.i s.i hc hnode hv hopen (Or.inl ⟨rfl, rfl, rfl⟩)
  | host2Exception =>
      have hdrop := State.dropHost_eq
        (s := { s with log := s.call .host2Exception row node2 j :: s.log }) hnode
        (if j < s.i then (j : ℤ) - 1 else s.i)
      have hnext : ((if j < s.i then (j : ℤ) - 1 else s.i) + 1).toNat =
          if j < s.i then j else s.i + 1 := by
        split_ifs <;> omega
      rw [hnext] at hdrop
      rw [State.experiment, hdrop]
      exact Move.dropHost row node2 j v j _ hc hnode hv hopen (Or.inr ⟨rfl, rfl, rfl⟩)

theorem move_of_outerStep {o : Outcome} {s : State n} (hc : s.control = .outer) :
    Move o s s.outerStep := by
  unfold State.outerStep
  by_cases hi : s.i < n
  · rw [if_pos hi]
    obtain ⟨country, hcountry⟩ := s.exists_country hi
    have hfail : ¬ country.Readable → Move o s s.fail :=
      Move.indexError s.i country (by simp [hc]) hcountry
    rw [hcountry]
    dsimp only
    by_cases hlen : 1 < country.len
    · rw [if_pos hlen]
      cases hnode : country.node? with
      | none => exact hfail (Country.not_readable_of_node? hlen hnode)
      | some row => exact Move.enterRow row hc hi (by simp [State.node?, hcountry, hnode])
    · rw [if_neg hlen, relabelCross_eq_some hi]
      cases hcode : country.code? with
      | none => exact hfail (Country.not_readable_of_code? hcode)
      | some code => exact Move.skipRow hc hi (State.hostsLeft_eq_zero hcountry hlen)
  · rw [if_neg hi]
    exact Move.finish hc (Nat.le_of_not_lt hi)

theorem move_of_innerStep {o : Outcome} {s : State n} {row : Node} {j : ℕ}
    (hc : s.control = .inner row j) (hcached : s.Cached) : Move o s (s.innerStep o row j) := by
  obtain ⟨hi, hrow⟩ := hcached row j hc
  unfold State.innerStep
  by_cases hj : j < n
  · rw [if_pos hj]
    obtain ⟨country, hcountry⟩ := s.exists_country hj
    have hfail : ∀ (x : ℕ) (country : Country), s.countryList[x]? = some country →
        ¬ country.Readable → Move o s s.fail :=
      fun x country => Move.indexError x country (by simp [hc])
    rw [hcountry]
    dsimp only
    by_cases hlen : 1 < country.len
    · rw [if_pos hlen]
      obtain ⟨v, hv⟩ := s.matrix.exists_get?_eq_some hi hj
      rw [hv]
      cases hhost : country.node? with
      | none => exact hfail j country hcountry (Country.not_readable_of_node? hlen hhost)
      | some node2 =>
          have hnode : s.node? j = some node2 := by simp [State.node?, hcountry, hhost]
          dsimp only
          by_cases hopen : 0 < v ∧ v ≤ 2
          · rw [if_pos hopen]
            exact move_of_experiment hc hi hrow hnode hv hopen
          · rw [if_neg hopen]
            exact Move.skipCell row node2 j v hc hnode hv hopen
    · rw [if_neg hlen, relabelCross_eq_some hj]
      obtain ⟨country1, hcountry1⟩ := s.exists_country hi
      rw [hcountry1, Option.bind_some]
      cases hcode1 : country1.code? with
      | none => exact hfail s.i country1 hcountry1 (Country.not_readable_of_code? hcode1)
      | some code1 =>
          cases hcode2 : country.code? with
          | none => exact hfail j country hcountry (Country.not_readable_of_code? hcode2)
          | some code2 =>
              exact Move.skipColumn row j hc hj (State.hostsLeft_eq_zero hcountry hlen)
  · rw [if_neg hj]
    exact Move.endRow row j hc (Nat.le_of_not_lt hj)

/-- Every step from a state with a valid cache is one of the listed transitions. -/
theorem move_of_step {o : Outcome} {s s' : State n} (hcached : s.Cached)
    (h : step o s = some s') : Move o s s' := by
  unfold step at h
  cases hc : s.control with
  | outer =>
      rw [hc] at h
      obtain rfl := Option.some.inj h
      exact move_of_outerStep hc
  | inner row j =>
      rw [hc] at h
      obtain rfl := Option.some.inj h
      exact move_of_innerStep hc hcached
  | finished => rw [hc] at h; cases h
  | exited => rw [hc] at h; cases h
  | indexError => rw [hc] at h; cases h

/-- The cache stays valid: a transition that stays in the row changes neither `i`
nor the country list. -/
theorem Move.cached {o : Outcome} {s s' : State n} (hm : Move o s s') (h : s.Cached) :
    s'.Cached := by
  intro row' j' hc'
  cases hm with
  | enterRow row hc hi hrow =>
      cases hc'
      exact ⟨hi, hrow⟩
  | skipColumn row j hc | skipCell row node2 j v hc | complete row node2 j v w hc =>
      cases hc'
      exact h _ _ hc
  | finish | endRow | dropHost | fatal | indexError => cases hc'
  | skipRow hc => exact absurd (hc.symm.trans hc') (by simp)

/-! ## Runs -/

/-- The states the loops can reach, for any sequence of outcomes. -/
abbrev Run (s₀ s : State n) : Prop := Transition.Reachable step (fun _ _ => True) s₀ s

theorem cached_of_reachable {ok : Outcome → State n → Prop} {s₀ s : State n}
    (h₀ : s₀.Cached) (h : Transition.Reachable step ok s₀ s) : s.Cached :=
  h.invariant h₀ fun _ _ _ _ hcached _ hstep => (move_of_step hcached hstep).cached hcached

/-- The invariant rule of the scheduling loops: an invariant is kept by a run when
it is kept by every transition. -/
theorem invariant_of_move {ok : Outcome → State n → Prop} {s₀ s : State n} {P : State n → Prop}
    (hcached : s₀.Cached) (h : Transition.Reachable step ok s₀ s) (h₀ : P s₀)
    (hmove : ∀ s o s', Transition.Reachable step ok s₀ s → P s → ok o s → Move o s s' → P s') :
    P s := by
  refine h.invariant h₀ ?_
  intro s o s' hreach hP hok hstep
  exact hmove s o s' hreach hP hok (move_of_step (cached_of_reachable hcached hreach) hstep)

/-- A step adds at most one call to the log, and only in an open cell. -/
theorem Move.log_eq {o : Outcome} {s s' : State n} (hm : Move o s s') :
    s'.log = s.log ∨ ∃ row node2 j v, s.control = .inner row j ∧ s.node? j = some node2 ∧
      s.matrix.get? s.i j = some v ∧ (0 < v ∧ v ≤ 2) ∧
      s'.log = s.call o row node2 j :: s.log := by
  cases hm with
  | finish | enterRow | skipRow | endRow | skipColumn | skipCell | indexError => exact Or.inl rfl
  | complete row node2 j v w hc hnode hv hopen ho =>
      exact Or.inr ⟨row, node2, j, v, hc, hnode, hv, hopen, rfl⟩
  | dropHost row node2 j v c next hc hnode hv hopen ho =>
      exact Or.inr ⟨row, node2, j, v, hc, hnode, hv, hopen, rfl⟩
  | fatal row node2 j v hc hnode hv hopen ho =>
      exact Or.inr ⟨row, node2, j, v, hc, hnode, hv, hopen, rfl⟩

theorem execute_run (outcomes : ℕ → Outcome) (k : ℕ) (s : State n) :
    Run s (execute outcomes k s) :=
  Transition.run_reachable (fun _ => trivial) k s

end Wrapper

end Matador
