import Matador.Wrapper.Files

/-!
# Which pairs the loops leave behind

A pair is pending while it can still be measured: its cell is `1`, or it is `2` and
both countries have a host. The order in which the loops try the pairs is kept by
one invariant. At the head of row `i` no pair of two countries below `i` is pending,
and inside the row no pair of `i` with a country below the column, up to `i`
itself; a pair with a later country is left to the row of that country. A host
failure makes the pairs of one country pending again, and the next row is chosen
so that they all lie ahead.

One branch misses this. After a `Host2Exception` in the cell `(i, i)` the source
compares `i > j` and goes on with row `i + 1`, although the pairs of `i` with the
countries up to `i` are pending now. `DiagonalFailure` is that step: without it
nothing is left behind, and `wrapper_delta` never takes it since its diagonal
holds `5`.
-/

namespace Matador

namespace Wrapper

variable {n : ℕ}

namespace State

def Pending (s : State n) (x y : ℕ) : Prop :=
  s.matrix.get? x y = some 1 ∨
    s.matrix.get? x y = some 2 ∧ 0 < s.hostsLeft x ∧ 0 < s.hostsLeft y

def SettledBelow (s : State n) (b : ℕ) : Prop :=
  ∀ x y, x < b → y < b → ¬ s.Pending x y

/-- The pairs that are settled at each place of the loops. -/
def SettledSoFar (s : State n) : Prop :=
  match s.control with
  | .outer => s.SettledBelow s.i
  | .inner _ j => s.SettledBelow s.i ∧ ∀ y, y ≤ s.i → y < j → ¬ s.Pending s.i y
  | .finished => ∀ x y, ¬ s.Pending x y
  | .exited | .indexError => True

/-- A call for one country with itself that ends with a `Host2Exception`. -/
def DiagonalFailure (o : Outcome) (s : State n) : Prop :=
  o = .host2Exception ∧
    ∃ row v, s.control = .inner row s.i ∧ s.matrix.get? s.i s.i = some v ∧ 0 < v ∧ v ≤ 2

end State

/-! ## Pending pairs under the transitions -/

theorem State.Pending.congr {s s' : State n} {x y : ℕ} (h : s'.Pending x y)
    (hlist : s'.countryList = s.countryList) (hmatrix : s'.matrix = s.matrix) :
    s.Pending x y := by
  simpa only [State.Pending, State.hostsLeft, hlist, hmatrix] using h

theorem State.Pending.symm {s : State n} (hinv : MatrixInv s) {x y : ℕ} (h : s.Pending x y) :
    s.Pending y x := by
  rcases h with h | ⟨h, hx, hy⟩
  · exact Or.inl (hinv.symm y x ▸ h)
  · exact Or.inr ⟨hinv.symm y x ▸ h, hy, hx⟩

theorem State.Pending.of_exhaust {s s' : State n} {c x y : ℕ} (h : s'.Pending x y)
    (hlist : s'.countryList = s.countryList)
    (hmatrix : s'.matrix = s.matrix.mapIdx (relabelled c 1 0)) : s.Pending x y := by
  simp only [State.Pending, State.hostsLeft, hlist, hmatrix, Table.get?_mapIdx] at h ⊢
  cases hv : s.matrix.get? x y with
  | none => simp [hv] at h
  | some v =>
      simp only [hv, Option.map_some, Option.some.injEq, relabelled] at h ⊢
      split_ifs at h <;> omega

/-- After the pass that turns `1` into `0` no pair of a country without hosts is
pending. -/
theorem State.Pending.ne_of_exhaust {s s' : State n} {c x y : ℕ} (h : s'.Pending x y)
    (hempty : s.hostsLeft c = 0) (hlist : s'.countryList = s.countryList)
    (hmatrix : s'.matrix = s.matrix.mapIdx (relabelled c 1 0)) : ¬ (x = c ∨ y = c) := by
  intro hxy
  simp only [State.Pending, State.hostsLeft, hlist, hmatrix, Table.get?_mapIdx] at h hempty
  rcases h with h | ⟨-, hx, hy⟩
  · obtain ⟨v, -, hv⟩ := Option.map_eq_some_iff.mp h
    simp only [relabelled, hxy, true_and] at hv
    split_ifs at hv
    omega
  · rcases hxy with rfl | rfl <;> omega

theorem State.Pending.of_drop {s s' : State n} {c x y : ℕ} (h : s'.Pending x y) (hx : x ≠ c)
    (hy : y ≠ c) (hlist : s'.countryList = popped s.countryList c)
    (hmatrix : s'.matrix = s.matrix.mapIdx (relabelled c 3 2)) : s.Pending x y := by
  have hleft : ∀ k, k ≠ c → s'.hostsLeft k = s.hostsLeft k := by
    intro k hk
    rw [State.hostsLeft_popped hlist, if_neg hk]
  have hcell : s'.matrix.get? x y = s.matrix.get? x y := by
    rw [hmatrix, Table.get?_mapIdx]
    cases s.matrix.get? x y <;> simp [relabelled, hx, hy]
  simpa only [State.Pending, hleft x hx, hleft y hy, hcell] using h

theorem State.Pending.of_complete {s s' : State n} {j w x y : ℕ} (h : s'.Pending x y)
    (hw : w = 3 ∨ w = 4) (hlist : s'.countryList = s.countryList)
    (hmatrix : s'.matrix = s.matrix.mapIdx (pairSet s.i j w)) :
    s.Pending x y ∧ s(x, y) ≠ s(s.i, j) := by
  simp only [State.Pending, State.hostsLeft, hlist, hmatrix, Table.get?_mapIdx] at h ⊢
  cases hv : s.matrix.get? x y with
  | none => simp [hv] at h
  | some v =>
      simp only [hv, Option.map_some, Option.some.injEq, pairSet] at h ⊢
      split_ifs at h with hpair
      · omega
      · exact ⟨h, hpair⟩

theorem not_pending_of_closed {s : State n} {x y v : ℕ} (hv : s.matrix.get? x y = some v)
    (hclosed : ¬ (0 < v ∧ v ≤ 2)) : ¬ s.Pending x y := by
  simp only [State.Pending, hv, Option.some.injEq]
  omega

theorem State.SettledBelow.succ {s : State n} (hinv : MatrixInv s) (h : s.SettledBelow s.i)
    (hrow : ∀ y, y ≤ s.i → ¬ s.Pending s.i y) : s.SettledBelow (s.i + 1) := by
  intro x y hx hy hpending
  by_cases hxi : x = s.i
  · subst hxi
    exact hrow y (by omega) hpending
  · by_cases hyi : y = s.i
    · subst hyi
      exact hrow x (by omega) (hpending.symm hinv)
    · exact h x y (by omega) (by omega) hpending

/-- The pairs below the row that follows a host failure are settled, and none of
them is a pair of the country that lost its host: the failures of both hosts,
outside the diagonal. -/
theorem State.SettledBelow.of_dropHost {s : State n} {j c next : ℕ} (hinv : MatrixInv s)
    (h : s.SettledBelow s.i) (hrow : ∀ y, y ≤ s.i → y < j → ¬ s.Pending s.i y)
    (hnext : c = s.i ∧ next = s.i ∨
      c ≠ s.i ∧ c = j ∧ next = if j < s.i then j else s.i + 1) :
    ∀ x y, x < next → y < next → x ≠ c ∧ y ≠ c ∧ ¬ s.Pending x y := by
  rcases hnext with ⟨rfl, rfl⟩ | ⟨hne, rfl, rfl⟩
  · exact fun x y hx hy => ⟨by omega, by omega, h x y hx hy⟩
  · split_ifs with hlt
    · exact fun x y hx hy => ⟨by omega, by omega, h x y (by omega) (by omega)⟩
    · have hsucc := h.succ hinv fun y hy => hrow y hy (by omega)
      exact fun x y hx hy => ⟨by omega, by omega, hsucc x y hx hy⟩

theorem Move.settledSoFar {o : Outcome} {s s' : State n} (hm : Move o s s') (hcached : s.Cached)
    (hinv : MatrixInv s) (hok : ¬ s.DiagonalFailure o) (h : s.SettledSoFar) :
    s'.SettledSoFar := by
  unfold State.SettledSoFar at h
  cases hm with
  | finish hc hi =>
      rw [hc] at h
      intro x y hpending
      have hlt : x < n ∧ y < n := by
        rcases hpending with hcell | ⟨hcell, -⟩ <;> exact Table.lt_of_get?_eq_some hcell
      exact h x y (by omega) (by omega) (hpending.congr rfl rfl)
  | enterRow row hc hi hrow =>
      rw [hc] at h
      exact ⟨fun x y hx hy hp => h x y hx hy (hp.congr rfl rfl), by simp⟩
  | skipRow hc hi hempty =>
      rw [hc] at h
      unfold State.SettledSoFar
      rw [hc]
      intro x y hx hy hp
      change x < s.i + 1 at hx
      change y < s.i + 1 at hy
      -- the pass has closed the pairs of the country without hosts; the others are as before
      by_cases hxy : x = s.i ∨ y = s.i
      · exact hp.ne_of_exhaust (s := s) hempty rfl rfl hxy
      · exact h x y (by omega) (by omega) (hp.of_exhaust (s := s) rfl rfl)
  | endRow row j hc hj =>
      rw [hc] at h
      obtain ⟨hbelow, hrow⟩ := h
      have hi := (hcached row j hc).1
      have hsucc := hbelow.succ hinv fun y hy => hrow y hy (by omega)
      exact fun x y hx hy hp => hsucc x y hx hy (hp.congr rfl rfl)
  | skipColumn row j hc hj hempty =>
      rw [hc] at h
      obtain ⟨hbelow, hrow⟩ := h
      refine ⟨fun x y hx hy hp => hbelow x y hx hy (hp.of_exhaust (s := s) rfl rfl), ?_⟩
      intro y hy hyj hp
      by_cases hyc : y = j
      · exact hp.ne_of_exhaust (s := s) hempty rfl rfl (Or.inr hyc)
      · exact hrow y hy (by omega) (hp.of_exhaust (s := s) rfl rfl)
  | skipCell row node2 j v hc hnode hv hclosed =>
      rw [hc] at h
      obtain ⟨hbelow, hrow⟩ := h
      refine ⟨fun x y hx hy hp => hbelow x y hx hy (hp.congr rfl rfl), ?_⟩
      intro y hy hyj hp
      by_cases hyc : y = j
      · subst hyc
        exact not_pending_of_closed hv hclosed (hp.congr rfl rfl)
      · exact hrow y hy (by omega) (hp.congr rfl rfl)
  | complete row node2 j v w hc hnode hv hopen ho =>
      rw [hc] at h
      obtain ⟨hbelow, hrow⟩ := h
      have hw : w = 3 ∨ w = 4 := by omega
      refine ⟨fun x y hx hy hp => hbelow x y hx hy (hp.of_complete (s := s) hw rfl rfl).1, ?_⟩
      intro y hy hyj hp
      obtain ⟨hold, hne⟩ := hp.of_complete (s := s) hw rfl rfl
      have hyc : y ≠ j := fun hyc => hne (by rw [hyc])
      exact hrow y hy (by omega) hold
  | dropHost row node2 j v c next hc hnode hv hopen ho =>
      rw [hc] at h
      obtain ⟨hbelow, hrow⟩ := h
      -- no pair before the row that follows has the country in it, except for a `Host2Exception`
      -- on the diagonal, which `hok` excludes
      have hkeep : ∀ x y, x < next → y < next → x ≠ c ∧ y ≠ c ∧ ¬ s.Pending x y := by
        refine hbelow.of_dropHost hinv hrow (ho.imp (fun ho => ho.2) fun hfail => ⟨?_, hfail.2⟩)
        obtain ⟨hhost2, rfl, -⟩ := hfail
        rintro rfl
        exact hok ⟨hhost2, row, v, hc, hv, hopen.1, hopen.2⟩
      intro x y hx hy hp
      obtain ⟨hxc, hyc, hsettled⟩ := hkeep x y hx hy
      exact hsettled (hp.of_drop hxc hyc rfl rfl)
  | fatal | indexError => trivial

theorem settledSoFar_of_reachable {s₀ s : State n} (h₀ : Initial s₀)
    (h : Transition.Reachable step (fun o s => ¬ s.DiagonalFailure o) s₀ s) :
    s.SettledSoFar := by
  refine invariant_of_move h₀.cached h ?_ ?_
  · simp [State.SettledSoFar, State.SettledBelow, h₀.control, h₀.i]
  · intro s o s' hreach hsettled hok hm
    exact hm.settledSoFar (cached_of_reachable h₀.cached hreach)
      (matrixInv_of_reachable h₀ hreach) hok hsettled

/-! ## The end of the loops -/

theorem MatrixInv.value_of_not_pending {s : State n} (hinv : MatrixInv s) {x y v : ℕ}
    (hv : s.matrix.get? x y = some v) (hpending : ¬ s.Pending x y) (h5 : v ≠ 5) :
    (0 < s.hostsLeft x ∧ 0 < s.hostsLeft y → v = 3 ∨ v = 4) ∧
      (s.hostsLeft x = 0 ∨ s.hostsLeft y = 0 → v = 0 ∨ v = 2 ∨ v = 4) := by
  have hcell := hinv.cell x y v hv
  have hle := hcell.le_five
  simp only [State.Pending, hv, Option.some.injEq, not_or, not_and] at hpending
  constructor
  · rintro ⟨hx, hy⟩
    have h0 : v ≠ 0 := fun h => by
      rcases hcell.exhausted h with hx' | hy' <;> omega
    have h2 : v ≠ 2 := fun h => hpending.2 h hx hy
    omega
  · intro hempty
    have h3 : v ≠ 3 := by
      intro h
      obtain ⟨since, c, -, -, hhosts⟩ := hcell.measured h
      have hpos : 0 < s.hostsLeft x ∧ 0 < s.hostsLeft y := by
        rcases Sym2.eq_iff.mp hhosts with ⟨hx, hy⟩ | ⟨hy, hx⟩ <;>
          exact ⟨State.hostsLeft_pos_of_endpoint? hx.symm,
            State.hostsLeft_pos_of_endpoint? hy.symm⟩
      omega
    omega

/-- Nothing measurable is left: the cell of two countries with hosts is `3` or `4`,
and any other cell is `0`, `2` or `4`. -/
def State.NothingLeft (s : State n) : Prop :=
  ∀ x y v, s.matrix.get? x y = some v →
    (0 < s.hostsLeft x ∧ 0 < s.hostsLeft y → v = 3 ∨ v = 4) ∧
      (s.hostsLeft x = 0 ∨ s.hostsLeft y = 0 → v = 0 ∨ v = 2 ∨ v = 4)

/-- A run of `wrapper` without a `Host2Exception` on the diagonal leaves nothing
measurable behind. -/
theorem wrapper_nothingLeft {countryList : List Country} {s : State countryList.length}
    (h : Transition.Reachable step (fun o s => ¬ s.DiagonalFailure o)
      (wrapperStart countryList) s) (hend : s.control = .finished) : s.NothingLeft := by
  have h₀ := (Start.wrapper countryList).initial
  have hsettled := settledSoFar_of_reachable h₀ h
  unfold State.SettledSoFar at hsettled
  rw [hend] at hsettled
  intro x y v hv
  refine (matrixInv_of_reachable h₀ h).value_of_not_pending hv (hsettled x y) ?_
  rintro rfl
  exact wrapperStart_ne_five countryList x y (((fileInv_of_reachable h₀ h).five x y).mp hv)

theorem wrapper_nothingLeft_retry :
    let s := execute (fun k => if k = 0 then .host1Exception else .returns) 6
      (wrapperStart [.entry "BE" [["a", "1", "2"], ["b", "3", "4"]]])
    s.control = .finished ∧ s.NothingLeft := by
  refine ⟨by decide, wrapper_nothingLeft (Transition.run_reachable (fun s hdiag => ?_) 6 _)
    (by decide)⟩
  have hlabel : nextOutcome (fun k => if k = 0 then .host1Exception else .returns) s ≠
      .host2Exception := by
    simp only [nextOutcome]
    split_ifs <;> simp
  exact hlabel hdiag.1

/-- With two hosts in the only country, a `Host2Exception` in the first experiment
ends the loops: the second host is never tried and the cell is still `1`. -/
theorem wrapper_skips_diagonal :
    let s := execute (fun _ => .host2Exception) 3
      (wrapperStart [.entry "BE" [["a", "1", "2"], ["b", "3", "4"]]])
    s.control = .finished ∧ s.hostsLeft 0 = 1 ∧ s.matrix.get? 0 0 = some 1 ∧
      ¬ s.NothingLeft := by
  refine ⟨by decide, by decide, by decide, fun h => ?_⟩
  have hvalue := (h 0 0 1 (by decide)).1 (by decide)
  omega

/-- The diagonal of `wrapper_delta` holds `5`, so it never makes a call there. -/
theorem delta_not_diagonalFailure {countryList : List Country} {lengths : List ℕ}
    (hsum : lengths.sum = countryList.length) {s : State countryList.length}
    (hfile : FileInv (deltaStart countryList lengths) s) (hcached : s.Cached) (o : Outcome) :
    ¬ s.DiagonalFailure o := by
  rintro ⟨-, row, v, hc, hv, hopen⟩
  have hi := (hcached row s.i hc).1
  have hsame : SameFile lengths s.i s.i := sameFile_self (hi.trans_eq hsum.symm)
  have hfive := (hfile.five s.i s.i).mpr ((deltaStart_five hsum hi hi).mpr hsame)
  rw [hv, Option.some.injEq] at hfive
  omega

/-- For any input files that can be read, a run of `wrapper_delta` that reaches the
end of the loops leaves nothing measurable between countries of different
files. -/
theorem delta_nothingLeft {files : List (List String)} {countryList : List Country}
    {lengths : List ℕ} (hread : readFiles files = some (countryList, lengths))
    {s : State countryList.length} (h : Run (deltaStart countryList lengths) s)
    (hend : s.control = .finished) {x y v : ℕ} (hxy : ¬ SameFile lengths x y)
    (hv : s.matrix.get? x y = some v) :
    (0 < s.hostsLeft x ∧ 0 < s.hostsLeft y → v = 3 ∨ v = 4) ∧
      (s.hostsLeft x = 0 ∨ s.hostsLeft y = 0 → v = 0 ∨ v = 2 ∨ v = 4) := by
  obtain ⟨hsum, hstart⟩ := start_of_readFiles hread
  have hguarded : Transition.Reachable step (fun o s => ¬ s.DiagonalFailure o)
      (deltaStart countryList lengths) s := by
    refine Transition.Reachable.mono ?_ h
    intro o s hreach _
    exact delta_not_diagonalFailure hsum (fileInv_of_reachable hstart.initial hreach)
      (cached_of_reachable hstart.initial.cached hreach) o
  have hsettled := settledSoFar_of_reachable hstart.initial hguarded
  unfold State.SettledSoFar at hsettled
  rw [hend] at hsettled
  refine (matrixInv_of_reachable hstart.initial h).value_of_not_pending hv (hsettled x y) ?_
  rintro rfl
  obtain ⟨hx, hy⟩ := Table.lt_of_get?_eq_some hv
  exact hxy ((deltaStart_five hsum hx hy).mp
    (((fileInv_of_reachable hstart.initial h).five x y).mp hv))

theorem delta_nothingLeft_retry :
    let countryList : List Country :=
      [.entry "BE" [["a", "1", "2"]], .entry "CH" [["b", "3", "4"], ["c", "5", "6"]]]
    let s := execute (fun k => if k = 0 then .host2Exception else .returns) 9
      (deltaStart countryList [1, 1])
    s.control = .finished ∧ 0 < s.hostsLeft 0 ∧ 0 < s.hostsLeft 1 ∧
      ∀ v, s.matrix.get? 0 1 = some v →
        (0 < s.hostsLeft 0 ∧ 0 < s.hostsLeft 1 → v = 3 ∨ v = 4) ∧
          (s.hostsLeft 0 = 0 ∨ s.hostsLeft 1 = 0 → v = 0 ∨ v = 2 ∨ v = 4) := by
  have hread : readFiles [["BE a 1 2"], ["CH b 3 4", "CH c 5 6"]] =
      some ([.entry "BE" [["a", "1", "2"]], .entry "CH" [["b", "3", "4"], ["c", "5", "6"]]],
        [1, 1]) := by decide
  exact ⟨by decide, by decide, by decide, fun v hv =>
    delta_nothingLeft hread (execute_run _ 9 _) (by decide) (by decide) hv⟩

end Wrapper

end Matador
