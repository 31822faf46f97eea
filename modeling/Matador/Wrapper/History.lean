import Matador.Library.Log
import Matador.Wrapper.Hosts

/-!
# The matrix and the history of calls

`CellInv s x y v` says what the value `v` of the cell `(x, y)` means in terms of
the calls made so far on the pair `{x, y}`. It is an invariant of the scheduling
loops: a pass over the row and the column of a country and the write after an
experiment each have one lemma below, and the transitions are assembled from
them. The matrix is symmetric throughout, which is why the write to the cells
`(i, j)` and `(j, i)` finds both of them open.
-/

namespace Matador

namespace Wrapper

open Log

variable {n : ℕ}

def Call.CompletedOn (p : Sym2 ℕ) (c : Call) : Prop := c.pair = p ∧ c.Completed

def Call.ReturnedOn (p : Sym2 ℕ) (c : Call) : Prop := c.pair = p ∧ c.outcome = .returns

def State.endpoint? (s : State n) (c : ℕ) : Option Endpoint :=
  (s.node? c).map fun node => ⟨s.first c, node⟩

/-- The meaning of the value `v` in the cell `(x, y)`. -/
structure CellInv (s : State n) (x y v : ℕ) : Prop where
  le_five : v ≤ 5
  untried : v ≤ 1 → ∀ c ∈ s.log, ¬ c.CompletedOn s(x, y)
  exhausted : v = 0 → s.hostsLeft x = 0 ∨ s.hostsLeft y = 0
  reset : v = 2 → ∃ since c, MostRecent (Call.ReturnedOn s(x, y)) s.log since c ∧
    ∃ d ∈ since, ∃ e ∈ c.entries, d.dropped = some e
  measured : v = 3 → ∃ since c, MostRecent (Call.CompletedOn s(x, y)) s.log since c ∧
    c.outcome = .returns ∧ s(some c.host1, some c.host2) = s(s.endpoint? x, s.endpoint? y)
  failed : v = 4 → ∃ since c, MostRecent (Call.CompletedOn s(x, y)) s.log since c ∧
    c.outcome = .smallException
  returned : v ≠ 4 → ∀ c ∈ s.log, c.CompletedOn s(x, y) → c.outcome = .returns
  used : ∀ c ∈ s.log, c.CompletedOn s(x, y) → v = 4 ∨
    (v = 3 ∧ c.entries = s(s.first x, s.first y)) ∨
      ∃ e ∈ c.entries, e.position < removals e.country s.log

/-! ## Endpoints -/

theorem State.entry_of_endpoint? {s : State n} {c : ℕ} {p : Endpoint}
    (h : s.endpoint? c = some p) : p.entry = s.first c := by
  obtain ⟨node, -, rfl⟩ := Option.map_eq_some_iff.mp h
  rfl

theorem State.hostsLeft_pos_of_endpoint? {s : State n} {c : ℕ} {p : Endpoint}
    (h : s.endpoint? c = some p) : 0 < s.hostsLeft c := by
  obtain ⟨node, hnode, -⟩ := Option.map_eq_some_iff.mp h
  exact State.hostsLeft_pos_of_node? hnode

theorem entries_of_endpoints {s : State n} {c : Call} {x y : ℕ}
    (h : s(some c.host1, some c.host2) = s(s.endpoint? x, s.endpoint? y)) :
    c.entries = s(s.first x, s.first y) := by
  rcases Sym2.eq_iff.mp h with ⟨h1, h2⟩ | ⟨h1, h2⟩
  · rw [Call.entries, State.entry_of_endpoint? h1.symm, State.entry_of_endpoint? h2.symm]
  · rw [Call.entries, State.entry_of_endpoint? h1.symm, State.entry_of_endpoint? h2.symm,
      Sym2.eq_swap]

theorem State.endpoint?_congr {s s' : State n} {c : ℕ}
    (hlist : s'.countryList[c]? = s.countryList[c]?)
    (hrem : removals c s'.log = removals c s.log) : s'.endpoint? c = s.endpoint? c := by
  simp only [State.endpoint?, State.node?, State.first, hlist, hrem]

/-! ## The steps of the invariant -/

theorem CellInv.congr {s s' : State n} {x y v : ℕ} (h : CellInv s x y v)
    (hlist : s'.countryList = s.countryList) (hlog : s'.log = s.log) : CellInv s' x y v := by
  obtain ⟨countryList, matrix, counter, i, control, log⟩ := s
  obtain ⟨countryList', matrix', counter', i', control', log'⟩ := s'
  dsimp only at hlist hlog
  subst hlist hlog
  exact ⟨h.le_five, h.untried, h.exhausted, h.reset, h.measured, h.failed, h.returned, h.used⟩

/-- A pass that turns `1` into `0` around a country without hosts. -/
theorem CellInv.exhaust {s : State n} {x y v c : ℕ} (h : CellInv s x y v)
    (hc : s.hostsLeft c = 0) : CellInv s x y (relabelled c 1 0 x y v) := by
  unfold relabelled
  split_ifs with hv
  · obtain ⟨hxy, rfl⟩ := hv
    have hnone := h.untried le_rfl
    refine ⟨by omega, fun _ => hnone, ?_, by simp, by simp, by simp, ?_, ?_⟩
    · rcases hxy with rfl | rfl
      · exact fun _ => Or.inl hc
      · exact fun _ => Or.inr hc
    · intro _ d hd hon
      exact absurd hon (hnone d hd)
    · intro d hd hon
      exact absurd hon (hnone d hd)
  · exact h

theorem Call.CompletedOn.mem_tail {p : Sym2 ℕ} {c d : Call} {log : List Call}
    (hc : c.CompletedOn p) (hd : ¬ d.CompletedOn p) (h : c ∈ d :: log) : c ∈ log := by
  rcases List.mem_cons.mp h with rfl | h
  · exact absurd hc hd
  · exact h

/-- A call that removes nothing and does not complete on the pair of the cell
leaves its meaning as it is. -/
theorem CellInv.cons {s s' : State n} {x y v : ℕ} {d : Call} (h : CellInv s x y v)
    (hlist : s'.countryList = s.countryList) (hlog : s'.log = d :: s.log)
    (hdrop : d.dropped = none) (hon : ¬ d.CompletedOn s(x, y)) : CellInv s' x y v := by
  have hrem : ∀ c, removals c s'.log = removals c s.log := by
    intro c
    rw [hlog, removals_cons_of_none hdrop]
  have hend : ∀ c, s'.endpoint? c = s.endpoint? c :=
    fun c => State.endpoint?_congr (by rw [hlist]) (hrem c)
  have hfirst : ∀ c, s'.first c = s.first c := fun c => by rw [State.first, hrem, State.first]
  have hret : ¬ d.ReturnedOn s(x, y) := fun hd => hon ⟨hd.1, Or.inl hd.2⟩
  refine ⟨h.le_five, ?_, ?_, ?_, ?_, ?_, ?_, ?_⟩
  · intro hv c hc hcon
    exact h.untried hv c (hcon.mem_tail hon (hlog ▸ hc)) hcon
  · intro hv
    simpa only [State.hostsLeft, hlist] using h.exhausted hv
  · intro hv
    obtain ⟨since, c, hrecent, b, hb, hdropped⟩ := h.reset hv
    exact ⟨d :: since, c, hlog ▸ hrecent.cons hret, b, List.mem_cons_of_mem d hb, hdropped⟩
  · intro hv
    obtain ⟨since, c, hrecent, hc, hhosts⟩ := h.measured hv
    refine ⟨d :: since, c, hlog ▸ hrecent.cons hon, hc, ?_⟩
    rw [hend, hend, hhosts]
  · intro hv
    obtain ⟨since, c, hrecent, hc⟩ := h.failed hv
    exact ⟨d :: since, c, hlog ▸ hrecent.cons hon, hc⟩
  · intro hv c hc hcon
    exact h.returned hv c (hcon.mem_tail hon (hlog ▸ hc)) hcon
  · intro c hc hcon
    simpa only [hrem, hfirst] using h.used c (hcon.mem_tail hon (hlog ▸ hc)) hcon

theorem State.hostsLeft_popped {s s' : State n} {c : ℕ}
    (hlist : s'.countryList = popped s.countryList c) (k : ℕ) :
    s'.hostsLeft k = if k = c then s.hostsLeft k - 1 else s.hostsLeft k := by
  simp only [State.hostsLeft, hlist, popped_getElem?, Option.map_map]
  cases hk : s.countryList[k]? with
  | none => simp
  | some country =>
      by_cases hkc : k = c
      · simp [hkc]
      · simp [hkc]

theorem removed_cons {b d : Call} {log : List Call}
    (h : ∃ e ∈ b.entries, e.position < removals e.country log) :
    ∃ e ∈ b.entries, e.position < removals e.country (d :: log) := by
  obtain ⟨e, he, hlt⟩ := h
  exact ⟨e, he, hlt.trans_le (removals_le_cons _ _ _)⟩

section HostFailure

variable {s s' : State n} {x y v c : ℕ} {d : Call}

theorem not_completedOn_of_dropped {e : HostEntry} (hdrop : d.dropped = some e) (p : Sym2 ℕ) :
    ¬ d.CompletedOn p :=
  fun hd => Call.not_completed_of_dropped hdrop hd.2

theorem not_returnedOn_of_dropped {e : HostEntry} (hdrop : d.dropped = some e) (p : Sym2 ℕ) :
    ¬ d.ReturnedOn p :=
  fun hd => not_completedOn_of_dropped hdrop p ⟨hd.1, Or.inl hd.2⟩

theorem removals_of_drop (hlog : s'.log = d :: s.log) (hdrop : d.dropped = some (s.first c))
    (k : ℕ) : removals k s'.log = removals k s.log + if c = k then 1 else 0 := by
  rw [hlog, removals_cons_of_some hdrop]
  rfl

/-- A pair that was measured with the host that is popped now. -/
theorem CellInv.drop_measured (h : CellInv s x y 3) (hxy : x = c ∨ y = c)
    (hlog : s'.log = d :: s.log) (hdrop : d.dropped = some (s.first c)) : CellInv s' x y 2 := by
  have hon := not_completedOn_of_dropped hdrop s(x, y)
  have hret := not_returnedOn_of_dropped hdrop s(x, y)
  have hfirst : s.first c ∈ s(s.first x, s.first y) := by
    rcases hxy with rfl | rfl <;> simp
  refine ⟨by omega, by omega, by omega, fun _ => ?_, by omega, by omega, fun _ => ?_, ?_⟩
  · obtain ⟨since, b, hrecent, hb, hhosts⟩ := h.measured rfl
    have hreturned : MostRecent (Call.ReturnedOn s(x, y)) s.log since b :=
      hrecent.strengthen (fun a ha => ⟨ha.1, Or.inl ha.2⟩) ⟨hrecent.2.1.1, hb⟩
    refine ⟨d :: since, b, hlog ▸ hreturned.cons hret, d, List.mem_cons_self, s.first c, ?_, hdrop⟩
    rw [entries_of_endpoints hhosts]
    exact hfirst
  · intro b hb hbon
    exact h.returned (by omega) b (hbon.mem_tail hon (hlog ▸ hb)) hbon
  · intro b hb hbon
    refine Or.inr (Or.inr ?_)
    rcases h.used b (hbon.mem_tail hon (hlog ▸ hb)) hbon with hv | ⟨-, hentries⟩ | hold
    · omega
    · refine ⟨s.first c, hentries ▸ hfirst, ?_⟩
      rw [removals_of_drop hlog hdrop]
      simp [State.first]
    · rw [hlog]
      exact removed_cons hold

/-- A pair that was not measured with the popped host keeps its meaning. -/
theorem CellInv.drop_other (h : CellInv s x y v) (hother : v = 3 → x ≠ c ∧ y ≠ c)
    (hlist : s'.countryList = popped s.countryList c) (hlog : s'.log = d :: s.log)
    (hdrop : d.dropped = some (s.first c)) : CellInv s' x y v := by
  have hon := not_completedOn_of_dropped hdrop s(x, y)
  have hret := not_returnedOn_of_dropped hdrop s(x, y)
  have hsame : ∀ k, k ≠ c → removals k s'.log = removals k s.log := by
    intro k hk
    rw [removals_of_drop hlog hdrop, if_neg (Ne.symm hk), Nat.add_zero]
  refine ⟨h.le_five, ?_, ?_, ?_, ?_, ?_, ?_, ?_⟩
  · intro hv b hb hbon
    exact h.untried hv b (hbon.mem_tail hon (hlog ▸ hb)) hbon
  · intro hv
    rw [State.hostsLeft_popped hlist, State.hostsLeft_popped hlist]
    rcases h.exhausted hv with hx | hy
    · left
      split_ifs <;> omega
    · right
      split_ifs <;> omega
  · intro hv
    obtain ⟨since, b, hrecent, a, ha, hdropped⟩ := h.reset hv
    exact ⟨d :: since, b, hlog ▸ hrecent.cons hret, a, List.mem_cons_of_mem d ha, hdropped⟩
  · intro hv
    obtain ⟨hx, hy⟩ := hother hv
    obtain ⟨since, b, hrecent, hb, hhosts⟩ := h.measured hv
    have hend : ∀ k, k ≠ c → s'.endpoint? k = s.endpoint? k := by
      intro k hk
      refine State.endpoint?_congr ?_ (hsame k hk)
      rw [hlist, popped_getElem?]
      simp [hk]
    refine ⟨d :: since, b, hlog ▸ hrecent.cons hon, hb, ?_⟩
    rw [hend x hx, hend y hy, hhosts]
  · intro hv
    obtain ⟨since, b, hrecent, hb⟩ := h.failed hv
    exact ⟨d :: since, b, hlog ▸ hrecent.cons hon, hb⟩
  · intro hv b hb hbon
    exact h.returned hv b (hbon.mem_tail hon (hlog ▸ hb)) hbon
  · intro b hb hbon
    rcases h.used b (hbon.mem_tail hon (hlog ▸ hb)) hbon with hv | ⟨hv, hentries⟩ | hold
    · exact Or.inl hv
    · obtain ⟨hx, hy⟩ := hother hv
      refine Or.inr (Or.inl ⟨hv, ?_⟩)
      simp only [State.first, hsame x hx, hsame y hy]
      exact hentries
    · rw [hlog]
      exact Or.inr (Or.inr (removed_cons hold))

/-- A host failure: the first host of country `c` is popped and the cells `3` of
its row and column become `2`. -/
theorem CellInv.drop (h : CellInv s x y v)
    (hlist : s'.countryList = popped s.countryList c) (hlog : s'.log = d :: s.log)
    (hdrop : d.dropped = some (s.first c)) : CellInv s' x y (relabelled c 3 2 x y v) := by
  unfold relabelled
  split_ifs with hthree
  · obtain ⟨hxy, rfl⟩ := hthree
    exact h.drop_measured hxy hlog hdrop
  · refine h.drop_other (fun hv => ⟨fun hx => ?_, fun hy => ?_⟩) hlist hlog hdrop
    · exact hthree ⟨Or.inl hx, hv⟩
    · exact hthree ⟨Or.inr hy, hv⟩

end HostFailure

/-- A completed experiment on an open pair, seen from one of the two cells of the
pair: `3` after a normal return and `4` after a `SmallException`. -/
theorem CellInv.complete {s s' : State n} {x y v w : ℕ} {d : Call} (h : CellInv s x y v)
    (hopen : 0 < v ∧ v ≤ 2) (hlist : s'.countryList = s.countryList)
    (hlog : s'.log = d :: s.log) (hdrop : d.dropped = none) (hpair : d.pair = s(x, y))
    (hhosts : s(some d.host1, some d.host2) = s(s.endpoint? x, s.endpoint? y))
    (ho : d.outcome = .returns ∧ w = 3 ∨ d.outcome = .smallException ∧ w = 4) :
    CellInv s' x y w := by
  have hrem : ∀ k, removals k s'.log = removals k s.log := by
    intro k
    rw [hlog, removals_cons_of_none hdrop]
  have hend : ∀ k, s'.endpoint? k = s.endpoint? k :=
    fun k => State.endpoint?_congr (by rw [hlist]) (hrem k)
  have hrecent : d.Completed → MostRecent (Call.CompletedOn s(x, y)) s'.log [] d :=
    fun hd => hlog ▸ mostRecent_head s.log ⟨hpair, hd⟩
  rcases ho with ⟨hd, rfl⟩ | ⟨hd, rfl⟩
  · refine ⟨by omega, by omega, by omega, by omega, fun _ => ?_, by omega, fun _ => ?_, ?_⟩
    · refine ⟨[], d, hrecent (Or.inl hd), hd, ?_⟩
      rw [hend, hend, hhosts]
    · intro b hb hbon
      rcases List.mem_cons.mp (hlog ▸ hb) with rfl | hb
      · exact hd
      · exact h.returned (by omega) b hb hbon
    · intro b hb hbon
      rcases List.mem_cons.mp (hlog ▸ hb) with rfl | hb
      · refine Or.inr (Or.inl ⟨rfl, ?_⟩)
        simp only [State.first, hrem]
        exact entries_of_endpoints hhosts
      · rcases h.used b hb hbon with hv | ⟨hv, -⟩ | hold
        · omega
        · omega
        · simp only [hrem]
          exact Or.inr (Or.inr hold)
  · exact ⟨by omega, by omega, by omega, by omega, by omega,
      fun _ => ⟨[], d, hrecent (Or.inr hd), hd⟩, by omega, fun _ _ _ => Or.inl rfl⟩

/-! ## The invariant of the matrix -/

/-- The matrix is symmetric and every cell means what its value says. -/
structure MatrixInv (s : State n) : Prop where
  symm : ∀ x y, s.matrix.get? x y = s.matrix.get? y x
  cell : ∀ x y v, s.matrix.get? x y = some v → CellInv s x y v

theorem Initial.matrixInv {s : State n} (h : Initial s) : MatrixInv s where
  symm := h.symm
  cell x y v hv := by
    have hval := h.cell x y v hv
    have hlog : ∀ c, c ∉ s.log := by simp [h.log]
    exact ⟨by omega, fun _ c hc => absurd hc (hlog c), by omega, by omega, by omega, by omega,
      fun _ c hc => absurd hc (hlog c), fun c hc => absurd hc (hlog c)⟩

/-- A rewrite of the cells that treats `(x, y)` and `(y, x)` alike keeps the matrix
symmetric. -/
theorem get?_mapIdx_symm {matrix : Table n ℕ} {f : ℕ → ℕ → ℕ → ℕ}
    (h : ∀ x y, matrix.get? x y = matrix.get? y x) (hf : ∀ x y v, f x y v = f y x v) (x y : ℕ) :
    (matrix.mapIdx f).get? x y = (matrix.mapIdx f).get? y x := by
  rw [Table.get?_mapIdx, Table.get?_mapIdx, h x y]
  congr 1
  funext v
  exact hf x y v

theorem relabelled_comm (c a b x y v : ℕ) : relabelled c a b x y v = relabelled c a b y x v := by
  unfold relabelled
  exact if_congr (by tauto) rfl rfl

theorem pairSet_comm (i j w x y v : ℕ) : pairSet i j w x y v = pairSet i j w y x v := by
  unfold pairSet
  exact if_congr (by rw [Sym2.eq_swap]) rfl rfl

theorem State.endpoint?_eq_some {s : State n} {c : ℕ} {node : Node} (h : s.node? c = some node) :
    s.endpoint? c = some ⟨s.first c, node⟩ := by
  simp [State.endpoint?, h]

theorem MatrixInv.congr {s s' : State n} (h : MatrixInv s) (hlist : s'.countryList = s.countryList)
    (hmatrix : s'.matrix = s.matrix) (hlog : s'.log = s.log) : MatrixInv s' where
  symm x y := by rw [hmatrix, h.symm]
  cell x y v hv := (h.cell x y v (hmatrix ▸ hv)).congr hlist hlog

theorem MatrixInv.exhaust {s s' : State n} {c : ℕ} (h : MatrixInv s) (hc : s.hostsLeft c = 0)
    (hlist : s'.countryList = s.countryList)
    (hmatrix : s'.matrix = s.matrix.mapIdx (relabelled c 1 0)) (hlog : s'.log = s.log) :
    MatrixInv s' where
  symm x y := by
    rw [hmatrix]
    exact get?_mapIdx_symm h.symm (relabelled_comm c 1 0) x y
  cell x y v hv := by
    rw [hmatrix, Table.get?_mapIdx] at hv
    obtain ⟨u, hu, rfl⟩ := Option.map_eq_some_iff.mp hv
    exact ((h.cell x y u hu).exhaust hc).congr hlist hlog

theorem Move.matrixInv {o : Outcome} {s s' : State n} (hm : Move o s s') (hcached : s.Cached)
    (h : MatrixInv s) : MatrixInv s' := by
  cases hm with
  | finish | enterRow | endRow | skipCell | indexError => exact h.congr rfl rfl rfl
  | skipRow hc hi hempty => exact h.exhaust hempty rfl rfl rfl
  | skipColumn row j hc hj hempty => exact h.exhaust hempty rfl rfl rfl
  | fatal row node2 j v hc hnode hv hopen ho =>
      refine ⟨h.symm, fun x y u hu => ?_⟩
      have hcompleted : ¬ (s.call o row node2 j).CompletedOn s(x, y) := by
        rintro ⟨-, hret | hsmall⟩
        · cases ho.symm.trans hret
        · cases ho.symm.trans hsmall
      exact (h.cell x y u hu).cons rfl rfl (by subst ho; rfl) hcompleted
  | dropHost row node2 j v c next hc hnode hv hopen ho =>
      refine ⟨get?_mapIdx_symm h.symm (relabelled_comm c 3 2), fun x y u hu => ?_⟩
      rw [Table.get?_mapIdx] at hu
      obtain ⟨t, ht, rfl⟩ := Option.map_eq_some_iff.mp hu
      exact (h.cell x y t ht).drop rfl rfl (State.dropped_call_of_drop ho)
  | complete row node2 j v w hc hnode hv hopen ho =>
      have hrow := (hcached row j hc).2
      refine ⟨get?_mapIdx_symm h.symm (pairSet_comm s.i j w), fun x y u hu => ?_⟩
      rw [Table.get?_mapIdx] at hu
      obtain ⟨t, ht, rfl⟩ := Option.map_eq_some_iff.mp hu
      have hdrop : (s.call o row node2 j).dropped = none := State.dropped_call_of_complete ho
      unfold pairSet
      split_ifs with hpair
      · have hcell : s.matrix.get? s.i j = some t := by
          rcases Sym2.eq_iff.mp hpair with ⟨rfl, rfl⟩ | ⟨rfl, rfl⟩
          · exact ht
          · rw [h.symm]
            exact ht
        have htv : t = v := Option.some.inj (hcell.symm.trans hv)
        have hhosts : s(some (s.call o row node2 j).host1, some (s.call o row node2 j).host2) =
            s(s.endpoint? x, s.endpoint? y) := by
          have hmap := congrArg (Sym2.map s.endpoint?) hpair
          simp only [Sym2.map_mk] at hmap
          rw [hmap, State.endpoint?_eq_some hrow, State.endpoint?_eq_some hnode]
          rfl
        exact (h.cell x y t ht).complete (htv ▸ hopen) rfl rfl hdrop hpair.symm hhosts ho
      · exact (h.cell x y t ht).cons rfl rfl hdrop fun hon => hpair hon.1.symm

theorem matrixInv_of_reachable {ok : Outcome → State n → Prop} {s₀ s : State n}
    (h₀ : Initial s₀) (h : Transition.Reachable step ok s₀ s) : MatrixInv s :=
  invariant_of_move h₀.cached h h₀.matrixInv fun _ _ _ hreach hinv _ hm =>
    hm.matrixInv (cached_of_reachable h₀.cached hreach) hinv

/-- In every state of every run of either wrapper the matrix is symmetric and tells
the history of the calls: `3` is a pair whose most recent completed call returned
and used the hosts that are first now, `2` a pair whose last successful call used
a host that was removed since, `4` a pair whose most recent completed call raised
a `SmallException`; on a pair with `0` or `1` no call has completed, and `0` also
says that one of its countries has no host left. -/
theorem matrix_records_calls {s₀ s : State n} (h₀ : Start s₀) (h : Run s₀ s) :
    (∀ x y, s.matrix.get? x y = s.matrix.get? y x) ∧
      ∀ x y v, s.matrix.get? x y = some v →
        (v = 3 → ∃ since c, MostRecent (Call.CompletedOn s(x, y)) s.log since c ∧
          c.outcome = .returns ∧
            s(some c.host1, some c.host2) = s(s.endpoint? x, s.endpoint? y)) ∧
        (v = 2 → ∃ since c, MostRecent (Call.ReturnedOn s(x, y)) s.log since c ∧
          ∃ d ∈ since, ∃ e ∈ c.entries, d.dropped = some e) ∧
        (v = 4 → ∃ since c, MostRecent (Call.CompletedOn s(x, y)) s.log since c ∧
          c.outcome = .smallException) ∧
        (v = 0 ∨ v = 1 → ∀ c ∈ s.log, ¬ c.CompletedOn s(x, y)) ∧
        (v = 0 → s.hostsLeft x = 0 ∨ s.hostsLeft y = 0) := by
  have hinv := matrixInv_of_reachable h₀.initial h
  refine ⟨hinv.symm, fun x y v hv => ?_⟩
  have hcell := hinv.cell x y v hv
  exact ⟨hcell.measured, hcell.reset, hcell.failed, fun h01 => hcell.untried (by omega),
    hcell.exhausted⟩

/-- After `BE` was measured with itself, its host fails in the next experiment. -/
theorem matrix_records_calls_reset :
    let s := execute (fun k => if k = 1 then .host1Exception else .returns) 4
      (wrapperStart [.entry "BE" [["a", "1", "2"], ["b", "3", "4"]], .entry "CH" [["c", "5", "6"]]])
    s.matrix.get? 0 0 = some 2 ∧
      ∃ since c, MostRecent (Call.ReturnedOn s(0, 0)) s.log since c ∧
        ∃ d ∈ since, ∃ e ∈ c.entries, d.dropped = some e :=
  ⟨by decide,
    ((matrix_records_calls (Start.wrapper _) (execute_run _ _ _)).2 0 0 2 (by decide)).2.1 rfl⟩

end Wrapper

end Matador
