import Matador.Wrapper.History

/-!
# No wasted experiment and no reuse of a failed host

When a call is made its cell is open, and the invariant of the matrix then says
how the earlier calls on the pair ended: none of them raised a `SmallException`,
and each completed one used a host that has been removed since. `Unlike b a` is
what follows for the new call `b` and an earlier call `a`; a run keeps it for
every two calls of its log, however far apart they are.
-/

namespace Matador

namespace Wrapper

variable {n : ℕ}

/-- The call `b` avoids what the earlier call `a` has used up: an entry that `a`
removed, the two entries of `a` if both calls completed on the same pair, and the
pair of `a` altogether if `a` raised a `SmallException`. -/
structure Unlike (b a : Call) : Prop where
  removed : ∀ e, a.dropped = some e → e ∉ b.entries
  entries : a.pair = b.pair → a.Completed → b.Completed → a.entries ≠ b.entries
  failed : a.outcome = .smallException → b.pair ≠ a.pair

theorem State.position_of_mem_call {o : Outcome} {s : State n} {row node2 : Node} {j : ℕ}
    {e : HostEntry} (he : e ∈ (s.call o row node2 j).entries) :
    e.position = removals e.country s.log := by
  rcases Sym2.mem_iff.mp he with rfl | rfl <;> rfl

/-- A call in an open cell is unlike every earlier call. -/
theorem unlike_call {o : Outcome} {s : State n} {row node2 : Node} {j v : ℕ}
    (hinv : MatrixInv s) (hused : FirstUsed s.log) (hv : s.matrix.get? s.i j = some v)
    (hopen : 0 < v ∧ v ≤ 2) {a : Call} (ha : a ∈ s.log) :
    Unlike (s.call o row node2 j) a := by
  have hcell := hinv.cell s.i j v hv
  refine ⟨?_, ?_, ?_⟩
  · intro e hdrop hmem
    have hlt := hused.lt_removals ha hdrop
    rw [State.position_of_mem_call hmem] at hlt
    exact lt_irrefl _ hlt
  · intro hpair hcompleted _ hentries
    rcases hcell.used a ha ⟨hpair, hcompleted⟩ with h4 | ⟨h3, -⟩ | ⟨e, hmem, hlt⟩
    · omega
    · omega
    · rw [hentries] at hmem
      rw [State.position_of_mem_call hmem] at hlt
      exact lt_irrefl _ hlt
  · intro hsmall hpair
    have hreturned := hcell.returned (by omega) a ha ⟨hpair.symm, Or.inr hsmall⟩
    rw [hsmall] at hreturned
    cases hreturned

theorem Move.pairwise_unlike {o : Outcome} {s s' : State n} (hm : Move o s s')
    (hinv : MatrixInv s) (hused : FirstUsed s.log) (h : s.log.Pairwise Unlike) :
    s'.log.Pairwise Unlike := by
  rcases hm.log_eq with hlog | ⟨row, node2, j, v, -, -, hv, hopen, hlog⟩
  · rw [hlog]
    exact h
  · rw [hlog]
    exact List.Pairwise.cons (fun a ha => unlike_call hinv hused hv hopen ha) h

theorem pairwise_unlike_of_reachable {ok : Outcome → State n → Prop} {s₀ s : State n}
    (h₀ : Initial s₀) (h : Transition.Reachable step ok s₀ s) : s.log.Pairwise Unlike := by
  refine invariant_of_move (P := fun s => s.log.Pairwise Unlike) h₀.cached h ?_ ?_
  · rw [h₀.log]
    exact List.Pairwise.nil
  · intro s o s' hreach hpairwise _ hm
    exact hm.pairwise_unlike (matrixInv_of_reachable h₀ hreach)
      (firstUsed_of_reachable h₀ hreach) hpairwise

theorem Move.endpoints_of_call {o : Outcome} {s s' : State n} (hm : Move o s s')
    (hcached : s.Cached) {c : Call} (hlog : s'.log = c :: s.log) :
    s.endpoint? c.host1.entry.country = some c.host1 ∧
      s.endpoint? c.host2.entry.country = some c.host2 := by
  rcases hm.log_eq with hsame | ⟨row, node2, j, v, hc, hnode, -, -, hcall⟩
  · rw [hsame] at hlog
    exact absurd hlog (List.cons_ne_self c s.log).symm
  · rw [hcall] at hlog
    obtain ⟨rfl, -⟩ := List.cons.inj hlog
    exact ⟨State.endpoint?_eq_some (hcached row j hc).2, State.endpoint?_eq_some hnode⟩

/-- In every run of either wrapper, the hosts of a call are the ones that are first
in the lists of the two countries at that moment, where a country list is what the
removals left of the input; an entry that was removed is used by no later call; two
completed calls on one pair use different entries; and after a `SmallException`
there is no further call on the pair. The log has the newest call in front, so in
`Pairwise` the call `b` is later than the call `a`. -/
theorem calls_use_fresh_hosts {s₀ s : State n} (h₀ : Start s₀) (h : Run s₀ s) :
    (∀ o s' c, step o s = some s' → s'.log = c :: s.log →
      s.endpoint? c.host1.entry.country = some c.host1 ∧
        s.endpoint? c.host2.entry.country = some c.host2) ∧
    (∀ c : ℕ, s.countryList[c]? = s₀.countryList[c]?.map (Country.drop (s.first c).position)) ∧
    s.log.Pairwise (fun b a => ∀ e, a.dropped = some e → e ∉ b.entries) ∧
    s.log.Pairwise (fun b a =>
      a.pair = b.pair → a.Completed → b.Completed → a.entries ≠ b.entries) ∧
    s.log.Pairwise (fun b a => a.outcome = .smallException → b.pair ≠ a.pair) := by
  have hunlike := pairwise_unlike_of_reachable h₀.initial h
  have hcached := cached_of_reachable h₀.initial.cached h
  refine ⟨?_, listsFrom_of_reachable h₀.initial h, hunlike.imp Unlike.removed,
    hunlike.imp Unlike.entries, hunlike.imp Unlike.failed⟩
  intro o s' c hstep hlog
  exact (move_of_step hcached hstep).endpoints_of_call hcached hlog

/-- `BE` is measured with itself, loses that host in the experiment with `CH` and is
measured with itself again. -/
theorem calls_use_fresh_hosts_retry :
    let s := execute (fun k => if k = 1 then .host1Exception else .returns) 5
      (wrapperStart [.entry "BE" [["a", "1", "2"], ["b", "3", "4"]], .entry "CH" [["c", "5", "6"]]])
    s.log.map (fun c => (c.host1.node.hostname, c.host2.node.hostname)) =
        [("b", "b"), ("a", "c"), ("a", "a")] ∧
      s.log.Pairwise (fun b a => ∀ e, a.dropped = some e → e ∉ b.entries) :=
  ⟨by decide, (calls_use_fresh_hosts (Start.wrapper _) (execute_run _ _ _)).2.2.1⟩

end Wrapper

end Matador
