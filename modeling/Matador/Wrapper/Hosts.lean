import Matador.Wrapper.Blocks

/-!
# Host lists and the log of calls

A country only ever loses its first host, and it loses one exactly when a call
ends with the exception that blames it. So the list of a country is what is left
of the input after `removals` entries, and the entry a call uses is the one at the
position `removals` of its country. Both facts hold in every state of every run;
from the second one follows that an entry which was removed is never used again.
-/

namespace Matador

namespace Wrapper

variable {n : ℕ}

/-! ## Calls and removals -/

theorem removals_cons (c : ℕ) (d : Call) (log : List Call) :
    removals c (d :: log) =
      removals c log + if d.dropped.map HostEntry.country = some c then 1 else 0 := by
  simp [removals, List.countP_cons]

theorem removals_cons_of_none {d : Call} (hd : d.dropped = none) (c : ℕ) (log : List Call) :
    removals c (d :: log) = removals c log := by
  simp [removals_cons, hd]

theorem removals_cons_of_some {d : Call} {e : HostEntry} (hd : d.dropped = some e) (c : ℕ)
    (log : List Call) :
    removals c (d :: log) = removals c log + if e.country = c then 1 else 0 := by
  simp [removals_cons, hd]

theorem removals_le_cons (c : ℕ) (d : Call) (log : List Call) :
    removals c log ≤ removals c (d :: log) := by
  rw [removals_cons]
  exact Nat.le_add_right _ _

theorem Call.not_completed_of_dropped {d : Call} {e : HostEntry} (h : d.dropped = some e) :
    ¬ d.Completed := by
  unfold Call.dropped at h
  unfold Call.Completed
  cases hd : d.outcome <;> simp_all

namespace State

theorem dropped_call_of_drop {o : Outcome} {s : State n} {row node2 : Node} {j c next : ℕ}
    (ho : o = .host1Exception ∧ c = s.i ∧ next = s.i ∨
      o = .host2Exception ∧ c = j ∧ next = if j < s.i then j else s.i + 1) :
    (s.call o row node2 j).dropped = some (s.first c) := by
  rcases ho with ⟨rfl, rfl, -⟩ | ⟨rfl, rfl, -⟩ <;> rfl

theorem dropped_call_of_complete {o : Outcome} {s : State n} {row node2 : Node} {j w : ℕ}
    (ho : o = .returns ∧ w = 3 ∨ o = .smallException ∧ w = 4) :
    (s.call o row node2 j).dropped = none := by
  rcases ho with ⟨rfl, -⟩ | ⟨rfl, -⟩ <;> rfl

end State

/-! ## The host lists -/

theorem popped_getElem? (countryList : Vector Country n) (c x : ℕ) :
    (popped countryList c)[x]? =
      countryList[x]?.map fun country => if x = c then country.drop 1 else country := by
  rw [popped, Vector.getElem?_mapIdx]

/-- The values of a line of the input. -/
def nodeOf (input : Vector Country n) (e : HostEntry) : Option Node :=
  input[e.country]?.bind fun country => country.nodeAt? e.position

/-- Every country list is what the removals left of the input. -/
def State.ListsFrom (input : Vector Country n) (s : State n) : Prop :=
  ∀ x : ℕ, s.countryList[x]? = input[x]?.map (Country.drop (removals x s.log))

theorem State.ListsFrom.node?_eq {input : Vector Country n} {s : State n}
    (h : s.ListsFrom input) (c : ℕ) : s.node? c = nodeOf input (s.first c) := by
  rw [State.node?, h c, nodeOf]
  cases hinput : input[c]? with
  | none => simp [State.first, hinput]
  | some country => simp [State.first, hinput, Country.node?, Country.nodeAt?_drop]

theorem State.ListsFrom.congr {input : Vector Country n} {s s' : State n}
    (h : s.ListsFrom input) (hlist : s'.countryList = s.countryList)
    (hlog : ∀ c, removals c s'.log = removals c s.log) : s'.ListsFrom input := by
  intro x
  rw [hlist, hlog, h x]

theorem Move.listsFrom {o : Outcome} {s s' : State n} {input : Vector Country n}
    (hm : Move o s s') (h : s.ListsFrom input) : s'.ListsFrom input := by
  cases hm with
  | finish | enterRow | skipRow | endRow | skipColumn | skipCell | indexError =>
      exact h.congr rfl fun _ => rfl
  | complete row node2 j v w hc hnode hv hopen ho =>
      exact h.congr rfl
        fun c => removals_cons_of_none (State.dropped_call_of_complete ho) c s.log
  | fatal row node2 j v hc hnode hv hopen ho =>
      subst ho
      exact h.congr rfl fun c => removals_cons_of_none rfl c s.log
  | dropHost row node2 j v c next hc hnode hv hopen ho =>
      intro x
      have hdrop : (s.call o row node2 j).dropped = some (s.first c) :=
        State.dropped_call_of_drop ho
      have hrem := removals_cons_of_some hdrop x s.log
      simp only [popped_getElem?, h x, hrem, Option.map_map]
      congr 1
      funext country
      by_cases hx : x = c
      · subst hx
        simp [State.first]
      · simp [State.first, hx, Ne.symm hx]

theorem listsFrom_of_reachable {ok : Outcome → State n → Prop} {s₀ s : State n}
    (h₀ : Initial s₀) (h : Transition.Reachable step ok s₀ s) : s.ListsFrom s₀.countryList := by
  refine invariant_of_move h₀.cached h ?_ fun _ _ _ _ hlists _ hm => hm.listsFrom hlists
  intro x
  rw [h₀.log]
  cases hx : s₀.countryList[x]? <;> simp [removals]

/-! ## The log -/

/-- Every call of the log used, on both sides, the entry that was first in its
country when the call was made. -/
def FirstUsed : List Call → Prop
  | [] => True
  | c :: older =>
      c.host1.entry.position = removals c.host1.entry.country older ∧
        c.host2.entry.position = removals c.host2.entry.country older ∧ FirstUsed older

theorem FirstUsed.of_mem_entries {c : Call} {older : List Call} (h : FirstUsed (c :: older))
    {e : HostEntry} (he : e ∈ c.entries) : e.position = removals e.country older := by
  rcases Sym2.mem_iff.mp he with rfl | rfl
  · exact h.1
  · exact h.2.1

theorem Call.mem_entries_of_dropped {d : Call} {e : HostEntry} (h : d.dropped = some e) :
    e ∈ d.entries := by
  unfold Call.dropped at h
  unfold Call.entries
  cases hd : d.outcome <;> simp_all

/-- An entry that a call removed is in front of the list of its country no more. -/
theorem FirstUsed.lt_removals {log : List Call} (h : FirstUsed log) {d : Call} (hd : d ∈ log)
    {e : HostEntry} (he : d.dropped = some e) : e.position < removals e.country log := by
  induction log with
  | nil => cases hd
  | cons c older ih =>
      rcases List.mem_cons.mp hd with rfl | hd
      · rw [removals_cons_of_some he, if_pos rfl,
          h.of_mem_entries (Call.mem_entries_of_dropped he)]
        exact Nat.lt_succ_self _
      · exact (ih h.2.2 hd).trans_le (removals_le_cons _ _ _)

theorem Move.firstUsed {o : Outcome} {s s' : State n} (hm : Move o s s')
    (h : FirstUsed s.log) : FirstUsed s'.log := by
  rcases hm.log_eq with hlog | ⟨row, node2, j, v, -, -, -, -, hlog⟩
  · rw [hlog]
    exact h
  · rw [hlog]
    exact ⟨rfl, rfl, h⟩

theorem firstUsed_of_reachable {ok : Outcome → State n → Prop} {s₀ s : State n}
    (h₀ : Initial s₀) (h : Transition.Reachable step ok s₀ s) : FirstUsed s.log := by
  refine invariant_of_move h₀.cached h ?_ fun _ _ _ _ hused _ hm => hm.firstUsed hused
  rw [h₀.log]
  trivial

end Wrapper

end Matador
