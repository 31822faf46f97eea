import Matador.Library.Log
import Matador.Wrapper.Hosts

/-!
# The counter and the lines of the calls

The counter is advanced after a completed call only, so it numbers the attempts
that were not blamed on a host: of two calls with the same number the earlier one
has removed a host. The second invariant of this module says which values a call
passes on, namely those of the line of the input that it uses; if the hostnames of
the input are pairwise distinct, the hostname of a call therefore names its line.
-/

namespace Matador

namespace Wrapper

variable {n : ℕ}

/-! ## The counter -/

/-- The number of a call is never reused after the call has completed. -/
structure Counted (s : State n) : Prop where
  le : ∀ a ∈ s.log, a.counter ≤ s.counter
  lt : s.control ≠ .exited → ∀ a ∈ s.log, a.dropped = none → a.counter < s.counter
  pairwise : s.log.Pairwise fun b a =>
    a.counter ≤ b.counter ∧ (a.dropped = none → a.counter < b.counter)

theorem Counted.congr {s s' : State n} (h : Counted s) (hc : s.control ≠ .exited)
    (hlog : s'.log = s.log) (hcounter : s'.counter = s.counter) : Counted s' where
  le := by
    rw [hlog, hcounter]
    exact h.le
  lt _ := by
    rw [hlog, hcounter]
    exact h.lt hc
  pairwise := by
    rw [hlog]
    exact h.pairwise

/-- A new call takes the current number. -/
theorem Counted.pairwise_cons {s : State n} (h : Counted s) {row : Node} {j : ℕ}
    (hc : s.control = .inner row j) {d : Call} (hd : d.counter = s.counter) :
    (d :: s.log).Pairwise fun b a =>
      a.counter ≤ b.counter ∧ (a.dropped = none → a.counter < b.counter) := by
  refine List.Pairwise.cons (fun a ha => ?_) h.pairwise
  rw [hd]
  exact ⟨h.le a ha, h.lt (by simp [hc]) a ha⟩

theorem Move.counted {o : Outcome} {s s' : State n} (hm : Move o s s') (h : Counted s) :
    Counted s' := by
  cases hm with
  | finish hc | enterRow row hc | skipRow hc | endRow row j hc | skipColumn row j hc
  | skipCell row node2 j v hc => exact h.congr (by simp [hc]) rfl rfl
  | indexError x country hc => exact h.congr hc.2.1 rfl rfl
  | complete row node2 j v w hc hnode hv hopen ho =>
      refine ⟨?_, fun _ => ?_, h.pairwise_cons hc rfl⟩
      · exact List.forall_mem_cons.mpr
          ⟨Nat.le_succ _, fun a ha => (h.le a ha).trans (Nat.le_succ _)⟩
      · exact List.forall_mem_cons.mpr
          ⟨fun _ => Nat.lt_succ_self _, fun a ha _ => Nat.lt_succ_of_le (h.le a ha)⟩
  | dropHost row node2 j v c next hc hnode hv hopen ho =>
      have hdrop : (s.call o row node2 j).dropped = some (s.first c) :=
        State.dropped_call_of_drop ho
      refine ⟨List.forall_mem_cons.mpr ⟨le_rfl, h.le⟩, fun _ => ?_, h.pairwise_cons hc rfl⟩
      refine List.forall_mem_cons.mpr ⟨fun hnone => ?_, h.lt (by simp [hc])⟩
      rw [hdrop] at hnone
      cases hnone
  | fatal row node2 j v hc hnode hv hopen ho =>
      exact ⟨List.forall_mem_cons.mpr ⟨le_rfl, h.le⟩, fun hexit => absurd rfl hexit,
        h.pairwise_cons hc rfl⟩

theorem counted_of_reachable {ok : Outcome → State n → Prop} {s₀ s : State n} (h₀ : Initial s₀)
    (h : Transition.Reachable step ok s₀ s) : Counted s := by
  refine invariant_of_move h₀.cached h ?_ fun _ _ _ _ hcounted _ hm => hm.counted hcounted
  constructor <;> simp [h₀.log]

/-! ## The lines of the input -/

/-- Every call passes on the values of the lines it uses. -/
def NodesFrom (input : Vector Country n) (log : List Call) : Prop :=
  ∀ c ∈ log, nodeOf input c.host1.entry = some c.host1.node ∧
    nodeOf input c.host2.entry = some c.host2.node

theorem nodesFrom_of_reachable {ok : Outcome → State n → Prop} {s₀ s : State n}
    (h₀ : Initial s₀) (h : Transition.Reachable step ok s₀ s) :
    NodesFrom s₀.countryList s.log := by
  refine invariant_of_move (P := fun s => NodesFrom s₀.countryList s.log) h₀.cached h ?_ ?_
  · rw [h₀.log]
    simp [NodesFrom]
  · intro s o s' hreach hnodes _ hm
    rcases hm.log_eq with hlog | ⟨row, node2, j, v, hc, hnode, -, -, hlog⟩
    · rw [hlog]
      exact hnodes
    · rw [hlog]
      have hlists := listsFrom_of_reachable h₀ hreach
      have hrow := (cached_of_reachable h₀.cached hreach row j hc).2
      refine List.forall_mem_cons.mpr ⟨⟨?_, ?_⟩, hnodes⟩
      · exact (hlists.node?_eq s.i).symm.trans hrow
      · exact (hlists.node?_eq j).symm.trans hnode

def hostnames (countryList : List Country) : List String :=
  countryList.flatMap fun country => country.hosts.filterMap fun host => host[0]?

theorem Country.nodeAt?_eq_some {country : Country} {k : ℕ} {node : Node}
    (h : country.nodeAt? k = some node) :
    country.code? = some node.country ∧
      ∃ host, country.hosts[k]? = some host ∧ host[0]? = some node.hostname := by
  simp only [Country.nodeAt?, Option.bind_eq_bind, Option.bind_eq_some_iff] at h
  obtain ⟨code, hcode, host, hhost, hostname, hname, _, _, _, _, hnode⟩ := h
  obtain rfl := Option.some.inj hnode
  exact ⟨hcode, host, hhost, hname⟩

theorem position_eq_of_hostname {hosts : List (List String)} {k l : ℕ} {host other : List String}
    {hostname : String} (hnodup : (hosts.filterMap fun host => host[0]?).Nodup)
    (hk : hosts[k]? = some host) (hl : hosts[l]? = some other) (hhost : host[0]? = some hostname)
    (hother : other[0]? = some hostname) : k = l := by
  rw [List.Nodup, List.pairwise_filterMap] at hnodup
  exact Log.index_eq_of_pairwise hnodup hk hl
    (fun hne => hne hostname hhost hostname hother rfl)
    (fun hne => hne hostname hother hostname hhost rfl)

/-- With pairwise distinct hostnames a hostname names its line. -/
theorem entry_eq_of_hostname {input : Vector Country n} (hnodup : (hostnames input.toList).Nodup)
    {d e : HostEntry} {node other : Node} (hd : nodeOf input d = some node)
    (he : nodeOf input e = some other) (hname : node.hostname = other.hostname) : d = e := by
  obtain ⟨country, hcountry, hnode⟩ := Option.bind_eq_some_iff.mp hd
  obtain ⟨country', hcountry', hother⟩ := Option.bind_eq_some_iff.mp he
  obtain ⟨-, host, hhost, hhostname⟩ := Country.nodeAt?_eq_some hnode
  obtain ⟨-, host', hhost', hhostname'⟩ := Country.nodeAt?_eq_some hother
  rw [← hname] at hhostname'
  rw [hostnames, List.nodup_flatMap] at hnodup
  obtain ⟨hlines, hdisjoint⟩ := hnodup
  have hmem : node.hostname ∈ country.hosts.filterMap fun host => host[0]? :=
    List.mem_filterMap.mpr ⟨host, List.mem_of_getElem? hhost, hhostname⟩
  have hmem' : node.hostname ∈ country'.hosts.filterMap fun host => host[0]? :=
    List.mem_filterMap.mpr ⟨host', List.mem_of_getElem? hhost', hhostname'⟩
  rw [← Vector.getElem?_toList] at hcountry hcountry'
  have hindex : d.country = e.country :=
    Log.index_eq_of_pairwise hdisjoint hcountry hcountry'
      (fun h => h hmem hmem') (fun h => h hmem' hmem)
  rw [← hindex, hcountry] at hcountry'
  obtain rfl := Option.some.inj hcountry'
  have hposition := position_eq_of_hostname (hlines country (List.mem_of_getElem? hcountry))
    hhost hhost' hhostname hhostname'
  cases d
  cases e
  exact congrArg₂ HostEntry.mk hindex hposition

end Wrapper

end Matador
