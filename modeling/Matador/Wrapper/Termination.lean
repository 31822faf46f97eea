import Mathlib.Algebra.BigOperators.Intervals
import Mathlib.Algebra.Order.BigOperators.Group.Finset
import Mathlib.Data.Finset.Sigma
import Matador.Wrapper.Settled

/-!
# Termination and the number of experiments

The loops end although `i` jumps back and measured pairs are opened again: a host
failure uses up a host of the input, and between two host failures the row and the
column only move forward. `measure` is the lexicographic order of the hosts left,
the row and the column, written as one number.

The number of experiments is bounded with a potential. A completed experiment closes
an open pair, and a host failure opens at most the `n` pairs of its country, so the
number of calls plus the number of open pairs never exceeds `n(n+1)/2` plus `n+1`
for each host failure.
-/

namespace Matador

namespace Wrapper

open Finset

variable {n : ℕ}

/-! ## Hosts -/

def State.totalHosts (s : State n) : ℕ := ∑ x ∈ range n, s.hostsLeft x

def hostFailures (log : List Call) : ℕ := log.countP fun c => c.dropped.isSome

theorem State.totalHosts_popped {s t : State n} {c : ℕ}
    (hlist : t.countryList = popped s.countryList c) (hc : c < n) (hpos : 0 < s.hostsLeft c) :
    t.totalHosts + 1 = s.totalHosts := by
  have hone : ∑ x ∈ range n, (if x = c then 1 else 0) = 1 := by
    rw [sum_ite_eq' (range n) c]
    simp [hc]
  have hsplit : ∀ x ∈ range n, s.hostsLeft x = t.hostsLeft x + if x = c then 1 else 0 := by
    intro x _
    rw [State.hostsLeft_popped hlist]
    split_ifs with hx
    · subst hx
      omega
    · rfl
  rw [State.totalHosts, State.totalHosts, sum_congr rfl hsplit, sum_add_distrib, hone]

theorem hostFailures_cons_of_none {d : Call} (hd : d.dropped = none) (log : List Call) :
    hostFailures (d :: log) = hostFailures log := by
  simp [hostFailures, hd]

theorem hostFailures_cons_of_some {d : Call} {e : HostEntry} (hd : d.dropped = some e)
    (log : List Call) : hostFailures (d :: log) = hostFailures log + 1 := by
  simp [hostFailures, hd]

/-- The popped country of a host failure exists and has a host. -/
theorem State.hostsLeft_pos_of_drop {o : Outcome} {s : State n} {row node2 : Node} {j c next : ℕ}
    (hcached : s.Cached) (hc : s.control = .inner row j) (hnode : s.node? j = some node2)
    (ho : o = .host1Exception ∧ c = s.i ∧ next = s.i ∨
      o = .host2Exception ∧ c = j ∧ next = if j < s.i then j else s.i + 1) :
    c < n ∧ 0 < s.hostsLeft c := by
  have hrow := (hcached row j hc).2
  rcases ho with ⟨-, rfl, -⟩ | ⟨-, rfl, -⟩
  · exact ⟨State.lt_of_node? hrow, State.hostsLeft_pos_of_node? hrow⟩
  · exact ⟨State.lt_of_node? hnode, State.hostsLeft_pos_of_node? hnode⟩

/-- Every host failure removes a host of the input. -/
theorem Move.hosts_add_failures {o : Outcome} {s s' : State n} (hm : Move o s s')
    (hcached : s.Cached) :
    s'.totalHosts + hostFailures s'.log = s.totalHosts + hostFailures s.log := by
  cases hm with
  | finish | enterRow | skipRow | endRow | skipColumn | skipCell | indexError => rfl
  | complete row node2 j v w hc hnode hv hopen ho =>
      have hdrop : (s.call o row node2 j).dropped = none := State.dropped_call_of_complete ho
      rw [hostFailures_cons_of_none hdrop]
      rfl
  | fatal row node2 j v hc hnode hv hopen ho =>
      subst ho
      rw [hostFailures_cons_of_none rfl]
      rfl
  | dropHost row node2 j v c next hc hnode hv hopen ho =>
      obtain ⟨hcn, hpos⟩ := State.hostsLeft_pos_of_drop hcached hc hnode ho
      have hdrop : (s.call o row node2 j).dropped = some (s.first c) :=
        State.dropped_call_of_drop ho
      have htotal := State.totalHosts_popped (s := s)
        (t := { s with
          countryList := popped s.countryList c
          matrix := s.matrix.mapIdx (relabelled c 3 2), i := next, control := .outer,
          log := s.call o row node2 j :: s.log }) rfl hcn hpos
      rw [hostFailures_cons_of_some hdrop]
      omega

/-! ## The measure -/

def Control.ahead (n i : ℕ) : Control → ℕ
  | .outer => (n - i) * (n + 2) + 1
  | .inner _ j => (n - (i + 1)) * (n + 2) + (n - j) + 2
  | .finished | .exited | .indexError => 0

/-- The hosts left, then the rows and the columns to come. -/
def State.measure (s : State n) : ℕ :=
  s.totalHosts * (n * (n + 2) + 2) + s.control.ahead n s.i

theorem rows_succ {i : ℕ} (hi : i < n) :
    (n - i) * (n + 2) = (n - (i + 1)) * (n + 2) + (n + 2) := by
  rw [← Nat.succ_mul]
  congr 1
  omega

theorem Control.ahead_pos {control : Control}
    (h : control ≠ .finished ∧ control ≠ .exited ∧ control ≠ .indexError) (i : ℕ) :
    0 < control.ahead n i := by
  obtain ⟨h1, h2, h3⟩ := h
  cases control with
  | outer | inner => exact Nat.succ_pos _
  | finished => exact absurd rfl h1
  | exited => exact absurd rfl h2
  | indexError => exact absurd rfl h3

/-- Every transition lowers the measure. -/
theorem Move.measure_lt {o : Outcome} {s s' : State n} (hm : Move o s s') (hcached : s.Cached) :
    s'.measure < s.measure := by
  unfold State.measure
  cases hm with
  | finish hc hi =>
      exact Nat.add_lt_add_left (Control.ahead_pos (by simp [hc]) s.i) _
  | enterRow row hc hi hrow =>
      refine Nat.add_lt_add_left ?_ _
      have hrows := rows_succ hi
      simp only [hc, Control.ahead]
      omega
  | skipRow hc hi hempty =>
      refine Nat.add_lt_add_left ?_ _
      have hrows := rows_succ hi
      simp only [hc, Control.ahead]
      omega
  | endRow row j hc hj =>
      refine Nat.add_lt_add_left ?_ _
      simp only [hc, Control.ahead]
      omega
  | skipColumn row j hc hj hempty =>
      refine Nat.add_lt_add_left ?_ _
      simp only [hc, Control.ahead]
      omega
  | skipCell row node2 j v hc hnode | complete row node2 j v w hc hnode =>
      refine Nat.add_lt_add_left ?_ _
      have hj := State.lt_of_node? hnode
      simp only [hc, Control.ahead]
      omega
  | fatal row node2 j v hc hnode =>
      exact Nat.add_lt_add_left (Control.ahead_pos (by simp [hc]) s.i) _
  | indexError x country hc =>
      exact Nat.add_lt_add_left (Control.ahead_pos hc s.i) _
  | dropHost row node2 j v c next hc hnode hv hopen ho =>
      obtain ⟨hcn, hpos⟩ := State.hostsLeft_pos_of_drop hcached hc hnode ho
      have htotal := State.totalHosts_popped (s := s)
        (t := { s with
          countryList := popped s.countryList c
          matrix := s.matrix.mapIdx (relabelled c 3 2), i := next, control := .outer,
          log := s.call o row node2 j :: s.log }) rfl hcn hpos
      have hrows : (n - next) * (n + 2) ≤ n * (n + 2) :=
        Nat.mul_le_mul_right _ (Nat.sub_le n next)
      rw [← htotal, Nat.succ_mul]
      simp only [Control.ahead]
      omega

def State.Ended (s : State n) : Prop :=
  s.control = .finished ∨ s.control = .exited ∨ s.control = .indexError

theorem State.ended_of_step {o : Outcome} {s : State n} (h : step o s = none) : s.Ended := by
  unfold step at h
  unfold State.Ended
  cases hc : s.control with
  | outer => rw [hc] at h; cases h
  | inner row j => rw [hc] at h; cases h
  | finished => exact Or.inl rfl
  | exited => exact Or.inr (Or.inl rfl)
  | indexError => exact Or.inr (Or.inr rfl)

theorem execute_ended {s₀ : State n} (h₀ : s₀.Cached) (outcomes : ℕ → Outcome) :
    (execute outcomes s₀.measure s₀).Ended := by
  refine State.ended_of_step
    (Transition.run_halts (P := State.Cached) ?_ ?_ (nextOutcome outcomes) h₀ le_rfl)
  · intro o s s' hcached hstep
    exact (move_of_step hcached hstep).cached hcached
  · intro o s s' hcached hstep
    exact (move_of_step hcached hstep).measure_lt hcached

/-! ## Open pairs -/

/-- An experiment is made in the cell when the loops come to it. -/
def State.isOpen (s : State n) (x y : ℕ) : Bool :=
  (s.matrix.get? x y).any fun v => 0 < v && v ≤ 2

def countryPairs (n : ℕ) : Finset (Σ _ : ℕ, ℕ) := (range n).sigma fun x => range (x + 1)

def State.openPairs (s : State n) : Finset (Σ _ : ℕ, ℕ) :=
  (countryPairs n).filter fun p => s.isOpen p.1 p.2

theorem card_countryPairs (n : ℕ) : (countryPairs n).card = n * (n + 1) / 2 := by
  have hsum : (countryPairs n).card = ∑ x ∈ range (n + 1), x := by
    rw [countryPairs, card_sigma, sum_range_succ']
    simp
  rw [hsum, sum_range_id, Nat.add_sub_cancel, Nat.mul_comm]

theorem mem_countryPairs {x y : ℕ} (hx : x < n) (hy : y < n) :
    (⟨max x y, min x y⟩ : Σ _ : ℕ, ℕ) ∈ countryPairs n := by
  simp only [countryPairs, mem_sigma, mem_range]
  omega

theorem State.isOpen_iff {s : State n} {x y : ℕ} :
    s.isOpen x y = true ↔ ∃ v, s.matrix.get? x y = some v ∧ 0 < v ∧ v ≤ 2 := by
  simp [State.isOpen, Option.any_eq_true]

theorem State.mem_openPairs {s : State n} {p : Σ _ : ℕ, ℕ} :
    p ∈ s.openPairs ↔
      p ∈ countryPairs n ∧ ∃ v, s.matrix.get? p.1 p.2 = some v ∧ 0 < v ∧ v ≤ 2 := by
  rw [State.openPairs, mem_filter, State.isOpen_iff]

/-- A pair that is open after a pass over the matrix had a value that the pass left or made
open. -/
theorem State.mem_openPairs_mapIdx {s t : State n} {f : ℕ → ℕ → ℕ → ℕ}
    (hmatrix : t.matrix = s.matrix.mapIdx f) {p : Σ _ : ℕ, ℕ} (hp : p ∈ t.openPairs) :
    p ∈ countryPairs n ∧
      ∃ r, s.matrix.get? p.1 p.2 = some r ∧ 0 < f p.1 p.2 r ∧ f p.1 p.2 r ≤ 2 := by
  obtain ⟨hpair, u, hu, hopen⟩ := State.mem_openPairs.mp hp
  rw [hmatrix, Table.get?_mapIdx] at hu
  obtain ⟨r, hr, rfl⟩ := Option.map_eq_some_iff.mp hu
  exact ⟨hpair, r, hr, hopen⟩

theorem State.card_openPairs_complete {s t : State n} {j v w : ℕ} (hinv : MatrixInv s)
    (hv : s.matrix.get? s.i j = some v) (hopen : 0 < v ∧ v ≤ 2) (hw : w = 3 ∨ w = 4)
    (hmatrix : t.matrix = s.matrix.mapIdx (pairSet s.i j w)) :
    t.openPairs.card + 1 ≤ s.openPairs.card := by
  obtain ⟨hi, hj⟩ := Table.lt_of_get?_eq_some hv
  have hmem : (⟨max s.i j, min s.i j⟩ : Σ _ : ℕ, ℕ) ∈ s.openPairs := by
    refine State.mem_openPairs.mpr ⟨mem_countryPairs hi hj, v, ?_, hopen⟩
    rcases le_total s.i j with hle | hle
    · rw [max_eq_right hle, min_eq_left hle, hinv.symm]
      exact hv
    · rw [max_eq_left hle, min_eq_right hle]
      exact hv
  have hsub : t.openPairs ⊆ s.openPairs.erase ⟨max s.i j, min s.i j⟩ := by
    rintro ⟨x, y⟩ hxy
    obtain ⟨hpair, r, hr, hu2⟩ := State.mem_openPairs_mapIdx hmatrix hxy
    simp only [pairSet] at hu2
    split_ifs at hu2 with heq
    · omega
    · refine mem_erase.mpr ⟨?_, State.mem_openPairs.mpr ⟨hpair, r, hr, hu2⟩⟩
      intro h
      have hx : x = max s.i j := congrArg Sigma.fst h
      have hy : y = min s.i j := congrArg (fun p : Σ _ : ℕ, ℕ => p.2) h
      apply heq
      rw [hx, hy]
      rcases le_total s.i j with hle | hle
      · rw [max_eq_right hle, min_eq_left hle, Sym2.eq_swap]
      · rw [max_eq_left hle, min_eq_right hle]
  have hcard := card_le_card hsub
  rw [card_erase_of_mem hmem] at hcard
  have hpos := card_pos.mpr ⟨_, hmem⟩
  omega

theorem State.card_openPairs_drop {s t : State n} {c : ℕ}
    (hmatrix : t.matrix = s.matrix.mapIdx (relabelled c 3 2)) :
    t.openPairs.card ≤ s.openPairs.card + n := by
  let ofCountry : Finset (Σ _ : ℕ, ℕ) := (range n).image fun k => ⟨max k c, min k c⟩
  have hsub : t.openPairs ⊆ s.openPairs ∪ ofCountry := by
    rintro ⟨x, y⟩ hxy
    obtain ⟨hpair, r, hr, hu2⟩ := State.mem_openPairs_mapIdx hmatrix hxy
    simp only [countryPairs, mem_sigma, mem_range] at hpair
    by_cases hc : x = c ∨ y = c
    · refine mem_union_right _ (mem_image.mpr ?_)
      rcases hc with rfl | rfl
      · refine ⟨y, mem_range.mpr (by omega), ?_⟩
        rw [max_eq_right (by omega), min_eq_left (by omega)]
      · refine ⟨x, mem_range.mpr hpair.1, ?_⟩
        rw [max_eq_left (by omega), min_eq_right (by omega)]
    · refine mem_union_left _ (State.mem_openPairs.mpr ⟨?_, r, hr, ?_⟩)
      · simpa only [countryPairs, mem_sigma, mem_range] using hpair
      · simpa only [relabelled, hc, false_and, if_false] using hu2
  calc t.openPairs.card ≤ (s.openPairs ∪ ofCountry).card := card_le_card hsub
    _ ≤ s.openPairs.card + ofCountry.card := card_union_le _ _
    _ ≤ s.openPairs.card + n := by
        have himage : ofCountry.card ≤ (range n).card := card_image_le
        rw [card_range] at himage
        omega

theorem State.card_openPairs_exhaust {s s' : State n} {c : ℕ}
    (hmatrix : s'.matrix = s.matrix.mapIdx (relabelled c 1 0)) :
    s'.openPairs.card ≤ s.openPairs.card := by
  refine card_le_card fun p hp => ?_
  obtain ⟨hpair, r, hr, hu2⟩ := State.mem_openPairs_mapIdx hmatrix hp
  refine State.mem_openPairs.mpr ⟨hpair, r, hr, ?_⟩
  simp only [relabelled] at hu2
  split_ifs at hu2 <;> omega

/-! ## The number of calls -/

/-- The potential: every call is paid for by a pair of the input or by a host
failure. After `sys.exit(3)` only the calls themselves are counted. -/
def State.Paid (s : State n) : Prop :=
  s.log.length + (if s.control = .exited then 0 else s.openPairs.card) ≤
    n * (n + 1) / 2 + (n + 1) * hostFailures s.log

theorem State.Paid.of_le {s s' : State n} (h : s.Paid) (hc : s.control ≠ .exited)
    (hlog : s'.log = s.log) (hcard : s'.openPairs.card ≤ s.openPairs.card) : s'.Paid := by
  unfold State.Paid at h ⊢
  rw [if_neg hc] at h
  rw [hlog]
  split_ifs <;> omega

theorem Move.paid {o : Outcome} {s s' : State n} (hm : Move o s s') (hinv : MatrixInv s)
    (h : s.Paid) : s'.Paid := by
  cases hm with
  | finish hc | enterRow row hc | endRow row j hc | skipCell row node2 j v hc =>
      exact h.of_le (by simp [hc]) rfl le_rfl
  | indexError x country hc => exact h.of_le hc.2.1 rfl le_rfl
  | skipRow hc =>
      exact h.of_le (by simp [hc]) rfl (State.card_openPairs_exhaust (s := s) rfl)
  | skipColumn row j hc =>
      exact h.of_le (by simp [hc]) rfl (State.card_openPairs_exhaust (s := s) rfl)
  | complete row node2 j v w hc hnode hv hopen ho =>
      have hw : w = 3 ∨ w = 4 := by omega
      have hdrop : (s.call o row node2 j).dropped = none := State.dropped_call_of_complete ho
      have hcard := State.card_openPairs_complete (t := { s with
        matrix := s.matrix.mapIdx (pairSet s.i j w), counter := s.counter + 1,
        control := .inner row (j + 1), log := s.call o row node2 j :: s.log })
        hinv hv hopen hw rfl
      unfold State.Paid at h ⊢
      rw [if_neg (by simp [hc])] at h
      rw [if_neg (by simp), hostFailures_cons_of_none hdrop, List.length_cons]
      omega
  | dropHost row node2 j v c next hc hnode hv hopen ho =>
      have hdrop : (s.call o row node2 j).dropped = some (s.first c) :=
        State.dropped_call_of_drop ho
      have hcard := State.card_openPairs_drop (s := s) (t := { s with
        countryList := popped s.countryList c
        matrix := s.matrix.mapIdx (relabelled c 3 2), i := next, control := .outer,
        log := s.call o row node2 j :: s.log }) rfl
      unfold State.Paid at h ⊢
      rw [if_neg (by simp [hc])] at h
      have hmul : (n + 1) * (hostFailures s.log + 1) =
          (n + 1) * hostFailures s.log + (n + 1) := Nat.mul_succ _ _
      rw [if_neg (by simp), hostFailures_cons_of_some hdrop, List.length_cons, hmul]
      omega
  | fatal row node2 j v hc hnode hv hopen ho =>
      -- The fatal call itself is paid for by its pair, which stays open.
      have hpos : 0 < s.openPairs.card := by
        have hcard := State.card_openPairs_complete (t := { s with
          matrix := s.matrix.mapIdx (pairSet s.i j 3) }) hinv hv hopen (Or.inl rfl) rfl
        omega
      unfold State.Paid at h ⊢
      rw [if_neg (by simp [hc])] at h
      subst ho
      rw [if_pos rfl, hostFailures_cons_of_none rfl, List.length_cons]
      omega

theorem Initial.paid {s : State n} (h : Initial s) : s.Paid := by
  have hcard : s.openPairs.card ≤ n * (n + 1) / 2 :=
    card_countryPairs n ▸ card_le_card (filter_subset _ _)
  unfold State.Paid
  rw [if_neg (by simp [h.control]), h.log]
  simpa [hostFailures] using hcard

/-- The scheduling loops of both wrappers end for every country list and every
sequence of outcomes, and a run with `n` countries and `P` host failures makes at
most `n(n+1)/2 + (n+1)P` calls, where `P` is at most the number of hosts of the
input. -/
theorem loops_end_and_calls_bounded {s₀ : State n} (h₀ : Start s₀) :
    (∀ outcomes, ∃ k, (execute outcomes k s₀).Ended) ∧
      ∀ s, Run s₀ s →
        s.log.length ≤ n * (n + 1) / 2 + (n + 1) * hostFailures s.log ∧
          hostFailures s.log ≤ s₀.totalHosts := by
  have hinit := h₀.initial
  refine ⟨fun outcomes => ⟨_, execute_ended hinit.cached outcomes⟩, fun s h => ⟨?_, ?_⟩⟩
  · have hpaid : s.Paid := invariant_of_move hinit.cached h hinit.paid
      fun _ _ _ hreach hpaid _ hm => hm.paid (matrixInv_of_reachable hinit hreach) hpaid
    unfold State.Paid at hpaid
    omega
  · have hhosts : s.totalHosts + hostFailures s.log = s₀.totalHosts := by
      refine invariant_of_move
        (P := fun s => s.totalHosts + hostFailures s.log = s₀.totalHosts) hinit.cached h ?_ ?_
      · simp [hinit.log, hostFailures]
      · intro s o s' hreach hsum _ hm
        rw [hm.hosts_add_failures (cached_of_reachable hinit.cached hreach), hsum]
    omega

/-- Two countries with a spare host each, the first three experiments of which fail. -/
theorem loops_end_and_calls_bounded_two :
    let s₀ := wrapperStart [.entry "BE" [["a", "1", "2"], ["b", "3", "4"]],
      .entry "CH" [["c", "5", "6"], ["d", "7", "8"]]]
    let s := execute (fun k => if k < 3 then .host1Exception else .returns) 13 s₀
    s.control = .finished ∧ s.log.length = 4 ∧ hostFailures s.log = 3 ∧
      s.log.length ≤ 2 * (2 + 1) / 2 + (2 + 1) * hostFailures s.log ∧
      hostFailures s.log ≤ s₀.totalHosts :=
  ⟨by decide, by decide, by decide,
    (loops_end_and_calls_bounded (Start.wrapper _)).2 _ (execute_run _ 13 _)⟩

/-! ## Regular ends -/

/-- A country as the documented input format gives it: a code and hosts with three
values each. -/
def Country.WellFormed : Country → Prop
  | .empty => False
  | .entry _ hosts => ∀ host ∈ hosts, 3 ≤ host.length

theorem Country.WellFormed.readable_drop {country : Country} (h : country.WellFormed) (k : ℕ) :
    (country.drop k).Readable := by
  cases country with
  | empty => exact absurd h id
  | entry code hosts =>
      refine ⟨rfl, ?_⟩
      simp only [Country.drop, Country.hosts, Country.node?, Country.nodeAt?, Country.code?]
      cases hdrop : hosts.drop k with
      | nil => simp
      | cons host rest =>
          have hmem : host ∈ hosts := List.mem_of_mem_drop (hdrop ▸ List.mem_cons_self)
          have hlen : 3 ≤ host.length := h host hmem
          rcases host with _ | ⟨hostname, _ | ⟨longitude, _ | ⟨latitude, more⟩⟩⟩ <;> simp at hlen ⊢

/-- On well formed countries no list access of the loops is refused. -/
theorem control_ne_indexError {ok : Outcome → State n → Prop} {s₀ s : State n} (h₀ : Initial s₀)
    (hwf : ∀ (x : ℕ) country, s₀.countryList[x]? = some country → country.WellFormed)
    (h : Transition.Reachable step ok s₀ s) : s.control ≠ .indexError := by
  refine invariant_of_move (P := fun s => s.control ≠ .indexError) h₀.cached h ?_ ?_
  · simp [h₀.control]
  · intro s o s' hreach hne _ hm
    cases hm with
    | indexError x country hc hx hbad =>
        rw [listsFrom_of_reachable h₀ hreach x] at hx
        obtain ⟨country₀, hcountry₀, rfl⟩ := Option.map_eq_some_iff.mp hx
        exact absurd ((hwf x country₀ hcountry₀).readable_drop _) hbad
    | skipRow => exact hne
    | finish | enterRow | endRow | skipColumn | skipCell | complete | dropHost | fatal => simp

theorem control_ne_exited {s₀ s : State n} (h₀ : Initial s₀)
    (h : Transition.Reachable step (fun o _ => o ≠ .fatalException) s₀ s) :
    s.control ≠ .exited := by
  refine invariant_of_move (P := fun s => s.control ≠ .exited) h₀.cached h ?_ ?_
  · simp [h₀.control]
  · intro s o s' hreach hne hok hm
    cases hm with
    | fatal row node2 j v hc hnode hv hopen ho => exact absurd ho hok
    | skipRow => exact hne
    | finish | enterRow | endRow | skipColumn | skipCell | complete | dropHost | indexError =>
        simp [State.fail]

/-- Without a `FatalException` the loops reach their regular end on every input in
the documented format. -/
theorem execute_finished {s₀ : State n} (h₀ : Start s₀)
    (hwf : ∀ (x : ℕ) country, s₀.countryList[x]? = some country → country.WellFormed)
    {outcomes : ℕ → Outcome} (hfatal : ∀ k, outcomes k ≠ .fatalException) :
    ∃ k, (execute outcomes k s₀).control = .finished := by
  have hend := execute_ended h₀.initial.cached outcomes
  refine ⟨s₀.measure, hend.resolve_right ?_⟩
  have hreach : Transition.Reachable step (fun o _ => o ≠ .fatalException) s₀
      (execute outcomes s₀.measure s₀) :=
    Transition.run_reachable (fun s => hfatal s.log.length) s₀.measure s₀
  rintro (hexit | herror)
  · exact control_ne_exited h₀.initial hreach hexit
  · exact control_ne_indexError h₀.initial hwf hreach herror

end Wrapper

end Matador
