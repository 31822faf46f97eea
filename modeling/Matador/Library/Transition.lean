import Mathlib.Logic.Relation
import Mathlib.Tactic.Common

/-!
# Runs of a partial machine

A machine is a function `step : ι → σ → Option σ`: the label `o : ι` is what the
environment answers and `none` says that the machine has halted. `Reachable
step ok s₀ s` says that some run from `s₀` ends in `s`, every label of which
meets the guard `ok` in the state it is taken from; the unguarded runs are the
case `ok = fun _ _ => True`. The second form of a run fixes the environment: the
label of a step is read off the current state by an oracle, and `run` iterates
the machine under it.

An invariant is proved once for one step and then holds of every reachable
state. Termination is proved with a measure that every step lowers.
-/

namespace Transition

variable {ι σ : Type*}

/-- Some label that meets the guard leads from `s` to `s'`. -/
def GuardedStep (step : ι → σ → Option σ) (ok : ι → σ → Prop) (s s' : σ) : Prop :=
  ∃ o, ok o s ∧ step o s = some s'

/-- Some run, all of whose labels meet the guard, leads from `s` to `s'`. -/
def Reachable (step : ι → σ → Option σ) (ok : ι → σ → Prop) : σ → σ → Prop :=
  Relation.ReflTransGen (GuardedStep step ok)

@[refl] theorem Reachable.refl {step : ι → σ → Option σ} {ok : ι → σ → Prop} (s : σ) :
    Reachable step ok s s := Relation.ReflTransGen.refl

theorem Reachable.tail {step : ι → σ → Option σ} {ok : ι → σ → Prop} {s₀ s s' : σ}
    (h : Reachable step ok s₀ s) {o : ι} (ho : ok o s) (hs : step o s = some s') :
    Reachable step ok s₀ s' :=
  Relation.ReflTransGen.tail h ⟨o, ho, hs⟩

theorem Reachable.head {step : ι → σ → Option σ} {ok : ι → σ → Prop} {s₀ s₁ s : σ}
    {o : ι} (ho : ok o s₀) (hs : step o s₀ = some s₁) (h : Reachable step ok s₁ s) :
    Reachable step ok s₀ s :=
  Relation.ReflTransGen.head ⟨o, ho, hs⟩ h

/-- The invariant rule: what holds at the start and is kept by every guarded
step holds of every reachable state. The step may use that its source is itself
reachable, so that earlier invariants are at hand. -/
theorem Reachable.invariant {step : ι → σ → Option σ} {ok : ι → σ → Prop} {s₀ s : σ}
    {P : σ → Prop} (h : Reachable step ok s₀ s) (h₀ : P s₀)
    (hstep : ∀ s o s', Reachable step ok s₀ s → P s → ok o s → step o s = some s' → P s') :
    P s := by
  induction h with
  | refl => exact h₀
  | tail hreach hlast ih =>
      obtain ⟨o, ho, hs⟩ := hlast
      exact hstep _ o _ hreach ih ho hs

/-- The invariant rule for a machine whose guarded steps do not halt while the invariant holds. -/
theorem Reachable.invariant_of_total {step : ι → σ → Option σ} {ok : ι → σ → Prop} {s₀ s : σ}
    {P : σ → Prop} (h : Reachable step ok s₀ s) (h₀ : P s₀)
    (hstep : ∀ s o, P s → ok o s → ∃ s', step o s = some s' ∧ P s') : P s := by
  refine h.invariant h₀ fun s o s' _ hs ho heq => ?_
  obtain ⟨s'', heq', hs''⟩ := hstep s o hs ho
  obtain rfl : s'' = s' := Option.some.inj (heq'.symm.trans heq)
  exact hs''

theorem Reachable.mono {step : ι → σ → Option σ} {ok ok' : ι → σ → Prop} {s₀ s : σ}
    (hok : ∀ o s, Reachable step ok s₀ s → ok o s → ok' o s)
    (h : Reachable step ok s₀ s) : Reachable step ok' s₀ s := by
  induction h with
  | refl => exact Reachable.refl _
  | tail hreach hlast ih =>
      obtain ⟨o, ho, hs⟩ := hlast
      exact ih.tail (hok o _ hreach ho) hs

/-- Some run of `n` steps, all of whose labels meet the guard, leads from `s` to `s'`. -/
def ReachableIn (step : ι → σ → Option σ) (ok : ι → σ → Prop) : ℕ → σ → σ → Prop
  | 0, s, s' => s = s'
  | n + 1, s, s' => ∃ s₁, GuardedStep step ok s s₁ ∧ ReachableIn step ok n s₁ s'

theorem ReachableIn.reachable {step : ι → σ → Option σ} {ok : ι → σ → Prop} {n : ℕ} {s s' : σ}
    (h : ReachableIn step ok n s s') : Reachable step ok s s' := by
  induction n generalizing s with
  | zero =>
      obtain rfl := h
      exact Reachable.refl s
  | succ n ih =>
      obtain ⟨s₁, hfirst, hrest⟩ := h
      exact Relation.ReflTransGen.head hfirst (ih hrest)

/-- A run is no longer than a measure that each of its steps lowers. -/
theorem ReachableIn.add_measure_le {step : ι → σ → Option σ} {ok : ι → σ → Prop} {P : σ → Prop}
    {μ : σ → ℕ} (hstep : ∀ s o s', P s → ok o s → step o s = some s' → P s' ∧ μ s' < μ s)
    {n : ℕ} {s s' : σ} (hs : P s) (h : ReachableIn step ok n s s') : n + μ s' ≤ μ s := by
  induction n generalizing s with
  | zero =>
      obtain rfl := h
      omega
  | succ n ih =>
      obtain ⟨s₁, ⟨o, ho, hfirst⟩, hrest⟩ := h
      obtain ⟨hs₁, hlt⟩ := hstep s o s₁ hs ho hfirst
      have hle := ih hs₁ hrest
      omega

/-- The run under a list of labels, as far as they meet the guard. -/
def follow (step : ι → σ → Option σ) (ok : ι → σ → Prop) [∀ o s, Decidable (ok o s)] :
    List ι → σ → Option σ
  | [], s => some s
  | o :: labels, s => if ok o s then (step o s).bind (follow step ok labels) else none

theorem follow_reachableIn {step : ι → σ → Option σ} {ok : ι → σ → Prop}
    [∀ o s, Decidable (ok o s)] (labels : List ι) {s s' : σ}
    (h : follow step ok labels s = some s') : ReachableIn step ok labels.length s s' := by
  induction labels generalizing s with
  | nil => exact Option.some.inj h
  | cons o labels ih =>
      rw [follow] at h
      split_ifs at h with ho
      obtain ⟨s₁, hfirst, hrest⟩ := Option.bind_eq_some_iff.1 h
      exact ⟨s₁, ⟨o, ho, hfirst⟩, ih hrest⟩

/-- At most `k` steps of the machine, each under the label the oracle reads off
the current state; a halted machine stays where it is. -/
def run (step : ι → σ → Option σ) (oracle : σ → ι) : ℕ → σ → σ
  | 0, s => s
  | k + 1, s =>
      match step (oracle s) s with
      | none => s
      | some s' => run step oracle k s'

@[simp] theorem run_zero (step : ι → σ → Option σ) (oracle : σ → ι) (s : σ) :
    run step oracle 0 s = s := rfl

theorem run_succ_of_none {step : ι → σ → Option σ} {oracle : σ → ι} {s : σ}
    (h : step (oracle s) s = none) (k : ℕ) : run step oracle (k + 1) s = s := by
  simp [run, h]

theorem run_succ_of_some {step : ι → σ → Option σ} {oracle : σ → ι} {s s' : σ}
    (h : step (oracle s) s = some s') (k : ℕ) :
    run step oracle (k + 1) s = run step oracle k s' := by
  simp [run, h]

/-- A run under an oracle that only answers with guarded labels is one of the
guarded runs of the machine. -/
theorem run_reachable {step : ι → σ → Option σ} {ok : ι → σ → Prop} {oracle : σ → ι}
    (hok : ∀ s, ok (oracle s) s) (k : ℕ) (s : σ) :
    Reachable step ok s (run step oracle k s) := by
  induction k generalizing s with
  | zero => exact Reachable.refl s
  | succ k ih =>
      cases h : step (oracle s) s with
      | none =>
          rw [run_succ_of_none h]
      | some s' =>
          rw [run_succ_of_some h]
          exact Reachable.head (hok s) h (ih s')

/-- A machine whose every step from an invariant state lowers the measure `μ`
has halted after `μ s` steps from such a state, whatever the oracle answers. -/
theorem run_halts {step : ι → σ → Option σ} {P : σ → Prop} {μ : σ → ℕ}
    (hinv : ∀ o s s', P s → step o s = some s' → P s')
    (hμ : ∀ o s s', P s → step o s = some s' → μ s' < μ s)
    (oracle : σ → ι) {k : ℕ} {s : σ} (hs : P s) (hk : μ s ≤ k) :
    step (oracle (run step oracle k s)) (run step oracle k s) = none := by
  induction k generalizing s with
  | zero =>
      cases h : step (oracle s) s with
      | none => simpa using h
      | some s' =>
          have hlt := hμ _ s s' hs h
          omega
  | succ k ih =>
      cases h : step (oracle s) s with
      | none => rw [run_succ_of_none h, h]
      | some s' =>
          have hlt := hμ _ s s' hs h
          rw [run_succ_of_some h]
          exact ih (hinv _ s s' hs h) (by omega)

end Transition
