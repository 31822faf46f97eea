import Mathlib.Data.List.Basic
import Mathlib.Tactic.Common
import Mathlib.Tactic.TypeStar

/-!
# Scripts that talk to an environment

A script of type `Script ρ α ε β` returns a value of type `β`, raises an exception
of type `ε`, or makes a request of type `ρ` and goes on with the answer of type
`α`. Nothing is assumed about the answers. `Yields p trace result` says that the
script can end with `result` after the requests and answers of `trace`, oldest
first; `Script.run` computes such an end from a function that gives the answers.

The rules of the last section follow the structure of a script. `Traces W p` says
that every trace of `p` satisfies `W`, and a `W` that holds of the empty trace and
of the concatenation of two traces passes from the parts of a script to the whole.
-/

/-- Scripts with requests `ρ`, answers `α`, exceptions `ε` and results `β`. -/
inductive Script (ρ α ε β : Type) where
  | ok (b : β)
  | raise (e : ε)
  | ask (r : ρ) (next : α → Script ρ α ε β)

namespace Script

variable {ρ α ε β γ : Type}

def bind : Script ρ α ε β → (β → Script ρ α ε γ) → Script ρ α ε γ
  | ok b, f => f b
  | raise e, _ => raise e
  | ask r next, f => ask r fun a => (next a).bind f

instance : Monad (Script ρ α ε) where
  pure := ok
  bind := bind

instance : LawfulMonad (Script ρ α ε) :=
  LawfulMonad.mk' _
    (fun p => by
      induction p with
      | ok b => rfl
      | raise e => rfl
      | ask r next ih => exact congrArg (ask r) (funext ih))
    (fun _ _ => rfl)
    (fun p f g => by
      induction p with
      | ok b => rfl
      | raise e => rfl
      | ask r next ih => exact congrArg (ask r) (funext ih))

/-- Run the handler if the script raises an exception. -/
def catching : Script ρ α ε β → (ε → Script ρ α ε β) → Script ρ α ε β
  | ok b, _ => ok b
  | raise e, handler => handler e
  | ask r next, handler => ask r fun a => (next a).catching handler

def request (r : ρ) : Script ρ α ε α := ask r ok

/-- Make the request and raise the exception of the answer, if it has one. -/
def call (failure : α → Option ε) (r : ρ) : Script ρ α ε α := do
  let answer ← request r
  match failure answer with
  | some e => raise e
  | none => pure answer

def ofExcept : Except ε β → Script ρ α ε β
  | .ok b => ok b
  | .error e => raise e

def mapRequest {ρ' : Type} (f : ρ → ρ') : Script ρ α ε β → Script ρ' α ε β
  | ok b => ok b
  | raise e => raise e
  | ask r next => ask (f r) fun a => (next a).mapRequest f

/-- The script can end with the result after the requests and answers of the
trace. -/
def Yields : Script ρ α ε β → List (ρ × α) → Except ε β → Prop
  | ok b, trace, result => trace = [] ∧ result = .ok b
  | raise e, trace, result => trace = [] ∧ result = .error e
  | ask _ _, [], _ => False
  | ask r next, (r', a) :: trace, result => r' = r ∧ (next a).Yields trace result

/-- The trace and the result of a script when `answers` answers its requests; the
number of requests made before is passed along. -/
def run (answers : ℕ → ρ → α) : ℕ → Script ρ α ε β → List (ρ × α) × Except ε β
  | _, ok b => ([], .ok b)
  | _, raise e => ([], .error e)
  | k, ask r next =>
      let rest := run answers (k + 1) (next (answers k r))
      ((r, answers k r) :: rest.1, rest.2)

theorem yields_run (answers : ℕ → ρ → α) (k : ℕ) (p : Script ρ α ε β) :
    p.Yields (run answers k p).1 (run answers k p).2 := by
  induction p generalizing k with
  | ok b => exact ⟨rfl, rfl⟩
  | raise e => exact ⟨rfl, rfl⟩
  | ask r next ih => exact ⟨rfl, ih (answers k r) (k + 1)⟩

/-! ## Traces of composed scripts -/

theorem yields_bind {p : Script ρ α ε β} {f : β → Script ρ α ε γ} {trace : List (ρ × α)}
    {result : Except ε γ} (h : (p >>= f).Yields trace result) :
    (∃ e, p.Yields trace (.error e) ∧ result = .error e) ∨
      ∃ b t₁ t₂, p.Yields t₁ (.ok b) ∧ (f b).Yields t₂ result ∧ trace = t₁ ++ t₂ := by
  induction p generalizing trace with
  | ok b => exact Or.inr ⟨b, [], trace, ⟨rfl, rfl⟩, h, rfl⟩
  | raise e => exact Or.inl ⟨e, ⟨h.1, rfl⟩, h.2⟩
  | ask r next ih =>
      cases trace with
      | nil => exact absurd h id
      | cons x trace =>
          rcases ih x.2 h.2 with ⟨e, hraise, hresult⟩ | ⟨b, t₁, t₂, hp, hf, rfl⟩
          · exact Or.inl ⟨e, ⟨h.1, hraise⟩, hresult⟩
          · exact Or.inr ⟨b, x :: t₁, t₂, ⟨h.1, hp⟩, hf, rfl⟩

theorem yields_catching {p : Script ρ α ε β} {handler : ε → Script ρ α ε β}
    {trace : List (ρ × α)} {result : Except ε β} (h : (p.catching handler).Yields trace result) :
    (∃ b, p.Yields trace (.ok b) ∧ result = .ok b) ∨
      ∃ e t₁ t₂, p.Yields t₁ (.error e) ∧ (handler e).Yields t₂ result ∧ trace = t₁ ++ t₂ := by
  induction p generalizing trace with
  | ok b => exact Or.inl ⟨b, ⟨h.1, rfl⟩, h.2⟩
  | raise e => exact Or.inr ⟨e, [], trace, ⟨rfl, rfl⟩, h, rfl⟩
  | ask r next ih =>
      cases trace with
      | nil => exact absurd h id
      | cons x trace =>
          rcases ih x.2 h.2 with ⟨b, hok, hresult⟩ | ⟨e, t₁, t₂, hp, hhandler, rfl⟩
          · exact Or.inl ⟨b, ⟨h.1, hok⟩, hresult⟩
          · exact Or.inr ⟨e, x :: t₁, t₂, ⟨h.1, hp⟩, hhandler, rfl⟩

theorem yields_mapRequest {ρ' : Type} {f : ρ → ρ'} {p : Script ρ α ε β} {trace : List (ρ' × α)}
    {result : Except ε β} (h : (p.mapRequest f).Yields trace result) :
    ∃ t, trace = t.map (Prod.map f id) ∧ p.Yields t result := by
  induction p generalizing trace with
  | ok b => exact ⟨[], h.1, rfl, h.2⟩
  | raise e => exact ⟨[], h.1, rfl, h.2⟩
  | ask r next ih =>
      cases trace with
      | nil => exact absurd h id
      | cons x trace =>
          obtain ⟨t, rfl, ht⟩ := ih x.2 h.2
          exact ⟨(r, x.2) :: t, by rw [List.map_cons, Prod.map_apply, ← h.1, id], rfl, ht⟩

/-! ## Properties of every trace -/

/-- Every trace of the script satisfies `W`. -/
def Traces (W : List (ρ × α) → Prop) (p : Script ρ α ε β) : Prop :=
  ∀ trace result, p.Yields trace result → W trace

/-- The property holds of the empty trace and of the concatenation of two traces
that have it. -/
structure Closed (W : List (ρ × α) → Prop) : Prop where
  nil : W []
  append : ∀ {t₁ t₂}, W t₁ → W t₂ → W (t₁ ++ t₂)

theorem closed_forall (φ : ρ × α → Prop) : Closed fun trace => ∀ x ∈ trace, φ x where
  nil := by simp
  append h₁ h₂ x hx := (List.mem_append.mp hx).elim (h₁ x) (h₂ x)

section Rules

variable {W : List (ρ × α) → Prop}

theorem Traces.mono {V : List (ρ × α) → Prop} {p : Script ρ α ε β} (h : p.Traces W)
    (hWV : ∀ trace, W trace → V trace) : p.Traces V :=
  fun trace result hyields => hWV trace (h trace result hyields)

theorem Closed.pure (hW : Closed W) (b : β) :
    (Pure.pure b : Script ρ α ε β).Traces W := by
  rintro trace result ⟨rfl, -⟩
  exact hW.nil

theorem Closed.raise (hW : Closed W) (e : ε) : (raise e : Script ρ α ε β).Traces W := by
  rintro trace result ⟨rfl, -⟩
  exact hW.nil

theorem Closed.bind (hW : Closed W) {p : Script ρ α ε β} {f : β → Script ρ α ε γ}
    (hp : p.Traces W) (hf : ∀ b, (f b).Traces W) : (p >>= f).Traces W := by
  intro trace result h
  rcases yields_bind h with ⟨e, hraise, -⟩ | ⟨b, t₁, t₂, hok, hrest, rfl⟩
  · exact hp trace _ hraise
  · exact hW.append (hp t₁ _ hok) (hf b t₂ _ hrest)

theorem Closed.catching (hW : Closed W) {p : Script ρ α ε β} {handler : ε → Script ρ α ε β}
    (hp : p.Traces W) (hh : ∀ e, (handler e).Traces W) : (p.catching handler).Traces W := by
  intro trace result h
  rcases yields_catching h with ⟨b, hok, -⟩ | ⟨e, t₁, t₂, hraise, hrest, rfl⟩
  · exact hp trace _ hok
  · exact hW.append (hp t₁ _ hraise) (hh e t₂ _ hrest)

theorem traces_request {r : ρ} (h : ∀ a, W [(r, a)]) :
    (request r : Script ρ α ε α).Traces W := by
  intro trace result hyields
  match trace, hyields with
  | [(_, a)], ⟨rfl, _, _⟩ => exact h a

theorem Closed.forM (hW : Closed W) {γ : Type} (l : List γ) {f : γ → Script ρ α ε PUnit}
    (hf : ∀ c ∈ l, (f c).Traces W) : (l.forM f).Traces W := by
  induction l with
  | nil => exact hW.pure _
  | cons c l ih =>
      rw [List.forall_mem_cons] at hf
      exact hW.bind hf.1 fun _ => ih hf.2

theorem Closed.foldlM (hW : Closed W) {γ : Type} (l : List γ) {f : β → γ → Script ρ α ε β}
    (hf : ∀ b, ∀ c ∈ l, (f b c).Traces W) (b : β) : (l.foldlM f b).Traces W := by
  induction l generalizing b with
  | nil => exact hW.pure b
  | cons c l ih =>
      refine hW.bind (hf b c List.mem_cons_self) fun b' => ?_
      exact ih (fun b'' c' hc' => hf b'' c' (List.mem_cons_of_mem c hc')) b'

theorem Closed.ofExcept (hW : Closed W) (x : Except ε β) :
    (ofExcept x : Script ρ α ε β).Traces W := by
  cases x with
  | ok b => exact hW.pure b
  | error e => exact hW.raise e

theorem Closed.call (hW : Closed W) {failure : α → Option ε} {r : ρ} (h : ∀ a, W [(r, a)]) :
    (call failure r).Traces W := by
  refine hW.bind (traces_request h) fun answer => ?_
  cases failure answer with
  | none => exact hW.pure answer
  | some e => exact hW.raise e

end Rules

end Script
