import Matador.Library.Script

/-!
# Contracts of scripts

`Ensures p Q` says that `Q` holds of the trace and of the result of every run of the
script `p`; the result is a value or an exception. There is one rule for each way to
build a script. The rules for `bind` and for `catching` pass what the first part
ensures on to the second one, which then has to make up for the whole trace.
`Returns p P` is the same for the runs that end with a value only, and `Raises p E` for
the exceptions of the runs that do not.
-/

namespace Script

variable {ρ α ε β γ : Type}

/-- Every run of the script satisfies `Q`. -/
def Ensures (p : Script ρ α ε β) (Q : List (ρ × α) → Except ε β → Prop) : Prop :=
  ∀ trace result, p.Yields trace result → Q trace result

section Rules

variable {Q R : List (ρ × α) → Except ε β → Prop}

theorem Ensures.mono {p : Script ρ α ε β} (h : p.Ensures R)
    (hQ : ∀ trace result, R trace result → Q trace result) : p.Ensures Q :=
  fun trace result hyields => hQ trace result (h trace result hyields)

theorem Ensures.and {p : Script ρ α ε β} (h : p.Ensures Q) (h' : p.Ensures R) :
    p.Ensures fun trace result => Q trace result ∧ R trace result :=
  fun trace result hyields => ⟨h trace result hyields, h' trace result hyields⟩

theorem ensures_pure {b : β} (h : Q [] (.ok b)) : (pure b : Script ρ α ε β).Ensures Q := by
  rintro trace result ⟨rfl, rfl⟩
  exact h

theorem ensures_raise {e : ε} (h : Q [] (.error e)) : (raise e : Script ρ α ε β).Ensures Q := by
  rintro trace result ⟨rfl, rfl⟩
  exact h

theorem ensures_request {r : ρ} {Q : List (ρ × α) → Except ε α → Prop}
    (h : ∀ a, Q [(r, a)] (.ok a)) : (request r : Script ρ α ε α).Ensures Q := by
  intro trace result hyields
  cases trace with
  | nil => exact absurd hyields id
  | cons x trace =>
      obtain ⟨r', a⟩ := x
      obtain ⟨rfl, rfl, rfl⟩ := hyields
      exact h a

/-- An exception of the first script ends both, and the second one continues the trace
of the first. -/
theorem Ensures.bind {p : Script ρ α ε β} {f : β → Script ρ α ε γ}
    {S : List (ρ × α) → Except ε γ → Prop} (hp : p.Ensures R)
    (herror : ∀ t e, R t (.error e) → S t (.error e))
    (hok : ∀ t b, R t (.ok b) → (f b).Ensures fun t' result => S (t ++ t') result) :
    (p >>= f).Ensures S := by
  intro trace result h
  rcases yields_bind h with ⟨e, hraise, rfl⟩ | ⟨b, t, t', hfirst, hrest, rfl⟩
  · exact herror trace e (hp trace _ hraise)
  · exact hok t b (hp t _ hfirst) t' result hrest

/-- A call returns its answer or raises the exception of the answer. -/
theorem ensures_call (failure : α → Option ε) (r : ρ) :
    (call failure r).Ensures fun trace result => ∃ a, trace = [(r, a)] ∧
      (failure a = none ∧ result = .ok a ∨ ∃ e, failure a = some e ∧ result = .error e) := by
  refine Ensures.bind (R := fun trace result => ∃ a, trace = [(r, a)] ∧ result = .ok a)
    (ensures_request fun a => ⟨a, rfl, rfl⟩) ?_ ?_
  · rintro t e ⟨a, -, heq⟩
    cases heq
  rintro t b ⟨a, rfl, heq⟩
  cases heq
  cases hfailure : failure b with
  | none => exact ensures_pure ⟨b, rfl, Or.inl ⟨hfailure, rfl⟩⟩
  | some e => exact ensures_raise ⟨b, rfl, Or.inr ⟨e, hfailure, rfl⟩⟩

theorem ensures_discard (failure : α → Option ε) (r : ρ) :
    (do let _ ← call failure r : Script ρ α ε Unit).Ensures fun trace result =>
      ∃ a, trace = [(r, a)] ∧
        (failure a = none ∧ result = .ok () ∨ failure a ≠ none ∧ ∃ e, result = .error e) := by
  refine Ensures.bind (ensures_call failure r) ?_ ?_
  · rintro t e ⟨a, rfl, ⟨-, heq⟩ | ⟨e', hfailure, heq⟩⟩
    · cases heq
    · exact ⟨a, rfl, Or.inr ⟨by simp [hfailure], e, rfl⟩⟩
  · rintro t b ⟨a, rfl, ⟨hfailure, -⟩ | ⟨e, -, heq⟩⟩
    · exact ensures_pure ⟨a, rfl, Or.inl ⟨hfailure, rfl⟩⟩
    · cases heq

/-- The handler continues the trace after an exception. -/
theorem Ensures.catching {p : Script ρ α ε β} {handler : ε → Script ρ α ε β} (hp : p.Ensures R)
    (hok : ∀ t b, R t (.ok b) → Q t (.ok b))
    (herror : ∀ t e, R t (.error e) → (handler e).Ensures fun t' result => Q (t ++ t') result) :
    (p.catching handler).Ensures Q := by
  intro trace result h
  rcases yields_catching h with ⟨b, hreturn, rfl⟩ | ⟨e, t, t', hraise, hrest, rfl⟩
  · exact hok trace b (hp trace _ hreturn)
  · exact herror t e (hp t _ hraise) t' result hrest

end Rules

/-- Every run of the script that returns a value satisfies `P`. -/
def Returns (p : Script ρ α ε β) (P : List (ρ × α) → β → Prop) : Prop :=
  ∀ trace b, p.Yields trace (.ok b) → P trace b

section Returns

variable {P : List (ρ × α) → β → Prop}

theorem Ensures.returns {p : Script ρ α ε β} {Q : List (ρ × α) → Except ε β → Prop}
    (h : p.Ensures Q) (hP : ∀ trace b, Q trace (.ok b) → P trace b) : p.Returns P :=
  fun trace b hyields => hP trace b (h trace _ hyields)

theorem Returns.mono {p : Script ρ α ε β} {R : List (ρ × α) → β → Prop} (h : p.Returns R)
    (hP : ∀ trace b, R trace b → P trace b) : p.Returns P :=
  fun trace b hyields => hP trace b (h trace b hyields)

theorem returns_pure {b : β} (h : P [] b) : (pure b : Script ρ α ε β).Returns P := by
  rintro trace c ⟨rfl, heq⟩
  cases heq
  exact h

theorem returns_request (r : ρ) :
    (request r : Script ρ α ε α).Returns fun trace a => trace = [(r, a)] := by
  refine (ensures_request (Q := fun trace result => ∃ a, trace = [(r, a)] ∧ result = .ok a)
    fun a => ⟨a, rfl, rfl⟩).returns ?_
  rintro trace b ⟨a, rfl, heq⟩
  cases heq
  rfl

theorem returns_trivial (p : Script ρ α ε β) : p.Returns fun _ _ => True :=
  fun _ _ _ => trivial

theorem returns_raise {e : ε} : (raise e : Script ρ α ε β).Returns P := by
  rintro trace b ⟨-, heq⟩
  cases heq

theorem Returns.bind {p : Script ρ α ε β} {f : β → Script ρ α ε γ}
    {S : List (ρ × α) → γ → Prop} (hp : p.Returns P)
    (hf : ∀ t b, P t b → (f b).Returns fun t' c => S (t ++ t') c) : (p >>= f).Returns S := by
  intro trace c h
  rcases yields_bind h with ⟨e, -, heq⟩ | ⟨b, t, t', hfirst, hrest, rfl⟩
  · cases heq
  · exact hf t b (hp t b hfirst) t' c hrest

/-- A handler that never returns can be forgotten. -/
theorem Returns.catching {p : Script ρ α ε β} {handler : ε → Script ρ α ε β} (hp : p.Returns P)
    (hhandler : ∀ e, (handler e).Returns fun _ _ => False) : (p.catching handler).Returns P := by
  intro trace b h
  rcases yields_catching h with ⟨c, hreturn, heq⟩ | ⟨e, t, t', -, hrest, rfl⟩
  · cases heq
    exact hp trace b hreturn
  · exact (hhandler e t' b hrest).elim

end Returns

/-- Every exception of the script satisfies `E`. -/
def Raises (p : Script ρ α ε β) (E : ε → Prop) : Prop :=
  p.Ensures fun _ result => ∀ e, result = .error e → E e

section Raises

variable {E : ε → Prop}

theorem raises_pure (b : β) : (pure b : Script ρ α ε β).Raises E :=
  ensures_pure fun _ heq => by cases heq

theorem raises_raise {e : ε} (h : E e) : (raise e : Script ρ α ε β).Raises E := by
  refine ensures_raise fun e' heq => ?_
  cases heq
  exact h

theorem Raises.bind {p : Script ρ α ε β} {f : β → Script ρ α ε γ} (hp : p.Raises E)
    (hf : ∀ b, (f b).Raises E) : (p >>= f).Raises E :=
  Ensures.bind hp (fun _ e h e' heq => by cases heq; exact h e rfl) fun _ b _ => hf b

theorem Raises.catching {p : Script ρ α ε β} {handler : ε → Script ρ α ε β}
    (hhandler : ∀ e, (handler e).Raises E) : (p.catching handler).Raises E := by
  refine Ensures.catching (R := fun _ _ => True) (fun _ _ _ => trivial) ?_ ?_
  · rintro t b - e heq
    cases heq
  · rintro t e -
    exact hhandler e

end Raises

end Script
