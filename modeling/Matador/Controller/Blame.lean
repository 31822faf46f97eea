import Matador.Controller.Results
import Matador.Controller.Measured
import Matador.Wrapper.Move

/-!
# Which host is blamed

The class of the exception that leaves `experiment` tells the wrappers which host to
throw away. Both classes are meant for a tunnel that does not work: the network check of
the router has failed, or its network setup has ended. The exceptions of the other steps
have other classes, but for one: when the capture on router 1 has ended right after it was
started, a `Host1Exception` is raised, whatever the tunnel does. For router 2 it is a
`SmallException`.

Before it is raised the experiment cleans up and stops the tunnels. If one of these calls fails,
another exception is raised, and if the network setup of router 1 is found to have ended, the
blame is right after all. `Misblamed` is what is left. The contract `Judged` says of every part
of the experiment that an exception with a host has its reason in the trace, and that in a
misblamed trace it has none.
-/

namespace Matador

namespace Controller

open Script (Ensures Raises Returns Traces)

/-! ## Reasons -/

/-- The network check of router 1 failed, or its network setup was found to have ended. -/
def Fault1 (trace : List (Request × Answer)) : Prop :=
  (∃ a, (.checkCall .networkCheck1, a) ∈ trace ∧ a.error ≠ none) ∨
    ∃ a, (.poll .network1, a) ∈ trace ∧ a.status ≠ none

/-- The network check of router 2 failed, or its network setup was found to have ended. -/
def Fault2 (trace : List (Request × Answer)) : Prop :=
  (∃ a, (.recvExitStatus .check2, a) ∈ trace ∧ a.status ≠ some 0) ∨
    ∃ a, (.exitStatusReady .network2, a) ∈ trace ∧ a.status ≠ none

/-- The capture of router 1 is found to have ended when it is polled directly after the start of
the capture on router 2, no call fails from then on, and the network setup of router 1 is running
when it is polled. -/
def Misblamed (trace : List (Request × Answer)) : Prop :=
  ∃ front k command started capture rest,
    trace = front ++ (.execChannel (.measurement2 k) command, started) ::
      (.poll (.measurement1 k), capture) :: rest ∧
    capture.status ≠ none ∧
    (∀ x ∈ (.poll (.measurement1 k), capture) :: rest, x.2.error = none) ∧
    ∀ a, (.poll .network1, a) ∈ rest → a.status = none

theorem exists_answer_append {r : Request} {φ : Answer → Prop} {t t' : List (Request × Answer)} :
    (∃ a, (r, a) ∈ t ++ t' ∧ φ a) ↔ (∃ a, (r, a) ∈ t ∧ φ a) ∨ ∃ a, (r, a) ∈ t' ∧ φ a := by
  simp only [List.mem_append, or_and_right, exists_or]

theorem fault1_append {t t' : List (Request × Answer)} :
    Fault1 (t ++ t') ↔ Fault1 t ∨ Fault1 t' := by
  unfold Fault1
  rw [exists_answer_append, exists_answer_append]
  exact or_or_or_comm

theorem fault2_append {t t' : List (Request × Answer)} :
    Fault2 (t ++ t') ↔ Fault2 t ∨ Fault2 t' := by
  unfold Fault2
  rw [exists_answer_append, exists_answer_append]
  exact or_or_or_comm

theorem Misblamed.append_left {t' : List (Request × Answer)} (h : Misblamed t')
    (t : List (Request × Answer)) : Misblamed (t ++ t') := by
  obtain ⟨front, k, command, started, capture, rest, rfl, hcapture⟩ := h
  exact ⟨t ++ front, k, command, started, capture, rest, by simp, hcapture⟩

/-! ## The start of a capture -/

def Request.startsCapture : Request → Bool
  | .execChannel (.measurement2 _) _ => true
  | _ => false

def Clear (trace : List (Request × Answer)) : Prop := Only (fun r => r.startsCapture = false) trace

theorem closed_clear : Script.Closed Clear := closed_only fun r => r.startsCapture = false

theorem clear_of_routine {r : Request} (h : r.Routine) : r.startsCapture = false := by
  unfold Request.Routine at h
  split at h
  · exact h.elim
  · exact h.elim
  · rename_i hother
    unfold Request.startsCapture
    split
    · exact absurd rfl (hother _ _)
    · rfl

theorem Clear.not_misblamed {t : List (Request × Answer)} (h : Clear t) : ¬ Misblamed t := by
  rintro ⟨front, k, command, started, capture, rest, rfl, -⟩
  have hstart := h (.execChannel (.measurement2 k) command, started) (by simp)
  cases hstart

/-- A pair of neighbours in a joined list is one of the first part, or one of the second part, or
the first part ends between them. -/
theorem append_eq_append_pair {α : Type*} {t t' front rest : List α} {x y : α}
    (h : t ++ t' = front ++ x :: y :: rest) :
    (∃ rest', t = front ++ x :: y :: rest') ∨ t = front ++ [x] ∨
      ∃ front', front = t ++ front' ∧ t' = front' ++ x :: y :: rest := by
  rcases List.append_eq_append_iff.mp h with ⟨front', hfront, ht'⟩ | ⟨behind, rfl, hbehind⟩
  · exact .inr (.inr ⟨front', hfront, ht'⟩)
  · rcases behind with _ | ⟨x', _ | ⟨y', behind⟩⟩
    · exact .inr (.inr ⟨[], by simp, hbehind.symm⟩)
    · obtain rfl := (List.cons.inj hbehind).1
      exact .inr (.inl rfl)
    · obtain ⟨rfl, hrest⟩ := List.cons.inj hbehind
      obtain ⟨rfl, -⟩ := List.cons.inj hrest
      exact .inl ⟨behind, rfl⟩

theorem Clear.start_unique {front front' rest rest' : List (Request × Answer)}
    {x y x' y' : Request × Answer} (hfront : Clear front) (hrest : Clear (y :: rest))
    (hx' : x'.1.startsCapture = true)
    (h : front ++ x :: y :: rest = front' ++ x' :: y' :: rest') :
    front = front' ∧ x = x' ∧ y = y' ∧ rest = rest' := by
  have habsent : ∀ {t : List (Request × Answer)}, Clear t → x' ∉ t := by
    intro t ht hmem
    rw [ht x' hmem] at hx'
    cases hx'
  rcases append_eq_append_pair h with ⟨rest'', rfl⟩ | rfl | ⟨front'', rfl, htail⟩
  · exact absurd (by simp) (habsent hfront)
  · exact absurd (by simp) (habsent hfront)
  · cases front'' with
    | nil =>
        obtain ⟨hx, htail⟩ := List.cons.inj htail
        obtain ⟨hy, hrest⟩ := List.cons.inj htail
        exact ⟨by simp, hx, hy, hrest⟩
    | cons x'' front'' =>
        obtain ⟨-, htail⟩ := List.cons.inj htail
        rw [htail] at hrest
        exact absurd (by simp) (habsent hrest)

/-! ## Verdicts -/

/-- An exception that throws away a host has its reason in the trace or is misblamed, and in a
misblamed trace it has no reason. -/
structure Judged {β : Type} (trace : List (Request × Answer)) (result : Except Raised β) :
    Prop where
  host1 : ∀ value, result = .error (.host1Exception value) → Fault1 trace ∨ Misblamed trace
  host2 : ∀ value, result = .error (.host2Exception value) → Fault2 trace
  misblamed : Misblamed trace →
    (∃ value, result = .error (.host1Exception value)) ∧ ¬ Fault1 trace

/-- The part of a trace that an experiment has left behind: router 1 is in order, its capture is
running, and the poll of the capture does not come next. -/
structure Passed (trace : List (Request × Answer)) : Prop where
  sound : ¬ Fault1 trace
  running : ∀ front k command started capture rest,
    trace = front ++ (.execChannel (.measurement2 k) command, started) ::
      (.poll (.measurement1 k), capture) :: rest → capture.status = none
  last : ∀ front x, trace = front ++ [x] → x.1.startsCapture = false

theorem Clear.passed {t : List (Request × Answer)} (h : Clear t) (hsound : ¬ Fault1 t) :
    Passed t where
  sound := hsound
  running := by
    rintro front k command started capture rest rfl
    have hstart := h (.execChannel (.measurement2 k) command, started) (by simp)
    cases hstart
  last := by
    rintro front x rfl
    exact h x (by simp)

namespace Passed

variable {t t' : List (Request × Answer)}

theorem append (h : Passed t) (h' : Passed t') : Passed (t ++ t') where
  sound := fun hfault => (fault1_append.mp hfault).elim h.sound h'.sound
  running := by
    intro front k command started capture rest heq
    rcases append_eq_append_pair heq with ⟨rest', ht⟩ | ht | ⟨front', -, ht'⟩
    · exact h.running _ _ _ _ _ _ ht
    · cases h.last _ _ ht
    · exact h'.running _ _ _ _ _ _ ht'
  last := by
    intro front x heq
    rcases List.eq_nil_or_concat t' with rfl | ⟨t', y, rfl⟩
    · rw [List.append_nil] at heq
      exact h.last front x heq
    · rw [List.concat_eq_append, ← List.append_assoc] at heq
      obtain ⟨-, hlast⟩ := List.append_inj' heq rfl
      obtain rfl := (List.cons.inj hlast).1
      exact h'.last t' y (List.concat_eq_append ..)

/-- What is misblamed behind it is misblamed for itself. -/
theorem misblamed (h : Passed t) (hmis : Misblamed (t ++ t')) : Misblamed t' := by
  obtain ⟨front, k, command, started, capture, rest, heq, hended, hrest⟩ := hmis
  rcases append_eq_append_pair heq with ⟨rest', ht⟩ | ht | ⟨front', -, ht'⟩
  · exact absurd (h.running _ _ _ _ _ _ ht) hended
  · cases h.last _ _ ht
  · exact ⟨front', k, command, started, capture, rest, ht', hended, hrest⟩

end Passed

theorem Judged.append_left {β : Type} {t t' : List (Request × Answer)} {result : Except Raised β}
    (h : Judged t' result) (ht : Passed t) : Judged (t ++ t') result where
  host1 value heq := (h.host1 value heq).imp (fun hfault => fault1_append.mpr (.inr hfault))
    fun hmis => hmis.append_left t
  host2 value heq := fault2_append.mpr (.inr (h.host2 value heq))
  misblamed hmis := by
    obtain ⟨hresult, hsound⟩ := h.misblamed (ht.misblamed hmis)
    exact ⟨hresult, fun hfault => (fault1_append.mp hfault).elim ht.sound hsound⟩

theorem judged_bind {β γ : Type} {p : Script Request Answer Raised β}
    {f : β → Script Request Answer Raised γ} (hp : p.Ensures Judged)
    (hpassed : p.Returns fun t _ => Passed t) (hf : ∀ b, (f b).Ensures Judged) :
    (p >>= f).Ensures Judged := by
  have hboth : p.Ensures fun t result => Judged t result ∧ ∀ b, result = .ok b → Passed t :=
    fun t result h => ⟨hp t result h, fun b heq => hpassed t b (heq ▸ h)⟩
  refine Ensures.bind hboth ?_ ?_
  · rintro t e ⟨h, -⟩
    refine ⟨fun value heq => h.host1 value (by cases heq; rfl),
      fun value heq => h.host2 value (by cases heq; rfl), fun hmis => ?_⟩
    obtain ⟨⟨value, heq⟩, hsound⟩ := h.misblamed hmis
    exact ⟨⟨value, by cases heq; rfl⟩, hsound⟩
  · rintro t b ⟨-, ht⟩
    exact (hf b).mono fun t' result h => h.append_left (ht b rfl)

theorem passed_bind {β γ : Type} {p : Script Request Answer Raised β}
    {f : β → Script Request Answer Raised γ} (hp : p.Returns fun t _ => Passed t)
    (hf : ∀ b, (f b).Returns fun t _ => Passed t) : (p >>= f).Returns fun t _ => Passed t :=
  hp.bind fun _ b ht => (hf b).mono fun _ _ ht' => ht.append ht'

/-! ## Parts that throw away no host -/

def Raised.Spares : Raised → Prop
  | .host1Exception _ | .host2Exception _ => False
  | .fatalException _ | .smallException _ | .other _ => True

theorem Raised.Spares.judged {β : Type} {raised : Raised} (h : raised.Spares)
    {t : List (Request × Answer)} (ht : ¬ Misblamed t) :
    Judged t (.error raised : Except Raised β) :=
  ⟨fun value heq => by cases heq; exact h.elim, fun value heq => by cases heq; exact h.elim,
    fun hmis => absurd hmis ht⟩

/-- The exceptions of the script throw away no host, and it starts no capture. -/
theorem judged_of_raises {β : Type} {p : Script Request Answer Raised β}
    (h : p.Raises Raised.Spares) (hclear : p.Traces Clear) : p.Ensures Judged := by
  intro t result hyields
  have ht := (hclear t result hyields).not_misblamed
  cases result with
  | ok b => exact ⟨nofun, nofun, fun hmis => absurd hmis ht⟩
  | error raised => exact (h t _ hyields raised rfl).judged ht

/-- The run returns and no call has failed, or a call has failed and the exception throws away no
host. -/
def Strict {β : Type} (t : List (Request × Answer)) (result : Except Raised β) : Prop :=
  (∃ b, result = .ok b) ∧ (∀ x ∈ t, x.2.error = none) ∨
    (∃ e : Raised, result = .error e ∧ e.Spares) ∧ ∃ x ∈ t, x.2.error ≠ none

theorem strict_perform (r : Request) : (perform r).Ensures Strict := by
  refine (ensures_perform r).mono ?_
  rintro t result ⟨a, rfl, ⟨herror, rfl⟩ | ⟨text, herror, rfl⟩⟩
  · exact .inl ⟨⟨a, rfl⟩, by simpa using herror⟩
  · exact .inr ⟨⟨_, rfl, trivial⟩, (r, a), by simp, by simp [herror]⟩

theorem strict_pure {β : Type} (b : β) : (pure b : Script Request Answer Raised β).Ensures Strict :=
  Script.ensures_pure (.inl ⟨⟨b, rfl⟩, by simp⟩)

theorem strict_bind {β γ : Type} {p : Script Request Answer Raised β}
    {f : β → Script Request Answer Raised γ} (hp : p.Ensures Strict)
    (hf : ∀ b, (f b).Ensures Strict) : (p >>= f).Ensures Strict := by
  refine Ensures.bind hp ?_ ?_
  · rintro t e (⟨⟨b, heq⟩, -⟩ | ⟨⟨e', heq, hspares⟩, hfailed⟩)
    · cases heq
    · cases heq
      exact .inr ⟨⟨_, rfl, hspares⟩, hfailed⟩
  · rintro t b (⟨-, hnone⟩ | ⟨⟨e, heq, -⟩, -⟩)
    · refine (hf b).mono ?_
      rintro t' result (⟨hok, hnone'⟩ | ⟨hraised, x, hx, hfailed⟩)
      · exact .inl ⟨hok, fun x hx => (List.mem_append.mp hx).elim (hnone x) (hnone' x)⟩
      · exact .inr ⟨hraised, x, List.mem_append_right t hx, hfailed⟩
    · cases heq

theorem strict_forM {γ : Type} (l : List γ) {f : γ → Script Request Answer Raised PUnit}
    (hf : ∀ c, (f c).Ensures Strict) : (l.forM f).Ensures Strict := by
  induction l with
  | nil => exact strict_pure _
  | cons c l ih => exact strict_bind (hf c) fun _ => ih

theorem strict_catching {β : Type} {p : Script Request Answer Raised β} {raised : Raised}
    (hp : p.Ensures Strict) (hraised : raised.Spares) :
    (p.catching fun _ => .raise raised).Ensures Strict := by
  refine Ensures.catching hp (fun t b h => h) ?_
  rintro t e (⟨⟨b, heq⟩, -⟩ | ⟨-, x, hx, hfailed⟩)
  · cases heq
  · exact Script.ensures_raise (.inr ⟨⟨raised, rfl, hraised⟩, x, by simpa using hx, hfailed⟩)

theorem strict_discard (r : Request) :
    (do let _ ← perform r : Script Request Answer Raised Unit).Ensures Strict :=
  strict_bind (strict_perform r) fun _ => strict_pure _

theorem strict_stopIfRunning (a b : Request) :
    (do
      let answer ← perform a
      if answer.status = none then
        let _ ← perform b : Script Request Answer Raised Unit).Ensures Strict := by
  refine strict_bind (strict_perform a) fun answer => ?_
  split
  · exact strict_discard b
  · exact strict_pure _

theorem strict_cleanUp (commands : List Process) (channels : List Channel) :
    (cleanUp commands channels).Ensures Strict :=
  strict_bind (strict_forM commands fun _ => strict_stopIfRunning _ _) fun _ =>
    strict_forM channels fun _ => strict_stopIfRunning _ _

theorem strict_forceStop : forceStop.Ensures Strict :=
  strict_bind (strict_catching (strict_discard _) trivial) fun _ =>
    strict_catching (strict_discard _) trivial

theorem raises_of_strict {β : Type} {p : Script Request Answer Raised β} (h : p.Ensures Strict) :
    p.Raises Raised.Spares := by
  refine Ensures.mono h ?_
  rintro t result (⟨⟨b, rfl⟩, -⟩ | ⟨⟨e, rfl, hspares⟩, -⟩) raised heq
  · cases heq
  · cases heq
    exact hspares

theorem raises_perform (r : Request) : (perform r).Raises Raised.Spares :=
  raises_of_strict (strict_perform r)

theorem raises_discard (r : Request) :
    (do let _ ← perform r : Script Request Answer Raised Unit).Raises Raised.Spares :=
  raises_of_strict (strict_discard r)

theorem raises_startChannel (c : Channel) (command : Command) :
    (startChannel c command).Raises Raised.Spares :=
  (raises_perform _).bind fun _ => (raises_perform _).bind fun _ => raises_discard _

theorem raises_recvExitStatus (c : Channel) : (recvExitStatus c).Raises Raised.Spares :=
  (raises_perform _).bind fun _ => Script.raises_pure _

/-- Giving up raises the exception if no call fails, and otherwise one without a host. -/
theorem ensures_giveUp (commands : List Process) (channels : List Channel) (raised : Raised) :
    (giveUp commands channels raised).Ensures fun t result =>
      result = .error raised ∧ (∀ x ∈ t, x.2.error = none) ∨
        (∃ e : Raised, result = .error e ∧ e.Spares) ∧ ∃ x ∈ t, x.2.error ≠ none := by
  have hstop : (do cleanUp commands channels; forceStop).Ensures Strict :=
    strict_bind (strict_cleanUp commands channels) fun _ => strict_forceStop
  have hgiveUp : giveUp commands channels raised =
      (do cleanUp commands channels; forceStop) >>= fun _ => .raise raised := by
    simp [giveUp]
  rw [hgiveUp]
  refine Ensures.bind hstop ?_ ?_
  · rintro t e (⟨⟨b, heq⟩, -⟩ | ⟨⟨e', heq, hspares⟩, hfailed⟩)
    · cases heq
    · cases heq
      exact .inr ⟨⟨_, rfl, hspares⟩, hfailed⟩
  · rintro t b (⟨-, hnone⟩ | ⟨⟨e, heq, -⟩, -⟩)
    · exact Script.ensures_raise (.inl ⟨rfl, by simpa using hnone⟩)
    · cases heq

theorem raises_giveUp {raised : Raised} (h : raised.Spares) (commands : List Process)
    (channels : List Channel) : (giveUp commands channels raised).Raises Raised.Spares := by
  refine (ensures_giveUp commands channels raised).mono ?_
  rintro t result (⟨rfl, -⟩ | ⟨⟨e, rfl, hspares⟩, -⟩) raised' heq
  · cases heq
    exact h
  · cases heq
    exact hspares

theorem raises_giveUpIf {raised : Raised} (h : raised.Spares) (failed : Bool)
    (commands : List Process) (channels : List Channel) :
    (giveUpIf failed commands channels raised).Raises Raised.Spares := by
  cases failed with
  | false => exact Script.raises_pure _
  | true => exact raises_giveUp h commands channels

/-! ## The tests of the tunnels -/

/-- An exception that throws away a host has its reason in the trace. -/
def Blames {β : Type} (trace : List (Request × Answer)) (result : Except Raised β) : Prop :=
  (∀ value, result = .error (.host1Exception value) → Fault1 trace) ∧
    ∀ value, result = .error (.host2Exception value) → Fault2 trace

theorem judged_of_blames {β : Type} {p : Script Request Answer Raised β} (h : p.Ensures Blames)
    (hclear : p.Traces Clear) : p.Ensures Judged := by
  intro t result hyields
  obtain ⟨h1, h2⟩ := h t result hyields
  exact ⟨fun value heq => .inl (h1 value heq), h2,
    fun hmis => absurd hmis (hclear t result hyields).not_misblamed⟩

theorem blames_of_raises {β : Type} {p : Script Request Answer Raised β}
    (h : p.Raises Raised.Spares) : p.Ensures Blames := by
  refine Ensures.mono h fun t result hspares => ?_
  exact ⟨fun value heq => (hspares _ heq).elim, fun value heq => (hspares _ heq).elim⟩

theorem blames_bind {β γ : Type} {p : Script Request Answer Raised β}
    {f : β → Script Request Answer Raised γ} (hp : p.Ensures Blames)
    (hf : ∀ b, (f b).Ensures Blames) : (p >>= f).Ensures Blames := by
  refine Ensures.bind hp ?_ ?_
  · rintro t e ⟨h1, h2⟩
    exact ⟨fun value heq => h1 value (by cases heq; rfl),
      fun value heq => h2 value (by cases heq; rfl)⟩
  · rintro t b -
    refine (hf b).mono fun t' result h => ?_
    exact ⟨fun value heq => fault1_append.mpr (.inr (h.1 value heq)),
      fun value heq => fault2_append.mpr (.inr (h.2 value heq))⟩

/-- Giving up blames a host for a reason that is in the trace before. -/
theorem blames_giveUp {t : List (Request × Answer)} {raised : Raised}
    (h1 : ∀ value, raised = .host1Exception value → Fault1 t)
    (h2 : ∀ value, raised = .host2Exception value → Fault2 t)
    (commands : List Process) (channels : List Channel) :
    (giveUp commands channels raised).Ensures fun t' result => Blames (t ++ t') result := by
  refine (ensures_giveUp commands channels raised).mono ?_
  rintro t' result (⟨rfl, -⟩ | ⟨⟨e, rfl, hspares⟩, -⟩)
  · exact ⟨fun value heq => fault1_append.mpr (.inl (h1 value (by cases heq; rfl))),
      fun value heq => fault2_append.mpr (.inl (h2 value (by cases heq; rfl)))⟩
  · exact ⟨fun value heq => by cases heq; exact hspares.elim,
      fun value heq => by cases heq; exact hspares.elim⟩

theorem blames_tested {r : Request} {f : Answer → Script Request Answer Raised Unit}
    (hf : ∀ a, (f a).Ensures fun t result => Blames ([(r, a)] ++ t) result) :
    (perform r >>= f).Ensures Blames := by
  refine Ensures.bind (ensures_perform r) ?_ ?_
  · rintro t e ⟨a, rfl, ⟨-, heq⟩ | ⟨text, -, heq⟩⟩
    · cases heq
    · cases heq
      exact ⟨nofun, nofun⟩
  · rintro t b ⟨a, rfl, ⟨-, heq⟩ | ⟨text, -, heq⟩⟩
    · cases heq
      exact hf b
    · cases heq

theorem blames_giveUpIf {t : List (Request × Answer)} {raised : Raised} {failed : Bool}
    (h1 : ∀ value, raised = .host1Exception value → failed = true → Fault1 t)
    (h2 : ∀ value, raised = .host2Exception value → failed = true → Fault2 t)
    (commands : List Process) (channels : List Channel) :
    (giveUpIf failed commands channels raised).Ensures fun t' result =>
      Blames (t ++ t') result := by
  cases failed with
  | false => exact Script.ensures_pure ⟨nofun, nofun⟩
  | true =>
      exact blames_giveUp (fun value heq => h1 value heq rfl) (fun value heq => h2 value heq rfl)
        commands channels

theorem blames_checkTunnels : checkTunnels.Ensures Blames := by
  refine blames_tested fun tunnel1 => ?_
  split
  · rename_i hended
    refine blames_giveUp (fun _ _ => .inr ⟨tunnel1, by simp, hended⟩) ?_ _ _
    rintro value heq
    cases heq
  · have hrest : (do
        let tunnel2 ← perform (.exitStatusReady .network2)
        giveUpIf (tunnel2.status ≠ none) [.network1] [] (.host2Exception "Host2 does not work") :
          Script Request Answer Raised Unit).Ensures Blames := by
      refine blames_tested fun tunnel2 => blames_giveUpIf ?_ ?_ _ _
      · rintro value heq
        cases heq
      · rintro value - hended
        exact .inr ⟨tunnel2, by simp, of_decide_eq_true hended⟩
    refine hrest.mono fun t result h => ?_
    exact ⟨fun value heq => fault1_append.mpr (.inr (h.1 value heq)),
      fun value heq => fault2_append.mpr (.inr (h.2 value heq))⟩

theorem blames_setup (args : Arguments) : (setup args).Ensures Blames := by
  refine blames_bind (blames_of_raises (raises_perform _)) fun _ => ?_
  refine blames_bind (blames_of_raises (raises_discard _)) fun _ => ?_
  refine blames_bind (blames_of_raises (raises_startChannel _ _)) fun _ => ?_
  refine blames_bind (blames_of_raises (Raises.catching fun _ => Script.raises_raise trivial))
    fun _ => ?_
  refine blames_bind (p := (checkCall .networkCheck1).catching _) ?_ fun _ => ?_
  · refine Ensures.catching (ensures_discard _) (fun t b _ => ⟨nofun, nofun⟩) ?_
    rintro t e ⟨check1, rfl, ⟨-, heq⟩ | ⟨hfailed, -⟩⟩
    · cases heq
    · refine blames_giveUp (fun _ _ => .inl ⟨check1, by simp, hfailed⟩) ?_ _ _
      rintro value heq
      cases heq
  refine blames_bind (blames_of_raises (raises_startChannel _ _)) fun _ => ?_
  have hrecv : (recvExitStatus .check2 >>= fun check2 => giveUpIf (check2 ≠ 0) [.network1] []
      (.host2Exception "Host2 does not work")) =
      perform (.recvExitStatus .check2) >>= fun answer =>
        giveUpIf (answer.status.getD (-1) ≠ 0) [.network1] []
          (.host2Exception "Host2 does not work") := by
    simp [recvExitStatus]
  rw [hrecv]
  refine blames_tested fun check2 => blames_giveUpIf ?_ ?_ _ _
  · rintro value heq
    cases heq
  · rintro value - hfailed
    refine .inl ⟨check2, by simp, fun hzero => ?_⟩
    simp [hzero] at hfailed

/-! ## What an experiment leaves behind -/

def Request.Unrelated (r : Request) : Prop :=
  r ≠ .checkCall .networkCheck1 ∧ r ≠ .poll .network1

theorem not_fault1_of_only {t : List (Request × Answer)} (h : Only Request.Unrelated t) :
    ¬ Fault1 t := by
  rintro (⟨a, hmem, -⟩ | ⟨a, hmem, -⟩)
  · exact (h _ hmem).1 rfl
  · exact (h _ hmem).2 rfl

theorem sound_bind {β γ : Type} {p : Script Request Answer Raised β}
    {f : β → Script Request Answer Raised γ} (hp : p.Returns fun t _ => ¬ Fault1 t)
    (hf : ∀ b, (f b).Returns fun t _ => ¬ Fault1 t) : (p >>= f).Returns fun t _ => ¬ Fault1 t :=
  hp.bind fun _ b ht => (hf b).mono fun _ _ ht' hfault => (fault1_append.mp hfault).elim ht ht'

theorem sound_of_traces {β : Type} {p : Script Request Answer Raised β}
    (h : p.Traces (Only Request.Unrelated)) : p.Returns fun t _ => ¬ Fault1 t :=
  fun t _ hyields => not_fault1_of_only (h t _ hyields)

theorem traces_startChannel_unrelated (c : Channel) (command : Command) :
    (startChannel c command).Traces (Only Request.Unrelated) := by
  refine (closed_only _).bind (traces_perform ⟨nofun, nofun⟩) fun _ => ?_
  refine (closed_only _).bind (traces_perform ⟨nofun, nofun⟩) fun _ => ?_
  exact traces_discard ⟨nofun, nofun⟩

theorem sound_giveUpIf (failed : Bool) (commands : List Process) (channels : List Channel)
    (raised : Raised) :
    (giveUpIf failed commands channels raised).Returns fun t _ => ¬ Fault1 t := by
  refine (returns_giveUpIf failed commands channels raised).mono ?_
  rintro t _ ⟨rfl, -⟩
  exact not_fault1_of_only (closed_only _).nil

theorem passed_of_sound {β : Type} {p : Script Request Answer Raised β} (hclear : p.Traces Clear)
    (hsound : p.Returns fun t _ => ¬ Fault1 t) : p.Returns fun t _ => Passed t :=
  fun t b hyields => (hclear t _ hyields).passed (hsound t b hyields)

theorem traces_recvExitStatus_unrelated (c : Channel) :
    (recvExitStatus c).Traces (Only Request.Unrelated) :=
  (closed_only _).bind (traces_perform ⟨nofun, nofun⟩) fun _ => (closed_only _).pure _

theorem passed_setup (args : Arguments) : (setup args).Returns fun t _ => Passed t := by
  refine passed_of_sound (traces_setup (fun _ => clear_of_routine) args rfl) ?_
  refine sound_bind (sound_of_traces (traces_perform ⟨nofun, nofun⟩)) fun _ => ?_
  refine sound_bind (sound_of_traces (traces_discard ⟨nofun, nofun⟩)) fun _ => ?_
  refine sound_bind (sound_of_traces (traces_startChannel_unrelated _ _)) fun _ => ?_
  refine sound_bind (sound_of_traces ?_) fun _ => ?_
  · exact (closed_only _).catching (traces_checkCall ⟨nofun, nofun⟩)
      fun _ => (closed_only _).raise _
  refine sound_bind (p := (checkCall .networkCheck1).catching _) ?_ fun _ => ?_
  · refine ((returns_discard _).catching fun _ => not_returns_giveUp _ _ _).mono ?_
    rintro t _ ⟨check1, rfl, hcheck1⟩
    simp [Fault1, hcheck1]
  refine sound_bind (sound_of_traces (traces_startChannel_unrelated _ _)) fun _ => ?_
  exact sound_bind (sound_of_traces (traces_recvExitStatus_unrelated _)) fun _ =>
    sound_giveUpIf _ _ _ _

theorem passed_checkTunnels : checkTunnels.Returns fun t _ => Passed t := by
  refine passed_of_sound (traces_checkTunnels fun _ => clear_of_routine) ?_
  refine (returns_bothRunning .network1 .network2).mono ?_
  rintro t _ ⟨tunnel1, tunnel2, rfl, hup, -⟩
  simp [Fault1, hup]

theorem passed_executeApp (args : Arguments) (k : ℕ) (app : String) :
    (executeApp args k app).Returns fun t _ => Passed t := by
  refine passed_of_sound (traces_executeApp (fun _ => clear_of_routine) args k app rfl) ?_
  refine (returns_executeApp args k app).mono ?_
  rintro t _ ⟨answer, rfl, -⟩
  simp [Fault1]

theorem passed_cleanUp (k : ℕ) :
    (cleanUp [.measurement1 k] [.measurement2 k]).Returns fun t _ => Passed t := by
  refine passed_of_sound (traces_cleanUp (fun _ => clear_of_routine) _ _) (sound_of_traces ?_)
  refine (closed_only _).bind ((closed_only _).forM _ fun command hcommand => ?_) fun _ =>
    (closed_only _).forM _ fun chan _ => traces_stopIfRunning ⟨nofun, nofun⟩ ⟨nofun, nofun⟩
  obtain rfl := List.mem_singleton.mp hcommand
  exact traces_stopIfRunning ⟨nofun, nofun⟩ ⟨nofun, nofun⟩

theorem passed_analyzeCaptures (args : Arguments) (k : ℕ) (app timestamp : String) :
    (analyzeCaptures args k app timestamp).Returns fun t _ => Passed t := by
  refine passed_of_sound (traces_analyzeCaptures (fun _ => clear_of_routine) args k app timestamp
    rfl rfl) ?_
  refine sound_bind (sound_of_traces (traces_discard ⟨nofun, nofun⟩)) fun _ => ?_
  refine sound_bind (sound_of_traces (traces_startChannel_unrelated _ _)) fun _ => ?_
  refine sound_bind (sound_of_traces (traces_perform ⟨nofun, nofun⟩)) fun _ => ?_
  refine sound_bind (sound_of_traces (traces_perform ⟨nofun, nofun⟩)) fun _ => ?_
  refine sound_bind (sound_giveUpIf _ _ _ _) fun _ => ?_
  exact sound_bind (sound_of_traces (traces_recvExitStatus_unrelated _)) fun _ =>
    sound_giveUpIf _ _ _ _

/-! ## The captures -/

section Capture

variable {k : ℕ} {command : Command} {started capture : Answer}
  {front rest : List (Request × Answer)}

theorem Clear.poll_cons (h : Clear rest) : Clear ((.poll (.measurement1 k), capture) :: rest) :=
  List.forall_mem_cons.mpr ⟨rfl, h⟩

/-- A capture that runs, or whose poll fails, misblames no host. -/
theorem not_misblamed_of_capture (hfront : Clear front) (hrest : Clear rest)
    (hcapture : capture.status = none ∨ capture.error ≠ none) :
    ¬ Misblamed (front ++ (.execChannel (.measurement2 k) command, started) ::
      (.poll (.measurement1 k), capture) :: rest) := by
  rintro ⟨front', k', command', started', capture', rest', heq, hended, herror, -⟩
  obtain ⟨-, -, hpoll, -⟩ := hfront.start_unique hrest.poll_cons rfl heq
  obtain ⟨-, rfl⟩ := Prod.mk.inj hpoll
  rcases hcapture with hrunning | hfailed
  · exact hended hrunning
  · exact hfailed (herror _ List.mem_cons_self)

/-- Giving up because of a capture that has ended. -/
theorem judged_of_ended (hfront : Clear front) (hsound : ¬ Fault1 front)
    (hended : capture.status ≠ none) (hpoll : capture.error = none) (commands : List Process)
    (channels : List Channel) (value : String) :
    (giveUp commands channels (.host1Exception value)).Ensures fun t result =>
      Judged (front ++ (.execChannel (.measurement2 k) command, started) ::
        (.poll (.measurement1 k), capture) :: t) result := by
  intro t result hyields
  have hclear : Clear t := traces_giveUp (fun _ => clear_of_routine) _ _ _ t result hyields
  have hfault : Fault1 (front ++ (.execChannel (.measurement2 k) command, started) ::
      (.poll (.measurement1 k), capture) :: t) ↔ Fault1 t := by
    rw [fault1_append, or_iff_right hsound]
    simp [Fault1]
  obtain ⟨rfl, hnone⟩ | ⟨⟨e, rfl, hspares⟩, x, hx, hfailed⟩ :=
    ensures_giveUp commands channels _ t result hyields
  · refine ⟨fun value heq => ?_, nofun, ?_⟩
    · by_cases hnetwork : ∃ a, (.poll .network1, a) ∈ t ∧ a.status ≠ none
      · exact .inl (hfault.mpr (.inr hnetwork))
      · refine .inr ⟨front, k, command, started, capture, t, rfl, hended, ?_, fun a ha => ?_⟩
        · exact List.forall_mem_cons.mpr ⟨hpoll, hnone⟩
        · by_contra hstatus
          exact hnetwork ⟨a, ha, hstatus⟩
    · rintro ⟨front', k', command', started', capture', rest', heq, -, -, hrunning⟩
      obtain ⟨-, -, -, rfl⟩ := hfront.start_unique hclear.poll_cons rfl heq
      refine ⟨⟨value, rfl⟩, fun h => ?_⟩
      rcases hfault.mp h with ⟨a, ha, herror⟩ | ⟨a, ha, hstatus⟩
      · exact herror (hnone _ ha)
      · exact hstatus (hrunning a ha)
  · refine hspares.judged ?_
    rintro ⟨front', k', command', started', capture', rest', heq, -, herror, -⟩
    obtain ⟨-, -, -, rfl⟩ := hfront.start_unique hclear.poll_cons rfl heq
    exact hfailed (herror x (List.mem_cons_of_mem _ hx))

end Capture

/-- A capture that was started last misblames no host. -/
theorem Clear.not_misblamed_concat {front : List (Request × Answer)} (h : Clear front)
    (x : Request × Answer) : ¬ Misblamed (front ++ [x]) := by
  rintro ⟨front', k, command, started, capture, rest, heq, -⟩
  have hfront := congrArg List.dropLast heq
  rw [List.dropLast_concat, List.dropLast_append_of_ne_nil (List.cons_ne_nil _ _),
    List.dropLast_cons_of_ne_nil (List.cons_ne_nil _ _)] at hfront
  have hstart := h (.execChannel (.measurement2 k) command, started) (by simp [hfront])
  cases hstart

/-- The command of a channel is started by the last of three calls. -/
theorem ensures_startChannel (c : Channel) (command : Command) :
    (startChannel c command).Ensures fun t result => ∃ front, Clear front ∧ ¬ Fault1 front ∧
      ((∃ e, result = .error e) ∧ t = front ∨
        ∃ started, t = front ++ [(.execChannel c command, started)]) := by
  refine Ensures.bind (ensures_perform _) ?_ ?_
  · rintro t e ⟨session, rfl, -⟩
    exact ⟨_, by simp [Clear, Only, Request.startsCapture], by simp [Fault1], .inl ⟨⟨e, rfl⟩, rfl⟩⟩
  rintro t _ ⟨session, rfl, -⟩
  refine Ensures.bind (ensures_perform _) ?_ ?_
  · rintro t e ⟨terminal, rfl, -⟩
    exact ⟨_, by simp [Clear, Only, Request.startsCapture], by simp [Fault1], .inl ⟨⟨e, rfl⟩, rfl⟩⟩
  rintro t _ ⟨terminal, rfl, -⟩
  refine (ensures_discard _).mono ?_
  rintro t result ⟨started, rfl, -⟩
  exact ⟨[(.openSession c, session), (.getPty c, terminal)],
    by simp [Clear, Only, Request.startsCapture], by simp [Fault1], .inr ⟨started, rfl⟩⟩

/-- The only exception with a host that is not about a tunnel: the capture of router 1 has
ended. -/
theorem judged_startMeasurement (args : Arguments) (k : ℕ) (app timestamp : String) :
    (startMeasurement args k app timestamp).Ensures Judged := by
  have hroutine : ∀ r : Request, r.Routine → r.startsCapture = false := fun _ => clear_of_routine
  have hpopen : (popen (.measurement1 k) (.measurementSetup1 (args.directory app ++
      args.result1 app timestamp))).Traces Clear := traces_popen rfl
  refine judged_bind (judged_of_raises (raises_discard _) hpopen)
    (passed_of_sound hpopen (sound_of_traces (traces_popen ⟨nofun, nofun⟩))) fun _ => ?_
  refine Ensures.bind (Ensures.and (raises_startChannel _ _) (ensures_startChannel _ _)) ?_ ?_
  · rintro t e ⟨hspares, front, hfront, -, ⟨-, rfl⟩ | ⟨started, rfl⟩⟩
    · exact (hspares e rfl).judged hfront.not_misblamed
    · exact (hspares e rfl).judged (hfront.not_misblamed_concat _)
  rintro t _ ⟨-, front, hfront, hsound, ⟨⟨e, heq⟩, -⟩ | ⟨started, rfl⟩⟩
  · cases heq
  refine Ensures.bind (ensures_perform _) ?_ ?_
  · rintro t e ⟨capture1, rfl, ⟨-, heq⟩ | ⟨text, herror, heq⟩⟩
    · cases heq
    · cases heq
      rw [List.append_assoc, List.singleton_append]
      refine (show (Raised.other text).Spares from trivial).judged ?_
      exact not_misblamed_of_capture hfront (closed_only _).nil (.inr (by simp [herror]))
  rintro t capture1 ⟨a, rfl, ⟨herror, heq⟩ | ⟨text, -, heq⟩⟩
  · cases heq
    simp only [List.append_assoc, List.cons_append, List.nil_append]
    split
    · rename_i hended
      exact judged_of_ended hfront hsound hended herror _ _ _
    · rename_i hrunning
      intro t result hyields
      have hready : (perform (.exitStatusReady (.measurement2 k))).Traces Clear :=
        traces_perform rfl
      have hclear : Clear t :=
        closed_clear.bind hready (fun _ => traces_giveUpIf hroutine _ _ _ _) t result hyields
      have hmis : ¬ Misblamed (front ++ (.execChannel (.measurement2 k) (.measurementSetup2
          (args.directory app ++ args.result2 app timestamp)), started) ::
            (.poll (.measurement1 k), capture1) :: t) :=
        not_misblamed_of_capture hfront hclear (.inl (not_not.mp hrunning))
      cases result with
      | ok b => exact ⟨nofun, nofun, fun h => absurd h hmis⟩
      | error raised =>
          refine Raised.Spares.judged ?_ hmis
          exact (raises_perform _).bind (fun _ => raises_giveUpIf (by trivial) _ _ _) t _ hyields
            raised rfl
  · cases heq

theorem passed_startMeasurement (args : Arguments) (k : ℕ) (app timestamp : String) :
    (startMeasurement args k app timestamp).Returns fun t _ => Passed t := by
  refine passed_bind ?_ fun _ => ?_
  · exact passed_of_sound (traces_popen rfl) (sound_of_traces (traces_popen ⟨nofun, nofun⟩))
  refine (ensures_startChannel (.measurement2 k) _).returns (fun t b h => h) |>.bind ?_
  rintro t _ ⟨front, hfront, hsound, ⟨⟨e, heq⟩, -⟩ | ⟨started, rfl⟩⟩
  · cases heq
  refine (returns_bothRunning _ _).mono ?_
  rintro t _ ⟨capture1, capture2, rfl, hrunning, -⟩
  have hclear : Clear [(.poll (.measurement1 k), capture1),
      (.exitStatusReady (.measurement2 k), capture2)] := by
    simp [Clear, Only, Request.startsCapture]
  rw [List.append_assoc, List.singleton_append]
  refine ⟨?_, ?_, ?_⟩
  · rw [fault1_append, or_iff_right hsound]
    simp [Fault1]
  · intro front' k' command' started' capture' rest' heq
    obtain ⟨-, -, hpoll, -⟩ := hfront.start_unique hclear rfl heq
    rw [← (Prod.mk.inj hpoll).2]
    exact hrunning
  · intro front' x heq
    have hlast := congrArg List.getLast? heq
    simp only [List.getLast?_append, List.getLast?_cons_cons, List.getLast?_singleton,
      Option.some_or, Option.some.injEq] at hlast
    rw [← hlast]
    rfl

/-! ## The experiment -/

theorem judged_application (args : Arguments) (k : ℕ) (app : String) :
    (application args k app).Ensures Judged := by
  have hroutine : ∀ r : Request, r.Routine → r.startsCapture = false := fun _ => clear_of_routine
  have hexecute : (executeApp args k app).Raises Raised.Spares :=
    Raises.catching fun error =>
      (Raises.catching fun _ => raises_giveUp (by trivial) _ _).bind fun _ =>
        raises_giveUp (by trivial) _ _
  have hanalyze : ∀ timestamp, (analyzeCaptures args k app timestamp).Raises Raised.Spares :=
    fun timestamp =>
      (raises_discard _).bind fun _ => (raises_startChannel _ _).bind fun _ =>
        (raises_perform _).bind fun _ => (raises_perform _).bind fun _ =>
          (raises_giveUpIf (by trivial) _ _ _).bind fun _ => (raises_recvExitStatus _).bind fun _ =>
            raises_giveUpIf (by trivial) _ _ _
  refine judged_bind (judged_of_blames blames_checkTunnels (traces_checkTunnels hroutine))
    passed_checkTunnels fun _ => ?_
  have hlocaltime :
      (Script.request .localtime : Script Request Answer Raised Answer).Traces Clear :=
    Script.traces_request fun a => by simp [Clear, Only, Request.startsCapture]
  refine judged_bind (judged_of_raises ?_ hlocaltime) (passed_of_sound hlocaltime ?_) fun now => ?_
  · refine Script.ensures_request fun a error herror => ?_
    cases herror
  · refine (Script.returns_request _).mono ?_
    rintro t a rfl
    simp [Fault1]
  refine judged_bind (judged_startMeasurement args k app now.timestamp)
    (passed_startMeasurement args k app now.timestamp) fun _ => ?_
  refine judged_of_raises (hexecute.bind fun _ => ?_) ?_
  · exact (raises_of_strict (strict_cleanUp _ _)).bind fun _ => hanalyze now.timestamp
  · refine (closed_only _).bind (traces_executeApp hroutine args k app rfl) fun _ => ?_
    exact (closed_only _).bind (traces_cleanUp hroutine _ _) fun _ =>
      traces_analyzeCaptures hroutine args k app now.timestamp rfl rfl

theorem passed_application (args : Arguments) (k : ℕ) (app : String) :
    (application args k app).Returns fun t _ => Passed t := by
  refine passed_bind passed_checkTunnels fun _ => ?_
  refine passed_bind ?_ fun now => ?_
  · refine (Script.returns_request _).mono ?_
    rintro t a rfl
    exact Clear.passed (by simp [Clear, Only, Request.startsCapture]) (by simp [Fault1])
  refine passed_bind (passed_startMeasurement args k app now.timestamp) fun _ => ?_
  refine passed_bind (passed_executeApp args k app) fun _ => ?_
  exact passed_bind (passed_cleanUp k) fun _ => passed_analyzeCaptures args k app now.timestamp

theorem judged_applicationLoop (args : Arguments) (k : ℕ) (applications : List String) :
    (applicationLoop args k applications).Ensures Judged ∧
      (applicationLoop args k applications).Returns fun t _ => Passed t := by
  induction applications generalizing k with
  | nil =>
      have hclear : Clear [] := (closed_only _).nil
      exact ⟨Script.ensures_pure ⟨nofun, nofun, fun h => absurd h hclear.not_misblamed⟩,
        Script.returns_pure (hclear.passed (by simp [Fault1]))⟩
  | cons app rest ih =>
      exact ⟨judged_bind (judged_application args k app) (passed_application args k app)
          fun _ => (ih (k + 1)).1,
        passed_bind (passed_application args k app) fun _ => (ih (k + 1)).2⟩

theorem judged_experiment (applications : List String) (args : Arguments) :
    (experiment applications args).Ensures Judged := by
  have hroutine : ∀ r : Request, r.Routine → r.startsCapture = false := fun _ => clear_of_routine
  refine judged_bind (judged_of_blames (blames_setup args) (traces_setup hroutine args rfl))
    (passed_setup args) fun _ => ?_
  obtain ⟨hloop, hpassed⟩ := judged_applicationLoop args 0 applications
  refine judged_bind hloop hpassed fun _ => ?_
  refine judged_of_raises ?_ (traces_saveResults hroutine args)
  refine (Raises.catching fun _ => raises_giveUp (by trivial) _ _).bind fun _ => ?_
  refine (Raises.catching fun _ => raises_giveUp (by trivial) _ _).bind fun _ => ?_
  exact (raises_of_strict (strict_cleanUp _ _)).bind fun _ => raises_of_strict strict_forceStop

end Controller

namespace Wrapper

open Controller

variable {n : ℕ}

/-- A step that takes a host from the country list follows an exception with this host. -/
theorem Move.countryList_eq {o : Outcome} {s s' : State n} (hm : Move o s s') :
    s'.countryList = s.countryList ∨ ∃ row j, s.control = .inner row j ∧
      (o = .host1Exception ∧ s'.countryList = popped s.countryList s.i ∨
        o = .host2Exception ∧ s'.countryList = popped s.countryList j) := by
  cases hm with
  | finish | enterRow | skipRow | endRow | skipColumn | skipCell | complete | fatal
  | indexError => exact Or.inl rfl
  | dropHost row node2 j v c next hc hnode hv hopen ho =>
      refine Or.inr ⟨row, j, hc, ?_⟩
      rcases ho with ⟨rfl, rfl, -⟩ | ⟨rfl, rfl, -⟩
      · exact Or.inl ⟨rfl, rfl⟩
      · exact Or.inr ⟨rfl, rfl⟩

theorem exists_of_outcomeOf {result : Except Raised Unit} :
    (outcomeOf result = .host1Exception → ∃ value, result = .error (.host1Exception value)) ∧
      (outcomeOf result = .host2Exception → ∃ value, result = .error (.host2Exception value)) := by
  unfold outcomeOf
  split <;> simp

/-- A `Host2Exception` always has its reason. The blame is correct as a whole exactly if the run is
not misblamed: then a `Host1Exception` is raised only if the network check of router 1 failed or
its network setup had ended, and for every run of the wrappers up to this call, only for such a
fault is a host thrown away, and it is the host of this router. -/
theorem host_discarded_for_fault {applications : List String} {args : Arguments}
    {trace : List (Request × Answer)} {result : Except Raised Unit}
    (h : (Controller.experiment applications args).Yields trace result)
    {s₀ s s' : State n} (h₀ : Start s₀) (hrun : Run s₀ s)
    (hstep : step (outcomeOf result) s = some s') :
    (∀ value, result = .error (.host2Exception value) → Fault2 trace) ∧
    (((∀ value, result = .error (.host1Exception value) → Fault1 trace) ∧
      (s'.countryList = s.countryList ∨ ∃ row j, s.control = .inner row j ∧
        (Fault1 trace ∧ s'.countryList = popped s.countryList s.i ∨
          Fault2 trace ∧ s'.countryList = popped s.countryList j))) ↔ ¬ Misblamed trace) := by
  have hjudged := judged_experiment applications args trace result h
  refine ⟨hjudged.host2, ?_⟩
  constructor
  · rintro ⟨hhost1, -⟩ hmis
    obtain ⟨⟨value, heq⟩, hsound⟩ := hjudged.misblamed hmis
    exact hsound (hhost1 value heq)
  · intro hmis
    have hhost1 : ∀ value, result = .error (.host1Exception value) → Fault1 trace :=
      fun value heq => (hjudged.host1 value heq).resolve_right hmis
    refine ⟨hhost1, ?_⟩
    have hmove := move_of_step (cached_of_reachable h₀.initial.cached hrun) hstep
    rcases hmove.countryList_eq with hsame | ⟨row, j, hcontrol, ⟨ho, hpopped⟩ | ⟨ho, hpopped⟩⟩
    · exact Or.inl hsame
    · obtain ⟨value, heq⟩ := exists_of_outcomeOf.1 ho
      exact Or.inr ⟨row, j, hcontrol, Or.inl ⟨hhost1 value heq, hpopped⟩⟩
    · obtain ⟨value, heq⟩ := exists_of_outcomeOf.2 ho
      exact Or.inr ⟨row, j, hcontrol, Or.inr ⟨hjudged.host2 value heq, hpopped⟩⟩

def withoutCheck1 : Request → Answer
  | .checkCall .networkCheck1 => { error := some "exit status 1" }
  | r => inOrder r

/-- The host of router 1 is thrown away after its network check failed. -/
theorem host_discarded_for_fault_check1 :
    let run := (Controller.experiment ["chat"] sampleArguments).run (fun _ => withoutCheck1) 0
    let s := execute (fun _ => .returns) 1 (wrapperStart [.entry "BE" [["a", "1", "2"]]])
    run.2 = .error (.host1Exception "Host1 does not work") ∧ Fault1 run.1 ∧
      (step (outcomeOf run.2) s).map (fun s' => s'.countryList.toList) =
        some [.entry "BE" []] := by
  intro run s
  have hresult : run.2 = .error (.host1Exception "Host1 does not work") := rfl
  have hclear : Clear run.1 := by
    unfold Clear Only
    decide
  have hstep : ∃ s', step (outcomeOf run.2) s = some s' := ⟨_, rfl⟩
  obtain ⟨s', hs'⟩ := hstep
  have hblame := (host_discarded_for_fault (Script.yields_run _ 0 _) (Start.wrapper _)
    (execute_run _ 1 _) hs').2.mpr hclear.not_misblamed
  exact ⟨hresult, hblame.1 _ hresult, by decide⟩

def withoutCapture1 : Request → Answer
  | .poll (.measurement1 _) => { status := some 1 }
  | r => inOrder r

/-- The host of router 1 is thrown away although its network check succeeded and its
network setup is running. -/
theorem capture_blames_host1 :
    let run := (Controller.experiment ["chat"] sampleArguments).run (fun _ => withoutCapture1) 0
    let s := execute (fun _ => .returns) 1 (wrapperStart [.entry "BE" [["a", "1", "2"]]])
    (Controller.experiment ["chat"] sampleArguments).Yields run.1 run.2 ∧
      run.2 = .error (.host1Exception "tcpdump problem on host 1 in step 1") ∧ ¬ Fault1 run.1 ∧
      (step (outcomeOf run.2) s).map (fun s' => s'.countryList.toList) =
        some [.entry "BE" []] := by
  intro run s
  refine ⟨Script.yields_run _ 0 _, rfl, ?_, by decide⟩
  have hcheck : ∀ x ∈ run.1, x.1 = .checkCall .networkCheck1 → x.2.error = none := by decide
  have htunnel : ∀ x ∈ run.1, x.1 = .poll .network1 → x.2.status = none := by decide
  rintro (⟨a, hmem, hfailed⟩ | ⟨a, hmem, hended⟩)
  · exact hfailed (hcheck _ hmem rfl)
  · exact hended (htunnel _ hmem rfl)

end Wrapper

end Matador
