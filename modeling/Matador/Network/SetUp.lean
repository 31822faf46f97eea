import Matador.Library.Modify
import Matador.Library.Transition
import Matador.Library.Words
import Mathlib.Data.Int.Notation

/-!
# The network module

`set_up` starts the configured steps one after another. A step that ends is waited for, the
others are kept in `running_commands` and run in groups of their own. Afterwards the first
command is polled and waited for; an exception on the way leads to the `except` clause,
which terminates what is still running and exits with status 3.

The model is a machine whose state holds the place in the program between two statements,
`running_commands`, and the process that `Popen` has returned and that is not yet in the
list. An event says whether the statement goes on or raises, or which command ends.
`hangUp` is the arrival of SIGHUP or SIGINT; the handler `close` is run by the machine, too.

A group whose leader has been reaped may be gone, so that `killpg` raises
`ProcessLookupError`, or may have other members left. Texts that are printed and missing
rights to send a signal are not part of the model.
-/

namespace Matador

namespace Network

/-- A section of `network.ini` whose options can be read. -/
structure Step where
  parameter : String
  command : String
  timeout : ℤ
  ends : Bool

/-- The command of a step: the host is appended for every parameter that asks for it. -/
def Step.text (host : String) (step : Step) : String :=
  (Words.splitCommaBlank step.parameter.toList).foldl
    (fun command parameter => if parameter = "host".toList then command ++ host else command)
    step.command

structure Process where
  text : String
  ended : Bool := false
  reaped : Bool := false
  signalled : Bool := false
deriving DecidableEq

namespace Process

def finish (p : Process) : Process := { p with ended := true }

def reap (p : Process) : Process := { p with reaped := true }

def signal (p : Process) : Process := { p with signalled := true }

theorem text_finish (p : Process) : p.finish.text = p.text := rfl

theorem text_reap (p : Process) : p.reap.text = p.text := rfl

theorem text_signal (p : Process) : p.signal.text = p.text := rfl

end Process

/-- Places between two statements. -/
inductive Point where
  /-- The handlers are installed and `running_commands` is not yet defined. -/
  | main
  /-- Before the `try` statement. -/
  | defined
  /-- The head of the loop over the steps. -/
  | loop (i : ℕ)
  /-- In `check_call`. -/
  | checking (i : ℕ)
  /-- `Popen` has returned. -/
  | spawned (i : ℕ)
  /-- In `sleep(timeout)`. -/
  | sleeping (i : ℕ)
  /-- The head of the loop over `running_commands`. -/
  | monitor
  /-- The first command has ended, and the others are terminated. -/
  | killing (r : ℕ)
  /-- In `communicate` of the first command. -/
  | waiting
  /-- Before `raise MyException`. -/
  | failed
  /-- In `sleep(2)`. -/
  | idle
  /-- The `except` clause, before `poll`. -/
  | handling (k : ℕ)
  /-- The `except` clause, before `killpg`. -/
  | signalling (k : ℕ)
  /-- Before `sys.exit(3)`. -/
  | leaving
  /-- In the loop of `close`, called within the `try` statement or outside of it. -/
  | closing (k : ℕ) (inTry : Bool)
  | exited (status : ℕ)
deriving DecidableEq

structure State where
  point : Point := .main
  commands : List Process := []
  fresh : Option Process := none
deriving DecidableEq

inductive Event where
  /-- The statement goes on. -/
  | next
  /-- The statement raises an exception. -/
  | raises
  /-- The command with this number ends. -/
  | ends (k : ℕ)
deriving DecidableEq

section Machine

-- The sections `step1`, `step2`, …, where `none` is one that cannot be read.
variable (host : String) (steps : List (Option Step))

/-- The statement goes on. The body of the loop over `running_commands` always raises, so only
the first command is looked at. -/
def State.next (s : State) : Option State :=
  match s.point with
  | .main => some { s with point := .defined, commands := [] }
  | .defined => some { s with point := .loop 0 }
  | .loop i =>
      match steps[i]? with
      | none => some { s with point := .monitor }
      | some none => none
      | some (some step) =>
          if step.ends then some { s with point := .checking i }
          else some { s with point := .spawned i, fresh := some { text := step.text host } }
  | .checking i => some { s with point := .sleeping i }
  | .spawned i =>
      some { point := .sleeping i, commands := s.commands ++ s.fresh.toList, fresh := none }
  | .sleeping i =>
      match steps[i]? with
      | some (some step) =>
          if 0 ≤ step.timeout then some { s with point := .loop (i + 1) } else none
      | _ => none
  | .monitor =>
      match s.commands[0]? with
      | none => some { s with point := .idle }
      | some p =>
          if p.ended then
            some { s with point := .killing 1, commands := s.commands.modify 0 Process.reap }
          else some { s with point := .waiting }
  | .killing r =>
      match s.commands[r]? with
      | none => some { s with point := .waiting }
      | some _ =>
          some { s with point := .killing (r + 1), commands := s.commands.modify r Process.signal }
  | .waiting =>
      match s.commands[0]? with
      | none => none
      | some p =>
          if p.ended then
            some { s with point := .failed, commands := s.commands.modify 0 Process.reap }
          else none
  | .failed => some { s with point := .handling 0 }
  | .idle => some { s with point := .monitor }
  | .handling k =>
      match s.commands[k]? with
      | none => some { s with point := .leaving }
      | some p =>
          if p.ended then
            some { s with point := .handling (k + 1), commands := s.commands.modify k Process.reap }
          else some { s with point := .signalling k }
  | .signalling k =>
      some { s with point := .handling (k + 1), commands := s.commands.modify k Process.signal }
  | .leaving => some { s with point := .exited 3 }
  | .closing k inTry =>
      match s.commands[k]? with
      | none => some { s with point := .exited 0 }
      | some _ =>
          some { s with
            point := .closing (k + 1) inTry, commands := s.commands.modify k Process.signal }
  | .exited _ => none

/-- The statement raises: the options of a step cannot be read, a command cannot be started
or fails, `sleep` gets a negative number, or `killpg` finds no group. -/
def State.raise (s : State) : Option State :=
  match s.point with
  | .loop i => if steps[i]? = none then none else some { s with point := .handling 0 }
  | .checking _ => some { s with point := .handling 0 }
  | .sleeping i =>
      match steps[i]? with
      | some (some step) =>
          if step.timeout < 0 then some { s with point := .handling 0 } else none
      | _ => none
  | .closing k inTry =>
      match s.commands[k]? with
      | none => none
      | some p =>
          if p.reaped then
            some { s with point := if inTry then .handling 0 else .exited 1 }
          else none
  | _ => none

/-- A command ends: one of the list, or the one that `Popen` has just returned. -/
def State.finish (k : ℕ) (s : State) : Option State :=
  if k < s.commands.length then some { s with commands := s.commands.modify k Process.finish }
  else some { s with fresh := s.fresh.map Process.finish }

def step : Event → State → Option State
  | .next, s => s.next host steps
  | .raises, s => s.raise steps
  | .ends k, s => s.finish k

/-- SIGHUP or SIGINT arrives: `close` is called. Before `running_commands` is defined it
raises `NameError`. -/
def State.hangUp (s : State) : State :=
  match s.point with
  | .main => { s with point := .exited 1 }
  | .defined | .handling _ | .signalling _ | .leaving => { s with point := .closing 0 false }
  | .closing _ _ | .exited _ => s
  | _ => { s with point := .closing 0 true }

end Machine

/-! ## What a run without a signal keeps -/

def Process.Settled (p : Process) : Prop := p.ended = true ∨ p.signalled = true

instance (p : Process) : Decidable p.Settled := inferInstanceAs (Decidable (_ ∨ _))

theorem Process.Settled.finish {p : Process} (_ : p.Settled) : p.finish.Settled := Or.inl rfl

theorem Process.Settled.reap {p : Process} (h : p.Settled) : p.reap.Settled := h

theorem Process.Settled.signal {p : Process} (_ : p.Settled) : p.signal.Settled := Or.inr rfl

def State.TornDown (s : State) : Prop :=
  (∀ p ∈ s.commands, p.Settled) ∧ ∀ p, s.fresh = some p → p.Settled

def longRunning (host : String) (steps : List (Option Step)) : List String :=
  steps.filterMap fun entry => entry.bind fun step =>
    if step.ends then none else some (step.text host)

def Passes (entry : Option Step) : Prop := ∃ step, entry = some step ∧ 0 ≤ step.timeout

/-- These steps are done, and their commands are in the list. -/
structure Passed (host : String) (steps : List (Option Step)) (s : State) : Prop where
  passes : ∀ entry ∈ steps, Passes entry
  commands : s.commands.map Process.text = longRunning host steps
  fresh : s.fresh = none

/-- What is known at each place of a run without a signal. -/
def Located (host : String) (steps : List (Option Step)) (s : State) : Prop :=
  match s.point with
  | .main | .defined => s.commands = [] ∧ s.fresh = none
  | .loop i => Passed host (steps.take i) s
  | .checking i =>
      Passed host (steps.take i) s ∧ ∃ step, steps[i]? = some (some step) ∧ step.ends = true
  | .spawned i => (∀ entry ∈ steps.take i, Passes entry) ∧
      ∃ p, s.fresh = some p ∧
        (s.commands ++ [p]).map Process.text = longRunning host (steps.take (i + 1))
  | .sleeping i => (∀ entry ∈ steps.take i, Passes entry) ∧
      s.commands.map Process.text = longRunning host (steps.take (i + 1)) ∧ s.fresh = none
  | .monitor | .killing _ | .waiting | .idle => Passed host steps s
  | .failed => s.fresh = none
  | .handling k | .signalling k => Modify.Below Process.Settled k s.commands ∧ s.fresh = none
  | .leaving | .exited _ => s.TornDown ∧ s.fresh = none
  | .closing _ _ => False

section Invariant

variable {host : String} {steps : List (Option Step)}

theorem longRunning_take_succ {i : ℕ} {step : Step} (h : steps[i]? = some (some step)) :
    longRunning host (steps.take (i + 1)) = longRunning host (steps.take i) ++
      if step.ends then [] else [step.text host] := by
  unfold longRunning
  rw [List.take_add_one, h, List.filterMap_append]
  cases hends : step.ends <;> simp [hends]

theorem passes_take_succ {i : ℕ} {step : Step} (h : steps[i]? = some (some step))
    (htimeout : 0 ≤ step.timeout) (hall : ∀ entry ∈ steps.take i, Passes entry) :
    ∀ entry ∈ steps.take (i + 1), Passes entry := by
  intro entry hentry
  rw [List.take_add_one, h] at hentry
  rcases List.mem_append.mp hentry with hentry | hentry
  · exact hall entry hentry
  · obtain rfl := List.mem_singleton.mp hentry
    exact ⟨step, rfl, htimeout⟩

structure Updated (s s' : State) : Prop where
  point : s'.point = s.point
  texts : s'.commands.map Process.text = s.commands.map Process.text
  below : ∀ k,
    Modify.Below Process.Settled k s.commands → Modify.Below Process.Settled k s'.commands
  fresh : s'.fresh.map Process.text = s.fresh.map Process.text

theorem finish_cases {k : ℕ} {s s' : State} (h : s.finish k = some s') :
    s' = { s with commands := s.commands.modify k Process.finish } ∨
      s' = { s with fresh := s.fresh.map Process.finish } := by
  unfold State.finish at h
  split at h
  · exact Or.inl (Option.some.inj h).symm
  · exact Or.inr (Option.some.inj h).symm

theorem updated_finish {k : ℕ} {s s' : State} (h : s.finish k = some s') : Updated s s' := by
  rcases finish_cases h with rfl | rfl
  · exact ⟨rfl, Modify.map_modify_of_eq Process.text_finish _ k,
      fun _ hbelow => hbelow.modify (fun _ => Process.Settled.finish) k, rfl⟩
  · exact ⟨rfl, rfl, fun _ hbelow => hbelow, by cases s.fresh <;> rfl⟩

theorem Updated.fresh_none {s s' : State} (h : Updated s s') (hs : s.fresh = none) :
    s'.fresh = none := by
  have hmap := h.fresh
  rw [hs, Option.map_none, Option.map_eq_none_iff] at hmap
  exact hmap

theorem Updated.commands_nil {s s' : State} (h : Updated s s') (hs : s.commands = []) :
    s'.commands = [] := by
  have hmap := h.texts
  rw [hs, List.map_nil, List.map_eq_nil_iff] at hmap
  exact hmap

theorem Updated.passed {s s' : State} (h : Updated s s') {before : List (Option Step)}
    (hs : Passed host before s) : Passed host before s' :=
  ⟨hs.passes, h.texts.trans hs.commands, h.fresh_none hs.fresh⟩

theorem Updated.tornDown {s s' : State} (h : Updated s s') (hs : s.TornDown ∧ s.fresh = none) :
    s'.TornDown ∧ s'.fresh = none := by
  have hnone := h.fresh_none hs.2
  have hbelow := h.below s.commands.length fun j _ x hx => hs.1.1 x (List.mem_of_getElem? hx)
  have hlen : s'.commands.length = s.commands.length := by
    simpa using congrArg List.length h.texts
  refine ⟨⟨hbelow.forall_mem ?_, fun p hp => ?_⟩, hnone⟩
  · exact List.getElem?_eq_none_iff.mpr (Nat.le_of_eq hlen)
  · rw [hnone] at hp
    cases hp

theorem Updated.located {s s' : State} (h : Updated s s') (hs : Located host steps s) :
    Located host steps s' := by
  unfold Located at hs ⊢
  rw [h.point]
  cases hpoint : s.point <;> rw [hpoint] at hs <;> dsimp only at hs ⊢
  case main | defined => exact ⟨h.commands_nil hs.1, h.fresh_none hs.2⟩
  case loop => exact h.passed hs
  case checking => exact ⟨h.passed hs.1, hs.2⟩
  case spawned i =>
    obtain ⟨hpasses, p, hp, htexts⟩ := hs
    have hmap := h.fresh
    rw [hp, Option.map_some, Option.map_eq_some_iff] at hmap
    obtain ⟨p', hp', htext⟩ := hmap
    refine ⟨hpasses, p', hp', ?_⟩
    rw [← htexts, List.map_append, List.map_append, h.texts, List.map_singleton,
      List.map_singleton, htext]
  case sleeping i => exact ⟨hs.1, h.texts.trans hs.2.1, h.fresh_none hs.2.2⟩
  case monitor | killing | waiting | idle => exact h.passed hs
  case failed => exact h.fresh_none hs
  case handling k | signalling k => exact ⟨h.below k hs.1, h.fresh_none hs.2⟩
  case leaving | exited => exact h.tornDown hs

theorem Passed.moveTo {before : List (Option Step)} {s : State} (h : Passed host before s)
    (point : Point) : Passed host before { s with point := point } :=
  ⟨h.passes, h.commands, h.fresh⟩

theorem Passed.modify {before : List (Option Step)} {s : State} (h : Passed host before s)
    {f : Process → Process} (hf : ∀ p, (f p).text = p.text) (k : ℕ) (point : Point) :
    Passed host before ⟨point, s.commands.modify k f, s.fresh⟩ :=
  ⟨h.passes, (Modify.map_modify_of_eq hf _ k).trans h.commands, h.fresh⟩

/-- One more command is settled, because it has ended and is reaped … -/
theorem below_reap {commands : List Process} {k : ℕ} {p : Process}
    (h : Modify.Below Process.Settled k commands) (hp : commands[k]? = some p)
    (hended : p.ended = true) :
    Modify.Below Process.Settled (k + 1) (commands.modify k Process.reap) := by
  refine h.modify_succ (fun _ => Process.Settled.reap) fun x hx => ?_
  obtain rfl := Option.some.inj (hp.symm.trans hx)
  exact Or.inl hended

/-- … or because SIGTERM is sent to it. -/
theorem below_signal {commands : List Process} {k : ℕ}
    (h : Modify.Below Process.Settled k commands) :
    Modify.Below Process.Settled (k + 1) (commands.modify k Process.signal) :=
  h.modify_succ (fun _ => Process.Settled.signal) fun _ _ => Or.inr rfl

section Next

variable {commands : List Process} {fresh : Option Process} {s' : State} {i r k : ℕ}

theorem next_loop (hs : Located host steps ⟨.loop i, commands, fresh⟩)
    (h : State.next host steps ⟨.loop i, commands, fresh⟩ = some s') : Located host steps s' := by
  unfold State.next at h
  dsimp only [Located] at hs h
  split at h
  case h_1 hnone =>
    obtain rfl := Option.some.inj h
    rw [List.take_of_length_le (List.getElem?_eq_none_iff.mp hnone)] at hs
    exact hs.moveTo _
  case h_2 => cases h
  case h_3 step hstep =>
    split at h <;> rename_i hends
    · obtain rfl := Option.some.inj h
      exact ⟨hs.moveTo _, step, hstep, hends⟩
    · obtain rfl := Option.some.inj h
      refine ⟨hs.passes, _, rfl, ?_⟩
      rw [longRunning_take_succ hstep, if_neg hends, List.map_append, hs.commands]
      rfl

theorem next_sleeping (hs : Located host steps ⟨.sleeping i, commands, fresh⟩)
    (h : State.next host steps ⟨.sleeping i, commands, fresh⟩ = some s') :
    Located host steps s' := by
  unfold State.next at h
  dsimp only [Located] at hs h
  split at h
  case h_1 step hstep =>
    split at h <;> rename_i htimeout
    · obtain rfl := Option.some.inj h
      exact ⟨passes_take_succ hstep htimeout hs.1, hs.2.1, hs.2.2⟩
    · cases h
  case h_2 => cases h

theorem next_monitor (hs : Located host steps ⟨.monitor, commands, fresh⟩)
    (h : State.next host steps ⟨.monitor, commands, fresh⟩ = some s') : Located host steps s' := by
  unfold State.next at h
  dsimp only [Located] at hs h
  split at h
  case h_1 =>
    obtain rfl := Option.some.inj h
    exact hs.moveTo _
  case h_2 p hp =>
    split at h
    · obtain rfl := Option.some.inj h
      exact hs.modify Process.text_reap 0 _
    · obtain rfl := Option.some.inj h
      exact hs.moveTo _

theorem next_killing (hs : Located host steps ⟨.killing r, commands, fresh⟩)
    (h : State.next host steps ⟨.killing r, commands, fresh⟩ = some s') :
    Located host steps s' := by
  unfold State.next at h
  dsimp only [Located] at hs h
  split at h
  · obtain rfl := Option.some.inj h
    exact hs.moveTo _
  · obtain rfl := Option.some.inj h
    exact hs.modify Process.text_signal r _

theorem next_waiting (hs : Located host steps ⟨.waiting, commands, fresh⟩)
    (h : State.next host steps ⟨.waiting, commands, fresh⟩ = some s') : Located host steps s' := by
  unfold State.next at h
  dsimp only [Located] at hs h
  split at h
  · cases h
  · split at h
    · obtain rfl := Option.some.inj h
      exact hs.fresh
    · cases h

theorem next_handling (hs : Located host steps ⟨.handling k, commands, fresh⟩)
    (h : State.next host steps ⟨.handling k, commands, fresh⟩ = some s') :
    Located host steps s' := by
  unfold State.next at h
  dsimp only [Located] at hs h
  split at h
  case h_1 hnone =>
    obtain rfl := Option.some.inj h
    exact ⟨⟨hs.1.forall_mem hnone, fun p hp => (nomatch hs.2.symm.trans hp)⟩, hs.2⟩
  case h_2 p hp =>
    split at h <;> rename_i hended
    · obtain rfl := Option.some.inj h
      exact ⟨below_reap hs.1 hp hended, hs.2⟩
    · obtain rfl := Option.some.inj h
      exact hs

end Next

theorem located_next {s s' : State} (hs : Located host steps s)
    (h : s.next host steps = some s') : Located host steps s' := by
  obtain ⟨point, commands, fresh⟩ := s
  cases point with
  | main =>
      obtain rfl := Option.some.inj h
      exact ⟨rfl, hs.2⟩
  | defined =>
      obtain rfl := Option.some.inj h
      obtain rfl : commands = [] := hs.1
      exact ⟨fun _ hentry => (nomatch hentry), rfl, hs.2⟩
  | loop i => exact next_loop hs h
  | checking i =>
      obtain rfl := Option.some.inj h
      obtain ⟨hpassed, step, hstep, hends⟩ := hs
      refine ⟨hpassed.passes, ?_, hpassed.fresh⟩
      rw [longRunning_take_succ hstep, if_pos hends, List.append_nil]
      exact hpassed.commands
  | spawned i =>
      obtain rfl := Option.some.inj h
      obtain ⟨hpasses, p, hp, htexts⟩ := hs
      obtain rfl : fresh = some p := hp
      exact ⟨hpasses, htexts, rfl⟩
  | sleeping i => exact next_sleeping hs h
  | monitor => exact next_monitor hs h
  | killing r => exact next_killing hs h
  | waiting => exact next_waiting hs h
  | failed =>
      obtain rfl := Option.some.inj h
      exact ⟨Modify.below_zero _, hs⟩
  | idle =>
      obtain rfl := Option.some.inj h
      exact Passed.moveTo hs _
  | handling k => exact next_handling hs h
  | signalling k =>
      obtain rfl := Option.some.inj h
      exact ⟨below_signal hs.1, hs.2⟩
  | leaving =>
      obtain rfl := Option.some.inj h
      exact hs
  | closing k inTry => exact hs.elim
  | exited status => cases h

theorem located_raise {s s' : State} (hs : Located host steps s)
    (h : s.raise steps = some s') : Located host steps s' := by
  obtain ⟨point, commands, fresh⟩ := s
  unfold State.raise at h
  cases point <;> dsimp only [Located] at hs h
  case loop i =>
    split at h
    · cases h
    · obtain rfl := Option.some.inj h
      exact ⟨Modify.below_zero _, hs.fresh⟩
  case checking i =>
    obtain rfl := Option.some.inj h
    exact ⟨Modify.below_zero _, hs.1.fresh⟩
  case sleeping i =>
    split at h
    · split at h
      · obtain rfl := Option.some.inj h
        exact ⟨Modify.below_zero _, hs.2.2⟩
      · cases h
    · cases h
  all_goals cases h

theorem located_step {e : Event} {s s' : State} (hs : Located host steps s)
    (h : step host steps e s = some s') : Located host steps s' := by
  cases e with
  | next => exact located_next hs h
  | raises => exact located_raise hs h
  | ends k => exact (updated_finish h).located hs

/-- A run without a signal, in which everything may happen at any time. -/
def Runs (host : String) (steps : List (Option Step)) : State → State → Prop :=
  Transition.Reachable (step host steps) fun _ _ => True

theorem located_of_runs {s : State} (h : Runs host steps {} s) : Located host steps s :=
  h.invariant ⟨rfl, rfl⟩ fun _ _ _ _ hs _ hstep => located_step hs hstep

end Invariant

end Network

end Matador
