import Mathlib.Data.Fintype.Basic
import Mathlib.Data.Vector.Basic
import Matador.Library.Transition
import Matador.Wrapper.Country
import Matador.Wrapper.Matrix

/-!
# The scheduling loops of the wrappers

`wrapper.execute` and `wrapper_delta.execute` try the pairs of countries with the
same two nested loops; they differ in the matrix and the counter they start
from. The loops are modelled as a machine that steps from one loop head to the
next: `Control.outer` is the head of `while i < dif_countries` and
`Control.inner` the head of `while j < dif_countries`, with the values of the row
that the source caches when it enters the row. The label of a step is the outcome
of the call of `controller.experiment`, if the step makes one.

A list access that Python would refuse ends the machine in `Control.indexError`.
The only addition to the state of the source is `log`, the list of calls made so
far with the newest in front. It names the entry of the input a call used by its
country and its position in that country, so that two equal lines of an input
file stay two entries.
-/

namespace Matador

namespace Wrapper

inductive Outcome where
  | returns
  | host1Exception
  | host2Exception
  | fatalException
  | smallException
  deriving DecidableEq, Repr

/-- A line of the input: the country by its index in `country_list` and the
position of the host among the hosts of that country. -/
structure HostEntry where
  country : ℕ
  position : ℕ
  deriving DecidableEq

/-- One side of an experiment: the entry that was used and the values that were
read from it. -/
structure Endpoint where
  entry : HostEntry
  node : Node
  deriving DecidableEq

/-- One call of `controller.experiment` with its outcome. -/
structure Call where
  host1 : Endpoint
  host2 : Endpoint
  counter : ℕ
  outcome : Outcome
  deriving DecidableEq

namespace Call

def pair (c : Call) : Sym2 ℕ := s(c.host1.entry.country, c.host2.entry.country)

def entries (c : Call) : Sym2 HostEntry := s(c.host1.entry, c.host2.entry)

def Completed (c : Call) : Prop := c.outcome = .returns ∨ c.outcome = .smallException

def dropped (c : Call) : Option HostEntry :=
  match c.outcome with
  | .host1Exception => some c.host1.entry
  | .host2Exception => some c.host2.entry
  | _ => none

instance (c : Call) : Decidable c.Completed := inferInstanceAs (Decidable (_ ∨ _))

end Call

def removals (c : ℕ) (log : List Call) : ℕ :=
  log.countP fun d => d.dropped.map HostEntry.country = some c

/-- The places of `execute` at which the machine stops: the two loop heads, the
end of the loops, `sys.exit(3)` and an `IndexError`. -/
inductive Control where
  | outer
  | inner (row : Node) (j : ℕ)
  | finished
  | exited
  | indexError
  deriving DecidableEq

structure State (n : ℕ) where
  countryList : Vector Country n
  matrix : Table n ℕ
  counter : ℕ
  i : ℕ
  control : Control
  log : List Call
  deriving DecidableEq

namespace State

variable {n : ℕ}

def node? (s : State n) (c : ℕ) : Option Node := s.countryList[c]?.bind Country.node?

def first (s : State n) (c : ℕ) : HostEntry := ⟨c, removals c s.log⟩

def hostsLeft (s : State n) (c : ℕ) : ℕ :=
  (s.countryList[c]?.map fun country => country.hosts.length).getD 0

def fail (s : State n) : State n := { s with control := .indexError }

/-- The two branches after a completed experiment: the pair is set to `v`, the
counter and `j` are incremented. -/
def complete (s : State n) (row : Node) (j v : ℕ) : State n :=
  match setPair s.matrix s.i j v with
  | none => s.fail
  | some matrix =>
      { s with matrix := matrix, counter := s.counter + 1, control := .inner row (j + 1) }

/-- The two branches after a host failure: the host of country `c` is popped, the
cells `3` of the country become `2`, `i` is set to `next` and the inner loop is
left, so that the `i = i+1` at the end of the outer loop body follows. -/
def dropHost (s : State n) (c : ℕ) (next : ℤ) : State n :=
  match s.countryList[c]?.bind Country.pop?, relabelCross s.matrix c 3 2 with
  | some country, some matrix =>
      { s with
        countryList := s.countryList.setIfInBounds c country
        matrix := matrix
        i := (next + 1).toNat
        control := .outer }
  | _, _ => s.fail

def call (o : Outcome) (s : State n) (row node2 : Node) (j : ℕ) : Call where
  host1 := ⟨s.first s.i, row⟩
  host2 := ⟨s.first j, node2⟩
  counter := s.counter
  outcome := o

/-- The call of `controller.experiment` in the cell `(i, j)` and the branch of the
`try` statement that its outcome selects. -/
def experiment (o : Outcome) (s : State n) (row node2 : Node) (j : ℕ) : State n :=
  let s := { s with log := s.call o row node2 j :: s.log }
  match o with
  | .returns => s.complete row j 3
  | .host1Exception => s.dropHost s.i ((s.i : ℤ) - 1)
  | .host2Exception => s.dropHost j (if j < s.i then (j : ℤ) - 1 else s.i)
  | .fatalException => { s with control := .exited }
  | .smallException => s.complete row j 4

def outerStep (s : State n) : State n :=
  if s.i < n then
    match s.countryList[s.i]? with
    | none => s.fail
    | some country1 =>
        if 1 < country1.len then
          match country1.node? with
          | none => s.fail
          | some row => { s with control := .inner row 0 }
        else
          match country1.code?, relabelCross s.matrix s.i 1 0 with
          | some _, some matrix => { s with matrix := matrix, i := s.i + 1 }
          | _, _ => s.fail
  else { s with control := .finished }

def innerStep (o : Outcome) (s : State n) (row : Node) (j : ℕ) : State n :=
  if j < n then
    match s.countryList[j]? with
    | none => s.fail
    | some country2 =>
        if 1 < country2.len then
          match country2.node?, s.matrix.get? s.i j with
          | some node2, some v =>
              if 0 < v ∧ v ≤ 2 then s.experiment o row node2 j
              else { s with control := .inner row (j + 1) }
          | _, _ => s.fail
        else
          match s.countryList[s.i]?.bind Country.code?, country2.code?,
              relabelCross s.matrix j 1 0 with
          | some _, some _, some matrix =>
              { s with matrix := matrix, control := .inner row (j + 1) }
          | _, _, _ => s.fail
  else { s with i := s.i + 1, control := .outer }

end State

def step {n : ℕ} (o : Outcome) (s : State n) : Option (State n) :=
  match s.control with
  | .outer => some s.outerStep
  | .inner row j => some (s.innerStep o row j)
  | .finished | .exited | .indexError => none

def State.start (countryList : List Country) (matrix : Table countryList.length ℕ)
    (counter : ℕ) : State countryList.length where
  countryList := ⟨countryList.toArray, by simp⟩
  matrix := matrix
  counter := counter
  i := 0
  control := .outer
  log := []

/-- `wrapper.execute`: every cell starts as `1` and the counter as `0`. -/
def wrapperStart (countryList : List Country) : State countryList.length :=
  State.start countryList (Table.fill _ 1) 0

/-- The outcome of the next call under a fixed sequence of outcomes: the `k`-th
call ends with `outcomes k`. -/
def nextOutcome {n : ℕ} (outcomes : ℕ → Outcome) (s : State n) : Outcome :=
  outcomes s.log.length

/-- The scheduling loops under a fixed sequence of outcomes, for `k` steps. -/
def execute {n : ℕ} (outcomes : ℕ → Outcome) (k : ℕ) (s : State n) : State n :=
  Transition.run step (nextOutcome outcomes) k s

end Wrapper

end Matador
