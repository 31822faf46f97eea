import Mathlib.Logic.Function.Basic
import Matador.Library.Contract
import Matador.Library.FirstMatch
import Matador.Phone.Adb

/-!
# The firewall of a phone

The filter table of a phone as the commands of `adb.py` see it: the built-in chain
`OUTPUT` and the measurement chain, if it exists. `-A` appends a rule, `-I` inserts one
at the head, `-D` removes the first rule that is equal to the given one, and the first
rule that matches decides. How `iptables` reads an owner is a parameter: a uid or a range
of uids, or nothing that it accepts.

A trace is played on the phones: a `check_call` of `iptables` returns exactly if the
command succeeds, and one that raises leaves the table as it was. What the trace does to
one phone is determined by the `iptables` commands that succeed on this phone.
-/

namespace Matador

namespace Phone

structure Owner where
  first : ℕ
  last : ℕ
  deriving DecidableEq

def Owner.covers (owner : Owner) (uid : ℕ) : Bool := owner.first ≤ uid && uid ≤ owner.last

structure Rule where
  owner : Owner
  target : Target
  deriving DecidableEq

/-- A rule of `OUTPUT`: the jump to the measurement chain, or one of the phone itself. -/
inductive OutputRule where
  | jump
  | other (rule : String)
  deriving DecidableEq

structure Filter where
  output : List OutputRule
  measurement : Option (List Rule)
  deriving DecidableEq

/-- What the measurement chain decides about the packets of a uid; the end of the chain
returns to `OUTPUT`. -/
def Filter.verdict (filter : Filter) (uid : ℕ) : Target :=
  FirstMatch.verdict (fun rule : Rule => rule.owner.covers) Rule.target .RETURN
    (filter.measurement.getD []) uid

def Filter.Rejects (filter : Filter) (uid : ℕ) : Prop :=
  .jump ∈ filter.output ∧ filter.verdict uid = .REJECT

instance (filter : Filter) (uid : ℕ) : Decidable (filter.Rejects uid) :=
  inferInstanceAs (Decidable (_ ∧ _))

/-! ## Commands -/

section Commands

variable (read : String → Option Owner)

def readRule (owner : String) (target : Target) : Option Rule :=
  (read owner).map fun o => ⟨o, target⟩

/-- The table after a command; `none` if the command fails. -/
def execute (filter : Filter) : Iptables → Option Filter
  | .newChain =>
      if filter.measurement = none then some { filter with measurement := some [] } else none
  | .insertJump =>
      if filter.measurement = none then none
      else some { filter with output := .jump :: filter.output }
  | .append owner target => do
      let rules ← filter.measurement
      let rule ← readRule read owner target
      some { filter with measurement := some (rules ++ [rule]) }
  | .insert owner target => do
      let rules ← filter.measurement
      let rule ← readRule read owner target
      some { filter with measurement := some (rule :: rules) }
  | .delete owner target => do
      let rules ← filter.measurement
      let rule ← readRule read owner target
      if rule ∈ rules then some { filter with measurement := some (rules.erase rule) } else none
  | .flush => do
      let _ ← filter.measurement
      some { filter with measurement := some [] }
  | .deleteJump =>
      if .jump ∈ filter.output then some { filter with output := filter.output.erase .jump }
      else none
  | .deleteChain =>
      if filter.measurement = some [] ∧ .jump ∉ filter.output then
        some { filter with measurement := none }
      else none

/-- Commands joined by semicolons: all are executed, and the last one decides whether the
call succeeds. -/
def executeAll (filter : Filter) : List Iptables → Option Filter
  | [] => some filter
  | [command] => execute read filter command
  | command :: rest => executeAll ((execute read filter command).getD filter) rest

/-- The phones after a call, if they can have answered it in this way. -/
def react (phones : String → Filter) : Request × Answer → Option (String → Filter)
  | (.checkCall device (.iptables commands), answer) =>
      if answer.error = none then
        (executeAll read (phones device) commands).map (Function.update phones device)
      else some phones
  | _ => some phones

def play (phones : String → Filter) (trace : Trace) : Option (String → Filter) :=
  trace.foldlM (react read) phones

theorem play_append (phones : String → Filter) (t t' : Trace) :
    play read phones (t ++ t') = (play read phones t).bind fun mid => play read mid t' := by
  unfold play
  rw [List.foldlM_append]
  rfl

end Commands

/-! ## The commands of one phone -/

def commandOn (device : String) : Request × Answer → Option (List Iptables)
  | (.checkCall d (.iptables commands), answer) =>
      if d = device ∧ answer.error = none then some commands else none
  | _ => none

def commandsOn (device : String) (trace : Trace) : List (List Iptables) :=
  trace.filterMap (commandOn device)

theorem commandsOn_append (device : String) (t t' : Trace) :
    commandsOn device (t ++ t') = commandsOn device t ++ commandsOn device t' :=
  List.filterMap_append

section Frame

variable {read : String → Option Owner} {phones phones' : String → Filter}

theorem react_device {x : Request × Answer} (h : react read phones x = some phones')
    (device : String) :
    (commandOn device x).toList.foldlM (executeAll read) (phones device) =
      some (phones' device) := by
  unfold react at h
  split at h
  · rename_i d commands answer
    by_cases herror : answer.error = none
    · rw [if_pos herror, Option.map_eq_some_iff] at h
      obtain ⟨filter, hexecute, rfl⟩ := h
      by_cases hd : d = device
      · subst hd
        simp [commandOn, herror, hexecute]
      · simp [commandOn, hd, Function.update_of_ne (Ne.symm hd)]
    · rw [if_neg herror] at h
      obtain rfl := Option.some.inj h
      simp [commandOn, herror]
  · rename_i hother
    obtain rfl := Option.some.inj h
    have hnone : commandOn device x = none := by
      unfold commandOn
      split
      · exact absurd rfl (hother _ _ _)
      · rfl
    simp [hnone]

/-- A trace changes the table of a phone by the commands on this phone only. -/
theorem play_device {trace : Trace} (h : play read phones trace = some phones')
    (device : String) :
    (commandsOn device trace).foldlM (executeAll read) (phones device) =
      some (phones' device) := by
  induction trace generalizing phones with
  | nil =>
      obtain rfl := Option.some.inj h
      rfl
  | cons x trace ih =>
      have hplay : (react read phones x).bind (fun mid => play read mid trace) = some phones' := h
      obtain ⟨mid, hreact, hrest⟩ := Option.bind_eq_some_iff.mp hplay
      have hcommands : commandsOn device (x :: trace) =
          (commandOn device x).toList ++ commandsOn device trace := by
        cases hx : commandOn device x <;> simp [commandsOn, hx]
      rw [hcommands, List.foldlM_append, react_device hreact device]
      exact ih hrest

end Frame

end Phone

end Matador
