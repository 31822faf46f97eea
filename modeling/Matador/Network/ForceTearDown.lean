import Mathlib.Data.List.Infix
import Matador.Library.Delimited

/-!
# Killing what is left of a tunnel

`network_force_tear_down` takes the first line of `ps x -o "%r %c"` that has the word
`tunnel` in it, splits it at single blanks, and sends SIGKILL to the group that the second
part names. The number of the group is right-aligned in a column, so what stands in the
second part depends on the number of blanks before it: it is the number if there is exactly
one, nothing if there are more, and the command name if there is none. Moreover only one
group is killed, and the word may be a part of another name.

The shell that runs `kill` is a parameter with its documented behaviour: a number names a
group, and nothing else does.
-/

namespace Matador

namespace Network

structure Listed where
  group : ℕ
  pos : 0 < group
  command : String

namespace Listed

def digits (p : Listed) : List Char := (toString p.group).toList

/-- The line that `ps` prints: the number in a column of the given width, a blank and the
command name. -/
def line (width : ℕ) (p : Listed) : List Char :=
  List.replicate (width - p.digits.length) ' ' ++ p.digits ++ ' ' :: p.command.toList

def Named (p : Listed) : Prop := "tunnel".toList <:+: p.command.toList

instance (p : Listed) : Decidable p.Named := inferInstanceAs (Decidable (_ <:+: _))

def firstWord (p : Listed) : List Char :=
  ((p.command.toList ++ ['\n']).splitOn ' ').headD []

end Listed

/-- The groups that `kill -9 -` with some text behind it sends SIGKILL to, and whether it
exits with 0. -/
structure Killing where
  groups : List ℕ
  succeeds : Bool
  deriving DecidableEq

structure Ending where
  status : ℕ
  groups : List ℕ
  deriving DecidableEq

def grepTunnel (lines : List (List Char)) : Option (List Char) :=
  lines.find? fun line => "tunnel".toList <:+: line

def tunnelPid (line : List Char) : Option (List Char) := ((line ++ ['\n']).splitOn ' ')[1]?

/-- The script on a process table. Without a line it exits with 0, and without a second part
it would end with an `IndexError`. -/
def forceTearDown (kill : List Char → Killing) (width : ℕ) (table : List Listed) : Ending :=
  match grepTunnel (table.map (Listed.line width)) with
  | none => ⟨0, []⟩
  | some line =>
      match tunnelPid line with
      | none => ⟨1, []⟩
      | some pid => ⟨if (kill pid).succeeds then 0 else 3, (kill pid).groups⟩

/-- When the script exits with 0, every group of a process with the name `tunnel` was killed,
and otherwise the kill of such a group has failed. -/
def KillsTunnels (table : List Listed) (ending : Ending) : Prop :=
  (ending.status = 0 → ∀ p ∈ table, p.command = "tunnel" → p.group ∈ ending.groups) ∧
    (ending.status ≠ 0 → ∃ p ∈ table, p.command = "tunnel" ∧ p.group ∈ ending.groups)

def Ordinary (c : Char) : Prop := c.isAlphanum ∨ c = '-' ∨ c = '_' ∨ c = '.'

instance (c : Char) : Decidable (Ordinary c) := inferInstanceAs (Decidable (_ ∨ _))

/-- The documented behaviour of `kill -9 -` with some text behind it: the number of a group is
the only text that names one, and nothing is sent for an empty text or a name. -/
structure KillCommand where
  run : List Char → Killing
  number : ∀ p : Listed, (run p.digits).groups = [p.group]
  empty : run [] = ⟨[], false⟩
  name : ∀ name, "tunnel".toList <:+: name → (∀ c ∈ name, Ordinary c) →
    run (name ++ ['\n']) = ⟨[], false⟩

/-! ## The line that is found -/

theorem infix_append_iff {α : Type*} {word front rest : List α} (hne : word ≠ [])
    (h : ∀ c ∈ word, c ∉ front) : word <:+: front ++ rest ↔ word <:+: rest := by
  induction front with
  | nil => rw [List.nil_append]
  | cons a front ih =>
      rw [List.cons_append, List.infix_cons_iff,
        ih fun c hc hmem => h c hc (List.mem_cons_of_mem a hmem)]
      refine or_iff_right fun hpre => ?_
      obtain ⟨c, word, rfl⟩ := List.exists_cons_of_ne_nil hne
      have hhead : c = a := (List.cons_prefix_cons.mp hpre).1
      exact h c List.mem_cons_self (hhead ▸ List.mem_cons_self)

/-- The word is never in the column of the numbers. -/
theorem Listed.infix_line_iff (width : ℕ) (p : Listed) :
    "tunnel".toList <:+: p.line width ↔ p.Named := by
  have hline : p.line width =
      (List.replicate (width - p.digits.length) ' ' ++ p.digits ++ [' ']) ++
        p.command.toList := by
    simp [Listed.line]
  rw [hline]
  have hletters : "tunnel".toList.all (fun c => c.isDigit = false ∧ c ≠ ' ') = true := by decide
  refine infix_append_iff (by decide) fun c hc => ?_
  have hletter : c.isDigit = false ∧ c ≠ ' ' :=
    of_decide_eq_true (List.all_eq_true.mp hletters c hc)
  simp only [List.mem_append, List.mem_replicate, List.mem_singleton, not_or]
  exact ⟨⟨fun h => hletter.2 h.2, Delimited.notMem_toString hletter.1 p.group⟩, hletter.2⟩

theorem grepTunnel_eq (width : ℕ) (table : List Listed) :
    grepTunnel (table.map (Listed.line width)) =
      (table.find? fun p => p.Named).map (Listed.line width) := by
  have hpredicate : (fun line => decide ("tunnel".toList <:+: line)) ∘ Listed.line width =
      fun p : Listed => decide p.Named := by
    funext p
    rw [Function.comp_apply, decide_eq_decide]
    exact p.infix_line_iff width
  rw [grepTunnel, List.find?_map, hpredicate]

/-! ## The second part of the line -/

theorem Listed.blank_notMem_digits (p : Listed) : ' ' ∉ p.digits :=
  Delimited.notMem_toString (by decide) p.group

theorem splitOn_append_cons {front rest : List Char} (h : ' ' ∉ front) :
    (front ++ ' ' :: rest).splitOn ' ' = front :: rest.splitOn ' ' := by
  refine List.splitOnP_append_cons_of_forall_mem (fun c hc => ?_) ' ' (by decide) rest
  rw [beq_eq_false_iff_ne]
  rintro rfl
  exact h hc

theorem tunnelPid_of_one {width : ℕ} {p : Listed} (h : width = p.digits.length + 1) :
    tunnelPid (p.line width) = some p.digits := by
  have hpad : width - p.digits.length = 1 := by omega
  have hline : p.line width ++ ['\n'] =
      [] ++ ' ' :: (p.digits ++ ' ' :: (p.command.toList ++ ['\n'])) := by
    rw [Listed.line, hpad]
    simp
  rw [tunnelPid, hline, splitOn_append_cons List.not_mem_nil,
    splitOn_append_cons p.blank_notMem_digits]
  rfl

theorem tunnelPid_of_none {width : ℕ} {p : Listed} (h : width = p.digits.length) :
    tunnelPid (p.line width) = some p.firstWord := by
  have hpad : width - p.digits.length = 0 := by omega
  have hline : p.line width ++ ['\n'] = p.digits ++ ' ' :: (p.command.toList ++ ['\n']) := by
    rw [Listed.line, hpad]
    simp
  have hne : (p.command.toList ++ ['\n']).splitOn ' ' ≠ [] := List.splitOnP_ne_nil _ _
  obtain ⟨first, parts, hparts⟩ := List.exists_cons_of_ne_nil hne
  rw [tunnelPid, hline, splitOn_append_cons p.blank_notMem_digits, Listed.firstWord, hparts]
  rfl

theorem tunnelPid_of_more {width : ℕ} {p : Listed} (h : p.digits.length + 2 ≤ width) :
    tunnelPid (p.line width) = some [] := by
  obtain ⟨k, hk⟩ : ∃ k, width - p.digits.length = k + 2 := ⟨width - p.digits.length - 2, by omega⟩
  have hline : p.line width ++ ['\n'] = [] ++ ' ' :: ([] ++ ' ' ::
      (List.replicate k ' ' ++ p.digits ++ ' ' :: p.command.toList ++ ['\n'])) := by
    rw [Listed.line, hk]
    simp [List.replicate_succ]
  rw [tunnelPid, hline, splitOn_append_cons List.not_mem_nil, splitOn_append_cons List.not_mem_nil]
  rfl

/-! ## What is killed -/

/-- The kill reaches the processes with the name `tunnel`: all of their groups if it succeeds,
and one of them if it fails. -/
def Killing.Hits (table : List Listed) (k : Killing) : Prop :=
  if k.succeeds then ∀ p ∈ table, p.command = "tunnel" → p.group ∈ k.groups
  else ∃ p ∈ table, p.command = "tunnel" ∧ p.group ∈ k.groups

theorem killsTunnels_iff_hits (table : List Listed) (k : Killing) :
    KillsTunnels table ⟨if k.succeeds then 0 else 3, k.groups⟩ ↔ k.Hits table := by
  unfold KillsTunnels Killing.Hits
  cases k.succeeds <;> simp

theorem not_hits_refused (table : List Listed) : ¬ (⟨[], false⟩ : Killing).Hits table := by
  simp [Killing.Hits]

/-- The number of a group is the only group that is killed with it. -/
theorem hits_digits_iff (kill : KillCommand) (table : List Listed) (p : Listed) :
    (kill.run p.digits).Hits table ↔
      if (kill.run p.digits).succeeds then ∀ q ∈ table, q.command = "tunnel" → q.group = p.group
      else ∃ q ∈ table, q.command = "tunnel" ∧ q.group = p.group := by
  simp only [Killing.Hits, kill.number p, List.mem_singleton]

/-- A command name of ordinary characters is refused in the place of a number. -/
theorem not_hits_firstWord (kill : KillCommand) (table : List Listed) {p : Listed}
    (hnamed : p.Named) (hplain : ∀ c ∈ p.command.toList, Ordinary c) :
    ¬ (kill.run p.firstWord).Hits table := by
  have hblank : ∀ c ∈ p.command.toList ++ ['\n'], (c == ' ') = false := by
    intro c hc
    rw [beq_eq_false_iff_ne]
    rintro rfl
    rcases List.mem_append.mp hc with hmem | hmem
    · exact absurd (hplain ' ' hmem) (by decide)
    · exact absurd hmem (by decide)
  have hword : p.firstWord = p.command.toList ++ ['\n'] := by
    rw [Listed.firstWord, List.splitOn, List.splitOnP_eq_singleton hblank]
    rfl
  rw [hword, kill.name _ hnamed hplain]
  exact not_hits_refused table

/-- For every process table whose numbers fit the column, the script kills the tunnels if and
only if no command name has the word, or the first process that has it
* has a number one digit shorter than the column, and all processes with the name `tunnel`
  are in its group, or, if the kill fails, one of them is, or
* has a number that fills the column, and the shell happens to reach the tunnels when it runs
  `kill -9 -` with the first word of the command name, which it does not for a name of
  ordinary characters. -/
theorem kills_tunnels_iff (kill : KillCommand) {width : ℕ} {table : List Listed}
    (hfit : ∀ p ∈ table, p.digits.length ≤ width) :
    (KillsTunnels table (forceTearDown kill.run width table) ↔
      ∀ p, table.find? (fun p => p.Named) = some p →
        (width = p.digits.length + 1 ∧
          if (kill.run p.digits).succeeds then
            ∀ q ∈ table, q.command = "tunnel" → q.group = p.group
          else ∃ q ∈ table, q.command = "tunnel" ∧ q.group = p.group) ∨
        (width = p.digits.length ∧ (kill.run p.firstWord).Hits table)) ∧
      ∀ p, table.find? (fun p => p.Named) = some p → (∀ c ∈ p.command.toList, Ordinary c) →
        ¬ (kill.run p.firstWord).Hits table := by
  refine ⟨?_, fun p hp hplain => ?_⟩
  · rw [forceTearDown, grepTunnel_eq]
    cases hfind : table.find? fun p => p.Named with
    | none =>
        refine iff_of_true ⟨fun _ p hp hcommand => ?_, fun h => absurd rfl h⟩ (by simp)
        have hnone := List.find?_eq_none.mp hfind p hp
        rw [decide_eq_true_iff, Listed.Named, hcommand] at hnone
        exact absurd List.infix_rfl hnone
    | some p =>
        have hle := hfit p (List.mem_of_find?_eq_some hfind)
        simp only [Option.map_some, Option.some.injEq, forall_eq', ← hits_digits_iff]
        -- The cases are the numbers of blanks before the number: one, none, or more.
        rcases Nat.lt_or_ge width (p.digits.length + 2) with hlt | hge
        · rcases Nat.lt_or_ge p.digits.length width with hone | hnone
          · have hwidth : width = p.digits.length + 1 := by omega
            rw [tunnelPid_of_one hwidth]
            simp only [killsTunnels_iff_hits]
            simp [hwidth]
          · have hwidth : width = p.digits.length := by omega
            rw [tunnelPid_of_none hwidth]
            simp only [killsTunnels_iff_hits]
            simp [hwidth]
        · rw [tunnelPid_of_more hge]
          simp only [killsTunnels_iff_hits]
          rw [kill.empty]
          refine iff_of_false (not_hits_refused table) ?_
          rintro (⟨hwidth, -⟩ | ⟨hwidth, -⟩) <;> omega
  · have hnamed := List.find?_some hp
    exact not_hits_firstWord kill table (of_decide_eq_true hnamed) hplain

/-! ## Three tables -/

def killAll : KillCommand where
  run text :=
    if text ≠ [] ∧ text.all Char.isDigit then ⟨[Nat.ofDigitChars 10 text 0], true⟩
    else ⟨[], false⟩
  number p := by
    have hdigits : p.digits = Nat.toDigits 10 p.group := by
      simp [Listed.digits, Nat.toString_eq_repr]
    have hall : p.digits.all Char.isDigit := by
      rw [hdigits, List.all_eq_true]
      exact fun c hc => Nat.isDigit_of_mem_toDigits (by decide) (by decide) hc
    have hne : p.digits ≠ [] := by
      rw [hdigits]
      exact Nat.toDigits_ne_nil
    rw [if_pos ⟨hne, hall⟩, hdigits, Nat.ofDigitChars_ten_toDigits]
  empty := rfl
  name name _ _ := by
    have hnewline : ¬ (name ++ ['\n']).all Char.isDigit := by simp
    rw [if_neg fun h => hnewline h.2]

/-- One tunnel with a number of four digits in a column of five. -/
theorem kills_tunnels_iff_four :
    let table : List Listed := [⟨1, by decide, "init"⟩, ⟨1234, by decide, "tunnel"⟩]
    forceTearDown killAll.run 5 table = ⟨0, [1234]⟩ ∧
      (KillsTunnels table (forceTearDown killAll.run 5 table) ↔
        ∀ p, table.find? (fun p => p.Named) = some p →
          (5 = p.digits.length + 1 ∧
            if (killAll.run p.digits).succeeds then
              ∀ q ∈ table, q.command = "tunnel" → q.group = p.group
            else ∃ q ∈ table, q.command = "tunnel" ∧ q.group = p.group) ∨
          (5 = p.digits.length ∧ (killAll.run p.firstWord).Hits table)) := by
  intro table
  have hfit : ∀ p ∈ table, p.digits.length ≤ 5 := by decide +kernel
  exact ⟨by decide +kernel, (kills_tunnels_iff killAll hfit).1⟩

/-- A number of three digits and one of five: nothing is killed, and the script exits with 3.
With a second tunnel in another group, the script exits with 0 and has killed only one. -/
theorem tunnels_not_killed :
    forceTearDown killAll.run 5 [⟨123, by decide, "tunnel"⟩] = ⟨3, []⟩ ∧
      forceTearDown killAll.run 5 [⟨12345, by decide, "tunnel"⟩] = ⟨3, []⟩ ∧
      forceTearDown killAll.run 5 [⟨1234, by decide, "tunnel"⟩, ⟨5678, by decide, "tunnel"⟩] =
        ⟨0, [1234]⟩ ∧
      ¬ KillsTunnels [⟨123, by decide, "tunnel"⟩] ⟨3, []⟩ ∧
      ¬ KillsTunnels [⟨12345, by decide, "tunnel"⟩] ⟨3, []⟩ ∧
      ¬ KillsTunnels [⟨1234, by decide, "tunnel"⟩, ⟨5678, by decide, "tunnel"⟩] ⟨0, [1234]⟩ := by
  refine ⟨by decide +kernel, by decide +kernel, by decide +kernel, ?_, ?_, ?_⟩
  · simp [KillsTunnels]
  · simp [KillsTunnels]
  · simp [KillsTunnels]

end Network

end Matador
