import Matador.Network.SetUp

/-!
# Commands that end while another one is waited for

After the steps, `set_up` waits for the first command only, and a final step that ends is
waited for before that. A command that ends in the meantime is not noticed. When the
program exits with status 3, nothing is left running without a signal.
-/

namespace Matador

namespace Network

/-- All steps have been started, a long-running command has ended, and the program waits for
another command that is still running. -/
def Blind (steps : List (Option Step)) (s : State) : Prop :=
  match s.point with
  | .waiting => ∃ p, s.commands[0]? = some p ∧ p.ended = false ∧ ∃ q ∈ s.commands, q.ended = true
  | .checking i => i + 1 = steps.length ∧ ∃ q ∈ s.commands, q.ended = true
  | _ => False

section Reach

variable {host : String} {steps : List (Option Step)}

def started (host : String) (steps : List (Option Step)) : List Process :=
  (longRunning host steps).map fun text => { text := text }

theorem Runs.refl (s : State) : Runs host steps s s := Transition.Reachable.refl s

theorem Runs.next {s₀ s s' : State} (h : Runs host steps s₀ s)
    (hs : s.next host steps = some s') : Runs host steps s₀ s' :=
  Transition.Reachable.tail h (o := .next) trivial hs

theorem Runs.ends {s₀ s : State} (h : Runs host steps s₀ s) {k : ℕ} (hk : k < s.commands.length) :
    Runs host steps s₀ { s with commands := s.commands.modify k Process.finish } :=
  Transition.Reachable.tail h (o := .ends k) trivial (if_pos hk)

theorem runs_ahead (host : String) (steps : List (Option Step)) (k : ℕ) :
    Runs host steps {} (Transition.run (step host steps) (fun _ => .next) k {}) := by
  refine Transition.run_reachable ?_ k _
  exact fun _ => trivial

theorem runs_loop (host : String) {n : ℕ} (hn : n ≤ steps.length)
    (h : ∀ entry ∈ steps.take n, Passes entry) :
    Runs host steps {} ⟨.loop n, started host (steps.take n), none⟩ := by
  induction n with
  | zero => exact ((Runs.refl {}).next rfl).next rfl
  | succ n ih =>
      have hget : steps[n]? = some steps[n] := List.getElem?_eq_getElem hn
      obtain ⟨step, hstep, htimeout⟩ : Passes steps[n] :=
        h _ (List.mem_take_iff_getElem.mpr ⟨n, by omega, rfl⟩)
      rw [hstep] at hget
      have hloop := ih (Nat.le_of_succ_le hn) fun entry hentry =>
        h entry (List.take_subset_take_left steps (Nat.le_succ n) hentry)
      have hsleep : Runs host steps {} ⟨.sleeping n, started host (steps.take (n + 1)), none⟩ := by
        rw [started, longRunning_take_succ hget]
        cases hends : step.ends with
        | true =>
            have hcheck : Runs host steps {} ⟨.checking n, started host (steps.take n), none⟩ :=
              hloop.next (by simp [State.next, hget, hends])
            simpa [started] using hcheck.next rfl
        | false =>
            have hspawn : Runs host steps {} ⟨.spawned n, started host (steps.take n),
                some { text := step.text host }⟩ :=
              hloop.next (by simp [State.next, hget, hends])
            simpa [started] using hspawn.next rfl
      exact hsleep.next (by simp [State.next, hget, htimeout])

/-- Two long-running commands: the second one ends while the first one is waited for. -/
theorem exists_blind_waiting (h : ∀ entry ∈ steps, Passes entry)
    (hlen : 2 ≤ (longRunning host steps).length) :
    ∃ s, Runs host steps {} s ∧ Blind steps s := by
  obtain ⟨first, second, rest, htexts⟩ : ∃ first second rest,
      longRunning host steps = first :: second :: rest := by
    match hlist : longRunning host steps with
    | first :: second :: rest => exact ⟨first, second, rest, rfl⟩
    | [] | [_] => simp [hlist] at hlen
  have hcommands : started host steps =
      { text := first } :: { text := second } :: rest.map fun text => { text := text } := by
    rw [started, htexts]
    rfl
  have hloop := runs_loop host (Nat.le_refl steps.length) (by rwa [List.take_length])
  rw [List.take_length] at hloop
  have hmonitor : Runs host steps {} ⟨.monitor, started host steps, none⟩ :=
    hloop.next (by simp [State.next])
  have hwaiting : Runs host steps {} ⟨.waiting, started host steps, none⟩ :=
    hmonitor.next (by simp [State.next, hcommands])
  refine ⟨_, hwaiting.ends (k := 1) (by simp [hcommands]), { text := first }, ?_, rfl,
    { text := second, ended := true }, ?_, rfl⟩
  · simp [hcommands]
  · simp [hcommands, Process.finish]

/-- A long-running command ends while a final step that ends is waited for. -/
theorem exists_blind_checking {before : List (Option Step)} {step : Step}
    (hsteps : steps = before ++ [some step]) (hends : step.ends = true)
    (h : ∀ entry ∈ before, Passes entry) (hne : longRunning host before ≠ []) :
    ∃ s, Runs host steps {} s ∧ Blind steps s := by
  subst hsteps
  obtain ⟨first, rest, htexts⟩ := List.exists_cons_of_ne_nil hne
  have hcommands : started host before =
      { text := first } :: rest.map fun text => { text := text } := by
    rw [started, htexts]
    rfl
  have hlen : before.length ≤ (before ++ [some step]).length := by simp
  have hloop := runs_loop host hlen (by simpa using h)
  rw [List.take_left] at hloop
  have hchecking : Runs host (before ++ [some step]) {}
      ⟨.checking before.length, started host before, none⟩ :=
    hloop.next (by simp [State.next, hends])
  refine ⟨_, hchecking.ends (k := 0) (by simp [hcommands]), by simp,
    { text := first, ended := true }, ?_, rfl⟩
  simp [hcommands, Process.finish]

/-- Where a command ends unnoticed, the configuration is one of these two. -/
theorem cases_of_blind {s : State} (hs : Located host steps s) (h : Blind steps s) :
    ((∀ entry ∈ steps, Passes entry) ∧ 2 ≤ (longRunning host steps).length) ∨
      ∃ before step, steps = before ++ [some step] ∧ step.ends = true ∧
        (∀ entry ∈ before, Passes entry) ∧ longRunning host before ≠ [] := by
  unfold Located at hs
  unfold Blind at h
  split at h
  · rename_i hpoint
    rw [hpoint] at hs
    obtain ⟨p, hp, hrunning, q, hq, hended⟩ := h
    obtain ⟨j, hj⟩ := List.getElem?_of_mem hq
    refine Or.inl ⟨hs.passes, ?_⟩
    have hne : j ≠ 0 := by
      rintro rfl
      obtain rfl := Option.some.inj (hp.symm.trans hj)
      rw [hrunning] at hended
      cases hended
    obtain ⟨hlt, -⟩ := List.getElem?_eq_some_iff.mp hj
    rw [← hs.commands, List.length_map]
    omega
  · rename_i i hpoint
    rw [hpoint] at hs
    obtain ⟨hpassed, step, hstep, hends⟩ := hs
    obtain ⟨hlast, q, hq, -⟩ := h
    refine Or.inr ⟨steps.take i, step, ?_, hends, hpassed.passes, ?_⟩
    · have htake : steps.take (i + 1) = steps := by rw [hlast, List.take_length]
      rw [List.take_add_one, hstep] at htake
      exact htake.symm
    · rw [← hpassed.commands]
      exact List.ne_nil_of_mem (List.mem_map_of_mem hq)
  · exact h.elim

/-- No command ends unnoticed if and only if there is at most one long-running command, and
none at all before a final step that ends, or a step is in the way. An exit with status 3
leaves nothing running without a signal. -/
theorem notices_first_end_iff (host : String) (steps : List (Option Step)) :
    ((∀ s, Runs host steps {} s → ¬ Blind steps s) ↔
      ¬ (((∀ entry ∈ steps, Passes entry) ∧ 2 ≤ (longRunning host steps).length) ∨
        ∃ before step, steps = before ++ [some step] ∧ step.ends = true ∧
          (∀ entry ∈ before, Passes entry) ∧ longRunning host before ≠ [])) ∧
    ∀ s, Runs host steps {} s → s.point = .exited 3 → s.TornDown := by
  refine ⟨⟨?_, ?_⟩, ?_⟩
  · rintro hnever (⟨hpasses, hlen⟩ | ⟨before, step, hsteps, hends, hpasses, hne⟩)
    · obtain ⟨s, hs, hblind⟩ := exists_blind_waiting hpasses hlen
      exact hnever s hs hblind
    · obtain ⟨s, hs, hblind⟩ := exists_blind_checking hsteps hends hpasses hne
      exact hnever s hs hblind
  · intro hcases s hs hblind
    exact hcases (cases_of_blind (located_of_runs hs) hblind)
  · intro s hs hexit
    have hlocated := located_of_runs hs
    unfold Located at hlocated
    rw [hexit] at hlocated
    exact hlocated.1

def tunnelStep : Step := ⟨"host", "tunnel username@", 10, false⟩

def forwardStep : Step := ⟨"", "forward", 1, false⟩

theorem notices_first_end_iff_tunnel :
    (∀ s, Runs "a.de" [some tunnelStep] {} s → ¬ Blind [some tunnelStep] s) ∧
      ∀ s, Runs "a.de" [some tunnelStep] {} s → s.point = .exited 3 → s.TornDown := by
  have hiff := notices_first_end_iff "a.de" [some tunnelStep]
  refine ⟨hiff.1.mpr ?_, hiff.2⟩
  rintro (⟨-, hlen⟩ | ⟨before, step, hsteps, hends, -⟩)
  · exact absurd hlen (by decide)
  · have hlast := congrArg List.getLast? hsteps
    rw [List.getLast?_concat] at hlast
    obtain rfl := Option.some.inj (Option.some.inj hlast)
    cases hends

theorem runs_waiting :
    Runs "a.de" [some tunnelStep, some forwardStep] {}
      ⟨.waiting, [{ text := "tunnel username@a.de" }, { text := "forward" }], none⟩ := by
  have hruns := runs_ahead "a.de" [some tunnelStep, some forwardStep] 10
  have hstate : Transition.run (step "a.de" [some tunnelStep, some forwardStep]) (fun _ => .next)
      10 {} = ⟨.waiting, [{ text := "tunnel username@a.de" }, { text := "forward" }], none⟩ := by
    decide
  rwa [hstate] at hruns

/-- With two commands the second one ends, and the program waits for the first one. -/
theorem second_end_unnoticed :
    Runs "a.de" [some tunnelStep, some forwardStep] {}
        ⟨.waiting, [{ text := "tunnel username@a.de" }, { text := "forward", ended := true }],
          none⟩ ∧
      Blind [some tunnelStep, some forwardStep]
        ⟨.waiting, [{ text := "tunnel username@a.de" }, { text := "forward", ended := true }],
          none⟩ := by
  have hended : Runs "a.de" [some tunnelStep, some forwardStep] {} _ :=
    Runs.ends runs_waiting (k := 1) (by decide)
  exact ⟨hended, _, rfl, rfl, _, List.mem_cons_of_mem _ List.mem_cons_self, rfl⟩

end Reach

end Network

end Matador
