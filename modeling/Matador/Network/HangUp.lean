import Matador.Network.Monitor

/-!
# A signal at any place of the program

The handler `close` sends SIGTERM to the groups in `running_commands` one after another. It
does not know a process that `Popen` has just returned. A group that is gone makes it raise:
within the `try` statement this leads to the `except` clause, which terminates the rest, but
outside of it the program ends.
-/

namespace Matador

namespace Network

def Point.InExcept : Point → Prop
  | .handling _ | .signalling _ | .leaving => True
  | _ => False

/-- No command that is still to be terminated stands behind one that was reaped. -/
def Ordered (commands : List Process) : Prop :=
  ∀ (i j : ℕ) (p q : Process), i < j → commands[i]? = some p → commands[j]? = some q →
    p.reaped = true → q.Settled

/-- Whatever happens after the signal, all is torn down when the program has exited. -/
def TearsDown (host : String) (steps : List (Option Step)) (s : State) : Prop :=
  ∀ s' status, Runs host steps s.hangUp s' → s'.point = .exited status → s'.TornDown

/-! ## What one event changes -/

inductive Change (s : State) : List Process → Prop
  | same : Change s s.commands
  | cleared : Change s []
  | added : Change s (s.commands ++ s.fresh.toList)
  | finished (k : ℕ) : Change s (s.commands.modify k Process.finish)
  | signalled (k : ℕ) : Change s (s.commands.modify k Process.signal)
  | reaped (k : ℕ) {p : Process} (hp : s.commands[k]? = some p) (hended : p.ended = true) :
      Change s (s.commands.modify k Process.reap)

/-- A command is reaped after its end only, and nothing is sent to the one outside of the
list. -/
structure Sound (s : State) : Prop where
  reaped : ∀ p ∈ s.commands, p.reaped = true → p.ended = true
  fresh : ∀ p, s.fresh = some p → p.reaped = false ∧ p.signalled = false

section Changes

variable {host : String} {steps : List (Option Step)}

theorem change_next {s s' : State} (h : s.next host steps = some s') : Change s s'.commands := by
  obtain ⟨point, commands, fresh⟩ := s
  unfold State.next at h
  cases point <;> dsimp only at h
  case main =>
    cases h
    exact .cleared
  case spawned =>
    cases h
    exact .added
  case signalling k =>
    cases h
    exact .signalled k
  case monitor | waiting | handling =>
    split at h
    · cases h <;> exact .same
    · rename_i p hp
      split at h <;> rename_i hended
      · cases h
        exact .reaped _ hp hended
      · cases h <;> exact .same
  case killing | closing =>
    split at h
    · cases h
      exact .same
    · cases h
      exact .signalled _
  all_goals
    repeat' split at h
    all_goals cases h <;> exact .same

theorem raise_eq {s s' : State} (h : s.raise steps = some s') :
    ∃ point, s' = { s with point := point } := by
  unfold State.raise at h
  repeat' split at h
  all_goals cases h <;> exact ⟨_, rfl⟩

theorem change_step {e : Event} {s s' : State} (h : step host steps e s = some s') :
    Change s s'.commands := by
  cases e with
  | next => exact change_next h
  | raises =>
      obtain ⟨point, rfl⟩ := raise_eq h
      exact .same
  | ends k =>
      rcases finish_cases h with rfl | rfl
      · exact .finished k
      · exact .same

theorem fresh_step {e : Event} {s s' : State} (h : step host steps e s = some s') {p : Process}
    (hp : s'.fresh = some p) :
    s.fresh = some p ∨ (∃ text, p = { text := text }) ∨ ∃ q, s.fresh = some q ∧ p = q.finish := by
  cases e with
  | next =>
      change s.next host steps = some s' at h
      unfold State.next at h
      repeat' split at h
      all_goals cases h
      all_goals first
        | exact Or.inl hp
        | exact Or.inr (Or.inl ⟨_, (Option.some.inj hp).symm⟩)
        | cases hp
  | raises =>
      obtain ⟨point, rfl⟩ := raise_eq h
      exact Or.inl hp
  | ends k =>
      rcases finish_cases h with rfl | rfl
      · exact Or.inl hp
      · obtain ⟨q, hq, rfl⟩ := Option.map_eq_some_iff.mp hp
        exact Or.inr (Or.inr ⟨q, hq, rfl⟩)

theorem Change.reapedEnded {s : State} {commands : List Process} (h : Change s commands)
    (hs : Sound s) : ∀ p ∈ commands, p.reaped = true → p.ended = true := by
  cases h with
  | same => exact hs.reaped
  | cleared => exact List.forall_mem_nil _
  | added =>
      intro p hp
      rcases List.mem_append.mp hp with hp | hp
      · exact hs.reaped p hp
      · rw [(hs.fresh p (Option.mem_toList.mp hp)).1]
        exact fun hreaped => nomatch hreaped
  | finished k =>
      exact Modify.forall_mem_modify hs.reaped (fun p _ _ => rfl) k
  | signalled k =>
      exact Modify.forall_mem_modify (f := Process.signal) hs.reaped (fun p hp => hp) k
  | reaped k hp hended =>
      intro q hq
      obtain ⟨j, hj⟩ := List.getElem?_of_mem hq
      obtain ⟨q', hq', ⟨-, rfl⟩ | ⟨rfl, rfl⟩⟩ := Modify.exists_of_getElem?_modify hj
      · exact hs.reaped q (List.mem_of_getElem? hq')
      · obtain rfl := Option.some.inj (hp.symm.trans hq')
        exact fun _ => hended

theorem Sound.step {e : Event} {s s' : State} (hs : Sound s)
    (h : step host steps e s = some s') : Sound s' := by
  refine ⟨(change_step h).reapedEnded hs, fun p hp => ?_⟩
  · rcases fresh_step h hp with hold | ⟨text, rfl⟩ | ⟨q, hq, rfl⟩
    · exact hs.fresh p hold
    · exact ⟨rfl, rfl⟩
    · exact hs.fresh q hq

theorem sound_of_runs {s₀ s : State} (h : Runs host steps s₀ s) (h₀ : Sound s₀) : Sound s :=
  h.invariant h₀ fun _ _ _ _ hs _ hstep => hs.step hstep

end Changes

/-! ## After the signal -/

section Closing

variable {host : String} {steps : List (Option Step)}

theorem Ordered.modify {commands : List Process} (h : Ordered commands)
    {f : Process → Process} (hreaped : ∀ p, (f p).reaped = p.reaped)
    (hsettled : ∀ p, p.Settled → (f p).Settled) (k : ℕ) : Ordered (commands.modify k f) := by
  intro i j p q hij hp hq hr
  obtain ⟨p', hp', hpeq⟩ := Modify.exists_of_getElem?_modify hp
  obtain ⟨q', hq', hqeq⟩ := Modify.exists_of_getElem?_modify hq
  have hr' : p'.reaped = true := by
    rcases hpeq with ⟨-, rfl⟩ | ⟨-, rfl⟩
    · exact hr
    · rwa [hreaped] at hr
  have hsettled' := h i j p' q' hij hp' hq' hr'
  rcases hqeq with ⟨-, rfl⟩ | ⟨-, rfl⟩
  · exact hsettled'
  · exact hsettled q' hsettled'

/-- What is known at each place after a signal from which all will be torn down. -/
def Closing (s : State) : Prop :=
  (∀ p, s.fresh = some p → p.Settled) ∧
    match s.point with
    | .closing k inTry => Modify.Below Process.Settled k s.commands ∧
        (inTry = false → Ordered s.commands)
    | .handling k | .signalling k => Modify.Below Process.Settled k s.commands
    | .leaving | .exited _ => ∀ p ∈ s.commands, p.Settled
    | _ => False

theorem Closing.next {s s' : State} (hs : Closing s) (h : s.next host steps = some s') :
    Closing s' := by
  obtain ⟨point, commands, fresh⟩ := s
  obtain ⟨hfresh, hs⟩ := hs
  unfold State.next at h
  cases point <;> dsimp only at hs h
  case handling k =>
    split at h
    case h_1 hnone =>
      cases h
      exact ⟨hfresh, hs.forall_mem hnone⟩
    case h_2 p hp =>
      split at h <;> rename_i hended
      · cases h
        exact ⟨hfresh, below_reap hs hp hended⟩
      · cases h
        exact ⟨hfresh, hs⟩
  case signalling k =>
    cases h
    exact ⟨hfresh, below_signal hs⟩
  case leaving =>
    cases h
    exact ⟨hfresh, hs⟩
  case closing k inTry =>
    split at h
    case h_1 hnone =>
      cases h
      exact ⟨hfresh, hs.1.forall_mem hnone⟩
    case h_2 =>
      cases h
      refine ⟨hfresh, below_signal hs.1, fun hout => ?_⟩
      exact (hs.2 hout).modify (f := Process.signal) (fun _ => rfl)
        (fun _ => Process.Settled.signal) k
  case exited => cases h

/-- A group that is gone: the `except` clause takes over, or all later ones are settled. -/
theorem Closing.raise {s s' : State} (hs : Closing s) (hsound : Sound s)
    (h : s.raise steps = some s') : Closing s' := by
  obtain ⟨point, commands, fresh⟩ := s
  obtain ⟨hfresh, hs⟩ := hs
  unfold State.raise at h
  cases point <;> dsimp only at hs h
  case closing k inTry =>
    split at h
    · cases h
    · rename_i p hp
      split at h <;> rename_i hreaped
      · cases h
        cases inTry with
        | true => exact ⟨hfresh, Modify.below_zero _⟩
        | false =>
            refine ⟨hfresh, fun q hq => ?_⟩
            obtain ⟨j, hj⟩ := List.getElem?_of_mem hq
            rcases Nat.lt_trichotomy j k with hlt | rfl | hlt
            · exact hs.1 j hlt q hj
            · obtain rfl := Option.some.inj (hp.symm.trans hj)
              exact Or.inl (hsound.reaped p hq hreaped)
            · exact hs.2 rfl k j p q hlt hp hj hreaped
      · cases h
  all_goals first | exact hs.elim | cases h

theorem Closing.finish {s s' : State} {k : ℕ} (hs : Closing s) (h : s.finish k = some s') :
    Closing s' := by
  obtain ⟨point, commands, fresh⟩ := s
  obtain ⟨hfresh, hs⟩ := hs
  rcases finish_cases h with rfl | rfl
  · refine ⟨hfresh, ?_⟩
    cases point <;> dsimp only at hs ⊢
    case handling | signalling => exact hs.modify (fun _ => Process.Settled.finish) k
    case leaving | exited => exact Modify.forall_mem_modify hs (fun _ => Process.Settled.finish) k
    case closing =>
      exact ⟨hs.1.modify (fun _ => Process.Settled.finish) k, fun hout =>
        (hs.2 hout).modify (f := Process.finish) (fun _ => rfl)
          (fun _ => Process.Settled.finish) k⟩
  · refine ⟨fun p hp => ?_, hs⟩
    obtain ⟨q, hq, rfl⟩ := Option.map_eq_some_iff.mp hp
    exact (hfresh q hq).finish

theorem Closing.step {e : Event} {s s' : State} (hs : Closing s) (hsound : Sound s)
    (h : step host steps e s = some s') : Closing s' := by
  cases e with
  | next => exact hs.next h
  | raises => exact hs.raise hsound h
  | ends k => exact hs.finish h

theorem closing_of_runs {s₀ s : State} (h : Runs host steps s₀ s) (hsound : Sound s₀)
    (h₀ : Closing s₀) : Closing s :=
  h.invariant h₀ fun _ _ _ hreach hs _ hstep => hs.step (sound_of_runs hreach hsound) hstep

theorem closing_hangUp {s : State} (hs : Located host steps s)
    (hfresh : ∀ p, s.fresh = some p → p.ended = true)
    (hordered : s.point.InExcept → Ordered s.commands) : Closing s.hangUp := by
  have hsettled : ∀ p, s.fresh = some p → p.Settled := fun p hp => Or.inl (hfresh p hp)
  obtain ⟨point, commands, fresh⟩ := s
  cases point <;> dsimp only [Located] at hs
  case main =>
    obtain ⟨rfl, -⟩ := hs
    exact ⟨hsettled, List.forall_mem_nil _⟩
  case defined =>
    obtain ⟨rfl, -⟩ := hs
    exact ⟨hsettled, Modify.below_zero _, fun _ i j p q _ hp => nomatch hp⟩
  case handling | signalling | leaving =>
    exact ⟨hsettled, Modify.below_zero _, fun _ => hordered trivial⟩
  case exited => exact ⟨hsettled, hs.1.1⟩
  all_goals exact ⟨hsettled, Modify.below_zero _, fun hout => nomatch hout⟩

/-- The handler gets to any of the groups; the later ones are as they were. -/
theorem runs_closing (host : String) (steps : List (Option Step)) (inTry : Bool)
    (commands : List Process) (fresh : Option Process) {k : ℕ} (hk : k ≤ commands.length) :
    ∃ commands', Runs host steps ⟨.closing 0 inTry, commands, fresh⟩
        ⟨.closing k inTry, commands', fresh⟩ ∧
      ∀ j, k ≤ j → commands'[j]? = commands[j]? := by
  induction k with
  | zero => exact ⟨commands, Runs.refl _, fun _ _ => rfl⟩
  | succ k ih =>
      obtain ⟨commands', hruns, hsame⟩ := ih (Nat.le_of_succ_le hk)
      have hget : commands'[k]? = some commands[k] :=
        (hsame k (Nat.le_refl k)).trans (List.getElem?_eq_getElem hk)
      refine ⟨commands'.modify k Process.signal, hruns.next (by simp [State.next, hget]), ?_⟩
      intro j hj
      rw [List.getElem?_modify, ← hsame j (Nat.le_of_succ_le hj)]
      simp [Nat.ne_of_lt hj]

end Closing

/-! ## Where the signal may arrive -/

section Places

variable {host : String} {steps : List (Option Step)}

theorem hangUp_commands (s : State) : s.hangUp.commands = s.commands := by
  unfold State.hangUp
  split <;> rfl

theorem hangUp_fresh (s : State) : s.hangUp.fresh = s.fresh := by
  unfold State.hangUp
  split <;> rfl

theorem Sound.hangUp {s : State} (h : Sound s) : Sound s.hangUp :=
  ⟨by rw [hangUp_commands]; exact h.reaped, by rw [hangUp_fresh]; exact h.fresh⟩

theorem sound_start : Sound {} :=
  ⟨List.forall_mem_nil _, fun _ hp => nomatch hp⟩

theorem point_of_fresh {s : State} (hs : Located host steps s) {p : Process}
    (hp : s.fresh = some p) : ∃ i, s.point = .spawned i := by
  obtain ⟨point, commands, fresh⟩ := s
  cases point <;> dsimp only [Located] at hs hp
  case spawned i => exact ⟨i, rfl⟩
  case main | defined => exact nomatch hp.symm.trans hs.2
  case loop | monitor | killing | waiting | idle => exact nomatch hp.symm.trans hs.fresh
  case checking => exact nomatch hp.symm.trans hs.1.fresh
  case sleeping => exact nomatch hp.symm.trans hs.2.2
  case failed => exact nomatch hp.symm.trans hs
  case handling | signalling | leaving | exited => exact nomatch hp.symm.trans hs.2

theorem fresh_ended {s : State} (hs : Runs host steps {} s) (h : TearsDown host steps s) :
    ∀ p, s.fresh = some p → p.ended = true := by
  intro p hp
  obtain ⟨i, hpoint⟩ := point_of_fresh (located_of_runs hs) hp
  have hsignalled := ((sound_of_runs hs sound_start).fresh p hp).2
  obtain ⟨point, commands, fresh⟩ := s
  subst hpoint
  obtain ⟨commands', hruns, hsame⟩ := runs_closing host steps true commands fresh
    (Nat.le_refl commands.length)
  have hnone : commands'[commands.length]? = none :=
    (hsame _ (Nat.le_refl _)).trans (List.getElem?_eq_none_iff.mpr (Nat.le_refl _))
  have hexit : Runs host steps ⟨.closing 0 true, commands, fresh⟩ ⟨.exited 0, commands', fresh⟩ :=
    hruns.next (by simp [State.next, hnone])
  rcases (h _ 0 hexit rfl).2 p hp with hended | hsent
  · exact hended
  · rw [hsignalled] at hsent
    cases hsent

/-- The handler raises at a reaped command, and nothing is sent to the later ones. -/
theorem ordered_of_tearsDown {s : State} (h : TearsDown host steps s)
    (hpoint : s.point.InExcept) : Ordered s.commands := by
  intro i j p q hij hp hq hreaped
  have hclosing : s.hangUp = ⟨.closing 0 false, s.commands, s.fresh⟩ := by
    obtain ⟨point, commands, fresh⟩ := s
    cases point <;> first | rfl | exact hpoint.elim
  obtain ⟨hlt, -⟩ := List.getElem?_eq_some_iff.mp hp
  obtain ⟨commands', hruns, hsame⟩ := runs_closing host steps false s.commands s.fresh
    (Nat.le_of_lt hlt)
  have hget : commands'[i]? = some p := (hsame i (Nat.le_refl i)).trans hp
  have hexit : Runs host steps s.hangUp ⟨.exited 1, commands', s.fresh⟩ := by
    rw [hclosing]
    exact Transition.Reachable.tail hruns (o := .raises) trivial
      (by simp [step, State.raise, hget, hreaped])
  have hmem : q ∈ commands' := List.mem_of_getElem? ((hsame j (Nat.le_of_lt hij)).trans hq)
  exact (h _ 1 hexit rfl).1 q hmem

/-- All is torn down after a signal if and only if it does not arrive between the return of
`Popen` and the assignment while the new process runs, and not in the `except` clause while
a command that is still to be terminated stands behind a reaped one. -/
theorem tearsDown_iff {s : State} (hs : Runs host steps {} s) :
    TearsDown host steps s ↔
      (∀ p, s.fresh = some p → p.ended = true) ∧ (s.point.InExcept → Ordered s.commands) := by
  constructor
  · exact fun h => ⟨fresh_ended hs h, ordered_of_tearsDown h⟩
  · rintro ⟨hfresh, hordered⟩ s' status hruns hexit
    have hsound := (sound_of_runs hs sound_start).hangUp
    have hclosing := closing_of_runs hruns hsound
      (closing_hangUp (located_of_runs hs) hfresh hordered)
    unfold Closing at hclosing
    rw [hexit] at hclosing
    exact ⟨hclosing.2, hclosing.1⟩

theorem tearsDown_iff_waiting :
    TearsDown "a.de" [some tunnelStep, some forwardStep]
      ⟨.waiting, [{ text := "tunnel username@a.de" }, { text := "forward" }], none⟩ :=
  (tearsDown_iff runs_waiting).mpr ⟨fun _ hp => (nomatch hp), fun hexcept => hexcept.elim⟩

/-- The signal arrives right after `Popen`: the tunnel stays. And it arrives in the `except`
clause after the tunnel has ended: the handler raises, and the second command stays. -/
theorem hangUp_leaves_running :
    (Runs "a.de" [some tunnelStep] {} ⟨.spawned 0, [], some { text := "tunnel username@a.de" }⟩ ∧
      ¬ TearsDown "a.de" [some tunnelStep]
        ⟨.spawned 0, [], some { text := "tunnel username@a.de" }⟩) ∧
    (Runs "a.de" [some tunnelStep, some forwardStep] {} ⟨.handling 0,
        [{ text := "tunnel username@a.de", ended := true, reaped := true },
          { text := "forward" }], none⟩ ∧
      ¬ TearsDown "a.de" [some tunnelStep, some forwardStep] ⟨.handling 0,
        [{ text := "tunnel username@a.de", ended := true, reaped := true },
          { text := "forward" }], none⟩) := by
  have hspawned := runs_ahead "a.de" [some tunnelStep] 3
  have hstate : Transition.run (step "a.de" [some tunnelStep]) (fun _ => .next) 3 {} =
      ⟨.spawned 0, [], some { text := "tunnel username@a.de" }⟩ := by decide
  rw [hstate] at hspawned
  have hended := Runs.ends runs_waiting (k := 0) (by decide)
  refine ⟨⟨hspawned, fun h => ?_⟩, (hended.next rfl).next rfl, fun h => ?_⟩
  · exact nomatch fresh_ended hspawned h _ rfl
  · exact absurd (ordered_of_tearsDown h trivial 0 1 _ _ Nat.one_pos rfl rfl rfl) (by decide)

end Places

end Network

end Matador
