import Matador.Controller.CleanUp

/-!
# What a normal return of the experiment means

The wrapper writes down a pair as measured when `experiment` returns. This module says
which commands have succeeded by then. The trace holds the answers to all calls: a
`check_call` returns if the command exits with status 0, the statuses of the other
commands are in the answers to `poll` and `recv_exit_status`. The answer to
`exec_command` on the SSH client holds the status with which the command ends on the
worker; `experiment` does not ask for it.

The contracts are those of the runs that return: an exit through `clean_up` and
`force_stop` raises an exception, so the tests before it have failed in no such run.
-/

namespace Matador

namespace Controller

def Answer.ExitedZero (a : Answer) : Prop := a.error = none ∧ a.status = some 0

instance (a : Answer) : Decidable a.ExitedZero :=
  inferInstanceAs (Decidable (a.error = none ∧ a.status = some 0))

/-- An application was measured in the `k`-th iteration: both tunnels were running
directly before the capture was started, the application was executed with success
directly after the test of the captures, and both analyses ended with status 0. -/
structure AppMeasured (args : Arguments) (k : ℕ) (app : String)
    (trace : List (Request × Answer)) : Prop where
  tunnels : ∃ tunnel1 tunnel2 now command capture,
    [(.poll .network1, tunnel1), (.exitStatusReady .network2, tunnel2), (.localtime, now),
      (.popen (.measurement1 k) command, capture)] <:+: trace ∧
    tunnel1.status = none ∧ tunnel2.status = none
  executed : ∃ capture2 answer,
    [(.exitStatusReady (.measurement2 k), capture2),
      (.checkCall (.appExecution app (args.videoFile1 app) (args.videoFile2 app)), answer)] <:+:
        trace ∧
    answer.error = none
  analyzed1 : ∃ answer, (.poll (.analysis1 k), answer) ∈ trace ∧ answer.ExitedZero
  analyzed2 : ∃ answer, (.recvExitStatus (.analysis2 k), answer) ∈ trace ∧ answer.ExitedZero

/-- The pair was measured: both network checks succeeded, every application was
measured, and the results were saved on both routers. -/
structure Measured (applications : List String) (args : Arguments)
    (trace : List (Request × Answer)) : Prop where
  check1 : ∃ answer, (.checkCall .networkCheck1, answer) ∈ trace ∧ answer.error = none
  check2 : ∃ answer, (.recvExitStatus .check2, answer) ∈ trace ∧ answer.ExitedZero
  applications : ∀ k app, applications[k]? = some app → AppMeasured args k app trace
  saved1 : ∃ answer, (.checkCall .save1, answer) ∈ trace ∧ answer.error = none
  saved2 : ∃ answer, (.execCommand .save2, answer) ∈ trace ∧ answer.ExitedZero

theorem AppMeasured.mono {args : Arguments} {k : ℕ} {app : String}
    {t t' : List (Request × Answer)} (h : AppMeasured args k app t) (hpart : t <:+: t') :
    AppMeasured args k app t' := by
  obtain ⟨tunnel1, tunnel2, now, command, capture, htunnels, hup⟩ := h.tunnels
  obtain ⟨capture2, executed, hexecuted, hzero⟩ := h.executed
  obtain ⟨analysis1, hanalysis1, hzero1⟩ := h.analyzed1
  obtain ⟨analysis2, hanalysis2, hzero2⟩ := h.analyzed2
  exact ⟨⟨tunnel1, tunnel2, now, command, capture, htunnels.trans hpart, hup⟩,
    ⟨capture2, executed, hexecuted.trans hpart, hzero⟩,
    ⟨analysis1, hpart.subset hanalysis1, hzero1⟩, ⟨analysis2, hpart.subset hanalysis2, hzero2⟩⟩

/-! ## The runs that return -/

theorem returns_perform (r : Request) :
    (perform r).Returns fun t a => t = [(r, a)] ∧ a.error = none := by
  refine (ensures_perform r).returns ?_
  rintro t b ⟨a, rfl, ⟨herror, heq⟩ | ⟨text, -, heq⟩⟩
  · cases heq
    exact ⟨rfl, herror⟩
  · cases heq

theorem returns_discard (r : Request) :
    (do let _ ← perform r : Script Request Answer Raised Unit).Returns fun t _ =>
      ∃ a, t = [(r, a)] ∧ a.error = none := by
  refine (returns_perform r).bind ?_
  rintro t a ⟨rfl, herror⟩
  exact Script.returns_pure ⟨a, rfl, herror⟩

theorem returns_recvExitStatus (c : Channel) :
    (recvExitStatus c).Returns fun t status =>
      ∃ a, t = [(.recvExitStatus c, a)] ∧ a.error = none ∧ status = a.status.getD (-1) := by
  refine (returns_perform _).bind ?_
  rintro t a ⟨rfl, herror⟩
  exact Script.returns_pure ⟨a, rfl, herror, rfl⟩

/-- No status counts as `-1`, so only status 0 passes the test. -/
theorem status_eq_of_getD {status : Option ℤ} (h : decide (status.getD (-1) ≠ 0) = false) :
    status = some 0 := by
  cases status with
  | none => simp at h
  | some value => simpa using h

theorem not_returns_giveUp (commands : List Process) (channels : List Channel) (raised : Raised) :
    (giveUp commands channels raised).Returns fun _ _ => False := by
  refine (Script.returns_trivial _).bind fun _ _ _ => ?_
  exact (Script.returns_trivial _).bind fun _ _ _ => Script.returns_raise

theorem returns_giveUpIf (failed : Bool) (commands : List Process) (channels : List Channel)
    (raised : Raised) :
    (giveUpIf failed commands channels raised).Returns fun t _ => t = [] ∧ failed = false := by
  cases failed with
  | false => exact Script.returns_pure ⟨rfl, rfl⟩
  | true => exact (not_returns_giveUp commands channels raised).mono fun _ _ h => h.elim

/-- The test whether a process and a channel are running passes if neither has ended. -/
theorem returns_bothRunning (p : Process) (c : Channel) {commands₁ commands₂ : List Process}
    {channels₁ channels₂ : List Channel} {raised₁ raised₂ : Raised} :
    (do
      let first ← perform (.poll p)
      if first.status ≠ none then giveUp commands₁ channels₁ raised₁
      else
        let second ← perform (.exitStatusReady c)
        giveUpIf (second.status ≠ none) commands₂ channels₂ raised₂ :
      Script Request Answer Raised Unit).Returns fun t _ =>
      ∃ first second : Answer, t = [(.poll p, first), (.exitStatusReady c, second)] ∧
        first.status = none ∧ second.status = none := by
  refine (returns_perform _).bind ?_
  rintro t first ⟨rfl, -⟩
  split_ifs with hstatus
  · exact (not_returns_giveUp _ _ _).mono fun _ _ h => h.elim
  refine (returns_perform _).bind ?_
  rintro t second ⟨rfl, -⟩
  refine (returns_giveUpIf _ _ _ _).mono ?_
  rintro t _ ⟨rfl, hfailed⟩
  exact ⟨first, second, rfl, not_not.mp hstatus, by simpa using hfailed⟩

theorem returns_startMeasurement (args : Arguments) (k : ℕ) (app timestamp : String) :
    (startMeasurement args k app timestamp).Returns fun t _ => ∃ command capture t' capture2,
      t = (.popen (.measurement1 k) command, capture) :: (t' ++
        [(.exitStatusReady (.measurement2 k), capture2)]) := by
  refine (returns_discard _).bind ?_
  rintro t _ ⟨capture, rfl, -⟩
  refine (Script.returns_trivial _).bind fun t' _ _ => ?_
  refine (returns_bothRunning _ _).mono ?_
  rintro t _ ⟨capture1, capture2, rfl, -, -⟩
  exact ⟨.measurementSetup1 (args.directory app ++ args.result1 app timestamp), capture,
    t' ++ [(.poll (.measurement1 k), capture1)], capture2, by simp⟩

theorem returns_executeApp (args : Arguments) (k : ℕ) (app : String) :
    (executeApp args k app).Returns fun t _ => ∃ answer, t = [(.checkCall
      (.appExecution app (args.videoFile1 app) (args.videoFile2 app)), answer)] ∧
        answer.error = none := by
  refine (returns_discard _).catching fun e => ?_
  exact (Script.returns_trivial _).bind fun _ _ _ => not_returns_giveUp _ _ _

theorem returns_analyzeCaptures (args : Arguments) (k : ℕ) (app timestamp : String) :
    (analyzeCaptures args k app timestamp).Returns fun t _ =>
      (∃ answer, (.poll (.analysis1 k), answer) ∈ t ∧ answer.ExitedZero) ∧
        ∃ answer, (.recvExitStatus (.analysis2 k), answer) ∈ t ∧ answer.ExitedZero := by
  refine (returns_discard _).bind ?_
  rintro t _ ⟨start1, rfl, -⟩
  refine (Script.returns_trivial _).bind fun t' _ _ => ?_
  refine (returns_perform _).bind ?_
  rintro t waited ⟨rfl, -⟩
  refine (returns_perform _).bind ?_
  rintro t analysis1 ⟨rfl, herror1⟩
  refine (returns_giveUpIf _ _ _ _).bind ?_
  rintro t _ ⟨rfl, hfailed1⟩
  refine (returns_recvExitStatus _).bind ?_
  rintro t status ⟨analysis2, rfl, herror2, rfl⟩
  refine (returns_giveUpIf _ _ _ _).mono ?_
  rintro t _ ⟨rfl, hfailed2⟩
  exact ⟨⟨analysis1, by simp, herror1, by simpa using hfailed1⟩, analysis2, by simp, herror2,
    status_eq_of_getD hfailed2⟩

/-- An iteration of the loop over the applications that comes to its end. -/
theorem returns_application (args : Arguments) (k : ℕ) (app : String) :
    (application args k app).Returns fun t _ => AppMeasured args k app t := by
  refine (returns_bothRunning .network1 .network2).bind ?_
  rintro t _ ⟨tunnel1, tunnel2, rfl, hup1, hup2⟩
  refine (Script.returns_request _).bind ?_
  rintro t now rfl
  refine (returns_startMeasurement args k app now.timestamp).bind ?_
  rintro t _ ⟨command, capture, t', capture2, rfl⟩
  refine (returns_executeApp args k app).bind ?_
  rintro t _ ⟨answer, rfl, hanswer⟩
  refine (Script.returns_trivial _).bind fun stopped _ _ => ?_
  refine (returns_analyzeCaptures args k app now.timestamp).mono ?_
  rintro analyzed _ ⟨⟨analysis1, hanalysis1, hzero1⟩, analysis2, hanalysis2, hzero2⟩
  refine ⟨⟨tunnel1, tunnel2, now, command, capture, ?_, hup1, hup2⟩,
    ⟨capture2, answer, ?_, hanswer⟩,
    ⟨analysis1, by simp [hanalysis1], hzero1⟩, ⟨analysis2, by simp [hanalysis2], hzero2⟩⟩
  · exact ⟨[], t' ++ (.exitStatusReady (.measurement2 k), capture2) ::
      (.checkCall (.appExecution app (args.videoFile1 app) (args.videoFile2 app)), answer) ::
      (stopped ++ analyzed), by simp⟩
  · exact ⟨(.poll .network1, tunnel1) :: (.exitStatusReady .network2, tunnel2) ::
      (.localtime, now) :: (.popen (.measurement1 k) command, capture) :: t',
      stopped ++ analyzed, by simp⟩

theorem returns_applicationLoop (args : Arguments) (k : ℕ) (applications : List String) :
    (applicationLoop args k applications).Returns fun t _ =>
      ∀ i app, applications[i]? = some app → AppMeasured args (k + i) app t := by
  induction applications generalizing k with
  | nil => exact Script.returns_pure (by simp)
  | cons app rest ih =>
      refine (returns_application args k app).bind fun t _ hfirst => ?_
      refine (ih (k + 1)).mono fun t' _ hrest i app' happ => ?_
      cases i with
      | zero =>
          obtain rfl : app = app' := by simpa using happ
          exact hfirst.mono (List.prefix_append t t').isInfix
      | succ i =>
          have hmeasured := hrest i app' (by simpa using happ)
          rw [Nat.add_right_comm] at hmeasured
          exact hmeasured.mono (List.suffix_append t t').isInfix

theorem returns_setup (args : Arguments) :
    (setup args).Returns fun t _ =>
      (∃ answer, (.checkCall .networkCheck1, answer) ∈ t ∧ answer.error = none) ∧
        ∃ answer, (.recvExitStatus .check2, answer) ∈ t ∧ answer.ExitedZero := by
  refine (returns_perform _).bind ?_
  rintro t _ ⟨rfl, -⟩
  refine (returns_discard _).bind ?_
  rintro t _ ⟨network1, rfl, -⟩
  refine (Script.returns_trivial _).bind fun t₂ _ _ => ?_
  refine (Script.returns_trivial _).bind fun t₃ _ _ => ?_
  refine ((returns_discard _).catching fun _ => not_returns_giveUp _ _ _).bind ?_
  rintro t _ ⟨check1, rfl, hcheck1⟩
  refine (Script.returns_trivial _).bind fun t₄ _ _ => ?_
  refine (returns_recvExitStatus _).bind ?_
  rintro t status ⟨check2, rfl, hcheck2, rfl⟩
  refine (returns_giveUpIf _ _ _ _).mono ?_
  rintro t _ ⟨rfl, hfailed⟩
  refine ⟨⟨check1, by simp, hcheck1⟩, check2, by simp, hcheck2, ?_⟩
  exact status_eq_of_getD hfailed

theorem returns_saveResults (args : Arguments) :
    (saveResults args).Returns fun t _ =>
      ∃ answer, (.checkCall .save1, answer) ∈ t ∧ answer.error = none := by
  refine ((returns_discard _).catching fun _ => not_returns_giveUp _ _ _).bind ?_
  rintro t _ ⟨save1, rfl, hsave1⟩
  exact fun t' _ _ => ⟨save1, by simp, hsave1⟩

/-- If `experiment` returns, all steps but the last one are known to have succeeded: the
pair was measured exactly if saving the results on the worker did. -/
theorem measured_iff_saved {applications : List String} {args : Arguments}
    {trace : List (Request × Answer)}
    (h : (experiment applications args).Yields trace (.ok ())) :
    Measured applications args trace ↔
      ∃ answer, (.execCommand .save2, answer) ∈ trace ∧ answer.ExitedZero := by
  refine ⟨Measured.saved2, fun hsaved2 => ?_⟩
  have hreturns : (experiment applications args).Returns fun t _ =>
      (∃ answer, (.execCommand .save2, answer) ∈ t ∧ answer.ExitedZero) →
        Measured applications args t := by
    refine (returns_setup args).bind ?_
    rintro t₁ _ ⟨⟨check1, hmem1, hcheck1⟩, check2, hmem2, hcheck2⟩
    refine (returns_applicationLoop args 0 applications).bind fun t₂ _ hloop => ?_
    refine (returns_saveResults args).mono ?_
    rintro t₃ _ ⟨save1, hmem3, hsave1⟩ hsave2
    refine ⟨⟨check1, by simp [hmem1], hcheck1⟩, ⟨check2, by simp [hmem2], hcheck2⟩,
      fun k app happ => ?_, ⟨save1, by simp [hmem3], hsave1⟩, hsave2⟩
    have hmeasured := hloop k app happ
    rw [Nat.zero_add] at hmeasured
    exact hmeasured.mono ⟨t₁, t₃, by simp⟩
  exact hreturns trace () h hsaved2

def withoutSave2 : Request → Answer
  | .execCommand .save2 => { status := some 1 }
  | r => inOrder r

theorem measured_iff_saved_in_order :
    let run := (experiment ["chat", "call"] sampleArguments).run (fun _ => inOrder) 0
    Measured ["chat", "call"] sampleArguments run.1 := by
  intro run
  have hreturn : run.2 = .ok () := rfl
  have hyields : (experiment ["chat", "call"] sampleArguments).Yields run.1 (.ok ()) :=
    hreturn ▸ Script.yields_run _ 0 _
  exact (measured_iff_saved hyields).mpr ⟨{ status := some 0 }, by decide, by decide⟩

/-- The experiment returns although the results were not saved on the worker. -/
theorem unsaved_pair_returns :
    let run := (experiment ["chat"] sampleArguments).run (fun _ => withoutSave2) 0
    (experiment ["chat"] sampleArguments).Yields run.1 (.ok ()) ∧
      (.execCommand .save2, { status := some 1 }) ∈ run.1 ∧
      ¬ Measured ["chat"] sampleArguments run.1 := by
  intro run
  have hreturn : run.2 = .ok () := rfl
  refine ⟨hreturn ▸ Script.yields_run _ 0 _, by decide, fun h => ?_⟩
  obtain ⟨answer, hmem, hzero⟩ := h.saved2
  have hfailed : ∀ x ∈ run.1, x.1 = .execCommand .save2 → ¬ x.2.ExitedZero := by decide
  exact hfailed _ hmem rfl hzero

end Controller

end Matador
