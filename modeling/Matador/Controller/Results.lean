import Matador.Controller.Captures

/-!
# Videos and DNS results of different calls

The names of the videos and of the DNS results hold the counter and the host of
one router only. They are told apart by the counter, so they are safe exactly as
long as a number is not used twice for calls that write files. The counter stays
the same after a host failure, and a host failure in the middle of the loop over
the applications comes after files have been written under that number.

The first part says which files an experiment writes: every name begins with the
directory of an application and the counter of the call, and nothing is written
before the first application is executed. The second part puts the calls of a run
together with the requests that they made.
-/

namespace Matador

namespace Controller

/-! ## The files of an experiment -/

/-- The file of `analyze` for the DNS answers about a name. -/
def dnsFile (args : AnalysisArguments) (identifier qname : String) : String :=
  args.directory ++ args.counter ++ "_" ++ identifier ++ "_" ++ args.application ++ "_" ++
    args.country ++ "_" ++ args.hostname ++ "_DNS_" ++ qname

/-- The request makes a program write the file: the execution of an application
writes the two videos, an analysis a file for each name that was queried. Each
router has an `identifier` in its `analysis.ini`. -/
def Request.Writes (identifier : Router → String) : Request → String → Prop
  | .checkCall (.appExecution _ video1 video2), name => name = video1 ∨ name = video2
  | .popen _ (.analysis1 args), name => ∃ qname, name = dnsFile args (identifier .one) qname
  | .execChannel _ (.analysis2 args), name => ∃ qname, name = dnsFile args (identifier .two) qname
  | _, _ => False

def Request.Silent : Request → Prop
  | .checkCall (.appExecution ..) | .popen _ (.analysis1 _) | .execChannel _ (.analysis2 _) => False
  | _ => True

theorem Request.Silent.not_writes {r : Request} (h : r.Silent) (identifier : Router → String)
    (name : String) : ¬ r.Writes identifier name := by
  unfold Request.Silent at h
  unfold Request.Writes
  split at h
  · exact absurd h id
  · exact absurd h id
  · exact absurd h id
  · split <;> simp_all

/-- The request is one of those whose arguments do not matter here: neither the location
setup, nor the start of a capture on the worker, nor one that makes a program write files. -/
def Request.Routine : Request → Prop
  | .checkCall (.locationSetup ..) => False
  | .execChannel (.measurement2 _) _ => False
  | r => r.Silent

theorem Request.Routine.silent {r : Request} (h : r.Routine) : r.Silent := by
  unfold Request.Routine at h
  split at h
  · exact h.elim
  · exact h.elim
  · exact h

/-- Only requests with the property are made. -/
def Only (φ : Request → Prop) (trace : List (Request × Answer)) : Prop := ∀ x ∈ trace, φ x.1

def Request.isExecution : Request → Bool
  | .checkCall (.appExecution ..) => true
  | _ => false

def Executed (trace : List (Request × Answer)) : Prop := ∃ x ∈ trace, x.1.isExecution

instance (trace : List (Request × Answer)) : Decidable (Executed trace) :=
  inferInstanceAs (Decidable (∃ x ∈ trace, _))

def WritesIn (identifier : Router → String) (trace : List (Request × Answer)) (name : String) :
    Prop :=
  ∃ x ∈ trace, x.1.Writes identifier name

/-- Every file of the request lies in the directory of one of the applications and
begins with the counter. -/
def Arguments.Named (args : Arguments) (applications : List String) (r : Request) : Prop :=
  ∀ identifier name, r.Writes identifier name →
    ∃ app ∈ applications, ∃ rest, name = args.directory app ++ args.counter ++ "_" ++ rest

theorem closed_only (φ : Request → Prop) : Script.Closed (Only φ) := Script.closed_forall _

section Walk

variable {φ : Request → Prop}

theorem traces_perform {r : Request} (hr : φ r) : (perform r).Traces (Only φ) := by
  rw [perform_eq_call]
  exact (closed_only φ).call fun a => by simpa [Only] using hr

theorem traces_discard {r : Request} (hr : φ r) :
    (do let _ ← perform r : Script Request Answer Raised Unit).Traces (Only φ) :=
  (closed_only φ).bind (traces_perform hr) fun _ => (closed_only φ).pure _

theorem traces_checkCall {command : Command} (h : φ (.checkCall command)) :
    (checkCall command).Traces (Only φ) :=
  traces_discard h

theorem traces_popen {p : Process} {command : Command} (h : φ (.popen p command)) :
    (popen p command).Traces (Only φ) :=
  traces_discard h

theorem traces_execCommand {command : Command} (h : φ (.execCommand command)) :
    (execCommand command).Traces (Only φ) :=
  traces_discard h

/-- One round of the two loops of `cleanUp`: ask whether `a` still runs, and stop
it with `b` if it does. -/
theorem traces_stopIfRunning {a b : Request} (ha : φ a) (hb : φ b) :
    (do
      let answer ← perform a
      if answer.status = none then
        let _ ← perform b : Script Request Answer Raised Unit).Traces (Only φ) := by
  refine (closed_only φ).bind (traces_perform ha) fun answer => ?_
  split_ifs
  · exact traces_discard hb
  · exact (closed_only φ).pure _

variable (hφ : ∀ r : Request, r.Routine → φ r)
include hφ

theorem traces_startChannel {c : Channel} {command : Command} (h : φ (.execChannel c command)) :
    (startChannel c command).Traces (Only φ) := by
  refine (closed_only φ).bind (traces_perform (hφ _ trivial)) fun _ => ?_
  refine (closed_only φ).bind (traces_perform (hφ _ trivial)) fun _ => ?_
  exact traces_discard h

theorem traces_recvExitStatus (c : Channel) : (recvExitStatus c).Traces (Only φ) :=
  (closed_only φ).bind (traces_perform (hφ _ trivial)) fun _ => (closed_only φ).pure _

theorem traces_cleanUp (commands : List Process) (channels : List Channel) :
    (cleanUp commands channels).Traces (Only φ) := by
  refine (closed_only φ).bind ((closed_only φ).forM _ fun command _ => ?_) fun _ =>
    (closed_only φ).forM _ fun chan _ => ?_
  · exact traces_stopIfRunning (hφ _ trivial) (hφ _ trivial)
  · exact traces_stopIfRunning (hφ _ trivial) (hφ _ trivial)

theorem traces_forceStop : forceStop.Traces (Only φ) := by
  refine (closed_only φ).bind ((closed_only φ).catching ?_ fun _ => (closed_only φ).raise _)
    fun _ => (closed_only φ).catching ?_ fun _ => (closed_only φ).raise _
  · exact traces_checkCall (hφ _ trivial)
  · exact traces_execCommand (hφ _ trivial)

theorem traces_giveUp (commands : List Process) (channels : List Channel) (raised : Raised) :
    (giveUp commands channels raised).Traces (Only φ) := by
  refine (closed_only φ).bind (traces_cleanUp hφ commands channels) fun _ => ?_
  exact (closed_only φ).bind (traces_forceStop hφ) fun _ => (closed_only φ).raise _

theorem traces_giveUpIf (failed : Bool) (commands : List Process) (channels : List Channel)
    (raised : Raised) : (giveUpIf failed commands channels raised).Traces (Only φ) := by
  unfold giveUpIf
  split_ifs
  · exact traces_giveUp hφ commands channels raised
  · exact (closed_only φ).pure _

theorem traces_checkTunnels : checkTunnels.Traces (Only φ) := by
  refine (closed_only φ).bind (traces_perform (hφ _ trivial)) fun tunnel1 => ?_
  split_ifs
  · exact traces_giveUp hφ _ _ _
  · exact (closed_only φ).bind (traces_perform (hφ _ trivial)) fun tunnel2 =>
      traces_giveUpIf hφ _ _ _ _

theorem traces_startMeasurement (args : Arguments) (k : ℕ) (app timestamp : String)
    (h : φ (.execChannel (.measurement2 k)
      (.measurementSetup2 (args.directory app ++ args.result2 app timestamp)))) :
    (startMeasurement args k app timestamp).Traces (Only φ) := by
  refine (closed_only φ).bind (traces_popen (hφ _ trivial)) fun _ => ?_
  refine (closed_only φ).bind (traces_startChannel hφ h) fun _ => ?_
  refine (closed_only φ).bind (traces_perform (hφ _ trivial)) fun capture1 => ?_
  split_ifs
  · exact traces_giveUp hφ _ _ _
  · exact (closed_only φ).bind (traces_perform (hφ _ trivial)) fun capture2 =>
      traces_giveUpIf hφ _ _ _ _

theorem traces_executeApp (args : Arguments) (k : ℕ) (app : String)
    (h : φ (.checkCall (.appExecution app (args.videoFile1 app) (args.videoFile2 app)))) :
    (executeApp args k app).Traces (Only φ) := by
  refine (closed_only φ).catching (traces_checkCall h) fun error => ?_
  refine (closed_only φ).bind ?_ fun _ => traces_giveUp hφ _ _ _
  exact (closed_only φ).catching (traces_checkCall (hφ _ trivial)) fun _ => traces_giveUp hφ _ _ _

theorem traces_analyzeCaptures (args : Arguments) (k : ℕ) (app timestamp : String)
    (h1 : φ (.popen (.analysis1 k) (.analysis1 ⟨args.directory app, args.result1 app timestamp,
      args.countries.1, args.hostnames.1, app, args.counter⟩)))
    (h2 : φ (.execChannel (.analysis2 k) (.analysis2 ⟨args.directory app,
      args.result2 app timestamp, args.countries.2, args.hostnames.2, app, args.counter⟩))) :
    (analyzeCaptures args k app timestamp).Traces (Only φ) := by
  refine (closed_only φ).bind (traces_popen h1) fun _ => ?_
  refine (closed_only φ).bind (traces_startChannel hφ h2) fun _ => ?_
  refine (closed_only φ).bind (traces_perform (hφ _ trivial)) fun _ => ?_
  refine (closed_only φ).bind (traces_perform (hφ _ trivial)) fun analysis1 => ?_
  refine (closed_only φ).bind ?_ fun _ => ?_
  · exact traces_giveUpIf hφ _ _ _ _
  · exact (closed_only φ).bind (traces_recvExitStatus hφ _) fun analysis2 =>
      traces_giveUpIf hφ _ _ _ _

theorem traces_setup (args : Arguments)
    (h : φ (.checkCall (.locationSetup args.coordinates.1 args.coordinates.2
      (args.xprivacyVideo "1") (args.xprivacyVideo "2")))) : (setup args).Traces (Only φ) := by
  refine (closed_only φ).bind (traces_perform (hφ _ trivial)) fun _ => ?_
  refine (closed_only φ).bind (traces_popen (hφ _ trivial)) fun _ => ?_
  refine (closed_only φ).bind (traces_startChannel hφ (hφ _ trivial)) fun _ => ?_
  refine (closed_only φ).bind ?_ fun _ => ?_
  · exact (closed_only φ).catching (traces_checkCall h) fun _ => (closed_only φ).raise _
  refine (closed_only φ).bind ?_ fun _ => ?_
  · exact (closed_only φ).catching (traces_checkCall (hφ _ trivial))
      fun _ => traces_giveUp hφ _ _ _
  refine (closed_only φ).bind (traces_startChannel hφ (hφ _ trivial)) fun _ => ?_
  exact (closed_only φ).bind (traces_recvExitStatus hφ _) fun check2 =>
    traces_giveUpIf hφ _ _ _ _

theorem traces_saveResults (args : Arguments) : (saveResults args).Traces (Only φ) := by
  refine (closed_only φ).bind ?_ fun _ => ?_
  · exact (closed_only φ).catching (traces_checkCall (hφ _ trivial))
      fun _ => traces_giveUp hφ _ _ _
  refine (closed_only φ).bind ?_ fun _ => ?_
  · exact (closed_only φ).catching (traces_execCommand (hφ _ trivial))
      fun _ => traces_giveUp hφ _ _ _
  exact (closed_only φ).bind (traces_cleanUp hφ _ _) fun _ => traces_forceStop hφ

end Walk

/-- What an experiment writes: files of its own, and none before an application is
executed. -/
structure OwnFiles (args : Arguments) (applications : List String)
    (trace : List (Request × Answer)) : Prop where
  named : Only (args.Named applications) trace
  executed : Executed trace ∨ Only Request.Silent trace

variable {args : Arguments} {applications : List String}

theorem Arguments.named_of_silent {r : Request} (h : r.Silent) : args.Named applications r :=
  fun identifier name hwrites => absurd hwrites (h.not_writes identifier name)

theorem ownFiles_of_silent {trace : List (Request × Answer)} (h : Only Request.Silent trace) :
    OwnFiles args applications trace :=
  ⟨fun x hx => Arguments.named_of_silent (h x hx), Or.inr h⟩

theorem closed_ownFiles : Script.Closed (OwnFiles args applications) where
  nil := ownFiles_of_silent (closed_only _).nil
  append h₁ h₂ := by
    refine ⟨(closed_only _).append h₁.named h₂.named, ?_⟩
    rcases h₁.executed with ⟨x, hx, happ⟩ | hsilent₁
    · exact Or.inl ⟨x, List.mem_append_left _ hx, happ⟩
    · rcases h₂.executed with ⟨x, hx, happ⟩ | hsilent₂
      · exact Or.inl ⟨x, List.mem_append_right _ hx, happ⟩
      · exact Or.inr ((closed_only _).append hsilent₁ hsilent₂)

/-- Once the execution of an application is requested, files may be written. -/
theorem executed_of_executeApp {β : Type} {k : ℕ} {app : String}
    {f : Unit → Script Request Answer Raised β} :
    (executeApp args k app >>= f).Traces Executed := by
  intro trace result h
  match trace, h with
  | (_, a) :: rest, ⟨rfl, _⟩ => exact ⟨_, List.mem_cons_self, rfl⟩

theorem Arguments.videoFile_eq (router app country hostname : String) :
    args.videoFile router app country hostname = args.directory app ++ args.counter ++ "_" ++
      (router ++ "_" ++ app ++ "_" ++ country ++ "_" ++ hostname ++ ".mp4") := by
  simp only [Arguments.videoFile, String.append_assoc]

theorem dnsFile_eq (args : AnalysisArguments) (identifier qname : String) :
    dnsFile args identifier qname = args.directory ++ args.counter ++ "_" ++
      (identifier ++ "_" ++ args.application ++ "_" ++ args.country ++ "_" ++ args.hostname ++
        "_DNS_" ++ qname) := by
  simp only [dnsFile, String.append_assoc]

theorem named_appExecution {app : String} (happ : app ∈ applications) :
    args.Named applications
      (.checkCall (.appExecution app (args.videoFile1 app) (args.videoFile2 app))) := by
  rintro identifier name (rfl | rfl)
  · exact ⟨app, happ, _, Arguments.videoFile_eq ..⟩
  · exact ⟨app, happ, _, Arguments.videoFile_eq ..⟩

theorem traces_application {app : String} (happ : app ∈ applications) (k : ℕ) :
    (application args k app).Traces (OwnFiles args applications) := by
  have hsilent : ∀ r : Request, r.Routine → r.Silent := fun _ h => h.silent
  have hnamed : ∀ r : Request, r.Routine → args.Named applications r :=
    fun _ h => Arguments.named_of_silent h.silent
  refine closed_ownFiles.bind ((traces_checkTunnels hsilent).mono fun _ => ownFiles_of_silent)
    fun _ => ?_
  refine closed_ownFiles.bind (Script.traces_request fun a => ownFiles_of_silent ?_) fun now => ?_
  · simp [Only, Request.Silent]
  refine closed_ownFiles.bind
    ((traces_startMeasurement hsilent _ _ _ _ trivial).mono fun _ => ownFiles_of_silent)
    fun _ => ?_
  intro trace result h
  refine ⟨?_, Or.inl (executed_of_executeApp trace result h)⟩
  refine (closed_only _).bind (traces_executeApp hnamed args k app (named_appExecution happ))
    (fun _ => ?_) trace result h
  refine (closed_only _).bind (traces_cleanUp hnamed _ _) fun _ => ?_
  refine traces_analyzeCaptures hnamed args k app now.timestamp ?_ ?_
  · rintro identifier name ⟨qname, rfl⟩
    exact ⟨app, happ, _, dnsFile_eq ..⟩
  · rintro identifier name ⟨qname, rfl⟩
    exact ⟨app, happ, _, dnsFile_eq ..⟩

theorem traces_applicationLoop {apps : List String} (happs : ∀ app ∈ apps, app ∈ applications)
    (k : ℕ) : (applicationLoop args k apps).Traces (OwnFiles args applications) := by
  induction apps generalizing k with
  | nil => exact closed_ownFiles.pure _
  | cons app apps ih =>
      rw [List.forall_mem_cons] at happs
      exact closed_ownFiles.bind (traces_application happs.1 k) fun _ => ih happs.2 (k + 1)

theorem traces_experiment (applications : List String) (args : Arguments) :
    (experiment applications args).Traces (OwnFiles args applications) := by
  have hsilent : ∀ r : Request, r.Routine → r.Silent := fun _ h => h.silent
  refine closed_ownFiles.bind ((traces_setup hsilent args trivial).mono fun _ => ownFiles_of_silent)
    fun _ => ?_
  refine closed_ownFiles.bind (traces_applicationLoop (fun _ h => h) 0) fun _ => ?_
  exact (traces_saveResults hsilent args).mono fun _ => ownFiles_of_silent

theorem OwnFiles.executed_of_writesIn {identifier : Router → String}
    {trace : List (Request × Answer)} {name : String} (h : OwnFiles args applications trace)
    (hwrites : WritesIn identifier trace name) : Executed trace := by
  obtain ⟨x, hx, hname⟩ := hwrites
  rcases h.executed with hexecuted | hsilent
  · exact hexecuted
  · exact absurd hname ((hsilent x hx).not_writes identifier name)

/-- If a file can belong to two calls, the calls have the same number. -/
theorem OwnFiles.counter_eq {other : Arguments} {identifier : Router → String}
    {trace trace' : List (Request × Answer)} {name : String}
    (h : OwnFiles args applications trace) (h' : OwnFiles other applications trace')
    (hstorage : args.storageDirectory = other.storageDirectory)
    (happs : ∀ app ∈ applications, '/' ∉ app.toList) (hplain : Matador.Plain args.counter)
    (hplain' : Matador.Plain other.counter) (hwrites : WritesIn identifier trace name)
    (hwrites' : WritesIn identifier trace' name) : args.counter = other.counter := by
  obtain ⟨x, hx, hname⟩ := hwrites
  obtain ⟨x', hx', hname'⟩ := hwrites'
  obtain ⟨app, happ, rest, rfl⟩ := h.named x hx identifier name hname
  obtain ⟨app', happ', rest', heq⟩ := h'.named x' hx' identifier _ hname'
  have hlists := congrArg String.toList heq
  simp only [Arguments.directory, hstorage, String.toList_append, List.append_assoc,
    List.append_cancel_left_eq] at hlists
  obtain ⟨-, hrest⟩ := Delimited.append_cons_inj (happs app happ) (happs app' happ') hlists
  exact String.toList_inj.mp (Delimited.append_cons_inj hplain hplain' hrest).1

end Controller

namespace Wrapper

open Controller

variable {n : ℕ}

/-! ## The files of a run -/

/-- How the wrappers see the end of an experiment. An exception that they do not
handle ends them at once, like the `sys.exit(3)` after a `FatalException`. -/
def outcomeOf : Except Raised Unit → Outcome
  | .ok _ => .returns
  | .error (.host1Exception _) => .host1Exception
  | .error (.host2Exception _) => .host2Exception
  | .error (.smallException _) => .smallException
  | .error (.fatalException _) | .error (.other _) => .fatalException

/-- The call can have made the requests of the trace. -/
def Performed (applications : List String) (storageDirectory : String) (c : Call)
    (trace : List (Request × Answer)) : Prop :=
  ∃ result,
    (Controller.experiment applications (c.arguments storageDirectory)).Yields trace result ∧
    outcomeOf result = c.outcome

/-- In every run in which a host failure comes before the first execution of an
application in its call, and with application names without a slash, no video and
no DNS result belongs to two calls. -/
theorem results_kept_apart {s₀ s : State n} (h₀ : Start s₀) (h : Run s₀ s)
    {applications : List String} (happs : ∀ app ∈ applications, '/' ∉ app.toList)
    {storageDirectory : String} {traces : List (List (Request × Answer))}
    (htraces : List.Forall₂ (fun c trace => Performed applications storageDirectory c trace ∧
      (c.dropped ≠ none → ¬ Executed trace)) s.log traces) (identifier : Router → String) :
    traces.Pairwise fun trace trace' =>
      ∀ name, WritesIn identifier trace name → ¬ WritesIn identifier trace' name := by
  refine Log.pairwise_of_forall₂ (counted_of_reachable h₀.initial h).pairwise htraces ?_
  rintro b a trace trace' ⟨-, hlt⟩ ⟨⟨_, hb, -⟩, -⟩ ⟨⟨_, ha, -⟩, hearly⟩ name hwrites hwrites'
  have hown := traces_experiment _ _ _ _ hb
  have hown' := traces_experiment _ _ _ _ ha
  have hcompleted : a.dropped = none := by
    by_contra hdropped
    exact hearly hdropped (hown'.executed_of_writesIn hwrites')
  have hcounter := hown.counter_eq hown' rfl happs (Delimited.notMem_zfill_repr (by decide) 4 _)
    (Delimited.notMem_zfill_repr (by decide) 4 _) hwrites hwrites'
  exact (hlt hcompleted).ne' (Delimited.zfill_repr_inj (congrArg String.toList hcounter))

def undisturbed : ℕ → Request → Answer
  | _, .poll (.analysis1 _) | _, .recvExitStatus _ => { status := some 0 }
  | _, _ => {}

/-- The network check of router 1 fails in the first call, which writes nothing; the
second call is a retry with the same number. -/
theorem results_kept_apart_retry :
    let s := execute (fun k => if k = 0 then .host1Exception else .returns) 6
      (deltaStart [.entry "BE" [["a", "1", "2"], ["b", "3", "4"]], .entry "CH" [["c", "5", "6"]]]
        [1, 1])
    let failing : ℕ → Request → Answer
      | _, .checkCall .networkCheck1 => { error := some "failed" }
      | k, r => undisturbed k r
    let traces := (s.log.zip [undisturbed, failing]).map fun x =>
      (Script.run x.2 0 (Controller.experiment ["whatsapp"] (x.1.arguments "/results/"))).1
    s.log.map Call.counter = [46, 46] ∧ traces.length = 2 ∧
      traces.Pairwise fun trace trace' => ∀ name,
        WritesIn (fun _ => "1") trace name → ¬ WritesIn (fun _ => "1") trace' name := by
  intro s failing traces
  have htraces : List.Forall₂ (fun c trace => Performed ["whatsapp"] "/results/" c trace ∧
      (c.dropped ≠ none → ¬ Executed trace)) s.log traces :=
    List.Forall₂.cons ⟨⟨_, Script.yields_run _ 0 _, rfl⟩, by decide⟩
      (List.Forall₂.cons ⟨⟨_, Script.yields_run _ 0 _, rfl⟩, by decide⟩ List.Forall₂.nil)
  exact ⟨by decide, by decide, results_kept_apart
    (Start.delta
      [[.entry "BE" [["a", "1", "2"], ["b", "3", "4"]]], [.entry "CH" [["c", "5", "6"]]]])
    (execute_run _ 6 _) (by decide) htraces _⟩

/-- The tunnel of router 1 ends after the first application of a call. The retry
replaces the host of that router only, keeps the number and so writes the video and
the DNS result of the other router once more. -/
theorem retry_overwrites_results :
    let s₀ := deltaStart
      [.entry "BE" [["a", "1", "2"], ["b", "3", "4"]], .entry "CH" [["c", "5", "6"]]] [1, 1]
    let s := execute (fun k => if k = 0 then .host1Exception else .returns) 6 s₀
    let identifier : Router → String
      | .one => "1"
      | .two => "2"
    (hostnames s₀.countryList.toList).Nodup ∧ Run s₀ s ∧
      ∃ trace trace' : List (Request × Answer),
        List.Forall₂ (Performed ["whatsapp", "skype"] "/results/") s.log [trace, trace'] ∧
          WritesIn identifier trace "/results/whatsapp/0046_2_whatsapp_CH_c.mp4" ∧
          WritesIn identifier trace' "/results/whatsapp/0046_2_whatsapp_CH_c.mp4" ∧
          WritesIn identifier trace "/results/whatsapp/0046_2_whatsapp_CH_c_DNS_example.org." ∧
          WritesIn identifier trace' "/results/whatsapp/0046_2_whatsapp_CH_c_DNS_example.org." := by
  intro s₀ s identifier
  let lost : ℕ → Request → Answer
    | k, .poll .network1 => { status := if k < 20 then none else some 255 }
    | k, r => undisturbed k r
  have hlog : s.log = [⟨⟨⟨0, 1⟩, ⟨"BE", "b", "3", "4"⟩⟩, ⟨⟨1, 0⟩, ⟨"CH", "c", "5", "6"⟩⟩, 46,
      .returns⟩, ⟨⟨⟨0, 0⟩, ⟨"BE", "a", "1", "2"⟩⟩, ⟨⟨1, 0⟩, ⟨"CH", "c", "5", "6"⟩⟩, 46,
      .host1Exception⟩] := by decide
  rw [hlog]
  refine ⟨by decide, execute_run _ 6 _, _, _,
    List.Forall₂.cons ⟨_, Script.yields_run undisturbed 0 _, rfl⟩
      (List.Forall₂.cons ⟨_, Script.yields_run lost 0 _, rfl⟩ List.Forall₂.nil), ?_, ?_, ?_, ?_⟩
  · exact ⟨(.checkCall (.appExecution "whatsapp" "/results/whatsapp/0046_1_whatsapp_BE_b.mp4"
      "/results/whatsapp/0046_2_whatsapp_CH_c.mp4"), {}), by decide, Or.inr rfl⟩
  · exact ⟨(.checkCall (.appExecution "whatsapp" "/results/whatsapp/0046_1_whatsapp_BE_a.mp4"
      "/results/whatsapp/0046_2_whatsapp_CH_c.mp4"), {}), by decide, Or.inr rfl⟩
  · exact ⟨(.execChannel (.analysis2 0) (.analysis2 ⟨"/results/whatsapp/",
      "0046_2_whatsapp_CH_c_tcpdump_to_BE_b_.dump", "CH", "c", "whatsapp", "0046"⟩), {}),
      by decide, "example.org.", by decide⟩
  · exact ⟨(.execChannel (.analysis2 0) (.analysis2 ⟨"/results/whatsapp/",
      "0046_2_whatsapp_CH_c_tcpdump_to_BE_a_.dump", "CH", "c", "whatsapp", "0046"⟩), {}),
      by decide, "example.org.", by decide⟩

end Wrapper

end Matador
