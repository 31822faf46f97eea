import Matador.Phone.Policy

/-!
# The end of the firewall

`firewall_stop_complete` flushes the measurement chain, removes one jump to it from
`OUTPUT` and deletes it, with three commands that are joined by semicolons. A chain to
which `OUTPUT` still jumps cannot be deleted. Every set-up inserts a jump, also if the
chain is there already, so what one call leaves behind depends on the number of set-ups
before it.

Here a call of `iptables` changes the table also if it fails: all commands are executed,
those that fail change nothing, and the last one decides whether `check_call` raises.
-/

namespace Matador

namespace Phone

/-! ## Calls that go on after a failure -/

section Carry

variable (read : String → Option Owner)

/-- The table after commands joined by semicolons; one that fails is skipped. -/
def executeEach (filter : Filter) (commands : List Iptables) : Filter :=
  commands.foldl (fun filter command => (execute read filter command).getD filter) filter

/-- The phones after a call, if they can have answered it in this way: the call raises
exactly if the last command fails. -/
def carry (phones : String → Filter) : Request × Answer → Option (String → Filter)
  | (.checkCall device (.iptables commands), answer) =>
      if answer.error = none ↔ (executeAll read (phones device) commands).isSome then
        some (Function.update phones device (executeEach read (phones device) commands))
      else none
  | _ => some phones

def carryAll (phones : String → Filter) (trace : Trace) : Option (String → Filter) :=
  trace.foldlM (carry read) phones

variable {read} {phones phones' : String → Filter}

theorem carry_iptables {device : String} {commands : List Iptables} {answer : Answer}
    (h : carry read phones (.checkCall device (.iptables commands), answer) = some phones') :
    (answer.error = none ↔ (executeAll read (phones device) commands).isSome) ∧
      phones' device = executeEach read (phones device) commands ∧
      ∀ d ≠ device, phones' d = phones d := by
  obtain ⟨hanswer, hphones⟩ := Option.ite_none_right_eq_some.mp h
  obtain rfl := Option.some.inj hphones
  exact ⟨hanswer, Function.update_self .., fun d hd => Function.update_of_ne hd ..⟩

theorem carryAll_cons {x : Request × Answer} {t : Trace} :
    carryAll read phones (x :: t) = some phones' ↔
      ∃ mid, carry read phones x = some mid ∧ carryAll read mid t = some phones' :=
  Option.bind_eq_some_iff

end Carry

/-! ## The calls before the end -/

/-- The methods that change the firewall before it is stopped. -/
inductive HistoryCall where
  | setUp
  | openUid (app : String)
  | closeUid (app : String)
  deriving DecidableEq

def HistoryCall.script (config : Config) : HistoryCall → Program Unit
  | .setUp => firewallSetUp config
  | .openUid app => firewallOpenUid config app
  | .closeUid app => firewallCloseUid config app

/-- The trace of calls one after another, each of which returns or raises an exception. -/
inductive History (config : Config) : List HistoryCall → Trace → Prop where
  | nil : History config [] []
  | cons {call : HistoryCall} {calls : List HistoryCall} {t t' : Trace}
      {result : Except Raised Unit} (hcall : (call.script config).Yields t result)
      (hcalls : History config calls t') : History config (call :: calls) (t ++ t')

def setUpCall (device : String) : Request :=
  .checkCall device (.iptables [.newChain, .insertJump])

def setUpsOn (device : String) (trace : Trace) : ℕ :=
  trace.countP fun x => x.1 = setUpCall device

def Iptables.isRule : Iptables → Bool
  | .append .. | .insert .. | .delete .. => true
  | _ => false

/-- A call of the set-up, or one that opens or closes the firewall for a uid. -/
def IsHistoryCall (r : Request) : Prop :=
  ∃ device, r = setUpCall device ∨
    ∃ command : Iptables, command.isRule ∧ r = .checkCall device (.iptables [command])

theorem traces_iptables {φ : Request → Prop} {device : String} {commands : List Iptables}
    (h : φ (.checkCall device (.iptables commands))) :
    (iptables device commands).Traces fun t => ∀ x ∈ t, φ x.1 :=
  let hclosed := Script.closed_forall fun x : Request × Answer => φ x.1
  hclosed.bind (hclosed.call fun a => by simpa using h) fun _ => hclosed.pure _

theorem HistoryCall.traces_script (config : Config) (call : HistoryCall) :
    (call.script config).Traces fun t => ∀ x ∈ t, IsHistoryCall x.1 := by
  have hclosed := Script.closed_forall fun x : Request × Answer => IsHistoryCall x.1
  have hrule : ∀ (device : String) (command : Iptables), command.isRule →
      (iptables device [command]).Traces fun t => ∀ x ∈ t, IsHistoryCall x.1 :=
    fun device command hcommand => traces_iptables ⟨device, Or.inr ⟨command, hcommand, rfl⟩⟩
  have hforUid : ∀ app (command : String → Iptables), (∀ uid, (command uid).isRule) →
      (forUid config app command).Traces fun t => ∀ x ∈ t, IsHistoryCall x.1 := by
    intro app command hcommand
    refine hclosed.forM _ fun device _ => hclosed.bind (hclosed.ofExcept _) fun enabled => ?_
    split
    · exact hclosed.bind (hclosed.ofExcept _) fun uid =>
        hclosed.bind (hclosed.ofExcept _) fun _ => hrule device _ (hcommand uid)
    · exact hclosed.pure _
  have hrules : ∀ device range selected ranged listed,
      (setUpRules device range selected ranged listed).Traces
        fun t => ∀ x ∈ t, IsHistoryCall x.1 := fun device range selected ranged listed =>
    hclosed.bind (hrule device _ rfl) fun _ => hclosed.forM _ fun uid _ => hrule device _ rfl
  cases call with
  | openUid app => exact hforUid app _ fun _ => rfl
  | closeUid app => exact hforUid app _ fun _ => rfl
  | setUp =>
      refine hclosed.bind (hclosed.ofExcept _) fun white => ?_
      refine hclosed.bind (hclosed.ofExcept _) fun _ => ?_
      refine hclosed.bind (hclosed.ofExcept _) fun range => ?_
      cases config.selectedUid with
      | none => exact hclosed.raise _
      | some selected =>
          refine hclosed.forM _ fun device _ => hclosed.bind (hclosed.ofExcept _) fun enabled => ?_
          split
          · refine hclosed.bind (traces_iptables ⟨device, Or.inl rfl⟩) fun _ => ?_
            split <;> exact hrules _ _ _ _ _
          · exact hclosed.pure _

theorem History.isHistoryCall {config : Config} {calls : List HistoryCall} {t : Trace}
    (h : History config calls t) : ∀ x ∈ t, IsHistoryCall x.1 := by
  induction h with
  | nil => simp
  | cons hcall hcalls ih =>
      intro x hx
      rcases List.mem_append.mp hx with hx | hx
      · exact HistoryCall.traces_script config _ _ _ hcall x hx
      · exact ih x hx

/-! ## What the calls leave behind -/

section Behind

variable {read : String → Option Owner} {phones phones' : String → Filter} {device : String}

/-- The table has `n` jumps to the chain in front of the rules that were there before; if
there is a jump, there is a chain. -/
def Jumps (out : List OutputRule) (n : ℕ) (filter : Filter) : Prop :=
  filter.output = List.replicate n .jump ++ out ∧ (n ≠ 0 → filter.measurement ≠ none)

theorem Jumps.rule {out : List OutputRule} {n : ℕ} {filter : Filter} (h : Jumps out n filter)
    {command : Iptables} (hcommand : command.isRule) :
    Jumps out n (executeEach read filter [command]) := by
  cases hexecute : execute read filter command with
  | none => simpa [executeEach, hexecute] using h
  | some filter' =>
      have hfilter : filter'.output = filter.output ∧ filter'.measurement ≠ none := by
        cases command with
        | append owner target =>
            obtain ⟨rules, rule, -, -, rfl⟩ := execute_append hexecute
            simp
        | insert owner target =>
            obtain ⟨rules, rule, -, -, rfl⟩ := execute_insert hexecute
            simp
        | delete owner target =>
            obtain ⟨rules, -, hrest⟩ := Option.bind_eq_some_iff.mp hexecute
            obtain ⟨rule, -, hrest⟩ := Option.bind_eq_some_iff.mp hrest
            obtain ⟨-, hfilter'⟩ := Option.ite_none_right_eq_some.mp hrest
            obtain rfl := Option.some.inj hfilter'
            simp
        | newChain | insertJump | flush | deleteJump | deleteChain => cases hcommand
      have heach : executeEach read filter [command] = filter' := by
        simp [executeEach, hexecute]
      rw [heach]
      exact ⟨hfilter.1.trans h.1, fun _ => hfilter.2⟩

theorem executeEach_setUp (filter : Filter) :
    executeEach read filter [.newChain, .insertJump] =
      ⟨.jump :: filter.output, some (filter.measurement.getD [])⟩ := by
  obtain ⟨output, measurement⟩ := filter
  cases measurement <;> simp [executeEach, execute]

/-- One call adds a jump if it is the one of the set-up on this device. -/
theorem Jumps.carry {out : List OutputRule} {n : ℕ} {x : Request × Answer}
    (hx : IsHistoryCall x.1) (h : carry read phones x = some phones')
    (hjumps : Jumps out n (phones device)) :
    Jumps out (n + setUpsOn device [x]) (phones' device) := by
  obtain ⟨r, answer⟩ := x
  obtain ⟨d, rfl | ⟨command, hcommand, rfl⟩⟩ := hx
  · obtain ⟨-, hself, hother⟩ := carry_iptables h
    by_cases hd : device = d
    · subst hd
      rw [hself, executeEach_setUp]
      refine ⟨?_, by simp⟩
      simp [setUpsOn, hjumps.1, List.replicate_succ]
    · rw [hother device hd]
      simpa [setUpsOn, setUpCall, Ne.symm hd] using hjumps
  · obtain ⟨-, hself, hother⟩ := carry_iptables h
    have hnone :
        setUpsOn device [((.checkCall d (.iptables [command]) : Request), answer)] = 0 := by
      simp [setUpsOn, setUpCall]
    rw [hnone, Nat.add_zero]
    by_cases hd : device = d
    · subst hd
      rw [hself]
      exact hjumps.rule hcommand
    · rw [hother device hd]
      exact hjumps

/-- The jumps after a history, by induction on its calls. -/
theorem Jumps.carryAll {out : List OutputRule} {n : ℕ} {t : Trace}
    (ht : ∀ x ∈ t, IsHistoryCall x.1) (h : carryAll read phones t = some phones')
    (hjumps : Jumps out n (phones device)) :
    Jumps out (n + setUpsOn device t) (phones' device) := by
  induction t generalizing phones n with
  | nil =>
      obtain rfl := Option.some.inj h
      exact hjumps
  | cons x t ih =>
      rw [List.forall_mem_cons] at ht
      obtain ⟨mid, hfirst, hrest⟩ := carryAll_cons.mp h
      have hsplit : setUpsOn device (x :: t) = setUpsOn device [x] + setUpsOn device t := by
        simp only [setUpsOn, ← List.countP_append, List.singleton_append]
      rw [hsplit, ← Nat.add_assoc]
      exact ih ht.2 hrest (hjumps.carry ht.1 hfirst)

end Behind

/-! ## The end -/

section Stop

variable {read : String → Option Owner} {phones phones' : String → Filter} {device : String}

def stopCommands : List Iptables := [.flush, .deleteJump, .deleteChain]

def stopCall (device : String) : Request := .checkCall device (.iptables stopCommands)

def Reaches (device : String) (trace : Trace) : Prop := ∃ answer, (stopCall device, answer) ∈ trace

/-- The chain can be deleted if no jump to it is left after the first one was removed. -/
theorem execute_stop {out : List OutputRule} {k : ℕ} {rules : List Rule} :
    let filter : Filter := ⟨List.replicate (k + 1) .jump ++ out, some rules⟩
    ((executeAll read filter stopCommands).isSome ↔ k = 0 ∧ .jump ∉ out) ∧
      executeEach read filter stopCommands = if k = 0 ∧ .jump ∉ out then ⟨out, none⟩
        else ⟨List.replicate k .jump ++ out, some []⟩ := by
  intro filter
  have hflush : execute read filter .flush = some { filter with measurement := some [] } := rfl
  have hdelete : execute read { filter with measurement := some [] } .deleteJump =
      some ⟨List.replicate k .jump ++ out, some []⟩ := by
    simp [filter, execute, List.replicate_succ]
  have hlast : OutputRule.jump ∉ List.replicate k .jump ++ out ↔ k = 0 ∧ .jump ∉ out := by
    simp [List.mem_append, List.mem_replicate]
  have hchain : execute read ⟨List.replicate k .jump ++ out, some []⟩ .deleteChain =
      if k = 0 ∧ .jump ∉ out then some ⟨List.replicate k .jump ++ out, none⟩ else none := by
    simp only [execute, true_and, hlast]
  by_cases hdeleted : k = 0 ∧ .jump ∉ out
  · obtain ⟨rfl, hout⟩ := hdeleted
    rw [if_pos ⟨rfl, hout⟩, List.replicate_zero, List.nil_append] at hchain
    simp [stopCommands, executeAll, executeEach, hflush, hdelete, hchain, hout]
  · simp [stopCommands, executeAll, executeEach, hflush, hdelete, hchain, hdeleted]

theorem executeEach_stop_of_none {out : List OutputRule} (hout : .jump ∉ out) :
    executeEach read ⟨out, none⟩ stopCommands = ⟨out, none⟩ := by
  simp [stopCommands, executeEach, execute, hout]

theorem yields_stopRound {config : Config} {d : String} {t : Trace}
    {result : Except Raised PUnit}
    (h : (do
      let enabled ← Script.ofExcept (config.getboolean d "iptables")
      if enabled then iptables d [.flush, .deleteJump, .deleteChain] :
        Program PUnit).Yields t result) :
    t = [] ∨ ∃ answer, t = [(stopCall d, answer)] ∧
      (answer.error = none ∧ result = .ok () ∨ answer.error ≠ none ∧ ∃ e, result = .error e) := by
  have hnil : ∀ x : Except Raised Bool, (do
      let enabled ← Script.ofExcept x
      if enabled then iptables d [.flush, .deleteJump, .deleteChain] :
        Program PUnit).Yields t result → x ≠ .ok true → t = [] := by
    rintro (e | b) hyields hne
    · exact hyields.1
    · cases b with
      | false => exact hyields.1
      | true => exact absurd rfl hne
  by_cases hflag : config.getboolean d "iptables" = .ok true
  · rw [hflag] at h
    exact Or.inr (Script.ensures_discard Answer.error (stopCall d) t result h)
  · exact Or.inl (hnil _ h hflag)

/-- What calls of the loop do to a device: nothing if they do not reach it or if it has
neither chain nor jump, and otherwise one jump is removed, and the chain with the last
one. -/
structure Stopped (device : String) (t : Trace) (filter filter' : Filter) : Prop where
  frame : ¬ Reaches device t → filter' = filter
  absent : ∀ out, .jump ∉ out → filter = ⟨out, none⟩ → filter' = ⟨out, none⟩
  jump : ∀ out k rules, filter = ⟨List.replicate (k + 1) .jump ++ out, some rules⟩ →
    Reaches device t → filter' = if k = 0 ∧ .jump ∉ out then ⟨out, none⟩
      else ⟨List.replicate k .jump ++ out, some []⟩

theorem stopped_nil (device : String) (filter : Filter) : Stopped device [] filter filter :=
  ⟨fun _ => rfl, fun _ _ h => h, fun _ _ _ _ ⟨_, hmem⟩ => absurd hmem (by simp)⟩

theorem stopped_call {d : String} {answer : Answer}
    (h : carry read phones (stopCall d, answer) = some phones') :
    Stopped device [(stopCall d, answer)] (phones device) (phones' device) := by
  obtain ⟨-, hself, hother⟩ := carry_iptables h
  by_cases hd : device = d
  · subst hd
    refine ⟨fun hnot => absurd ⟨answer, List.mem_singleton_self _⟩ hnot, ?_, ?_⟩
    · intro out hout heq
      rw [hself, heq, executeEach_stop_of_none hout]
    · rintro out k rules heq -
      rw [hself, heq, execute_stop.2]
  · have hnot : ¬ Reaches device [(stopCall d, answer)] := by
      simp [Reaches, stopCall, hd]
    rw [hother device hd]
    exact ⟨fun _ => rfl, fun _ _ heq => heq, fun _ _ _ _ hreach => absurd hreach hnot⟩

/-- After a call that succeeds the loop goes on; the device of the call has no chain left,
so the rest of the loop does not change it. -/
theorem Stopped.cons {d : String} {answer : Answer} {t : Trace} {mid : String → Filter}
    (h : carry read phones (stopCall d, answer) = some mid) (hanswer : answer.error = none)
    (hrest : Stopped device t (mid device) (phones' device)) :
    Stopped device ((stopCall d, answer) :: t) (phones device) (phones' device) := by
  obtain ⟨hsucceeds, hself, hother⟩ := carry_iptables h
  by_cases hd : device = d
  · subst hd
    refine ⟨fun hnot => absurd ⟨answer, List.mem_cons_self⟩ hnot, ?_, ?_⟩
    · intro out hout heq
      refine hrest.absent out hout ?_
      rw [hself, heq, executeEach_stop_of_none hout]
    · rintro out k rules heq -
      rw [heq] at hsucceeds hself
      have hlast := execute_stop.1.mp (hsucceeds.mp hanswer)
      rw [if_pos hlast]
      refine hrest.absent out hlast.2 ?_
      rw [hself, execute_stop.2, if_pos hlast]
  · have hiff : Reaches device ((stopCall d, answer) :: t) ↔ Reaches device t := by
      simp [Reaches, stopCall, hd]
    rw [← hother device hd]
    exact ⟨fun hnot => hrest.frame (mt hiff.mpr hnot), hrest.absent,
      fun out k rules heq hreach => hrest.jump out k rules heq (hiff.mp hreach)⟩

theorem stopped_forM {config : Config} {devices : List String} {t : Trace}
    {result : Except Raised PUnit}
    (h : (devices.forM fun d => do
      let enabled ← Script.ofExcept (config.getboolean d "iptables")
      if enabled then iptables d [.flush, .deleteJump, .deleteChain] :
        Program PUnit).Yields t result)
    (hcarry : carryAll read phones t = some phones') :
    Stopped device t (phones device) (phones' device) := by
  induction devices generalizing phones t with
  | nil =>
      obtain ⟨rfl, -⟩ := h
      obtain rfl := Option.some.inj hcarry
      exact stopped_nil device _
  | cons d devices ih =>
      rcases Script.yields_bind h with ⟨e, hround, -⟩ | ⟨_, t₁, t₂, hround, hrest, rfl⟩
      · rcases yields_stopRound hround with rfl | ⟨answer, rfl, -⟩
        · obtain rfl := Option.some.inj hcarry
          exact stopped_nil device _
        · obtain ⟨mid, hcall, hnil⟩ := carryAll_cons.mp hcarry
          obtain rfl := Option.some.inj hnil
          exact stopped_call hcall
      · rcases yields_stopRound hround with rfl | ⟨answer, rfl, ⟨hanswer, -⟩ | ⟨-, e, heq⟩⟩
        · exact ih hrest hcarry
        · obtain ⟨mid, hcall, hlast⟩ := carryAll_cons.mp hcarry
          exact (ih hrest hlast).cons hcall hanswer
        · cases heq

theorem stopped_firewallStopComplete {config : Config} {t : Trace} {result : Except Raised Unit}
    (h : (firewallStopComplete config).Yields t result)
    (hcarry : carryAll read phones t = some phones') :
    Stopped device t (phones device) (phones' device) := by
  unfold firewallStopComplete at h
  cases hchain : config.get "iptables" "chain" with
  | error e =>
      rw [hchain] at h
      obtain ⟨rfl, -⟩ := h
      obtain rfl := Option.some.inj hcarry
      exact stopped_nil device _
  | ok chain =>
      rw [hchain] at h
      exact stopped_forM h hcarry

/-- The end of the firewall undoes exactly one set-up: after any calls of the other
methods, of which at least one set-up reached the device, `firewall_stop_complete` leaves
`OUTPUT` as it was before them and no measurement chain if and only if it was one set-up,
the call reaches the device, and `OUTPUT` had no jump to the chain before. -/
theorem stop_restores_iff (read : String → Option Owner) (config : Config)
    {calls : List HistoryCall} {t t' : Trace} (h : History config calls t)
    {result : Except Raised Unit} (hstop : (firewallStopComplete config).Yields t' result)
    {before between after : String → Filter} (hcarry : carryAll read before t = some between)
    (hcarry' : carryAll read between t' = some after) {device : String}
    (hsetUp : 1 ≤ setUpsOn device t) :
    (after device).output = (before device).output ∧ (after device).measurement = none ↔
      setUpsOn device t = 1 ∧ Reaches device t' ∧ .jump ∉ (before device).output := by
  obtain ⟨k, hk⟩ := Nat.exists_eq_add_of_le' hsetUp
  have hjumps : Jumps (before device).output (k + 1) (between device) := by
    have hstart : Jumps (before device).output 0 (before device) := ⟨rfl, fun h => absurd rfl h⟩
    simpa [hk] using hstart.carryAll h.isHistoryCall hcarry
  obtain ⟨rules, hrules⟩ := Option.ne_none_iff_exists'.mp (hjumps.2 (Nat.succ_ne_zero k))
  have hbetween : between device =
      ⟨List.replicate (k + 1) .jump ++ (before device).output, some rules⟩ := by
    rw [← hjumps.1, ← hrules]
  have hstopped : Stopped device t' (between device) (after device) :=
    stopped_firewallStopComplete hstop hcarry'
  by_cases hreach : Reaches device t'
  · rw [hstopped.jump _ k rules hbetween hreach]
    by_cases hlast : k = 0 ∧ .jump ∉ (before device).output
    · rw [if_pos hlast]
      simp [hk, hlast, hreach]
    · rw [if_neg hlast]
      -- the chain is still there, emptied
      refine iff_of_false (fun hrestored => nomatch hrestored.2) fun hone => ?_
      exact hlast ⟨Nat.succ.inj (hk.symm.trans hone.1), hone.2.2⟩
  · rw [hstopped.frame hreach, hbetween]
    simp [hreach]

def onePhone : Config where
  devices := ["dev0001"]
  applications := ["whatsapp"]
  sections _ := some fun key =>
    if key = "white_list" ∨ key = "iptables" then some "true"
    else if key = "range" then some "0-99999999"
    else if key = "whatsapp_uid" then some "10090" else some "measurement"
  selectedUid := some ["0"]
  direc := ""

def historyTrace (calls : List HistoryCall) : Trace :=
  calls.flatMap fun call => ((call.script onePhone).run (fun _ _ => {}) 0).1

theorem history_historyTrace (calls : List HistoryCall) :
    History onePhone calls (historyTrace calls) := by
  induction calls with
  | nil => exact .nil
  | cons call calls ih => exact .cons (Script.yields_run _ 0 _) ih

theorem stop_restores_iff_once :
    let t := historyTrace [.setUp, .openUid "whatsapp"]
    let stop := (firewallStopComplete onePhone).run (fun _ _ => {}) 0
    ∃ between after, carryAll whiteListRead (fun _ => ⟨[.other "log"], none⟩) t = some between ∧
      carryAll whiteListRead between stop.1 = some after ∧
      (after "dev0001").output = [.other "log"] ∧ (after "dev0001").measurement = none := by
  intro t stop
  obtain ⟨between, after, hcarry, hcarry'⟩ : ∃ between after,
      carryAll whiteListRead (fun _ => ⟨[.other "log"], none⟩) t = some between ∧
        carryAll whiteListRead between stop.1 = some after := ⟨_, _, rfl, rfl⟩
  refine ⟨between, after, hcarry, hcarry', ?_⟩
  exact (stop_restores_iff whiteListRead onePhone (history_historyTrace _)
    (Script.yields_run _ 0 _) hcarry hcarry' (by decide)).mpr
    ⟨by decide, ⟨{}, by decide⟩, by decide⟩

/-- A second set-up, after a run that ended before its completion steps: the stop raises an
exception, and the jump and the empty chain stay. -/
theorem second_setUp_stays :
    let t := historyTrace [.setUp, .openUid "whatsapp", .setUp]
    let stop := (firewallStopComplete onePhone).run
      (fun _ _ => { error := some (.other "exit status 1") }) 0
    History onePhone [.setUp, .openUid "whatsapp", .setUp] t ∧
      (firewallStopComplete onePhone).Yields stop.1 stop.2 ∧
      ∃ between after, carryAll whiteListRead (fun _ => ⟨[.other "log"], none⟩) t = some between ∧
        carryAll whiteListRead between stop.1 = some after ∧
        after "dev0001" = ⟨[.jump, .other "log"], some []⟩ :=
  ⟨history_historyTrace _, Script.yields_run _ 0 _, _, _, rfl, rfl, rfl⟩

end Stop

end Phone

end Matador
