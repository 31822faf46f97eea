import Mathlib.Data.List.Perm.Basic
import Matador.Phone.Firewall

/-!
# The firewall after a failed execution

`app_execution` opens the firewall of the phones for an application and closes it again
nine steps later. When it fails, the controller runs `clean_up`, which stops the wifi,
closes the applications and switches the screens off, and does not touch the firewall.
So the chain of a phone is what the part of `app_execution` before the failure has made
of it.

All methods but two are quiet: no trace of theirs holds a command of `iptables`. The
commands of an execution are therefore those of the loop that opens, followed by those of
the loop that closes, each up to the point where it was left.
-/

namespace Matador

namespace Phone

/-- No command of `iptables` has succeeded. -/
def Quiet (t : Trace) : Prop := ∀ device, commandsOn device t = []

theorem closed_quiet : Script.Closed Quiet where
  nil _ := rfl
  append h h' device := by rw [commandsOn_append, h, h', List.append_nil]

/-! ## Quiet methods -/

section QuietMethods

theorem quiet_perform {r : Request} (hr : ∀ device a, commandOn device (r, a) = none) :
    (perform r).Traces Quiet :=
  closed_quiet.call fun a device => by simp [commandsOn, hr]

theorem quiet_discard {r : Request} (hr : ∀ device a, commandOn device (r, a) = none) :
    (do let _ ← perform r : Program Unit).Traces Quiet :=
  closed_quiet.bind (quiet_perform hr) fun _ => closed_quiet.pure _

theorem quiet_forM {command : Shell} (hcommand : ∀ commands, command ≠ .iptables commands)
    (devices : List String) :
    (devices.forM fun device => checkCall device command).Traces Quiet := by
  refine closed_quiet.forM devices fun device _ => quiet_discard fun d a => ?_
  cases command with
  | iptables commands => exact absurd rfl (hcommand commands)
  | _ => rfl

theorem quiet_foldlM {β : Type} {request : String → Request}
    (hrequest : ∀ device d a, commandOn device (request d, a) = none) {collect : β → Answer → β}
    (devices : List String) (init : β) :
    (devices.foldlM (fun b d => do
      let answer ← perform (request d)
      pure (collect b answer)) init : Program β).Traces Quiet :=
  closed_quiet.foldlM devices (fun _ d _ =>
    closed_quiet.bind (quiet_perform fun device a => hrequest device d a) fun _ =>
      closed_quiet.pure _) init

variable (config : Config)

theorem quiet_unreachable : (unreachable config).Traces Quiet :=
  quiet_foldlM (fun _ _ _ => rfl) config.devices false

theorem quiet_retryWifi (left : ℕ) : (retryWifi config left).Traces Quiet := by
  induction left with
  | zero => exact closed_quiet.raise _
  | succ left ih =>
      refine closed_quiet.bind ?_ fun _ => ?_
      · refine closed_quiet.forM _ fun device _ => ?_
        exact closed_quiet.bind (quiet_discard fun _ _ => rfl) fun _ => quiet_discard fun _ _ => rfl
      refine closed_quiet.bind (quiet_unreachable config) fun assumption => ?_
      cases assumption with
      | false => exact closed_quiet.pure _
      | true => exact ih

theorem quiet_startWifi : (startWifi config).Traces Quiet := by
  refine closed_quiet.bind (quiet_forM (by simp) _) fun _ => ?_
  refine closed_quiet.bind (quiet_unreachable config) fun assumption => ?_
  cases assumption with
  | false => exact closed_quiet.pure _
  | true => exact quiet_retryWifi config 2

theorem quiet_activateScreen : (activateScreen config).Traces Quiet := by
  refine closed_quiet.bind (quiet_forM (by simp) _) fun _ => ?_
  refine closed_quiet.forM _ fun device _ => ?_
  refine closed_quiet.bind (closed_quiet.ofExcept _) fun maxX => ?_
  refine closed_quiet.bind (quiet_perform fun _ _ => rfl) fun _ => ?_
  refine closed_quiet.bind (closed_quiet.ofExcept _) fun maxY => ?_
  refine closed_quiet.bind (quiet_perform fun _ _ => rfl) fun _ => ?_
  exact quiet_discard fun _ _ => rfl

theorem quiet_startApplication (app : String) : (startApplication config app).Traces Quiet := by
  refine closed_quiet.bind (closed_quiet.ofExcept _) fun startActivity => ?_
  refine closed_quiet.bind (closed_quiet.ofExcept _) fun startupTime => ?_
  refine closed_quiet.bind (quiet_perform fun _ _ => rfl) fun _ => ?_
  refine closed_quiet.bind (closed_quiet.ofExcept _) fun conversation => ?_
  refine closed_quiet.bind (closed_quiet.ofExcept _) fun textInput => ?_
  refine closed_quiet.bind (quiet_forM (by simp) _) fun _ => ?_
  refine closed_quiet.bind (quiet_forM (by simp) _) fun _ => ?_
  exact quiet_forM (by simp) _

theorem quiet_closeApplication (app : String) : (closeApplication config app).Traces Quiet :=
  closed_quiet.bind (closed_quiet.ofExcept _) fun _ => quiet_forM (by simp) _

theorem quiet_startScreencast : (startScreencast config).Traces Quiet :=
  quiet_foldlM (fun _ _ _ => rfl) config.devices []

theorem quiet_stopScreencast (devices filenames : List String) (pidList : List ℤ) :
    (stopScreencast devices filenames pidList).Traces Quiet := by
  induction devices generalizing filenames pidList with
  | nil => exact closed_quiet.pure ()
  | cons device devices ih =>
      cases pidList with
      | nil => exact closed_quiet.raise _
      | cons pid pidList =>
          refine closed_quiet.bind ?_ fun _ => ?_
          · refine closed_quiet.catching (quiet_discard fun _ _ => rfl) fun error => ?_
            split_ifs
            · exact closed_quiet.pure _
            · exact closed_quiet.raise _
          cases filenames with
          | nil => exact closed_quiet.raise _
          | cons filename filenames =>
              exact closed_quiet.bind (quiet_discard fun _ _ => rfl) fun _ => ih filenames pidList

theorem quiet_sendMessage (app : String) (switch : ℕ) :
    (sendMessage config app switch).Traces Quiet := by
  refine closed_quiet.bind (closed_quiet.ofExcept _) fun sendButtonCo => ?_
  refine closed_quiet.bind (closed_quiet.ofExcept _) fun textSource => ?_
  refine closed_quiet.bind (quiet_perform fun _ _ => rfl) fun answer => ?_
  cases config.devices[switch]? with
  | none => exact closed_quiet.raise _
  | some device =>
      refine closed_quiet.bind (quiet_discard fun _ _ => rfl) fun _ => ?_
      exact closed_quiet.bind (quiet_discard fun _ _ => rfl) fun _ => closed_quiet.pure _

theorem quiet_waitInMessenger (app : String) : (waitInMessenger config app).Traces Quiet :=
  closed_quiet.bind (closed_quiet.ofExcept _) fun _ => quiet_discard fun _ _ => rfl

theorem quiet_cleanUp : (cleanUp config).Traces Quiet := by
  refine closed_quiet.bind (quiet_forM (by simp) _) fun _ => ?_
  refine closed_quiet.bind ?_ fun _ => quiet_forM (by simp) _
  exact closed_quiet.forM _ fun app _ => quiet_closeApplication config app

end QuietMethods

/-! ## The commands of an execution -/

section Execution

variable (config : Config) (app : String)

def sent (t : Trace) (device : String) : List (List Iptables) := commandsOn device t

/-- The firewall was closed on a part of the devices. -/
def Closing (commands : String → List (List Iptables)) : Prop :=
  ∃ closed, closed <+: config.firewalled app config.devices ∧
    ∀ device, commands device =
      List.replicate (closed.count device) (commandFor config app (.delete · .RETURN) device)

/-- The firewall was opened on a part of the devices, and closed again on a part of them if
it had been opened on all. -/
def Opening (commands : String → List (List Iptables)) : Prop :=
  ∃ opened closed, opened <+: config.firewalled app config.devices ∧
    closed <+: config.firewalled app config.devices ∧
    (closed ≠ [] → opened = config.firewalled app config.devices) ∧
    ∀ device, commands device =
      List.replicate (opened.count device) (commandFor config app (.insert · .RETURN) device) ++
        List.replicate (closed.count device) (commandFor config app (.delete · .RETURN) device)

variable {config app} {β γ : Type}

/-- What holds of the commands of the second part holds of those of both, if the first part
is quiet. -/
theorem traces_quiet_bind {p : Program β} {f : β → Program γ}
    {V : (String → List (List Iptables)) → Prop} (hp : p.Traces Quiet) (hnil : V fun _ => [])
    (hf : ∀ b, (f b).Traces fun t => V (sent t)) : (p >>= f).Traces fun t => V (sent t) := by
  intro trace result h
  rcases Script.yields_bind h with ⟨e, hraise, rfl⟩ | ⟨b, t, t', hfirst, hrest, rfl⟩
  · rwa [show sent trace = fun _ => [] from funext (hp _ _ hraise)]
  · have hsent : sent (t ++ t') = sent t' := by
      funext device
      rw [sent, commandsOn_append, hp _ _ hfirst device, List.nil_append, sent]
    rw [hsent]
    exact hf b _ _ hrest

theorem closing_nil : Closing config app fun _ => [] := ⟨[], List.nil_prefix, by simp⟩

theorem opening_nil : Opening config app fun _ => [] :=
  ⟨[], [], List.nil_prefix, List.nil_prefix, by simp, by simp⟩

theorem traces_closing {p : Program Unit} (hp : p.Traces Quiet) :
    (do firewallCloseUid config app; p).Traces fun t => Closing config app (sent t) := by
  intro trace result h
  rcases Script.yields_bind h with ⟨e, hraise, rfl⟩ | ⟨b, t, t', hfirst, hrest, rfl⟩
  · obtain ⟨done, hprefix, hcommands, -⟩ := ensures_forUid _ _ hraise
    exact ⟨done, hprefix, hcommands⟩
  · obtain ⟨done, hprefix, hcommands, -⟩ := ensures_forUid _ _ hfirst
    refine ⟨done, hprefix, fun device => ?_⟩
    rw [sent, commandsOn_append, hp _ _ hrest device, List.append_nil, hcommands]

theorem traces_opening {p : Program Unit} (hp : p.Traces fun t => Closing config app (sent t)) :
    (do firewallOpenUid config app; p).Traces fun t => Opening config app (sent t) := by
  intro trace result h
  rcases Script.yields_bind h with ⟨e, hraise, rfl⟩ | ⟨b, t, t', hfirst, hrest, rfl⟩
  · obtain ⟨done, hprefix, hcommands, -⟩ := ensures_forUid _ _ hraise
    exact ⟨done, [], hprefix, List.nil_prefix, by simp, by simpa [sent] using hcommands⟩
  · obtain ⟨done, -, hcommands, hreturn⟩ := ensures_forUid _ _ hfirst
    obtain ⟨rfl, -⟩ := hreturn rfl
    obtain ⟨closed, hprefix, hcommands'⟩ := hp _ _ hrest
    refine ⟨_, closed, List.prefix_rfl, hprefix, fun _ => rfl, fun device => ?_⟩
    rw [sent, commandsOn_append, hcommands, ← hcommands', sent]

theorem traces_execution (video1 video2 : String) :
    (execution config app video1 video2).Traces fun t => Opening config app (sent t) := by
  refine traces_quiet_bind (quiet_startScreencast config) opening_nil fun pidList => ?_
  refine traces_quiet_bind (quiet_activateScreen config) opening_nil fun _ => ?_
  refine traces_opening ?_
  refine traces_quiet_bind (quiet_startWifi config) closing_nil fun _ => ?_
  refine traces_quiet_bind (quiet_startApplication config app) closing_nil fun _ => ?_
  refine traces_quiet_bind (quiet_sendMessage config app _) closing_nil fun switch => ?_
  refine traces_quiet_bind (quiet_sendMessage config app switch) closing_nil fun switch => ?_
  refine traces_quiet_bind (quiet_sendMessage config app switch) closing_nil fun switch => ?_
  refine traces_quiet_bind (quiet_sendMessage config app switch) closing_nil fun _ => ?_
  refine traces_quiet_bind (quiet_waitInMessenger config app) closing_nil fun _ => ?_
  refine traces_quiet_bind (quiet_closeApplication config app) closing_nil fun _ => ?_
  refine traces_closing ?_
  refine closed_quiet.bind (quiet_forM (by simp) _) fun _ => ?_
  refine closed_quiet.bind (quiet_forM (by simp) _) fun _ => ?_
  exact quiet_stopScreencast _ _ _

theorem traces_appExecution (argv : List String) :
    (appExecution config argv).Traces fun t => Opening config (argv.getD 1 "") (sent t) := by
  unfold appExecution
  split
  · exact traces_execution _ _
  · rintro trace result ⟨rfl, -⟩
    exact opening_nil

/-- The execution sends no command to a phone that is not one of the devices. -/
theorem commandsOn_of_not_mem {device : String} (hdevice : device ∉ config.devices)
    {argv : List String} {t : Trace} {result : Except Raised Unit}
    (h : (appExecution config argv).Yields t result) : commandsOn device t = [] := by
  obtain ⟨opened, closed, hopened, hclosed, -, hsent⟩ := traces_appExecution argv t result h
  have hcount : ∀ {devices : List String},
      devices <+: config.firewalled (argv.getD 1 "") config.devices → devices.count device = 0 :=
    fun hdevices => List.count_eq_zero.mpr fun hmem =>
      hdevice (List.mem_of_mem_filter (hdevices.subset hmem))
  rw [← sent, hsent, hcount hopened, hcount hclosed]
  rfl

end Execution

/-! ## The chains -/

section Chains

variable {read : String → Option Owner} {filter filter' : Filter} {uid : String}

theorem replicate_diff_replicate (rule : Rule) (n m : ℕ) :
    (List.replicate n rule).diff (List.replicate m rule) = List.replicate (n - m) rule := by
  induction m generalizing n with
  | zero => rfl
  | succ m ih =>
      rw [List.replicate_succ, List.diff_cons, List.erase_replicate_self, ih, Nat.sub_sub,
        Nat.add_comm 1 m]

/-- Opening the firewall `n` times and closing it at most as often leaves the chain as it
was if and only if it was closed as often. -/
theorem restored_iff {n m : ℕ} (hm : m ≤ n)
    (h : (List.replicate n [Iptables.insert uid .RETURN] ++
      List.replicate m [Iptables.delete uid .RETURN]).foldlM (executeAll read) filter =
        some filter') :
    filter'.measurement = filter.measurement ↔ n = m := by
  cases n with
  | zero =>
      obtain rfl : m = 0 := Nat.le_zero.mp hm
      obtain rfl := Option.some.inj h
      exact iff_of_true rfl rfl
  | succ n =>
      -- the first insertion has succeeded, so there is a chain and a rule
      obtain ⟨rules, rule, hrules, hrule⟩ : ∃ rules rule, filter.measurement = some rules ∧
          readRule read uid .RETURN = some rule := by
        rw [List.replicate_succ, List.cons_append, List.foldlM_cons] at h
        obtain ⟨mid, hexecute, -⟩ := Option.bind_eq_some_iff.mp h
        obtain ⟨rules, rule, hrules, hrule, -⟩ := execute_insert hexecute
        exact ⟨rules, rule, hrules, hrule⟩
      rw [List.foldlM_append, foldlM_insert hrule hrules] at h
      have hcount : m ≤ (List.replicate (n + 1) rule).count rule := by
        rwa [List.count_replicate_self]
      obtain rfl := Option.some.inj (h.symm.trans (foldlM_delete hrule rfl hcount))
      rw [replicate_diff_replicate, hrules, Option.some_inj, List.append_left_eq_self,
        List.replicate_eq_nil_iff]
      omega

end Chains

/-- The firewall was closed on every device of the list that has one. -/
def ClosedEverywhere (config : Config) (app : String) (t : Trace) : Prop :=
  ∀ device, (commandsOn device t).count (commandFor config app (.delete · .RETURN) device) =
    (config.firewalled app config.devices).count device

/-- After a failure of `app_execution` and a run of `clean_up` all chains are as before if and
only if no command of `iptables` had succeeded before the failure, or the firewall had been
closed on all devices. -/
theorem chains_restored_iff (read : String → Option Owner) (config : Config) {argv : List String}
    {t t' : Trace} {raised : Raised} {result : Except Raised Unit}
    (h : (appExecution config argv).Yields t (.error raised))
    (h' : (cleanUp config).Yields t' result) {before after : String → Filter}
    (hplay : play read before (t ++ t') = some after) :
    (∀ device, (after device).measurement = (before device).measurement) ↔
      Quiet t ∨ ClosedEverywhere config (argv.getD 1 "") t := by
  -- the commands of the execution are those for the devices `opened` and then `closed`
  obtain ⟨opened, closed, hopened, hclosed, horder, hcommands⟩ := traces_appExecution argv t _ h
  have hle : ∀ device, closed.count device ≤ opened.count device := by
    intro device
    cases closed with
    | nil => simp
    | cons d closed =>
        rw [horder (by simp)]
        exact hclosed.sublist.count_le device
  have hrestored : ∀ device, (after device).measurement = (before device).measurement ↔
      opened.count device = closed.count device := by
    intro device
    have hdevice := play_device hplay device
    rw [commandsOn_append, quiet_cleanUp config t' _ h' device, List.append_nil] at hdevice
    rw [← sent, hcommands] at hdevice
    exact restored_iff (hle device) hdevice
  have hcount : ∀ device,
      (commandsOn device t).count
        (commandFor config (argv.getD 1 "") (.delete · .RETURN) device) = closed.count device := by
    intro device
    rw [← sent, hcommands, List.count_append, List.count_replicate_self]
    simp [commandFor, List.count_replicate]
  simp only [hrestored]
  constructor
  · intro hequal
    rcases eq_or_ne closed [] with rfl | hne
    · left
      intro device
      rw [← sent, hcommands, hequal device]
      simp
    · right
      intro device
      rw [hcount, ← hequal, horder hne]
  · rintro (hquiet | hclosedEverywhere) device
    · have hnil := hquiet device
      rw [← sent, hcommands, List.append_eq_nil_iff, List.replicate_eq_nil_iff,
        List.replicate_eq_nil_iff] at hnil
      rw [hnil.1, hnil.2]
    · have hfull := hclosedEverywhere device
      rw [hcount] at hfull
      exact Nat.le_antisymm (hfull ▸ hopened.sublist.count_le device) (hle device)

/-! ## Two failures -/

def sampleConfig : Config where
  devices := ["dev0001"]
  applications := ["whatsapp"]
  sections name :=
    if name = "general" then some fun _ => some "./pick-sentence-from-play.sh"
    else if name = "dev0001" then
      some fun key => if key = "iptables" then some "true" else some "10090"
    else some fun _ => some "10"
  selectedUid := some ["0", "1000"]
  direc := ""

def sampleArgv : List String := ["app_execution.py", "whatsapp", "1.mp4", "2.mp4"]

def sampleRead (text : String) : Option Owner :=
  if text = "10090" then some ⟨10090, 10090⟩ else none

def rejectingPhone (_ : String) : Filter where
  output := [.jump]
  measurement := some [⟨⟨0, 99999999⟩, .REJECT⟩]

def wifiStaysOn : Request → Answer
  | .checkCall _ (.wifi false) => { error := some (.other "exit status 1") }
  | _ => {}

def withoutPing : Request → Answer
  | .ping _ => { error := some (.other "exit status 1") }
  | _ => {}

/-- A failure after the closing: the rule was inserted and deleted, and the chain is as before. -/
theorem chains_restored_iff_late_failure :
    let run := (appExecution sampleConfig sampleArgv).run (fun _ => wifiStaysOn) 0
    let rest := (cleanUp sampleConfig).run (fun _ _ => {}) 0
    run.2 = .error (.other "exit status 1") ∧
      commandsOn "dev0001" run.1 = [[.insert "10090" .RETURN], [.delete "10090" .RETURN]] ∧
      ∃ after, play sampleRead rejectingPhone (run.1 ++ rest.1) = some after ∧
        ∀ device, (after device).measurement = (rejectingPhone device).measurement := by
  intro run rest
  have hfailure : run.2 = .error (.other "exit status 1") := rfl
  have hyields : (appExecution sampleConfig sampleArgv).Yields run.1 (.error _) :=
    hfailure ▸ Script.yields_run _ 0 _
  have hrest : (cleanUp sampleConfig).Yields rest.1 rest.2 := Script.yields_run _ 0 _
  have hcommands : commandsOn "dev0001" run.1 =
      [[.insert "10090" .RETURN], [.delete "10090" .RETURN]] := rfl
  have hclosed : ClosedEverywhere sampleConfig "whatsapp" run.1 := by
    intro device
    by_cases hdevice : device = "dev0001"
    · rw [hdevice, hcommands]
      decide
    · have hother : device ∉ sampleConfig.devices := by simpa [sampleConfig] using hdevice
      rw [commandsOn_of_not_mem hother hyields, List.count_nil]
      exact (List.count_eq_zero.mpr fun hmem => hother (List.mem_of_mem_filter hmem)).symm
  obtain ⟨after, hplay⟩ : ∃ after, play sampleRead rejectingPhone (run.1 ++ rest.1) = some after :=
    ⟨_, rfl⟩
  exact ⟨hfailure, hcommands, after, hplay,
    (chains_restored_iff sampleRead sampleConfig hyields hrest hplay).mpr (Or.inr hclosed)⟩

/-- A failure between the opening and the closing leaves the application open. -/
theorem application_left_open :
    let run := (appExecution sampleConfig sampleArgv).run (fun _ => withoutPing) 0
    let rest := (cleanUp sampleConfig).run (fun _ => withoutPing) 0
    (appExecution sampleConfig sampleArgv).Yields run.1 (.error (.other "exit status 1")) ∧
      (cleanUp sampleConfig).Yields rest.1 (.ok ()) ∧
      ∃ after, play sampleRead rejectingPhone (run.1 ++ rest.1) = some after ∧
        (after "dev0001").measurement =
          some [⟨⟨10090, 10090⟩, .RETURN⟩, ⟨⟨0, 99999999⟩, .REJECT⟩] := by
  intro run rest
  have hfailure : run.2 = .error (.other "exit status 1") := rfl
  have hclean : rest.2 = .ok () := rfl
  exact ⟨hfailure ▸ Script.yields_run _ 0 _, hclean ▸ Script.yields_run _ 0 _, _, rfl, rfl⟩

end Phone

end Matador
