import Mathlib.Data.List.Count
import Matador.Phone.Iptables

/-!
# What the firewall methods send

`firewall_open_uid` and `firewall_close_uid` send one command to each device with a
firewall, in the order of the device list, and may be ended by an exception at every
device. The contract of the loop says which commands have succeeded on each phone when it
ends. The second part says what the repetition of such a command does to a table, since
the device list may hold a device more than once.
-/

namespace Matador

namespace Phone

/-- The device has a firewall; a flag that cannot be read counts as none. -/
def Config.enabled (config : Config) (device : String) : Bool :=
  match config.getboolean device "iptables" with
  | .ok b => b
  | .error _ => false

def Config.uid (config : Config) (device app : String) : Option String :=
  match config.get device (app ++ "_uid") with
  | .ok uid => some uid
  | .error _ => none

def Config.firewalled (config : Config) (app : String) (devices : List String) : List String :=
  devices.filter fun device => config.enabled device && (config.uid device app).isSome

/-! ## The loop over the devices -/

section Loop

variable (config : Config) (app : String) (command : String → Iptables)

def commandFor (device : String) : List Iptables := [command ((config.uid device app).getD "")]

/-- The loop over the devices has got through `done`; if it returns, through all of them. -/
def Reached (devices : List String) (t : Trace) (result : Except Raised PUnit) : Prop :=
  ∃ done, done <+: config.firewalled app devices ∧
    (∀ device, commandsOn device t =
      List.replicate (done.count device) (commandFor config app command device)) ∧
    (result = .ok () → done = config.firewalled app devices ∧
      ∀ device ∈ devices, config.enabled device → (config.uid device app).isSome)

variable {config app command}

theorem reached_error (devices : List String) (e : Raised) :
    Reached config app command devices [] (.error e) :=
  ⟨[], List.nil_prefix, by simp [commandsOn], by simp⟩

theorem ensures_iptables (device : String) (commands : List Iptables) :
    (iptables device commands).Ensures fun t result =>
      (result = .ok () ∧ ∀ d, commandsOn d t = if device = d then [commands] else []) ∨
        (∃ e, result = .error e) ∧ ∀ d, commandsOn d t = [] := by
  refine (Script.ensures_discard Answer.error
    (Request.checkCall device (.iptables commands))).mono ?_
  rintro t result ⟨a, rfl, ⟨herror, rfl⟩ | ⟨herror, hresult⟩⟩
  · refine Or.inl ⟨rfl, fun d => ?_⟩
    by_cases hd : device = d <;> simp [commandsOn, commandOn, herror, hd]
  · exact Or.inr ⟨hresult, fun d => by simp [commandsOn, commandOn, herror]⟩

theorem ensures_round (device : String) :
    (do
      let enabled ← Script.ofExcept (config.getboolean device "iptables")
      if enabled then
        let uid ← Script.ofExcept (config.get device (app ++ "_uid"))
        let _ ← Script.ofExcept (config.get "iptables" "chain")
        iptables device [command uid] : Program PUnit).Ensures
      (Reached config app command [device]) := by
  cases henabled : config.getboolean device "iptables" with
  | error e => exact Script.ensures_raise (reached_error _ e)
  | ok b =>
      cases b with
      | false =>
          have hdisabled : config.enabled device = false := by simp [Config.enabled, henabled]
          refine Script.ensures_pure ⟨[], List.nil_prefix, by simp [commandsOn], fun _ => ?_⟩
          simp [Config.firewalled, hdisabled]
      | true =>
          cases huid : config.get device (app ++ "_uid") with
          | error e => exact Script.ensures_raise (reached_error _ e)
          | ok uid =>
              cases config.get "iptables" "chain" with
              | error e => exact Script.ensures_raise (reached_error _ e)
              | ok chain =>
                  have hdevice : config.firewalled app [device] = [device] := by
                    simp [Config.firewalled, Config.enabled, Config.uid, henabled, huid]
                  have hcommand : commandFor config app command device = [command uid] := by
                    simp [commandFor, Config.uid, huid]
                  refine (ensures_iptables device [command uid]).mono ?_
                  rintro t result (⟨rfl, hcommands⟩ | ⟨⟨e, rfl⟩, hcommands⟩)
                  · refine ⟨[device], by simp [hdevice], fun d => ?_, fun _ => ⟨hdevice.symm, ?_⟩⟩
                    · by_cases hd : device = d
                      · subst hd
                        simp [hcommands, hcommand]
                      · simp [hcommands, hd]
                    · simp [Config.uid, huid]
                  · exact ⟨[], List.nil_prefix, by simp [hcommands], by simp⟩

/-- The whole loop, by induction on the devices that are left. -/
theorem ensures_forUid :
    (forUid config app command).Ensures (Reached config app command config.devices) := by
  unfold forUid
  induction config.devices with
  | nil =>
      exact Script.ensures_pure ⟨[], List.nil_prefix, by simp [commandsOn],
        by simp [Config.firewalled]⟩
  | cons device devices ih =>
      have hsplit : config.firewalled app (device :: devices) =
          config.firewalled app [device] ++ config.firewalled app devices := by
        simp only [Config.firewalled, ← List.filter_append, List.singleton_append]
      refine Script.Ensures.bind (ensures_round device) ?_ ?_
      · rintro t e ⟨done, hprefix, hcommands, -⟩
        refine ⟨done, ?_, hcommands, by simp⟩
        rw [hsplit]
        exact hprefix.trans (List.prefix_append _ _)
      · rintro t _ ⟨done, -, hcommands, hreturn⟩
        obtain ⟨rfl, hround⟩ := hreturn rfl
        refine ih.mono ?_
        rintro t' result ⟨done, hprefix, hcommands', hreturn'⟩
        refine ⟨config.firewalled app [device] ++ done, ?_, fun d => ?_, fun hok => ?_⟩
        · rw [hsplit]
          exact (List.prefix_append_right_inj _).mpr hprefix
        · rw [commandsOn_append, hcommands, hcommands', List.count_append, List.replicate_add]
        · obtain ⟨rfl, hrest⟩ := hreturn' hok
          refine ⟨hsplit.symm, List.forall_mem_cons.mpr ⟨?_, hrest⟩⟩
          exact hround device (List.mem_singleton_self device)

end Loop

/-! ## Repeated commands -/

section Repeated

variable {read : String → Option Owner} {filter : Filter} {uid : String} {rule : Rule}

theorem execute_insert {target : Target} {filter' : Filter}
    (h : execute read filter (.insert uid target) = some filter') :
    ∃ rules rule, filter.measurement = some rules ∧ readRule read uid target = some rule ∧
      filter' = { filter with measurement := some (rule :: rules) } := by
  obtain ⟨rules, hrules, hrest⟩ := Option.bind_eq_some_iff.mp h
  obtain ⟨rule, hrule, hfilter⟩ := Option.bind_eq_some_iff.mp hrest
  exact ⟨rules, rule, hrules, hrule, (Option.some.inj hfilter).symm⟩

theorem execute_append {target : Target} {filter' : Filter}
    (h : execute read filter (.append uid target) = some filter') :
    ∃ rules rule, filter.measurement = some rules ∧ readRule read uid target = some rule ∧
      filter' = { filter with measurement := some (rules ++ [rule]) } := by
  obtain ⟨rules, hrules, hrest⟩ := Option.bind_eq_some_iff.mp h
  obtain ⟨rule, hrule, hfilter⟩ := Option.bind_eq_some_iff.mp hrest
  exact ⟨rules, rule, hrules, hrule, (Option.some.inj hfilter).symm⟩

theorem execute_delete {target : Target} {filter' : Filter}
    (h : execute read filter (.delete uid target) = some filter') :
    ∃ rules rule, filter.measurement = some rules ∧ readRule read uid target = some rule := by
  obtain ⟨rules, hrules, hrest⟩ := Option.bind_eq_some_iff.mp h
  obtain ⟨rule, hrule, -⟩ := Option.bind_eq_some_iff.mp hrest
  exact ⟨rules, rule, hrules, hrule⟩

/-- Of repeated commands that all succeed the first one succeeds. -/
theorem execute_of_foldlM {command : Iptables} {n : ℕ} {filter' : Filter} (hn : n ≠ 0)
    (h : (List.replicate n [command]).foldlM (executeAll read) filter = some filter') :
    ∃ mid, execute read filter command = some mid := by
  obtain ⟨n, rfl⟩ := Nat.exists_eq_succ_of_ne_zero hn
  rw [List.replicate_succ, List.foldlM_cons] at h
  obtain ⟨mid, hexecute, -⟩ := Option.bind_eq_some_iff.mp h
  exact ⟨mid, hexecute⟩

theorem foldlM_insert {target : Target} (hrule : readRule read uid target = some rule)
    {rules : List Rule} (hrules : filter.measurement = some rules) (n : ℕ) :
    (List.replicate n [Iptables.insert uid target]).foldlM (executeAll read) filter =
      some { filter with measurement := some (List.replicate n rule ++ rules) } := by
  induction n generalizing filter rules with
  | zero =>
      obtain ⟨output, measurement⟩ := filter
      subst hrules
      rfl
  | succ n ih =>
      have hexecute : executeAll read filter [.insert uid target] =
          some { filter with measurement := some (rule :: rules) } := by
        simp [executeAll, execute, hrules, hrule]
      rw [List.replicate_succ, List.foldlM_cons, hexecute]
      refine (ih rfl).trans ?_
      rw [List.replicate_succ', List.append_assoc, List.singleton_append]

/-- Deleting a rule `n` times that is in the front part of the chain often enough. -/
theorem foldlM_delete {target : Target} (hrule : readRule read uid target = some rule)
    {front base : List Rule} (hrules : filter.measurement = some (front ++ base)) {n : ℕ}
    (hn : n ≤ front.count rule) :
    (List.replicate n [Iptables.delete uid target]).foldlM (executeAll read) filter =
      some { filter with
        measurement := some (front.diff (List.replicate n rule) ++ base) } := by
  induction n generalizing filter front with
  | zero =>
      obtain ⟨output, measurement⟩ := filter
      subst hrules
      rfl
  | succ n ih =>
      have hmem : rule ∈ front := List.count_pos_iff.mp (by omega)
      have hexecute : executeAll read filter [.delete uid target] =
          some { filter with measurement := some (front.erase rule ++ base) } := by
        simp [executeAll, execute, hrules, hrule, hmem, List.erase_append_left]
      have hcount : n ≤ (front.erase rule).count rule := by
        rw [List.count_erase_self]
        omega
      rw [List.replicate_succ, List.foldlM_cons, hexecute]
      refine (ih rfl hcount).trans ?_
      rw [List.replicate_succ, List.diff_cons]

end Repeated

end Phone

end Matador
