import Matador.Phone.Firewall

/-!
# The policy of the firewall

After the set-up the measurement chain has two layers: the rules of the selected owners,
of which each was inserted at the head, and the rule of the range at the end. Every open
application adds a rule on top of them, and closing it removes the first rule that is
equal, which is one of the top layer although the other layers may hold equal ones. Which
applications are open is kept in a list, and the top layer holds the rule of an owner as
often as the list holds an application with this owner, times the number of entries of
the device in the device list.

The policy follows from the order of the three layers. The set-up does not empty a chain that
is there from before: the old rules stay between those of the selected owners and that of the
range, and decide about the owners they match.
-/

namespace Matador

namespace Phone

/-! ## Calls and open applications -/

/-- The calls between the set-up and the end of the firewall. -/
inductive FirewallCall where
  | openUid (app : String)
  | closeUid (app : String)
  deriving DecidableEq

def FirewallCall.script (config : Config) : FirewallCall → Program Unit
  | .openUid app => firewallOpenUid config app
  | .closeUid app => firewallCloseUid config app

/-- The applications that are open after a call; only one that is open can be closed. -/
def FirewallCall.next (apps : List String) : FirewallCall → Option (List String)
  | .openUid app => some (app :: apps)
  | .closeUid app => if app ∈ apps then some (apps.erase app) else none

/-- The applications that are open after the calls, if each of them closes only what was
opened before and not closed yet. -/
def openApps (calls : List FirewallCall) : Option (List String) :=
  calls.foldlM FirewallCall.next []

/-! ## Owners -/

section Owners

variable (read : String → Option Owner) (config : Config)

def Names (text : String) (uid : ℕ) : Prop := ∃ owner, read text = some owner ∧ owner.covers uid

def InRange (uid : ℕ) : Prop :=
  ∃ text, config.get "iptables" "range" = .ok text ∧ Names read text uid

def Selected (uid : ℕ) : Prop :=
  ∃ selected, config.selectedUid = some selected ∧ ∃ text ∈ selected, Names read text uid

def IsUidOf (device app : String) (uid : ℕ) : Prop :=
  ∃ text, config.uid device app = some text ∧ Names read text uid

def appRule (device app : String) : Option Rule :=
  (config.uid device app).bind fun text => readRule read text .RETURN

variable {read config}

theorem names_iff_readRule {text : String} {uid : ℕ} (target : Target) :
    Names read text uid ↔
      ∃ rule, readRule read text target = some rule ∧ rule.owner.covers uid := by
  simp [Names, readRule]

theorem target_of_readRule {text : String} {target : Target} {rule : Rule}
    (h : readRule read text target = some rule) : rule.target = target := by
  obtain ⟨owner, -, rfl⟩ := Option.map_eq_some_iff.mp h
  rfl

end Owners

/-! ## The layers of the chain -/

section Layers

variable {read : String → Option Owner} {config : Config} {device : String}

/-- The chain is `base` with the rules of the open applications on top of it. -/
def Layered (read : String → Option Owner) (config : Config) (device : String) (base : List Rule)
    (apps : List String) (filter : Filter) : Prop :=
  ∃ top, filter.measurement = some (top ++ base) ∧ ∀ rule, top.count rule =
    config.devices.count device * apps.countP fun app => appRule read config device app = some rule

/-- A call that returns sends its command once for each entry of the device. -/
theorem commandsOn_forUid {app : String} {command : String → Iptables} {t : Trace}
    (h : (forUid config app command).Yields t (.ok ())) (hdevice : device ∈ config.devices)
    (henabled : config.enabled device) :
    ∃ uid, config.uid device app = some uid ∧
      commandsOn device t = List.replicate (config.devices.count device) [command uid] := by
  obtain ⟨done, -, hcommands, hreturn⟩ := ensures_forUid _ _ h
  obtain ⟨rfl, huids⟩ := hreturn rfl
  obtain ⟨uid, huid⟩ := Option.isSome_iff_exists.mp (huids device hdevice henabled)
  refine ⟨uid, huid, ?_⟩
  rw [hcommands, Config.firewalled, List.count_filter (by simp [henabled, huid])]
  simp [commandFor, huid]

/-- What such a call does to the table of the device, and that its command can be executed
there for the first time. -/
theorem executions_forUid {app : String} {command : String → Iptables} {t : Trace}
    {filter filter' : Filter} (h : (forUid config app command).Yields t (.ok ()))
    (hdevice : device ∈ config.devices) (henabled : config.enabled device)
    (hplay : (commandsOn device t).foldlM (executeAll read) filter = some filter') :
    ∃ uid mid, config.uid device app = some uid ∧ execute read filter (command uid) = some mid ∧
      (List.replicate (config.devices.count device) [command uid]).foldlM (executeAll read)
        filter = some filter' := by
  obtain ⟨uid, huid, hcommands⟩ := commandsOn_forUid h hdevice henabled
  rw [hcommands] at hplay
  obtain ⟨mid, hexecute⟩ :=
    execute_of_foldlM (Nat.pos_iff_ne_zero.mp (List.count_pos_iff.mpr hdevice)) hplay
  exact ⟨uid, mid, huid, hexecute, hplay⟩

section Call

variable {base : List Rule} {apps : List String} {filter filter' : Filter} {app : String}
  {t : Trace}
  (hlayered : Layered read config device base apps filter) (hdevice : device ∈ config.devices)
  (henabled : config.enabled device)
  (hplay : (commandsOn device t).foldlM (executeAll read) filter = some filter')
include hlayered hdevice henabled hplay

theorem Layered.openUid (h : (firewallOpenUid config app).Yields t (.ok ())) :
    Layered read config device base (app :: apps) filter' ∧ filter'.output = filter.output := by
  obtain ⟨uid, mid, huid, hexecute, hplay⟩ := executions_forUid h hdevice henabled hplay
  obtain ⟨top, hrules, hcount⟩ := hlayered
  obtain ⟨-, rule, -, hrule, -⟩ := execute_insert hexecute
  rw [foldlM_insert hrule hrules] at hplay
  obtain rfl := Option.some.inj hplay
  refine ⟨⟨List.replicate (config.devices.count device) rule ++ top, by simp, fun r => ?_⟩, rfl⟩
  have happ : appRule read config device app = some rule := by simp [appRule, huid, hrule]
  rw [List.count_append, List.count_replicate, hcount, List.countP_cons, happ]
  by_cases hr : rule = r
  · simp [hr, Nat.mul_add, Nat.add_comm]
  · simp [hr]

theorem Layered.closeUid (h : (firewallCloseUid config app).Yields t (.ok ()))
    (happ : app ∈ apps) :
    Layered read config device base (apps.erase app) filter' ∧
      filter'.output = filter.output := by
  obtain ⟨uid, mid, huid, hexecute, hplay⟩ := executions_forUid h hdevice henabled hplay
  obtain ⟨top, hrules, hcount⟩ := hlayered
  obtain ⟨-, rule, -, hrule⟩ := execute_delete hexecute
  have hown : appRule read config device app = some rule := by simp [appRule, huid, hrule]
  have hpos : 0 < apps.countP fun app => appRule read config device app = some rule :=
    List.countP_pos_iff.mpr ⟨app, happ, by simpa using hown⟩
  have hle : config.devices.count device ≤ top.count rule := by
    rw [hcount]
    exact Nat.le_mul_of_pos_right _ hpos
  rw [foldlM_delete hrule hrules hle] at hplay
  obtain rfl := Option.some.inj hplay
  refine ⟨⟨top.diff (List.replicate (config.devices.count device) rule), rfl, fun r => ?_⟩, rfl⟩
  rw [List.count_diff, List.count_replicate, hcount, List.countP_erase]
  by_cases hr : rule = r
  · subst hr
    simp [happ, hown, Nat.mul_sub]
  · simp [hown, hr]

end Call

/-- The calls keep the layers, by induction on the calls; the open applications follow. -/
theorem Layered.calls {base : List Rule} {calls : List FirewallCall} {apps apps' : List String}
    {phones phones' : String → Filter} {t : Trace} (hdevice : device ∈ config.devices)
    (henabled : config.enabled device) (hopen : calls.foldlM FirewallCall.next apps = some apps')
    (h : (calls.forM fun call => call.script config).Yields t (.ok ()))
    (hplay : play read phones t = some phones')
    (hlayered : Layered read config device base apps (phones device)) :
    Layered read config device base apps' (phones' device) ∧
      (phones' device).output = (phones device).output := by
  induction calls generalizing apps phones t with
  | nil =>
      obtain ⟨rfl, -⟩ := h
      obtain rfl := Option.some.inj hopen
      obtain rfl := Option.some.inj hplay
      exact ⟨hlayered, rfl⟩
  | cons call calls ih =>
      rcases Script.yields_bind h with ⟨e, -, heq⟩ | ⟨_, t₁, t₂, hcall, hcalls, rfl⟩
      · cases heq
      rw [play_append] at hplay
      obtain ⟨mid, hplay₁, hplay₂⟩ := Option.bind_eq_some_iff.mp hplay
      obtain ⟨apps₁, hnext, hopen₂⟩ := Option.bind_eq_some_iff.mp hopen
      have hstep : Layered read config device base apps₁ (mid device) ∧
          (mid device).output = (phones device).output := by
        cases call with
        | openUid app =>
            obtain rfl := Option.some.inj hnext
            exact hlayered.openUid hdevice henabled (play_device hplay₁ device) hcall
        | closeUid app =>
            obtain ⟨happ, hrest⟩ := Option.ite_none_right_eq_some.mp hnext
            obtain rfl := Option.some.inj hrest
            exact hlayered.closeUid hdevice henabled (play_device hplay₁ device) hcall happ
      obtain ⟨hlast, houtput⟩ := ih hopen₂ hcalls hplay₂ hstep.1
      exact ⟨hlast, houtput.trans hstep.2⟩

end Layers

/-! ## The set-up -/

section SetUp

def setUpCommands (range : String) (selected : List String) (ranged listed : Target) :
    List (List Iptables) :=
  [.newChain, .insertJump] :: [.append range ranged] :: selected.map fun uid => [.insert uid listed]

theorem returns_iptables (device : String) (commands : List Iptables) :
    (iptables device commands).Returns fun t _ =>
      ∀ d, commandsOn d t = if device = d then [commands] else [] := by
  refine (ensures_iptables device commands).returns ?_
  rintro t b (⟨-, hcommands⟩ | ⟨⟨e, heq⟩, -⟩)
  · exact hcommands
  · cases heq

theorem returns_setUpRules (device range : String) (selected : List String)
    (ranged listed : Target) :
    (setUpRules device range selected ranged listed).Returns fun t _ =>
      ∀ d, commandsOn d t = if device = d then
        [.append range ranged] :: selected.map fun uid => [.insert uid listed] else [] := by
  have hselected : (selected.forM fun uid => iptables device [.insert uid listed]).Returns
      fun t _ => ∀ d, commandsOn d t =
        if device = d then selected.map fun uid => [.insert uid listed] else [] := by
    induction selected with
    | nil => exact Script.returns_pure (by simp [commandsOn])
    | cons uid selected ih =>
        refine (returns_iptables device [.insert uid listed]).bind fun t _ hfirst => ?_
        refine ih.mono fun t' _ hrest d => ?_
        rw [commandsOn_append, hfirst, hrest]
        by_cases hd : device = d <;> simp [hd]
  refine (returns_iptables device [.append range ranged]).bind fun t _ hfirst => ?_
  refine hselected.mono fun t' _ hrest d => ?_
  rw [commandsOn_append, hfirst, hrest]
  by_cases hd : device = d <;> simp [hd]

theorem returns_devices {device : String} {commands : List (List Iptables)}
    {round : String → Program PUnit}
    (hround : ∀ d, (round d).Returns fun t _ =>
      commandsOn device t = if d = device then commands else []) (devices : List String) :
    (devices.forM round).Returns fun t _ =>
      commandsOn device t = (List.replicate (devices.count device) commands).flatten := by
  induction devices with
  | nil => exact Script.returns_pure rfl
  | cons d devices ih =>
      refine (hround d).bind fun t _ hfirst => ?_
      refine ih.mono fun t' _ hrest => ?_
      rw [commandsOn_append, hfirst, hrest, List.count_cons]
      by_cases hd : d = device
      · simp [hd, List.replicate_succ]
      · simp [hd]

variable {config : Config} {device : String}

theorem returns_setUpRound (henabled : config.enabled device) (white : Bool) (range : String)
    (selected : List String) (d : String) :
    (do
      let enabled ← Script.ofExcept (config.getboolean d "iptables")
      if enabled then
        iptables d [.newChain, .insertJump]
        if white then setUpRules d range selected .REJECT .RETURN
        else setUpRules d range selected .RETURN .REJECT : Program PUnit).Returns fun t _ =>
      commandsOn device t = if d = device then
        (if white then setUpCommands range selected .REJECT .RETURN
          else setUpCommands range selected .RETURN .REJECT) else [] := by
  cases hflag : config.getboolean d "iptables" with
  | error e => exact Script.returns_raise
  | ok b =>
      cases b with
      | false =>
          have hd : d ≠ device := by
            rintro rfl
            simp [Config.enabled, hflag] at henabled
          exact Script.returns_pure (by simp [commandsOn, hd])
      | true =>
          refine (returns_iptables d [.newChain, .insertJump]).bind fun t _ hfirst => ?_
          cases white with
          | false =>
              refine (returns_setUpRules d range selected .RETURN .REJECT).mono
                fun t' _ hrest => ?_
              rw [commandsOn_append, hfirst, hrest]
              by_cases hd : d = device <;> simp [hd, setUpCommands]
          | true =>
              refine (returns_setUpRules d range selected .REJECT .RETURN).mono
                fun t' _ hrest => ?_
              rw [commandsOn_append, hfirst, hrest]
              by_cases hd : d = device <;> simp [hd, setUpCommands]

theorem returns_firewallSetUp (henabled : config.enabled device) :
    (firewallSetUp config).Returns fun t _ => ∃ white range selected,
      config.getboolean "iptables" "white_list" = .ok white ∧
      config.get "iptables" "range" = .ok range ∧ config.selectedUid = some selected ∧
      commandsOn device t = (List.replicate (config.devices.count device)
        (if white then setUpCommands range selected .REJECT .RETURN
          else setUpCommands range selected .RETURN .REJECT)).flatten := by
  unfold firewallSetUp
  cases hwhite : config.getboolean "iptables" "white_list" with
  | error e => exact Script.returns_raise
  | ok white =>
      cases config.get "iptables" "chain" with
      | error e => exact Script.returns_raise
      | ok chain =>
          cases hrange : config.get "iptables" "range" with
          | error e => exact Script.returns_raise
          | ok range =>
              cases hselected : config.selectedUid with
              | none => exact Script.returns_raise
              | some selected =>
                  refine (returns_devices (returns_setUpRound henabled white range selected)
                    config.devices).mono fun t _ hcommands => ?_
                  exact ⟨white, range, selected, rfl, rfl, rfl, hcommands⟩

variable {read : String → Option Owner} {range : String} {selected : List String}
  {ranged listed : Target} {old : List Rule} {filter filter' : Filter}

/-- The rules that were there before lie between rules of the set-up. -/
def Between (read : String → Option Owner) (range : String) (selected : List String)
    (ranged listed : Target) (old : List Rule) (filter : Filter) : Prop :=
  ∃ above below, filter.measurement.getD [] = above ++ (old ++ below) ∧
    (∀ rule ∈ above, ∃ text ∈ selected, readRule read text listed = some rule) ∧
    ∀ rule ∈ below, readRule read range ranged = some rule

/-- The set-up is complete: all its rules are there, and `OUTPUT` leads to them. -/
def IsSetUp (read : String → Option Owner) (range : String) (selected : List String)
    (ranged listed : Target) (old : List Rule) (filter : Filter) : Prop :=
  ∃ above below, filter.measurement = some (above ++ (old ++ below)) ∧
    (∀ rule, rule ∈ above ↔ ∃ text ∈ selected, readRule read text listed = some rule) ∧
    (∀ rule, rule ∈ below ↔ readRule read range ranged = some rule) ∧ .jump ∈ filter.output

theorem IsSetUp.between (h : IsSetUp read range selected ranged listed old filter) :
    Between read range selected ranged listed old filter := by
  obtain ⟨above, below, hrules, habove, hbelow, -⟩ := h
  exact ⟨above, below, by rw [hrules, Option.getD_some], fun rule => (habove rule).mp,
    fun rule => (hbelow rule).mp⟩

/-- The first command makes the chain if it does not exist, and the jump to it. -/
theorem executeAll_newChain (filter : Filter) :
    executeAll read filter [.newChain, .insertJump] =
      some ⟨.jump :: filter.output, some (filter.measurement.getD [])⟩ := by
  obtain ⟨output, measurement⟩ := filter
  cases measurement <;> simp [executeAll, execute]

theorem foldlM_insertAll {rules : List Rule} (hrules : filter.measurement = some rules)
    (h : (selected.map fun uid => [Iptables.insert uid listed]).foldlM (executeAll read) filter =
      some filter') :
    ∃ new, filter'.measurement = some (new ++ rules) ∧ filter'.output = filter.output ∧
      ∀ rule, rule ∈ new ↔ ∃ text ∈ selected, readRule read text listed = some rule := by
  induction selected generalizing filter rules with
  | nil =>
      obtain rfl := Option.some.inj h
      exact ⟨[], hrules, rfl, by simp⟩
  | cons uid selected ih =>
      rw [List.map_cons, List.foldlM_cons] at h
      obtain ⟨mid, hexecute, hrest⟩ := Option.bind_eq_some_iff.mp h
      obtain ⟨rules', rule, hrules', hrule, rfl⟩ := execute_insert hexecute
      obtain rfl := Option.some.inj (hrules.symm.trans hrules')
      obtain ⟨new, hnew, houtput, hmem⟩ := ih rfl hrest
      refine ⟨new ++ [rule], by simp [hnew], houtput, fun r => ?_⟩
      rw [List.mem_append, List.mem_singleton, hmem, List.exists_mem_cons_iff, hrule,
        Option.some_inj, or_comm, eq_comm]

theorem Between.setUp (hbetween : Between read range selected ranged listed old filter)
    (h : (setUpCommands range selected ranged listed).foldlM (executeAll read) filter =
      some filter') :
    IsSetUp read range selected ranged listed old filter' := by
  obtain ⟨above, below, hrules, habove, hbelow⟩ := hbetween
  rw [setUpCommands, List.foldlM_cons, executeAll_newChain, hrules, Option.bind_eq_bind,
    Option.bind_some, List.foldlM_cons] at h
  obtain ⟨mid, hexecute, hrest⟩ := Option.bind_eq_some_iff.mp h
  obtain ⟨rules, rule, hmeasurement, hrule, rfl⟩ := execute_append hexecute
  obtain rfl := Option.some.inj hmeasurement
  obtain ⟨new, hnew, houtput, hmem⟩ := foldlM_insertAll rfl hrest
  refine ⟨new ++ above, below ++ [rule], by simp [hnew], fun r => ?_, fun r => ?_, ?_⟩
  · rw [List.mem_append, hmem]
    exact ⟨fun h => h.elim id (habove r), Or.inl⟩
  · rw [List.mem_append, List.mem_singleton]
    constructor
    · rintro (hr | rfl)
      · exact hbelow r hr
      · exact hrule
    · intro hr
      exact Or.inr (Option.some.inj (hr.symm.trans hrule))
  · rw [houtput]
    exact List.mem_cons_self

theorem Between.setUp_replicate {n : ℕ} (hn : n ≠ 0)
    (hbetween : Between read range selected ranged listed old filter)
    (h : (List.replicate n (setUpCommands range selected ranged listed)).flatten.foldlM
      (executeAll read) filter = some filter') :
    IsSetUp read range selected ranged listed old filter' := by
  induction n generalizing filter with
  | zero => exact absurd rfl hn
  | succ n ih =>
      rw [List.replicate_succ, List.flatten_cons, List.foldlM_append] at h
      obtain ⟨mid, hround, hrest⟩ := Option.bind_eq_some_iff.mp h
      have hmid := hbetween.setUp hround
      rcases eq_or_ne n 0 with rfl | hn'
      · obtain rfl := Option.some.inj hrest
        exact hmid
      · exact ih hn' hmid.between hrest

end SetUp

/-! ## The policy -/

section Policy

variable {read : String → Option Owner} {config : Config} {device : String}

theorem isUidOf_iff {app : String} {uid : ℕ} :
    IsUidOf read config device app uid ↔
      ∃ rule, appRule read config device app = some rule ∧ rule.owner.covers uid := by
  unfold IsUidOf appRule
  cases config.uid device app with
  | none => simp
  | some text => simp [names_iff_readRule .RETURN]

theorem mem_top_iff {top : List Rule} {apps : List String} (hdevice : device ∈ config.devices)
    (hcount : ∀ rule, top.count rule = config.devices.count device *
      apps.countP fun app => appRule read config device app = some rule) (rule : Rule) :
    rule ∈ top ↔ ∃ app ∈ apps, appRule read config device app = some rule := by
  rw [← List.count_pos_iff, hcount, Nat.mul_pos_iff_of_pos_left (List.count_pos_iff.mpr hdevice),
    List.countP_pos_iff]
  simp

/-- What the three layers decide about a uid that no older rule matches. -/
theorem rejects_iff {range : String} {selected apps : List String} {ranged listed : Target}
    {base old : List Rule} {filter filter₀ : Filter} (hdevice : device ∈ config.devices)
    (hsetUp : IsSetUp read range selected ranged listed old filter₀)
    (hbase : filter₀.measurement = some base)
    (hlayered : Layered read config device base apps filter)
    (houtput : filter.output = filter₀.output) {uid : ℕ}
    (hold : ∀ rule ∈ old, ¬ rule.owner.covers uid = true) :
    filter.Rejects uid ↔ (¬ ∃ app ∈ apps, IsUidOf read config device app uid) ∧
      ((∃ text ∈ selected, Names read text uid) ∧ listed = .REJECT ∨
        (¬ ∃ text ∈ selected, Names read text uid) ∧ Names read range uid ∧ ranged = .REJECT) := by
  obtain ⟨above, below, hrules, habove, hbelow, hjump⟩ := hsetUp
  obtain rfl := Option.some.inj (hbase.symm.trans hrules)
  obtain ⟨top, htop, hcount⟩ := hlayered
  have hmemTop := mem_top_iff hdevice hcount
  have hopen : (∃ rule ∈ top, rule.owner.covers uid = true) ↔
      ∃ app ∈ apps, IsUidOf read config device app uid := by
    simp only [hmemTop, isUidOf_iff]
    exact ⟨fun ⟨rule, ⟨app, happ, hrule⟩, hcovers⟩ => ⟨app, happ, rule, hrule, hcovers⟩,
      fun ⟨app, happ, rule, hrule, hcovers⟩ => ⟨rule, ⟨app, happ, hrule⟩, hcovers⟩⟩
  have hselected : (∃ rule ∈ above, rule.owner.covers uid = true) ↔
      ∃ text ∈ selected, Names read text uid := by
    simp only [habove, names_iff_readRule listed]
    exact ⟨fun ⟨rule, ⟨text, htext, hrule⟩, hcovers⟩ => ⟨text, htext, rule, hrule, hcovers⟩,
      fun ⟨text, htext, rule, hrule, hcovers⟩ => ⟨rule, ⟨text, htext, hrule⟩, hcovers⟩⟩
  have hrange : (∃ rule ∈ below, rule.owner.covers uid = true) ↔ Names read range uid := by
    simp only [hbelow, names_iff_readRule ranged]
  have htargetTop : ∀ rule ∈ top, rule.target = .RETURN := by
    intro rule hrule
    obtain ⟨app, -, happ⟩ := (hmemTop rule).mp hrule
    obtain ⟨text, -, hread⟩ := Option.bind_eq_some_iff.mp happ
    exact target_of_readRule hread
  have htargetAbove : ∀ rule ∈ above, rule.target = listed := by
    intro rule hrule
    obtain ⟨text, -, hread⟩ := (habove rule).mp hrule
    exact target_of_readRule hread
  have htargetBelow : ∀ rule ∈ below, rule.target = ranged := fun rule hrule =>
    target_of_readRule ((hbelow rule).mp hrule)
  unfold Filter.Rejects Filter.verdict
  rw [houtput, and_iff_right hjump, htop, Option.getD_some, FirstMatch.verdict_append,
    FirstMatch.verdict_append, FirstMatch.verdict_append,
    FirstMatch.verdict_of_not_covered _ _ hold, FirstMatch.verdict_uniform _ _ htargetTop,
    FirstMatch.verdict_uniform _ _ htargetAbove, FirstMatch.verdict_uniform _ _ htargetBelow,
    ← hopen, ← hselected, ← hrange]
  split_ifs <;> simp_all

theorem Layered.measurement_nil {base : List Rule} {filter : Filter}
    (h : Layered read config device base [] filter) : filter.measurement = some base := by
  obtain ⟨top, htop, hcount⟩ := h
  have hnil : top = [] := List.eq_nil_iff_forall_not_mem.mpr fun rule hrule => by
    have hpos := List.count_pos_iff.mpr hrule
    simp [hcount] at hpos
  rw [htop, hnil, List.nil_append]

/-- The policy of the firewall. After the set-up and calls that close only what is open, for a uid
that no rule matches which was in the chain before the set-up: in white-list mode a uid of the
range passes if and only if it is selected or belongs to an open application, in black-list mode a
uid is rejected if and only if it is selected and does not. When nothing is open the chain is the
one after the set-up, whatever was in it before. -/
theorem firewall_policy (read : String → Option Owner) (config : Config)
    {calls : List FirewallCall} {apps : List String} (hopen : openApps calls = some apps)
    {t₀ t : Trace} (h₀ : (firewallSetUp config).Yields t₀ (.ok ()))
    (h : (calls.forM fun call => call.script config).Yields t (.ok ()))
    {before between after : String → Filter} (hplay₀ : play read before t₀ = some between)
    (hplay : play read between t = some after) {device : String}
    (hdevice : device ∈ config.devices)
    (hiptables : config.getboolean device "iptables" = .ok true) :
    (config.getboolean "iptables" "white_list" = .ok true → ∀ uid, InRange read config uid →
      (∀ rule ∈ (before device).measurement.getD [], ¬ rule.owner.covers uid = true) →
        (¬ (after device).Rejects uid ↔
          Selected read config uid ∨ ∃ app ∈ apps, IsUidOf read config device app uid)) ∧
    (config.getboolean "iptables" "white_list" = .ok false → ∀ uid,
      (∀ rule ∈ (before device).measurement.getD [], ¬ rule.owner.covers uid = true) →
        ((after device).Rejects uid ↔
          Selected read config uid ∧ ¬ ∃ app ∈ apps, IsUidOf read config device app uid)) ∧
    (apps = [] → (after device).measurement = (between device).measurement) := by
  have henabled : config.enabled device := by simp [Config.enabled, hiptables]
  obtain ⟨white, range, selected, hwhite, hrange, hselected, hcommands⟩ :=
    returns_firewallSetUp henabled t₀ () h₀
  have hsetUp := play_device hplay₀ device
  rw [hcommands] at hsetUp
  have hcount : config.devices.count device ≠ 0 :=
    Nat.pos_iff_ne_zero.mp (List.count_pos_iff.mpr hdevice)
  have hdone : IsSetUp read range selected (if white then .REJECT else .RETURN)
      (if white then .RETURN else .REJECT) ((before device).measurement.getD [])
      (between device) := by
    have hbefore : ∀ ranged listed, Between read range selected ranged listed
        ((before device).measurement.getD []) (before device) :=
      fun ranged listed => ⟨[], [], by simp, by simp, by simp⟩
    cases white with
    | true => exact (hbefore .REJECT .RETURN).setUp_replicate hcount hsetUp
    | false => exact (hbefore .RETURN .REJECT).setUp_replicate hcount hsetUp
  obtain ⟨above, below, hbase, -⟩ := id hdone
  -- the calls only change what lies on top of the chain that the set-up has left
  obtain ⟨hlayered, houtput⟩ := Layered.calls hdevice henabled hopen h hplay
    (⟨[], by simpa using hbase, by simp⟩ : Layered read config device _ [] (between device))
  have hSelected : ∀ uid, Selected read config uid ↔ ∃ text ∈ selected, Names read text uid := by
    intro uid
    simp [Selected, hselected]
  have hInRange : ∀ uid, InRange read config uid ↔ Names read range uid := by
    intro uid
    simp [InRange, hrange]
  refine ⟨fun hmode uid huid hold => ?_, fun hmode uid hold => ?_, fun hnil => ?_⟩
  · obtain rfl : white = true := Except.ok.inj (hwhite.symm.trans hmode)
    rw [rejects_iff hdevice hdone hbase hlayered houtput hold, ← hSelected, ← hInRange]
    by_cases hactive : ∃ app ∈ apps, IsUidOf read config device app uid
    · simp [hactive]
    · simp [hactive, huid]
  · obtain rfl : white = false := Except.ok.inj (hwhite.symm.trans hmode)
    rw [rejects_iff hdevice hdone hbase hlayered houtput hold, ← hSelected, ← hInRange]
    simp [and_comm]
  · subst hnil
    rw [hlayered.measurement_nil, hbase]

def whiteListConfig : Config where
  devices := ["dev0001", "dev0002"]
  applications := ["whatsapp", "threema"]
  sections name :=
    if name = "iptables" then
      some fun key =>
        if key = "white_list" then some "true"
        else if key = "range" then some "0-99999999" else some "measurement"
    else
      some fun key =>
        if key = "iptables" then some "true"
        else if key = "whatsapp_uid" then some "10090" else some "10091"
  selectedUid := some ["0", "10090"]
  direc := ""

def whiteListRead (text : String) : Option Owner :=
  if text = "0-99999999" then some ⟨0, 99999999⟩
  else if text = "10090" then some ⟨10090, 10090⟩
  else if text = "10091" then some ⟨10091, 10091⟩ else some ⟨0, 0⟩

theorem firewall_policy_white_list :
    let calls : List FirewallCall :=
      [.openUid "whatsapp", .openUid "threema", .closeUid "whatsapp"]
    let setUp := (firewallSetUp whiteListConfig).run (fun _ _ => {}) 0
    let run := (calls.forM fun call => call.script whiteListConfig).run (fun _ _ => {}) 0
    ∃ between after, play whiteListRead (fun _ => ⟨[], none⟩) setUp.1 = some between ∧
      play whiteListRead between run.1 = some after ∧ ¬ (after "dev0002").Rejects 10091 := by
  intro calls setUp run
  have hopen : openApps calls = some ["threema"] := by decide
  have hreturn₀ : setUp.2 = .ok () := rfl
  have h₀ : (firewallSetUp whiteListConfig).Yields setUp.1 (.ok ()) :=
    hreturn₀ ▸ Script.yields_run _ 0 _
  have hreturn : run.2 = .ok () := rfl
  have h : (calls.forM fun call => call.script whiteListConfig).Yields run.1 (.ok ()) :=
    hreturn ▸ Script.yields_run _ 0 _
  have hdevice : "dev0002" ∈ whiteListConfig.devices := by decide
  obtain ⟨between, after, hplay₀, hplay⟩ : ∃ between after,
      play whiteListRead (fun _ => ⟨[], none⟩) setUp.1 = some between ∧
        play whiteListRead between run.1 = some after := ⟨_, _, rfl, rfl⟩
  refine ⟨between, after, hplay₀, hplay, ?_⟩
  have hpolicy := firewall_policy whiteListRead whiteListConfig hopen h₀ h hplay₀ hplay hdevice rfl
  refine (hpolicy.1 rfl 10091 ⟨"0-99999999", rfl, ⟨0, 99999999⟩, rfl, rfl⟩ (by simp)).mpr
    (Or.inr ?_)
  exact ⟨"threema", List.mem_singleton_self _, "10091", rfl, ⟨10091, 10091⟩, rfl, rfl⟩

/-- The firewall is set up and opened for an application, and the experiment ends without closing
it. After the next set-up nothing is open, but the uid of the application still passes. -/
theorem leftover_rule_decides :
    let calls : List FirewallCall := [.openUid "threema"]
    let setUp := (firewallSetUp whiteListConfig).run (fun _ _ => {}) 0
    let run := (calls.forM fun call => call.script whiteListConfig).run (fun _ _ => {}) 0
    (setUp.2 = .ok () ∧ run.2 = .ok ()) ∧
    (∃ first before after, play whiteListRead (fun _ => ⟨[], none⟩) setUp.1 = some first ∧
      play whiteListRead first run.1 = some before ∧
      play whiteListRead before setUp.1 = some after ∧ ¬ (after "dev0002").Rejects 10091) ∧
    InRange whiteListRead whiteListConfig 10091 ∧ ¬ Selected whiteListRead whiteListConfig 10091 ∧
      openApps [] = some [] := by
  refine ⟨⟨rfl, rfl⟩, ⟨_, _, _, rfl, rfl, rfl, by decide⟩,
    ⟨"0-99999999", rfl, ⟨0, 99999999⟩, rfl, rfl⟩, ?_, rfl⟩
  rintro ⟨selected, hselected, text, htext, owner, howner, hcovers⟩
  obtain rfl := Option.some.inj hselected
  rcases List.mem_pair.mp htext with rfl | rfl
  · obtain rfl := Option.some.inj howner
    exact absurd hcovers (by decide)
  · obtain rfl := Option.some.inj howner
    exact absurd hcovers (by decide)

end Policy

end Phone

end Matador
