import Matador.Controller.Experiment
import Matador.Library.Contract

/-!
# What an experiment leaves behind

Every exit of `experiment` has its own list of processes and channels for `clean_up`. A
ledger is kept along the trace: starting a process or a channel adds it, and it is
removed when it is seen to have ended, killed or closed. At the end of a call the ledger
holds what was neither passed to `clean_up` nor seen to have ended; whether such a
process has ended by itself is known to the environment only.

The contracts of this module say for every part of the script what the ledger is
afterwards, and for every exception that it is one of the controller, that `force_stop`
was attempted and that the ledger holds nothing that still runs if and only if no entry
of the trace is an oversight.
-/

namespace Matador

namespace Controller

/-- What `experiment` starts. -/
inductive Handle where
  | process (p : Process)
  | channel (c : Channel)
  deriving DecidableEq

def settle (h : Handle) (ledger : List Handle) : List Handle := ledger.filter fun h' => h' ≠ h

def record (ledger : List Handle) (x : Request × Answer) : List Handle :=
  if x.2.error ≠ none then ledger
  else
    match x.1 with
    | .popen p _ => .process p :: ledger
    | .execChannel c _ => .channel c :: ledger
    | .poll p => if x.2.status = none then ledger else settle (.process p) ledger
    | .exitStatusReady c => if x.2.status = none then ledger else settle (.channel c) ledger
    | .killpg p | .communicate p => settle (.process p) ledger
    | .close c | .recvExitStatus c => settle (.channel c) ledger
    | _ => ledger

/-- The handles that were started and neither cleaned up nor seen to have ended. -/
def owed (ledger : List Handle) (trace : List (Request × Answer)) : List Handle :=
  trace.foldl record ledger

def Forced (trace : List (Request × Answer)) : Prop :=
  ∃ x ∈ trace, x.1 = .checkCall .networkTearDown1

instance (trace : List (Request × Answer)) : Decidable (Forced trace) :=
  inferInstanceAs (Decidable (∃ x ∈ trace, x.1 = .checkCall .networkTearDown1))

def Raised.Declared : Raised → Prop
  | host1Exception _ | host2Exception _ | fatalException _ | smallException _ => True
  | other _ => False

/-- The call ends as it should: it returns or raises one of its exceptions, `force_stop`
was called, and what was started has ended by itself or was cleaned up. -/
def CleanExit (ended : List Handle) (ledger : List Handle) (trace : List (Request × Answer))
    (result : Except Raised Unit) : Prop :=
  (∀ raised, result = .error raised → raised.Declared) ∧ Forced trace ∧
    ∀ h ∈ owed ledger trace, h ∈ ended

/-- The call of the trace is none after which `experiment` forgets something: the
library does not raise, except where `experiment` handles it; the location setup
succeeds; and where a failure is handled without one of the handles, that one has ended
by itself. -/
def Handled (ended : List Handle) (x : Request × Answer) : Prop :=
  match x.1 with
  | .checkCall (.locationSetup _ _ _ _) => x.2.error = none
  | .checkCall .networkCheck1 => x.2.error = none ∨ .process .network1 ∈ ended
  | .recvExitStatus .check2 => x.2.error = none ∧ (x.2.status = some 0 ∨ .channel .network2 ∈ ended)
  | .poll (.analysis1 k) =>
      x.2.error = none ∧ (x.2.status = some 0 ∨ .channel (.analysis2 k) ∈ ended)
  | .checkCall _ | .execCommand _ | .localtime => True
  | _ => x.2.error = none

instance (ended : List Handle) : DecidablePred (Handled ended) := fun x => by
  unfold Handled
  split <;> infer_instance

def AllHandled (ended : List Handle) (trace : List (Request × Answer)) : Prop :=
  ∀ x ∈ trace, Handled ended x

variable {ended ledger : List Handle} {β γ : Type}

theorem owed_append (ledger : List Handle) (t t' : List (Request × Answer)) :
    owed ledger (t ++ t') = owed (owed ledger t) t' :=
  List.foldl_append

theorem allHandled_append {t : List (Request × Answer)} (h : AllHandled ended t)
    (t' : List (Request × Answer)) : AllHandled ended (t ++ t') ↔ AllHandled ended t' := by
  refine ⟨fun hall x hx => hall x (List.mem_append_right t hx), fun hall x hx => ?_⟩
  exact (List.mem_append.mp hx).elim (h x) (hall x)

theorem forced_append {t : List (Request × Answer)} (h : ¬ Forced t)
    (t' : List (Request × Answer)) : Forced (t ++ t') ↔ Forced t' := by
  constructor
  · rintro ⟨x, hx, hforce⟩
    rcases List.mem_append.mp hx with hold | hnew
    · exact absurd ⟨x, hold, hforce⟩ h
    · exact ⟨x, hnew, hforce⟩
  · rintro ⟨x, hx, hforce⟩
    exact ⟨x, List.mem_append_right t hx, hforce⟩

theorem cleanExit_append {t : List (Request × Answer)} (h : ¬ Forced t)
    (t' : List (Request × Answer)) (result : Except Raised Unit) :
    CleanExit ended ledger (t ++ t') result ↔ CleanExit ended (owed ledger t) t' result := by
  unfold CleanExit
  rw [forced_append h, owed_append]

/-! ## Contracts -/

/-- The script goes on with a handled trace and a ledger that satisfies `Q`, or it ends
cleanly exactly if its trace is handled and `side` holds. -/
def Outcome (ended : List Handle) (side : Prop) (ledger : List Handle)
    (Q : β → List Handle → Prop) (t : List (Request × Answer)) : Except Raised β → Prop
  | .ok b => AllHandled ended t ∧ ¬ Forced t ∧ Q b (owed ledger t)
  | .error e => CleanExit ended ledger t (.error e) ↔ AllHandled ended t ∧ side

def Continues (ended : List Handle) (side : Prop) (ledger : List Handle)
    (p : Script Request Answer Raised β) (Q : β → List Handle → Prop) : Prop :=
  p.Ensures (Outcome ended side ledger Q)

/-- The contract of `experiment` and of its last part: the script ends cleanly exactly if
its trace is handled. -/
def Concludes (ended ledger : List Handle) (p : Script Request Answer Raised Unit) : Prop :=
  p.Ensures fun t result => CleanExit ended ledger t result ↔ AllHandled ended t

variable {side : Prop} {Q : β → List Handle → Prop}

theorem Continues.mono {p : Script Request Answer Raised β} {R : β → List Handle → Prop}
    (hp : Continues ended side ledger p R) (h : ∀ b ledger', R b ledger' → Q b ledger') :
    Continues ended side ledger p Q := by
  refine Script.Ensures.mono hp fun t result hout => ?_
  cases result with
  | ok b => exact ⟨hout.1, hout.2.1, h b _ hout.2.2⟩
  | error e => exact hout

theorem Continues.bind {p : Script Request Answer Raised β} {f : β → Script Request Answer Raised γ}
    {R : γ → List Handle → Prop} (hp : Continues ended side ledger p Q)
    (hf : ∀ b ledger', Q b ledger' → Continues ended side ledger' (f b) R) :
    Continues ended side ledger (p >>= f) R := by
  refine Script.Ensures.bind hp (fun t e h => h) ?_
  rintro t b ⟨hhandled, hforced, hQ⟩
  refine Script.Ensures.mono (hf b _ hQ) fun t' result h => ?_
  cases result with
  | ok c =>
      simp only [Outcome] at h ⊢
      rwa [allHandled_append hhandled, forced_append hforced, owed_append]
  | error e =>
      simp only [Outcome] at h ⊢
      rwa [allHandled_append hhandled, cleanExit_append hforced]

theorem Continues.concludes {p : Script Request Answer Raised β}
    {f : β → Script Request Answer Raised Unit} (hp : Continues ended True ledger p Q)
    (hf : ∀ b ledger', Q b ledger' → Concludes ended ledger' (f b)) :
    Concludes ended ledger (p >>= f) := by
  refine Script.Ensures.bind hp (fun t e h => h.trans (and_iff_left trivial)) ?_
  rintro t b ⟨hhandled, hforced, hQ⟩
  refine Script.Ensures.mono (hf b _ hQ) fun t' result h => ?_
  rwa [allHandled_append hhandled, cleanExit_append hforced]

theorem continues_pure {b : β} (h : Q b ledger) : Continues ended side ledger (pure b) Q :=
  Script.ensures_pure ⟨by simp [AllHandled], by simp [Forced], h⟩

/-! ## Single calls -/

theorem ensures_perform (r : Request) :
    (perform r).Ensures fun t result => ∃ a, t = [(r, a)] ∧
      (a.error = none ∧ result = .ok a ∨
        ∃ text, a.error = some text ∧ result = .error (.other text)) := by
  rw [perform_eq_call]
  refine (Script.ensures_call _ r).mono ?_
  rintro t result ⟨a, rfl, ⟨hok, rfl⟩ | ⟨e, herror, rfl⟩⟩
  · exact ⟨a, rfl, Or.inl ⟨Option.map_eq_none_iff.mp hok, rfl⟩⟩
  · obtain ⟨text, htext, rfl⟩ := Option.map_eq_some_iff.mp herror
    exact ⟨a, rfl, Or.inr ⟨text, htext, rfl⟩⟩

theorem not_cleanExit_other {t : List (Request × Answer)} {text : String} :
    ¬ CleanExit ended ledger t (.error (.other text)) :=
  fun h => h.1 _ rfl

theorem allHandled_singleton {x : Request × Answer} : AllHandled ended [x] ↔ Handled ended x := by
  simp [AllHandled]

theorem not_forced_singleton {r : Request} {a : Answer} (h : r ≠ .checkCall .networkTearDown1) :
    ¬ Forced [(r, a)] := by
  simpa [Forced] using h

theorem handled_poll {p : Process} (hp : ∀ k, p ≠ .analysis1 k) (a : Answer) :
    Handled ended (.poll p, a) ↔ a.error = none := by
  cases p with
  | network1 => exact Iff.rfl
  | measurement1 k => exact Iff.rfl
  | analysis1 k => exact absurd rfl (hp k)

theorem continues_perform {r : Request} (hr : ∀ a, Handled ended (r, a) ↔ a.error = none) :
    Continues ended side ledger (perform r) fun a ledger' =>
      a.error = none ∧ ledger' = record ledger (r, a) := by
  have hforce : r ≠ .checkCall .networkTearDown1 := by
    rintro rfl
    simpa [Handled] using hr { error := some "" }
  refine (ensures_perform r).mono ?_
  rintro t result ⟨a, rfl, ⟨hok, rfl⟩ | ⟨text, herror, rfl⟩⟩
  · exact ⟨allHandled_singleton.mpr ((hr a).mpr hok), not_forced_singleton hforce, hok, rfl⟩
  · refine iff_of_false not_cleanExit_other ?_
    simp [allHandled_singleton, hr, herror]

theorem continues_popen {p : Process} {command : Command} :
    Continues ended side ledger (popen p command) fun _ ledger' =>
      ledger' = .process p :: ledger := by
  refine (continues_perform fun a => Iff.rfl).bind ?_
  rintro a _ ⟨ha, rfl⟩
  exact continues_pure (by simp [record, ha])

theorem continues_startChannel {c : Channel} {command : Command} :
    Continues ended side ledger (startChannel c command) fun _ ledger' =>
      ledger' = .channel c :: ledger := by
  refine (continues_perform fun a => Iff.rfl).bind ?_
  rintro a _ ⟨ha, rfl⟩
  refine (continues_perform fun a => Iff.rfl).bind ?_
  rintro b _ ⟨hb, rfl⟩
  refine (continues_perform fun a => Iff.rfl).bind ?_
  rintro d _ ⟨hd, rfl⟩
  exact continues_pure (by simp [record, ha, hb, hd])

theorem continues_localtime :
    Continues ended side ledger (Script.request .localtime) fun _ ledger' => ledger' = ledger :=
  Script.ensures_request fun a =>
    ⟨by simp [AllHandled, Handled], not_forced_singleton (by simp), by simp [owed, record]⟩

/-! ## Giving up -/

def cleaned (commands : List Process) (channels : List Channel) (ledger : List Handle) :
    List Handle :=
  ledger.filter fun h => h ∉ commands.map Handle.process ∧ h ∉ channels.map Handle.channel

theorem continues_stop {r stop : Request} {h : Handle}
    (hr : ∀ a, Handled ended (r, a) ↔ a.error = none)
    (hstop : ∀ a, Handled ended (stop, a) ↔ a.error = none)
    (hended : ∀ a, a.error = none →
      record ledger (r, a) = if a.status = none then ledger else settle h ledger)
    (hstopped : ∀ a, a.error = none → record ledger (stop, a) = settle h ledger) :
    Continues ended side ledger (do
      let answer ← perform r
      if answer.status = none then
        let _ ← perform stop) fun _ ledger' => ledger' = settle h ledger := by
  refine (continues_perform hr).bind ?_
  rintro a _ ⟨ha, rfl⟩
  rw [hended a ha]
  split_ifs with hstatus
  · refine (continues_perform hstop).bind ?_
    rintro b _ ⟨hb, rfl⟩
    exact continues_pure (hstopped b hb)
  · exact continues_pure rfl

theorem continues_stopAll {δ : Type} (handle : δ → Handle) (xs : List δ)
    {f : δ → Script Request Answer Raised PUnit}
    (hf : ∀ x ∈ xs, ∀ ledger, Continues ended side ledger (f x) fun _ ledger' =>
      ledger' = settle (handle x) ledger) :
    Continues ended side ledger (xs.forM f) fun _ ledger' =>
      ledger' = ledger.filter fun h => h ∉ xs.map handle := by
  induction xs generalizing ledger with
  | nil => exact continues_pure (by simp)
  | cons x xs ih =>
      rw [List.forall_mem_cons] at hf
      refine (hf.1 ledger).bind ?_
      rintro _ _ rfl
      refine (ih hf.2).mono ?_
      rintro _ _ rfl
      simp only [settle, List.filter_filter, List.map_cons, List.mem_cons, not_or, ne_eq,
        decide_not, Bool.decide_and, Bool.and_comm]

theorem continues_cleanUp {commands : List Process} {channels : List Channel}
    (hcommands : ∀ p ∈ commands, ∀ k, p ≠ .analysis1 k) :
    Continues ended side ledger (cleanUp commands channels) fun _ ledger' =>
      ledger' = cleaned commands channels ledger := by
  unfold cleanUp
  refine (continues_stopAll Handle.process commands fun p hp l => ?_).bind ?_
  · exact continues_stop (handled_poll (hcommands p hp)) (fun a => Iff.rfl)
      (fun a ha => by simp [record, ha]) fun a ha => by simp [record, ha]
  rintro _ _ rfl
  refine (continues_stopAll Handle.channel channels fun c hc l => ?_).mono ?_
  · exact continues_stop (fun a => Iff.rfl) (fun a => Iff.rfl) (fun a ha => by simp [record, ha])
      fun a ha => by simp [record, ha]
  · rintro _ _ rfl
    simp only [cleaned, List.filter_filter, Bool.decide_and, Bool.and_comm]

theorem ensures_discard (r : Request) :
    (do let _ ← perform r : Script Request Answer Raised Unit).Ensures fun t result =>
      ∃ a, t = [(r, a)] ∧
        (a.error = none ∧ result = .ok () ∨ a.error ≠ none ∧ ∃ e, result = .error e) := by
  rw [perform_eq_call]
  refine (Script.ensures_discard _ r).mono ?_
  rintro t result ⟨a, rfl, hresult⟩
  exact ⟨a, rfl, by simpa using hresult⟩

theorem ensures_attempt (r : Request) (raised : Raised) :
    ((do let _ ← perform r : Script Request Answer Raised Unit).catching
        fun _ => .raise raised).Ensures fun t result =>
      ∃ a, t = [(r, a)] ∧ (result = .ok () ∨ result = .error raised) := by
  refine Script.Ensures.catching (ensures_discard r) ?_ ?_
  · rintro t b ⟨a, rfl, -⟩
    exact ⟨a, rfl, Or.inl rfl⟩
  · rintro t e ⟨a, rfl, -⟩
    exact Script.ensures_raise ⟨a, rfl, Or.inr rfl⟩

/-- `force_stop` starts nothing, and its only exception is one of the controller. -/
theorem ensures_forceStop (ended : List Handle) :
    forceStop.Ensures fun t result => Forced t ∧ AllHandled ended t ∧
      (∀ ledger, owed ledger t = ledger) ∧ ∀ raised, result = .error raised → raised.Declared := by
  have hrecord : ∀ (ledger : List Handle) (command : Command) (a : Answer),
      record ledger (.checkCall command, a) = ledger ∧
        record ledger (.execCommand command, a) = ledger := by
    simp [record]
  refine Script.Ensures.bind (ensures_attempt (.checkCall .networkTearDown1) _) ?_ ?_
  · rintro t e ⟨a, rfl, heq | heq⟩
    · cases heq
    · refine ⟨⟨_, List.mem_singleton_self _, rfl⟩, by simp [AllHandled, Handled],
        fun l => (hrecord l _ a).1, ?_⟩
      rintro raised hraised
      cases heq
      cases hraised
      trivial
  rintro t b ⟨a, rfl, -⟩
  refine (ensures_attempt (.execCommand .networkTearDown2) _).mono ?_
  rintro t' result ⟨a', rfl, hresult⟩
  refine ⟨⟨_, List.mem_cons_self, rfl⟩, by simp [AllHandled, Handled], fun l => ?_, ?_⟩
  · simp [owed, hrecord]
  · rintro raised rfl
    rcases hresult with heq | heq
    · cases heq
    · cases heq
      trivial

theorem cleanExit_of_forced {t : List (Request × Answer)} {raised : Raised} (hforced : Forced t)
    (howed : ∀ ledger, owed ledger t = ledger) (hraised : raised.Declared) :
    CleanExit ended ledger t (.error raised) ↔ ∀ h ∈ ledger, h ∈ ended := by
  unfold CleanExit
  rw [howed]
  refine ⟨fun h => h.2.2, fun h => ⟨?_, hforced, h⟩⟩
  rintro raised' heq
  cases heq
  exact hraised

/-- At every exit through `clean_up` and `force_stop` the only question is whether the
lists name all that still runs. -/
theorem continues_giveUp {commands : List Process} {channels : List Channel} {raised : Raised}
    (hcommands : ∀ p ∈ commands, ∀ k, p ≠ .analysis1 k) (hraised : raised.Declared)
    (hside : side ↔ ∀ h ∈ cleaned commands channels ledger, h ∈ ended) :
    Continues ended side ledger (giveUp commands channels raised) fun _ _ => False := by
  refine (continues_cleanUp hcommands).bind ?_
  rintro _ _ rfl
  refine Script.Ensures.bind (ensures_forceStop ended) ?_ ?_
  · rintro t e ⟨hforced, hhandled, howed, hdeclared⟩
    exact (cleanExit_of_forced hforced howed (hdeclared e rfl)).trans
      (hside.symm.trans (and_iff_right hhandled).symm)
  · rintro t _ ⟨hforced, hhandled, howed, -⟩
    refine Script.ensures_raise ?_
    rw [List.append_nil]
    exact (cleanExit_of_forced hforced howed hraised).trans
      (hside.symm.trans (and_iff_right hhandled).symm)

theorem continues_giveUpIf {failed : Bool} {commands : List Process} {channels : List Channel}
    {raised : Raised} {Q : Unit → List Handle → Prop}
    (hgive : failed = true →
      Continues ended side ledger (giveUp commands channels raised) fun _ _ => False)
    (hgo : failed = false → Q () ledger) :
    Continues ended side ledger (giveUpIf failed commands channels raised) Q := by
  cases failed with
  | false => exact continues_pure (hgo rfl)
  | true => exact (hgive rfl).mono fun _ _ h => h.elim

/-- What an exit after the call needs becomes the condition on the call. -/
theorem Continues.after {r : Request} {a : Answer} {p : Script Request Answer Raised Unit}
    {R : Unit → List Handle → Prop} (hforce : r ≠ .checkCall .networkTearDown1)
    (hside : Handled ended (r, a) ↔ side)
    (hp : Continues ended side (record ledger (r, a)) p fun _ _ => False) :
    p.Ensures fun t result => Outcome ended True ledger R ([(r, a)] ++ t) result := by
  refine Script.Ensures.mono hp fun t result h => ?_
  cases result with
  | ok b => exact h.2.2.elim
  | error e =>
      simp only [Outcome] at h ⊢
      rw [cleanExit_append (not_forced_singleton hforce)]
      refine h.trans ?_
      rw [and_true, ← hside, and_comm]
      simp [AllHandled]

theorem continues_guarded (side : Prop) {r : Request}
    {handler : Raised → Script Request Answer Raised Unit}
    (hforce : r ≠ .checkCall .networkTearDown1)
    (hr : ∀ a, Handled ended (r, a) ↔ a.error = none ∨ side)
    (hrecord : ∀ a, record ledger (r, a) = ledger)
    (hhandler : ∀ e, Continues ended side ledger (handler e) fun _ _ => False) :
    Continues ended True ledger
      ((do let _ ← perform r : Script Request Answer Raised Unit).catching handler)
      fun _ ledger' => ledger' = ledger := by
  refine Script.Ensures.catching (ensures_discard r) ?_ ?_
  · rintro t _ ⟨a, rfl, ⟨herror, -⟩ | ⟨-, e, heq⟩⟩
    · exact ⟨allHandled_singleton.mpr ((hr a).mpr (Or.inl herror)), not_forced_singleton hforce,
        hrecord a⟩
    · cases heq
  · rintro t e ⟨a, rfl, ⟨-, heq⟩ | ⟨herror, -⟩⟩
    · cases heq
    · refine Continues.after hforce ((hr a).trans (or_iff_right herror)) ?_
      rw [hrecord a]
      exact hhandler e

/-- A call whose answer decides whether `experiment` gives up. -/
theorem continues_checked (side : Prop) {r : Request} {failed : Answer → Bool}
    {commands : List Process} {channels : List Channel} {raised : Raised}
    (hforce : r ≠ .checkCall .networkTearDown1)
    (hr : ∀ a, Handled ended (r, a) ↔ a.error = none ∧ (failed a = false ∨ side))
    (hgive : ∀ a, a.error = none →
      Continues ended side (record ledger (r, a)) (giveUp commands channels raised)
        fun _ _ => False) :
    Continues ended True ledger
      (perform r >>= fun a => giveUpIf (failed a) commands channels raised)
      fun _ ledger' => ∃ a, a.error = none ∧ ledger' = record ledger (r, a) := by
  refine Script.Ensures.bind (ensures_perform r) ?_ ?_
  · rintro t e ⟨a, rfl, ⟨-, heq⟩ | ⟨text, herror, heq⟩⟩
    · cases heq
    · cases heq
      refine iff_of_false not_cleanExit_other ?_
      simp [allHandled_singleton, hr, herror]
  · rintro t b ⟨a, rfl, ⟨herror, heq⟩ | ⟨text, -, heq⟩⟩
    · cases heq
      cases hfailed : failed b with
      | false =>
          refine Script.ensures_pure ⟨?_, not_forced_singleton hforce, b, herror, rfl⟩
          exact allHandled_singleton.mpr ((hr b).mpr ⟨herror, Or.inl hfailed⟩)
      | true =>
          refine Continues.after hforce ?_ (hgive b herror)
          simp [hr, herror, hfailed]
    · cases heq

/-! ## The parts of the experiment -/

/-- The tunnels, which every part after the network checks finds in the ledger. -/
def tunnels : List Handle := [.channel .network2, .process .network1]

theorem continues_setup (args : Arguments) :
    Continues ended True [] (setup args) fun _ ledger => ledger = tunnels := by
  refine (continues_perform fun a => Iff.rfl).bind ?_
  rintro a _ ⟨ha, rfl⟩
  refine continues_popen.bind ?_
  rintro _ _ rfl
  refine continues_startChannel.bind ?_
  rintro _ _ rfl
  have hledger : record [] (.connect, a) = [] := by simp [record]
  rw [hledger]
  -- the handler of the location setup raises without `force_stop`
  refine (continues_guarded False (by simp) (fun a => by simp [Handled])
    (fun a => by simp [record]) fun e => ?_).bind ?_
  · refine Script.ensures_raise (iff_of_false ?_ fun h => h.2)
    rintro ⟨-, ⟨x, hx, -⟩, -⟩
    cases hx
  rintro _ _ rfl
  -- the handlers of the checks name only the tunnel of the other router
  refine (continues_guarded (.process .network1 ∈ ended) (by simp) (fun a => Iff.rfl)
    (fun a => by simp [record]) fun e => ?_).bind ?_
  · exact continues_giveUp (by simp) trivial (by simp [cleaned])
  rintro _ _ rfl
  refine continues_startChannel.bind ?_
  rintro _ _ rfl
  simp only [recvExitStatus, bind_assoc, pure_bind]
  refine (continues_checked (.channel .network2 ∈ ended) (by simp) (fun a => ?_)
    fun a ha => ?_).mono ?_
  · cases hstatus : a.status <;> simp [Handled, hstatus]
  · exact continues_giveUp (by simp) trivial (by simp [cleaned, record, ha, settle])
  · rintro _ _ ⟨a, ha, rfl⟩
    simp [record, ha, settle, tunnels]

/-- The test whether a process and a channel are running, at the beginning of an iteration
and after the start of the captures: what has ended is settled by the test itself. -/
theorem continues_bothRunning {p : Process} {c : Channel} {commands₁ commands₂ : List Process}
    {channels₁ channels₂ : List Channel} {raised₁ raised₂ : Raised} (hp : ∀ k, p ≠ .analysis1 k)
    (hgive₁ : Continues ended True (settle (.process p) ledger)
      (giveUp commands₁ channels₁ raised₁) fun _ _ => False)
    (hgive₂ : Continues ended True (settle (.channel c) ledger)
      (giveUp commands₂ channels₂ raised₂) fun _ _ => False) :
    Continues ended True ledger (do
      let first ← perform (.poll p)
      if first.status ≠ none then giveUp commands₁ channels₁ raised₁
      else
        let second ← perform (.exitStatusReady c)
        giveUpIf (second.status ≠ none) commands₂ channels₂ raised₂)
      fun _ ledger' => ledger' = ledger := by
  refine (continues_perform (handled_poll hp)).bind ?_
  rintro a _ ⟨ha, rfl⟩
  split_ifs with hstatus
  · have hledger : record ledger (.poll p, a) = settle (.process p) ledger := by
      simp [record, ha, hstatus]
    rw [hledger]
    exact hgive₁.mono fun _ _ h => h.elim
  have hledger : record ledger (.poll p, a) = ledger := by
    simp [record, ha, not_not.mp hstatus]
  rw [hledger]
  refine (continues_perform fun a => Iff.rfl).bind ?_
  rintro b _ ⟨hb, rfl⟩
  refine continues_giveUpIf (fun hfailed => ?_) fun hfailed => ?_
  · have hsettled : record ledger (.exitStatusReady c, b) = settle (.channel c) ledger := by
      simp [record, hb, of_decide_eq_true hfailed]
    rwa [hsettled]
  · have hrunning : b.status = none := by simpa using hfailed
    simp [record, hb, hrunning]

theorem continues_checkTunnels :
    Continues ended True tunnels checkTunnels fun _ ledger => ledger = tunnels := by
  refine continues_bothRunning (by simp) ?_ ?_
  · exact continues_giveUp (by simp) trivial (by simp [tunnels, settle, cleaned])
  · exact continues_giveUp (by simp) trivial (by simp [tunnels, settle, cleaned])

theorem continues_startMeasurement (args : Arguments) (k : ℕ) (app timestamp : String) :
    Continues ended True tunnels (startMeasurement args k app timestamp) fun _ ledger =>
      ledger = .channel (.measurement2 k) :: .process (.measurement1 k) :: tunnels := by
  refine continues_popen.bind ?_
  rintro _ _ rfl
  refine continues_startChannel.bind ?_
  rintro _ _ rfl
  refine continues_bothRunning (by simp) ?_ ?_
  · exact continues_giveUp (by simp) trivial (by simp [tunnels, settle, cleaned])
  · exact continues_giveUp (by simp) trivial (by simp [tunnels, settle, cleaned])

theorem continues_executeApp (args : Arguments) (k : ℕ) (app : String) :
    Continues ended True (.channel (.measurement2 k) :: .process (.measurement1 k) :: tunnels)
      (executeApp args k app) fun _ ledger =>
        ledger = .channel (.measurement2 k) :: .process (.measurement1 k) :: tunnels := by
  have hgive : ∀ raised : Raised, raised.Declared →
      Continues ended True (.channel (.measurement2 k) :: .process (.measurement1 k) :: tunnels)
        (giveUp [.network1, .measurement1 k] [.network2, .measurement2 k] raised)
        fun _ _ => False := fun raised hraised =>
    continues_giveUp (by simp) hraised (by simp [cleaned, tunnels])
  refine continues_guarded True (by simp) (fun a => by simp [Handled])
    (fun a => by simp [record]) fun e => ?_
  refine (continues_guarded True (by simp) (fun a => by simp [Handled])
    (fun a => by simp [record]) fun e => hgive _ (by trivial)).bind ?_
  rintro _ _ rfl
  exact hgive _ trivial

theorem continues_analyzeCaptures (args : Arguments) (k : ℕ) (app timestamp : String) :
    Continues ended True tunnels (analyzeCaptures args k app timestamp) fun _ ledger =>
      ledger = tunnels := by
  refine continues_popen.bind ?_
  rintro _ _ rfl
  refine continues_startChannel.bind ?_
  rintro _ _ rfl
  refine (continues_perform fun a => Iff.rfl).bind ?_
  rintro a _ ⟨ha, rfl⟩
  have hledger : record (.channel (.analysis2 k) :: .process (.analysis1 k) :: tunnels)
      (.communicate (.analysis1 k), a) = .channel (.analysis2 k) :: tunnels := by
    simp [record, ha, settle, tunnels]
  have hpoll : ∀ b, record (.channel (.analysis2 k) :: tunnels) (.poll (.analysis1 k), b) =
      .channel (.analysis2 k) :: tunnels := by
    intro b
    simp [record, settle, tunnels]
  rw [hledger, ← bind_assoc]
  -- the second analysis has been started and is not waited for if the first one fails
  refine (continues_checked (.channel (.analysis2 k) ∈ ended) (by simp) (fun b => ?_)
    fun b hb => ?_).bind ?_
  · simp [Handled]
  · rw [hpoll]
    exact continues_giveUp (by simp) trivial (by simp [cleaned, tunnels])
  rintro _ _ ⟨b, -, rfl⟩
  rw [hpoll]
  simp only [recvExitStatus, bind_assoc, pure_bind]
  refine (continues_perform fun a => Iff.rfl).bind ?_
  rintro c _ ⟨hc, rfl⟩
  have hreceived : record (.channel (.analysis2 k) :: tunnels)
      (.recvExitStatus (.analysis2 k), c) = tunnels := by
    simp [record, hc, settle, tunnels]
  rw [hreceived]
  refine continues_giveUpIf (fun _ => ?_) fun _ => rfl
  exact continues_giveUp (by simp) trivial (by simp [cleaned, tunnels])

theorem continues_application (args : Arguments) (k : ℕ) (app : String) :
    Continues ended True tunnels (application args k app) fun _ ledger => ledger = tunnels := by
  refine continues_checkTunnels.bind ?_
  rintro _ _ rfl
  refine continues_localtime.bind ?_
  rintro now _ rfl
  refine (continues_startMeasurement args k app now.timestamp).bind ?_
  rintro _ _ rfl
  refine (continues_executeApp args k app).bind ?_
  rintro _ _ rfl
  refine (continues_cleanUp (by simp)).bind ?_
  rintro _ _ rfl
  have hledger : cleaned [.measurement1 k] [.measurement2 k]
      (.channel (.measurement2 k) :: .process (.measurement1 k) :: tunnels) = tunnels := by
    simp [cleaned, tunnels]
  rw [hledger]
  exact continues_analyzeCaptures args k app now.timestamp

theorem continues_applicationLoop (args : Arguments) (k : ℕ) (applications : List String) :
    Continues ended True tunnels (applicationLoop args k applications) fun _ ledger =>
      ledger = tunnels := by
  induction applications generalizing k with
  | nil => exact continues_pure rfl
  | cons app rest ih =>
      refine (continues_application args k app).bind ?_
      rintro _ _ rfl
      exact ih (k + 1)

theorem concludes_saveResults (args : Arguments) : Concludes ended tunnels (saveResults args) := by
  have hgive : ∀ raised : Raised, raised.Declared →
      Continues ended True tunnels (giveUp [.network1] [.network2] raised) fun _ _ => False :=
    fun raised hraised => continues_giveUp (by simp) hraised (by simp [cleaned, tunnels])
  refine (continues_guarded True (by simp) (fun a => by simp [Handled])
    (fun a => by simp [record]) fun e => hgive _ (by trivial)).concludes ?_
  rintro _ _ rfl
  refine (continues_guarded True (by simp) (fun a => by simp [Handled])
    (fun a => by simp [record]) fun e => hgive _ (by trivial)).concludes ?_
  rintro _ _ rfl
  refine (continues_cleanUp (by simp)).concludes ?_
  rintro _ _ rfl
  refine (ensures_forceStop ended).mono ?_
  rintro t result ⟨hforced, hhandled, howed, hdeclared⟩
  refine iff_of_true ⟨hdeclared, hforced, ?_⟩ hhandled
  rw [howed]
  simp [cleaned, tunnels]

/-- A call of `experiment` ends in order if and only if no call of its trace is one after
which it forgets something. -/
theorem experiment_cleanExit_iff {applications : List String} {args : Arguments}
    {trace : List (Request × Answer)} {result : Except Raised Unit}
    (h : (experiment applications args).Yields trace result) (ended : List Handle) :
    CleanExit ended [] trace result ↔ ∀ x ∈ trace, Handled ended x := by
  have hconcludes : Concludes ended [] (experiment applications args) := by
    refine (continues_setup args).concludes ?_
    rintro _ _ rfl
    refine (continues_applicationLoop args 0 applications).concludes ?_
    rintro _ _ rfl
    exact concludes_saveResults args
  exact hconcludes trace result h

def inOrder : Request → Answer
  | .poll (.analysis1 _) | .recvExitStatus _ | .execCommand _ => { status := some 0 }
  | _ => {}

def withoutLocation : Request → Answer
  | .checkCall (.locationSetup ..) => { error := some "exit status 1" }
  | r => inOrder r

def sampleArguments : Arguments where
  countries := ("de", "fr")
  hostnames := ("a.de", "b.fr")
  coordinates := ("48.1,11.5", "48.8,2.3")
  counter := "1"
  storageDirectory := "/results/"

theorem experiment_cleanExit_iff_in_order :
    let run := (experiment ["chat"] sampleArguments).run (fun _ => inOrder) 0
    run.2 = .ok () ∧ CleanExit [] [] run.1 run.2 := by
  refine ⟨rfl, (experiment_cleanExit_iff (Script.yields_run _ 0 _) []).mpr ?_⟩
  decide

/-- If the location setup fails, both tunnels are left running. -/
theorem location_failure_leaves_tunnels :
    let run := (experiment ["chat"] sampleArguments).run (fun _ => withoutLocation) 0
    (experiment ["chat"] sampleArguments).Yields run.1 run.2 ∧
      run.2 = .error (.fatalException "The smartphones are not working") ∧
      ¬ Forced run.1 ∧ owed [] run.1 = [.channel .network2, .process .network1] ∧
      ¬ CleanExit [] [] run.1 run.2 :=
  ⟨Script.yields_run _ 0 _, rfl, by decide, rfl, fun h => absurd h.2.1 (by decide)⟩

end Controller

end Matador
