import Mathlib.Data.List.Basic
import Mathlib.Data.List.Infix
import Mathlib.Tactic.Common
import Matador.Library.Transition
import Matador.Relay.Downstream

/-!
# What a client does in every run

Every step that the surroundings may take keeps the invariant and fails no assertion. It
follows what a run can lose and what it cannot: in both directions the bytes passed on are
those taken, in order; an orderly end waits for all of them; lwIP is told to give up a pcb
exactly when the client did.
-/

namespace Matador

namespace Relay

open Check Transition

namespace Client

variable {c : Client} {p e : Bool}

theorem Inv.synchronising {f : Bool} (h : Inv f p e c) (hc : c.clientClosed = false) :
    Inv true p e { c with deadClient := false } := by
  have hcore := h.core
  have hopen := h.isOpen hc
  exact ⟨⟨⟨hcore.send, hcore.recv, hcore.inHand, hcore.up, hcore.down, hcore.notUp⟩, h.freed,
    h.closing, fun _ => ⟨hopen.err, hopen.recvCallback, hopen.sentCallback, hopen.half,
      hopen.reading, hopen.waiting, hopen.down, hopen.acked, hopen.window⟩, fun _ => hc.symm,
    h.drained⟩, h.half, h.sent⟩

theorem Inv.unframed {f : Bool} (h : Inv f p e c) : Inv false p e c :=
  ⟨⟨h.core, h.freed, h.closing, h.isOpen, by simp, h.drained⟩, h.half, h.sent⟩

end Client

namespace State

/-- The invariant of a run: that of the client, and that lwIP was told the truth about the
pcb. -/
structure Inv (s : State) : Prop where
  client : s.client.Inv s.frame.isSome s.phoneEnded s.socksEnded
  returned : ∀ r, s.returned = some r →
    r = .abrt ∧ s.client.clientClosed = true ∨ r = .ok ∧ s.client.clientClosed = false

theorem inv_accepted : accepted.Inv := ⟨Client.inv_accepted, by simp [accepted]⟩

variable {s : State} {a : Answers}

theorem Inv.clientClosed_eq_false (h : s.Inv) (hx : s.client.closing = none) :
    s.client.clientClosed = false := by
  rw [h.client.closing, hx]
  rfl

theorem inv_handle {c : Option Client} {t : State}
    (h : ∃ c', c = some c' ∧ c'.Inv t.frame.isSome t.phoneEnded t.socksEnded) :
    ∃ s', t.handle c = some s' ∧ s'.Inv := by
  obtain ⟨c', rfl, hinv⟩ := h
  exact ⟨_, rfl, hinv, by simp⟩

/-- A callback that keeps the client's invariant and answers what it did keeps that of the
run. -/
theorem inv_callback {f : Frame} {r : Option (Client × Option Err)} {t : State}
    (h : ∃ c r', r = some (c, r') ∧ c.Inv t.frame.isSome t.phoneEnded t.socksEnded ∧
      (r' = some .abrt ∧ c.clientClosed = true ∨
        (r' = none ∨ r' = some .ok) ∧ c.clientClosed = false)) :
    ∃ s', t.callback f r = some s' ∧ s'.Inv := by
  obtain ⟨c, r, rfl, hinv, ⟨rfl, hc⟩ | ⟨rfl | rfl, hc⟩⟩ := h
  · refine ⟨_, rfl, hinv, ?_⟩
    rintro r ⟨⟩
    exact .inl ⟨rfl, hc⟩
  · exact ⟨_, rfl, hinv.synchronising hc, by simp⟩
  · refine ⟨_, rfl, hinv, ?_⟩
    rintro r ⟨⟩
    exact .inr ⟨rfl, hc⟩

/-- Every step the surroundings may take runs to its end and keeps the invariant. -/
theorem step_inv {o : Event × Answers} (h : s.Inv) (ho : Allowed o s) :
    ∃ s', step o s = some s' ∧ s'.Inv := by
  obtain ⟨event, a⟩ := o
  have hinv := h.client
  cases event with
  | recv data =>
      obtain ⟨-, hx, hcb, hpos, hle⟩ := ho
      obtain ⟨c', r, heq, hinv', hc, hr⟩ :=
        Client.clientRecvFunc_inv hinv (h.clientClosed_eq_false hx) hcb hpos hle
      exact inv_callback (t := s) ⟨c', r, heq, hinv', .inr ⟨hr, hc⟩⟩
  | fin =>
      obtain ⟨-, hx, -⟩ := ho
      obtain ⟨c', heq, hinv', hc⟩ :=
        Client.clientRecvFuncFin_inv (a := a) hinv (h.clientClosed_eq_false hx)
      exact inv_callback (t := { s with phoneEnded := true })
        ⟨c', _, by rw [heq]; rfl, hinv', .inl ⟨rfl, hc⟩⟩
  | err =>
      exact inv_handle (t := s) (Client.clientErrFunc_inv hinv (h.clientClosed_eq_false ho.2.1))
  | sent len =>
      obtain ⟨-, hx, hcb, hpos, hle⟩ := ho
      have hc := h.clientClosed_eq_false hx
      have hopen := hinv.isOpen hc
      have hacked := hopen.acked
      obtain ⟨c', r, heq, hinv', -, hr⟩ := Client.clientSentFunc_inv (a := a) hinv hc
        (hopen.sentCallback.symm.trans hcb) hpos
        (show len ≤ s.client.tcpPending by omega)
      exact inv_callback (t := s) ⟨c', r, heq, hinv', hr.imp_right fun hr =>
        ⟨hr.1.imp_left And.left, hr.2.1⟩⟩
  | up => exact inv_handle (t := s) (Client.clientSocksHandlerUp_inv hinv ho.1 ho.2)
  | error =>
      exact inv_handle (t := { s with socksEnded := true })
        (Client.clientSocksHandlerError_inv hinv ho)
  | closed =>
      exact inv_handle (t := { s with socksEnded := true })
        (Client.clientSocksHandlerClosed_inv hinv ho.1 ho.2.1)
  | written len =>
      obtain ⟨hs, hpos, l, hbusy, hle⟩ := ho
      exact inv_handle (t := s) ⟨_, rfl, Client.written_inv hinv hs hbusy hpos hle⟩
  | sendDone =>
      obtain ⟨hs, l, hdone⟩ := ho
      rw [step, hdone]
      exact inv_handle (t := s) (Client.clientSocksSendHandlerDone_inv hinv hs hdone)
  | read data =>
      obtain ⟨hs, hbusy, hpos, hle⟩ := ho
      exact inv_handle (t := s) ⟨_, rfl, Client.read_inv hinv hs hbusy hpos hle⟩
  | recvDone =>
      obtain ⟨hs, d, hdone⟩ := ho
      rw [step, hdone]
      exact inv_handle (t := s) (Client.clientSocksRecvHandlerDone_inv hinv hs hdone)
  | commit =>
      have hdead := hinv.dead (Option.isSome_iff_ne_none.2 ho)
      refine ⟨_, rfl, hinv.unframed, ?_⟩
      rintro r ⟨⟩
      cases hc : s.client.clientClosed <;> simp [hdead, hc]
  | murder =>
      exact inv_handle (t := { s with socksEnded := true }) (Client.clientMurder_inv hinv)

theorem reachable_inv (h : Reachable step Allowed accepted s) : s.Inv :=
  h.invariant_of_total inv_accepted fun _ _ => step_inv

def willing : Answers := ⟨fun _ => .ok, true, true, false⟩

/-- The client of a run in which the phone sends `[1, 2]` and the SOCKS side `[7, 8]`, all of
which is passed on. -/
def relayed : State where
  client := { Client.accepted with
    sndBuf := 16382
    sentCallback := true
    socksUp := true
    recvIf := .busy
    recvBufSent := 2
    tcpPending := 2
    fromClient := [1, 2]
    toSocks := [1, 2]
    fromSocks := [7, 8]
    toClient := [7, 8] }
  frame := none
  returned := none
  phoneEnded := false
  socksEnded := false

def sending : State where
  client := { Client.accepted with
    rcvWnd := 5838
    sentCallback := true
    socksUp := true
    buf := [1, 2]
    sendIf := .busy 2
    recvIf := .busy
    fromClient := [1, 2] }
  frame := none
  returned := some .ok
  phoneEnded := false
  socksEnded := false

theorem reachable_sending : Reachable step Allowed accepted sending := by
  have hup : Reachable step Allowed accepted { accepted with
      client := { Client.accepted with sentCallback := true, socksUp := true, recvIf := .busy }
      frame := none } :=
    ((Reachable.refl accepted).tail (o := (.commit, willing)) (by simp [Allowed, accepted])
      rfl).tail (o := (.up, willing)) ⟨rfl, rfl⟩ rfl
  exact (hup.tail (o := (.recv [1, 2], willing)) ⟨rfl, rfl, rfl, by decide, by decide⟩ rfl).tail
    (o := (.commit, willing)) (by simp [Allowed]) rfl

theorem reachable_relayed : Reachable step Allowed accepted relayed := by
  have hsent : Reachable step Allowed accepted { sending with
      client := { sending.client with
        rcvWnd := 5840
        buf := []
        sendIf := .idle
        toSocks := [1, 2] }
      returned := none } :=
    (reachable_sending.tail (o := (.written 2, willing)) ⟨rfl, by decide, 2, rfl, le_rfl⟩ rfl).tail
      (o := (.sendDone, willing)) ⟨rfl, 2, rfl⟩ rfl
  exact (hsent.tail (o := (.read [7, 8], willing)) ⟨rfl, rfl, by decide, by decide⟩ rfl).tail
    (o := (.recvDone, willing)) ⟨rfl, [7, 8], rfl⟩ rfl

/-- No `ASSERT` of the client fails in any run. -/
theorem no_assert_fails {o : Event × Answers} (h : Reachable step Allowed accepted s)
    (ho : Allowed o s) : ∃ s', step o s = some s' := by
  obtain ⟨s', hs', -⟩ := step_inv (reachable_inv h) ho
  exact ⟨s', hs'⟩

theorem no_assert_fails_relayed : ∃ s', step (.closed, willing) relayed = some s' :=
  no_assert_fails reachable_relayed ⟨rfl, rfl, rfl⟩

/-- Both directions keep their order and lose nothing while they are up: what was written to the
SOCKS connection and what waits is what the phone sent, and what was queued in lwIP and what
waits is what the SOCKS side sent. -/
theorem streams_in_order (h : Reachable step Allowed accepted s) :
    s.client.toSocks ++ s.client.unsent = s.client.fromClient ∧
      s.client.toClient <+: s.client.fromSocks ∧
      (s.client.clientClosed = false →
        s.client.toClient ++ (s.client.unqueued ++ s.client.inHand) = s.client.fromSocks ∧
          s.client.acked + s.client.tcpPending = s.client.toClient.length) := by
  have hinv := (reachable_inv h).client
  exact ⟨hinv.core.up, hinv.core.down, fun hc => ⟨(hinv.isOpen hc).down, (hinv.isOpen hc).acked⟩⟩

theorem streams_in_order_relayed :
    [1, 2] ++ relayed.client.unsent = ([1, 2] : List UInt8) ∧
      ([7, 8] : List UInt8) <+: relayed.client.fromSocks :=
  ⟨(streams_in_order reachable_relayed).1, (streams_in_order reachable_relayed).2.1⟩

/-- lwIP is told `ERR_ABRT` exactly when the client gave the pcb up during the callback, and data
is never refused: the buffer has room for what the window lets through. -/
theorem callbacks_tell_the_truth {o : Event × Answers} {s' : State} {r : Err}
    (h : Reachable step Allowed accepted s) (ho : Allowed o s) (hs : step o s = some s')
    (hr : s'.returned = some r) :
    r ≠ .mem ∧ (r = .abrt ↔ s'.client.clientClosed = true) ∧
      (s'.client.clientClosed = false →
        s'.client.rcvWnd + s'.client.buf.length = Lwip.tcpWnd) := by
  have hinv := reachable_inv (h.tail ho hs)
  obtain ⟨rfl, hc⟩ | ⟨rfl, hc⟩ := hinv.returned r hr
  · exact ⟨by simp, by simp [hc], by simp [hc]⟩
  · exact ⟨by simp, by simp [hc], fun _ => (hinv.client.isOpen hc).window⟩

theorem callbacks_tell_the_truth_sending :
    ∃ s', step (.fin, willing) sending = some s' ∧ s'.returned = some .abrt ∧
      (Err.abrt = .abrt ↔ s'.client.clientClosed = true) :=
  ⟨_, rfl, rfl, (callbacks_tell_the_truth (o := (.fin, willing)) reachable_sending
    ⟨rfl, rfl, rfl, rfl⟩ rfl rfl).2.1⟩

end State

/-! ### All clients -/

/-- The clients that were accepted, also those that were freed since, and `num_clients`. -/
structure Clients where
  clients : List State
  numClients : ℤ

namespace Clients

inductive Event
  | accept
  | client (i : ℕ) (o : Relay.Event × Answers)

def init : Clients := ⟨[], 0⟩

def step : Event → Clients → Option Clients
  | .accept, s => do
      assert (0 ≤ s.numClients)
      some ⟨s.clients ++ [State.accepted], s.numClients + 1⟩
  | .client i o, s => do
      let t ← s.clients[i]?
      let t' ← t.step o
      -- the handler has come to `client_dealloc`
      if t.client.freed = false ∧ t'.client.freed = true then
        assert (0 < s.numClients)
        some ⟨s.clients.set i t', s.numClients - 1⟩
      else
        some ⟨s.clients.set i t', s.numClients⟩

def Allowed : Event → Clients → Prop
  | .accept, _ => True
  | .client i o, s => ∃ t, s.clients[i]? = some t ∧ t.Allowed o

/-- `num_clients` is the number of clients that are not freed. -/
structure Inv (s : Clients) : Prop where
  clients : ∀ t ∈ s.clients, t.Inv
  numClients : s.numClients = s.clients.countP fun t => !t.client.freed

variable {s : Clients}

/-- A freed client is left alone, but for the callback in which it was freed. -/
theorem freed_of_step {o : Relay.Event × Answers} {t t' : State} (h : t.Inv)
    (ho : t.Allowed o) (hs : t.step o = some t') (hfreed : t.client.freed = true) :
    t'.client.freed = true := by
  have hdown : t.client.clientClosed = true ∧ t.client.socksClosed = true := by
    simpa [h.client.freed] using hfreed
  have hclosing : t.client.closing ≠ none := fun hx => by
    simp [h.clientClosed_eq_false hx] at hdown
  have hsocks : t.client.socksClosed ≠ false := by simp [hdown.2]
  obtain ⟨event, a⟩ := o
  cases event with
  | recv | fin | err | sent => exact absurd ho.2.1 hclosing
  | up | closed | written | sendDone | read | recvDone => exact absurd ho.1 hsocks
  | error => exact absurd ho hsocks
  | commit =>
      cases hs
      exact hfreed
  | murder => exact absurd hfreed (by simp [ho.2])

theorem countP_set_of_getElem? {α : Type*} {P : α → Bool} {l : List α} {i : ℕ} {a b : α}
    (h : l[i]? = some a) :
    (l.set i b).countP P + (P a).toNat = l.countP P + (P b).toNat := by
  obtain ⟨hi, rfl⟩ := List.getElem?_eq_some_iff.1 h
  have hpos : (P l[i]).toNat ≤ l.countP P := by
    cases hP : P l[i]
    · exact Nat.zero_le _
    · exact List.countP_pos_iff.2 ⟨_, List.getElem_mem hi, hP⟩
  have hite : ∀ x : Bool, (if x then 1 else 0) = x.toNat := by decide
  rw [List.countP_set hi, hite, hite]
  omega

theorem step_inv {o : Event} (h : s.Inv) (ho : Allowed o s) :
    ∃ s', step o s = some s' ∧ s'.Inv := by
  have hcount := h.numClients
  cases o with
  | accept =>
      have hle : 0 ≤ s.numClients := by omega
      refine ⟨⟨s.clients ++ [State.accepted], s.numClients + 1⟩, ?_, ?_, ?_⟩
      · simp [step, assert_of hle]
      · intro t ht
        obtain ht | rfl := by simpa using ht
        · exact h.clients t ht
        · exact State.inv_accepted
      · simp [List.countP_append, hcount, State.accepted, Client.accepted]
  | client i o =>
      obtain ⟨t, ht, ho⟩ := ho
      have htinv := h.clients t (List.mem_of_getElem? ht)
      obtain ⟨t', hs, ht'inv⟩ := State.step_inv htinv ho
      have hclients : ∀ u ∈ s.clients.set i t', u.Inv := fun u hu =>
        (List.mem_or_eq_of_mem_set hu).elim (h.clients u) fun hu => hu ▸ ht'inv
      have hset := countP_set_of_getElem? (P := fun t => !t.client.freed) (b := t') ht
      simp only [step, ht, hs, Option.bind_eq_bind, Option.bind_some]
      split_ifs with hfree
      · simp only [hfree, Bool.not_false, Bool.not_true, Bool.toNat_true, Bool.toNat_false] at hset
        have hpos : 0 < s.numClients := by omega
        refine ⟨⟨s.clients.set i t', s.numClients - 1⟩, ?_, hclients, ?_⟩
        · simp [assert_of hpos]
        · simp only
          omega
      · have hsame : t'.client.freed = t.client.freed := by
          have := freed_of_step htinv ho hs
          cases hf : t.client.freed <;> simp_all
        refine ⟨_, rfl, hclients, ?_⟩
        simp only [hsame] at hset ⊢
        omega

/-- In every run of all clients `num_clients` is the number of those that are not freed, and no
assertion fails, neither of a client nor about `num_clients`. -/
theorem numClients_counts (h : Reachable step Allowed init s) :
    s.numClients = (s.clients.countP fun t => !t.client.freed) ∧
      ∀ o, Allowed o s → ∃ s', step o s = some s' := by
  have hinv : s.Inv := h.invariant_of_total ⟨by simp [init], by simp [init]⟩ fun _ _ => step_inv
  exact ⟨hinv.numClients, fun o ho => (step_inv hinv ho).imp fun _ hs => hs.1⟩

end Clients

end Relay

end Matador
