import Mathlib.Data.List.Basic
import Mathlib.Data.List.Infix
import Mathlib.Tactic.Common
import Matador.Relay.Runs

/-!
# How a client ends

A client whose one side is down lives on until the other has what is buffered, and is then
freed: it never waits for something that does not come. What it does not do is keep a direction
open: once the phone has closed its direction the pcb is given up, so nothing more of what the
SOCKS side sends reaches the phone, and the phone sees a reset where its own bytes are still
buffered.
-/

namespace Matador

namespace Relay

open Check Transition

namespace Client

variable {c : Client} {a : Answers}

/-- What the phone's side has to do with: these fields do not change once the pcb is given
up. -/
def phoneSide (c : Client) : Option Closing × List UInt8 × List UInt8 × ℕ :=
  (c.closing, c.fromClient, c.toClient, c.acked)

theorem clientSocksSendHandlerDone_of_closed {len : ℕ} (hc : c.clientClosed = true)
    (hs : c.socksClosed = false) (hup : c.socksUp = true) (hpos : 0 < len)
    (hle : len ≤ c.buf.length) :
    c.clientSocksSendHandlerDone a len = some (if len < c.buf.length then
        { c with buf := c.buf.drop len, sendIf := .busy (c.buf.length - len) }
      else { c with buf := [], sendIf := .idle, socksClosed := true, freed := true }) := by
  have hbuf : 0 < c.buf.length := hpos.trans_le hle
  simp only [clientSocksSendHandlerDone, assert_of hs, assert_of hup, assert_of hbuf,
    assert_of hpos, assert_of hle, confirmSent, hc, Option.bind_eq_bind, Option.bind_some,
    List.length_drop, Nat.sub_pos_iff_lt, Bool.true_eq_false, if_false, if_true]
  by_cases hlt : len < c.buf.length
  · have hrest : 0 < (c.buf.drop len).length := by
      rw [List.length_drop]
      omega
    rw [if_pos hlt, if_pos hlt, senderSend, assert_of hrest, Option.bind_eq_bind,
      Option.bind_some, assert_of rfl, Option.bind_some, List.length_drop]
  · rw [if_neg hlt, if_neg hlt, List.drop_of_length_le (not_lt.1 hlt)]
    exact clientFreeSocks_of_closed 3 rfl hs

theorem clientSocksHandlerUp_of_closed {c' : Client} (hc : c.clientClosed = true)
    (h : c.clientSocksHandlerUp = some c') :
    c'.clientClosed = true ∧ c'.phoneSide = c.phoneSide := by
  simp only [clientSocksHandlerUp, startSending, clientSendToSocks, senderSend, hc,
    Option.bind_eq_bind, assert_bind_eq_some] at h
  obtain ⟨-, -, h⟩ := h
  split_ifs at h with hbuf
  · simp only [Option.bind_assoc, assert_bind_eq_some] at h
    obtain ⟨-, -, -, -, -, h⟩ := h
    cases h
    exact ⟨rfl, rfl⟩
  · cases h
    exact ⟨rfl, rfl⟩

theorem clientSocksRecvHandlerDone_of_closed {c' : Client} {data : List UInt8}
    (hc : c.clientClosed = true) (h : c.clientSocksRecvHandlerDone a data = some c') :
    c' = { c with recvIf := .idle } := by
  simp only [clientSocksRecvHandlerDone, Option.bind_eq_bind, assert_bind_eq_some, if_pos hc] at h
  obtain ⟨-, -, -, -, -, h⟩ := h
  cases h
  rfl

end Client

namespace State

variable {s s' : State} {a : Answers}

/-- Once the pcb is given up no step touches the phone's side. -/
theorem step_of_closed {o : Event × Answers} (h : s.Inv) (hc : s.client.clientClosed = true)
    (ho : Allowed o s) (hs : step o s = some s') :
    s'.client.clientClosed = true ∧ s'.client.phoneSide = s.client.phoneSide := by
  obtain ⟨event, a⟩ := o
  have hinv := h.client
  have hpcb : s.client.closing ≠ none := by
    rw [← Option.isSome_iff_ne_none, ← hinv.closing]
    exact hc
  cases event with
  -- lwIP calls back only while there is a pcb
  | recv data => exact absurd ho.2.1 hpcb
  | fin => exact absurd ho.2.1 hpcb
  | err => exact absurd ho.2.1 hpcb
  | sent len => exact absurd ho.2.1 hpcb
  | up =>
      obtain ⟨c', hc', rfl⟩ := Option.map_eq_some_iff.1 hs
      exact Client.clientSocksHandlerUp_of_closed hc hc'
  | error =>
      obtain ⟨c', hc', rfl⟩ := Option.map_eq_some_iff.1 hs
      have hsocks : s.client.socksClosed = false := ho
      rw [Client.clientSocksHandlerError, assert_of hsocks, Option.bind_eq_bind, Option.bind_some,
        Client.depth, Client.clientFreeSocks_of_closed 3 hc hsocks] at hc'
      cases hc'
      exact ⟨hc, rfl⟩
  | closed =>
      obtain ⟨c', hc', rfl⟩ := Option.map_eq_some_iff.1 hs
      have hsocks := ho.1
      rw [Client.clientSocksHandlerClosed, assert_of hsocks, assert_of ho.2.1, Option.bind_eq_bind,
        Option.bind_some, Option.bind_some, Client.depth,
        Client.clientFreeSocks_of_closed 3 hc hsocks] at hc'
      cases hc'
      exact ⟨hc, rfl⟩
  | written len =>
      cases hs
      exact ⟨hc, rfl⟩
  | sendDone =>
      obtain ⟨hsocks, l, hdone⟩ := ho
      have hsend := hinv.core.send hsocks
      rw [Client.SendOk, hdone] at hsend
      rw [step, hdone] at hs
      obtain ⟨c', hc', rfl⟩ := Option.map_eq_some_iff.1 hs
      rw [Client.clientSocksSendHandlerDone_of_closed hc hsocks hsend.1 hsend.2.1 hsend.2.2] at hc'
      cases hc'
      dsimp only
      split_ifs
      · exact ⟨hc, rfl⟩
      · exact ⟨hc, rfl⟩
  | read data =>
      cases hs
      exact ⟨hc, rfl⟩
  | recvDone =>
      obtain ⟨-, d, hdone⟩ := ho
      rw [step, hdone] at hs
      obtain ⟨c', hc', rfl⟩ := Option.map_eq_some_iff.1 hs
      rw [Client.clientSocksRecvHandlerDone_of_closed hc hc']
      exact ⟨hc, rfl⟩
  | commit =>
      cases hs
      exact ⟨hc, rfl⟩
  | murder =>
      obtain ⟨c', hc', rfl⟩ := Option.map_eq_some_iff.1 hs
      rw [Client.clientMurder, if_neg (by simp [hc])] at hc'
      simp only [Client.clientDealloc, Option.bind_eq_bind, assert_bind_eq_some] at hc'
      obtain ⟨-, -, hc'⟩ := hc'
      cases hc'
      exact ⟨hc, rfl⟩

/-- What holds of the phone's side when the pcb is given up holds for the rest of the run. -/
theorem run_of_closed (h : s.Inv) (hc : s.client.clientClosed = true)
    (hs : Reachable step Allowed s s') :
    s'.Inv ∧ s'.client.clientClosed = true ∧ s'.client.phoneSide = s.client.phoneSide :=
  hs.invariant (P := fun t => t.Inv ∧ t.client.clientClosed = true ∧
    t.client.phoneSide = s.client.phoneSide) ⟨h, hc, rfl⟩ <| by
      rintro t o t' - ⟨hinv, ht, hside⟩ ho heq
      obtain ⟨t'', heq', hinv'⟩ := step_inv hinv ho
      rw [heq] at heq'
      cases heq'
      obtain ⟨ht', hside'⟩ := step_of_closed hinv ht ho heq
      exact ⟨hinv', ht', hside'.trans hside⟩

theorem step_fin (h : s.Inv) (ho : Allowed (.fin, a) s) (hs : step (.fin, a) s = some s') :
    s'.client = (s.client.removeCallbacks.tcpClose a).withoutPcb := by
  have hc := h.clientClosed_eq_false ho.2.1
  obtain ⟨⟨c', r⟩, hc', rfl⟩ := Option.map_eq_some_iff.1 hs
  rw [Client.clientRecvFuncFin, assert_of hc, Option.bind_eq_bind, Option.bind_some, Client.depth,
    Client.clientFreeClient_eq 1 hc] at hc'
  cases hc'
  rfl

/-- A FIN of the phone ends both directions: whatever the SOCKS side sends afterwards, the phone
gets no more of it, while the phone's own bytes still go out or wait. -/
theorem nothing_after_fin {s₁ : State} (h : Reachable step Allowed accepted s)
    (ho : Allowed (.fin, a) s) (hs : step (.fin, a) s = some s₁)
    (hrun : Reachable step Allowed s₁ s') :
    s'.client.toClient = s.client.toClient ∧ s'.client.acked = s.client.acked ∧
      s'.client.toSocks ++ s'.client.unsent = s.client.fromClient := by
  have hfin := step_fin (reachable_inv h) ho hs
  have hclosed : s₁.client.clientClosed = true := by
    rw [hfin]
    rfl
  obtain ⟨hinv, -, hside⟩ := run_of_closed (reachable_inv (h.tail ho hs)) hclosed hrun
  have hup := hinv.client.core.up
  rw [hfin] at hside
  exact ⟨congrArg (fun t => t.2.2.1) hside, congrArg (fun t => t.2.2.2) hside,
    hup.trans (congrArg (fun t => t.2.1) hside)⟩

theorem nothing_after_fin_sending :
    ∃ s s', step (.fin, willing) sending = some s ∧ step (.read [7], willing) s = some s' ∧
      s'.client.fromSocks = [7] ∧ s'.client.toClient = [] :=
  ⟨_, _, rfl, rfl, rfl, (nothing_after_fin (a := willing) reachable_sending ⟨rfl, rfl, rfl, rfl⟩ rfl
    ((Reachable.refl _).tail (o := (.read [7], willing)) ⟨rfl, rfl, by decide, by decide⟩
      rfl)).1⟩

/-- A FIN of the phone gives its pcb up at once, and where bytes of the phone are still buffered
lwIP answers it with a reset. -/
theorem fin_answered_with_reset (h : Reachable step Allowed accepted s)
    (ho : Allowed (.fin, a) s) (hs : step (.fin, a) s = some s') :
    s'.client.clientClosed = true ∧ (s'.client.closing = some .rst ↔ s.client.buf ≠ []) ∧
      (s'.client.freed = true ↔ s.client.buf = [] ∨ s.client.socksClosed = true) := by
  have hinv := (reachable_inv h).client
  have hc := (reachable_inv h).clientClosed_eq_false ho.2.1
  have hwin := (hinv.isOpen hc).window
  rw [step_fin (reachable_inv h) ho hs]
  refine ⟨rfl, ?_, ?_⟩
  · change some (if s.client.rcvWnd ≠ Lwip.tcpWnd ∨ a.finTaken = true then Closing.rst
      else if a.close then .fin else .abort) = some .rst ↔ _
    have hcond : (s.client.rcvWnd ≠ Lwip.tcpWnd ∨ a.finTaken = true) ↔ 0 < s.client.buf.length := by
      rw [ho.2.2.2]
      simp only [Bool.false_eq_true, or_false]
      omega
    rw [← List.length_pos_iff_ne_nil, ← hcond]
    split_ifs with hne
    · exact iff_of_true rfl hne
    · exact iff_of_false (by simp) hne
    · exact iff_of_false (by simp) hne
  · change (s.client.freed || (s.client.socksClosed || s.client.buf.isEmpty)) = true ↔ _
    rw [hinv.freed_eq_false hc]
    simp [or_comm]

theorem fin_answered_with_reset_sending :
    ∃ s', step (.fin, willing) sending = some s' ∧
      (s'.client.closing = some .rst ↔ sending.client.buf ≠ []) :=
  ⟨_, rfl, (fin_answered_with_reset (a := willing) reachable_sending ⟨rfl, rfl, rfl, rfl⟩
    rfl).2.1⟩

/-- An end that the client brings about itself loses nothing: it frees the SOCKS connection when
every byte of the phone is written, and it closes the phone's connection when the SOCKS side has
ended and every byte from it is acknowledged. -/
theorem orderly_end_loses_nothing (h : Reachable step Allowed accepted s) :
    (s.client.socksClosed = true → s.socksEnded = false →
        s.client.toSocks = s.client.fromClient) ∧
      (s.phoneEnded = false → s.client.closing = some .fin ∨ s.client.closing = some .rst →
        s.client.socksClosed = true ∧ s.client.toClient ++ s.client.inHand = s.client.fromSocks ∧
          s.client.acked = s.client.toClient.length) := by
  have hinv := (reachable_inv h).client
  refine ⟨fun hs he => ?_, hinv.drained⟩
  have hup := hinv.core.up
  rwa [hinv.sent he hs, List.append_nil] at hup

theorem orderly_end_loses_nothing_relayed :
    ∃ s s', step (.closed, willing) relayed = some s ∧ step (.sent 2, willing) s = some s' ∧
      s'.client.freed = true ∧ s'.client.toClient ++ s'.client.inHand = [7, 8] := by
  have hclosed := reachable_relayed.tail (o := (.closed, willing)) ⟨rfl, rfl, rfl⟩ rfl
  have hsent := hclosed.tail (o := (.sent 2, willing)) ⟨rfl, rfl, rfl, by decide, by decide⟩ rfl
  exact ⟨_, _, rfl, rfl, rfl, ((orderly_end_loses_nothing hsent).2 rfl (.inl rfl)).2.1⟩

/-! ### A client with one side drains -/

def Taking (o : Event × Answers) (s : State) : Prop :=
  Allowed o s ∧ ((∃ n, o.1 = .written n) ∨ o.1 = .sendDone)

/-- What is left to do for the SOCKS side: two steps for each byte at most. -/
def leftToWrite (s : State) : ℕ :=
  2 * s.client.buf.length + (match s.client.sendIf with | .busy _ => 1 | _ => 0)

/-- A client without a pcb that is sending, or is freed with everything sent. -/
structure Sending (s : State) : Prop where
  inv : s.Inv
  closed : s.client.clientClosed = true
  up : s.client.socksUp = true
  sent : s.client.socksClosed = true → s.client.buf = []

theorem Sending.step {o : Event × Answers} (h : s.Sending) (ho : Taking o s)
    (hs : step o s = some s') : s'.Sending ∧ s'.leftToWrite < s.leftToWrite := by
  obtain ⟨event, a⟩ := o
  obtain ⟨hallowed, hevent⟩ := ho
  obtain ⟨s'', heq, hinv⟩ := step_inv h.inv hallowed
  rw [hs] at heq
  cases heq
  obtain ⟨n, hn⟩ | hn := hevent
  · cases hn
    obtain ⟨hsocks, -, l, hbusy, -⟩ := hallowed
    cases hs
    refine ⟨⟨hinv, h.closed, h.up, fun hsc => absurd (hsocks.symm.trans hsc) (by simp)⟩, ?_⟩
    simp only [leftToWrite, hbusy]
    omega
  · cases hn
    obtain ⟨hsocks, l, hdone⟩ := hallowed
    have hsend := h.inv.client.core.send hsocks
    rw [Client.SendOk, hdone] at hsend
    obtain ⟨hup, hpos, hle⟩ := hsend
    rw [State.step, hdone] at hs
    obtain ⟨c', hc', rfl⟩ := Option.map_eq_some_iff.1 hs
    rw [Client.clientSocksSendHandlerDone_of_closed h.closed hsocks hup hpos hle] at hc'
    cases hc'
    by_cases hlt : l < s.client.buf.length
    · simp only [if_pos hlt] at hinv ⊢
      refine ⟨⟨hinv, h.closed, h.up, fun hsc => absurd (hsocks.symm.trans hsc) (by simp)⟩, ?_⟩
      simp only [leftToWrite, hdone, List.length_drop]
      omega
    · simp only [if_neg hlt] at hinv ⊢
      refine ⟨⟨hinv, h.closed, h.up, fun _ => rfl⟩, ?_⟩
      simp only [leftToWrite, hdone, List.length_nil]
      omega

/-- A client that the phone has left sends what it has, in whatever pieces the SOCKS connection
takes it, and is then freed: every step brings the end nearer, and until then there is one. -/
theorem drains_to_socks (h : Reachable step Allowed accepted s)
    (hc : s.client.clientClosed = true) (hs : s.client.socksClosed = false)
    (hup : s.client.socksUp = true) (ht : Reachable step Taking s s') :
    s'.client.freed = true ∧ s'.client.toSocks = s.client.fromClient ∨
      (∀ a, ∃ event, Taking (event, a) s') ∧
        ∀ o s'', Taking o s' → step o s' = some s'' → s''.leftToWrite < s'.leftToWrite := by
  have hsending : s'.Sending := ht.invariant (P := Sending)
    ⟨reachable_inv h, hc, hup, fun hsc => absurd (hs.symm.trans hsc) (by simp)⟩
    fun t o t' _ hsend ho heq => (hsend.step ho heq).1
  obtain ⟨-, -, hside⟩ := run_of_closed (reachable_inv h) hc (ht.mono fun _ _ _ => And.left)
  have hfrom : s'.client.fromClient = s.client.fromClient := congrArg (fun t => t.2.1) hside
  have hinv := hsending.inv.client
  cases hsocks : s'.client.socksClosed with
  | true =>
      have hup := hinv.core.up
      rw [Client.unsent_eq_nil (hsending.sent hsocks), List.append_nil, hfrom] at hup
      refine .inl ⟨?_, hup⟩
      rw [hinv.freed, hsending.closed, hsocks, Bool.true_and]
  | false =>
      have hbuf := hinv.half hsending.closed hsocks
      have hsend := hinv.core.send hsocks
      refine .inr ⟨fun a => ?_, fun o s'' ho heq => (hsending.step ho heq).2⟩
      unfold Client.SendOk at hsend
      split at hsend
      · exact absurd (hsend hsending.up) hbuf
      · rename_i len hbusy
        exact ⟨.written len, ⟨hsocks, hsend.2.1, len, hbusy, le_rfl⟩, .inl ⟨len, rfl⟩⟩
      · rename_i len hdone
        exact ⟨.sendDone, ⟨hsocks, len, hdone⟩, .inr rfl⟩

theorem drains_to_socks_sending :
    ∃ s, step (.fin, willing) sending = some s ∧ ∃ event, Taking (event, willing) s := by
  have hfin := reachable_sending.tail (o := (.fin, willing)) ⟨rfl, rfl, rfl, rfl⟩ rfl
  refine ⟨_, rfl, ((drains_to_socks hfin rfl rfl rfl (Reachable.refl _)).resolve_left ?_).1 willing⟩
  rintro ⟨hfreed, -⟩
  exact absurd hfreed (by decide)

def Acking (o : Event × Answers) (s : State) : Prop := Allowed o s ∧ ∃ n, o.1 = .sent n

def leftToAck (s : State) : ℕ := s.client.fromSocks.length - s.client.acked

/-- A client without a SOCKS connection that waits for the phone, or is freed. -/
structure Waiting (s : State) : Prop where
  inv : s.Inv
  frame : s.frame = none
  phone : s.phoneEnded = false
  closed : s.client.socksClosed = true

theorem Waiting.step {o : Event × Answers} (h : s.Waiting) (ho : Acking o s)
    (hs : step o s = some s') :
    s'.Waiting ∧ (s'.client.freed = true ∨ s'.leftToAck < s.leftToAck) := by
  obtain ⟨event, a⟩ := o
  obtain ⟨hallowed, len, hlen⟩ := ho
  obtain ⟨s'', heq, hinv'⟩ := step_inv h.inv hallowed
  rw [hs] at heq
  cases heq
  cases hlen
  obtain ⟨-, hx, hcb, hpos, hle⟩ := hallowed
  have hinv := h.inv.client
  have hc := h.inv.clientClosed_eq_false hx
  have hopen := hinv.isOpen hc
  have hacked := hopen.acked
  have hdown := congrArg List.length hopen.down
  rw [List.length_append] at hdown
  obtain ⟨c', r, heq, -, hkeep, hr⟩ := Client.clientSentFunc_inv (a := a) hinv hc
    (hopen.sentCallback.symm.trans hcb) hpos
    (show len ≤ s.client.tcpPending by omega)
  have hsc : c'.socksClosed = true := hkeep h.closed
  simp only [State.step, heq, callback, Option.map_some, Option.some.injEq] at hs
  obtain ⟨rfl, hclosed⟩ | ⟨⟨rfl, hnot⟩ | rfl, hclosed, hfrom, hack⟩ := hr
  · subst hs
    refine ⟨⟨hinv', h.frame, h.phone, hsc⟩, .inl ?_⟩
    rw [hinv'.client.freed]
    exact Bool.and_eq_true_iff.2 ⟨hclosed, hsc⟩
  · exact absurd (h.closed.symm.trans hnot) (by simp)
  · subst hs
    refine ⟨⟨hinv', h.frame, h.phone, hsc⟩, .inr ?_⟩
    change c'.fromSocks.length - c'.acked < s.client.fromSocks.length - s.client.acked
    rw [hfrom, hack]
    change s.client.fromSocks.length - (s.client.acked + len) < _
    omega

theorem handle_phoneEnded {c : Option Client} (h : s.handle c = some s') :
    s'.phoneEnded = s.phoneEnded := by
  obtain ⟨c', -, rfl⟩ := Option.map_eq_some_iff.1 h
  rfl

theorem callback_phoneEnded {f : Frame} {r : Option (Client × Option Err)}
    (h : s.callback f r = some s') : s'.phoneEnded = s.phoneEnded := by
  obtain ⟨⟨c', _ | _⟩, -, rfl⟩ := Option.map_eq_some_iff.1 h <;> rfl

theorem step_phoneEnded {o : Event × Answers} (ho : Allowed o s) (hs : step o s = some s')
    (hne : o.1 ≠ .fin) : s'.phoneEnded = s.phoneEnded := by
  obtain ⟨event, a⟩ := o
  cases event with
  | fin => exact absurd rfl hne
  | recv data => exact callback_phoneEnded hs
  | sent len => exact callback_phoneEnded hs
  | sendDone =>
      obtain ⟨-, l, hdone⟩ := ho
      rw [step, hdone] at hs
      exact handle_phoneEnded hs
  | recvDone =>
      obtain ⟨-, d, hdone⟩ := ho
      rw [step, hdone] at hs
      exact handle_phoneEnded hs
  | commit =>
      cases hs
      rfl
  | error => exact handle_phoneEnded (s := { s with socksEnded := true }) hs
  | closed => exact handle_phoneEnded (s := { s with socksEnded := true }) hs
  | murder => exact handle_phoneEnded (s := { s with socksEnded := true }) hs
  | err => exact handle_phoneEnded hs
  | up => exact handle_phoneEnded hs
  | written len => exact handle_phoneEnded hs
  | read data => exact handle_phoneEnded hs

theorem clientClosed_of_phoneEnded (h : Reachable step Allowed accepted s) :
    s.phoneEnded = true → s.client.clientClosed = true := by
  refine h.invariant (P := fun t => t.phoneEnded = true → t.client.clientClosed = true)
    (by simp [accepted]) ?_
  rintro t ⟨event, a⟩ t' ht hclosed ho heq hended
  by_cases hfin : event = .fin
  · subst hfin
    rw [step_fin (reachable_inv ht) ho heq]
    rfl
  · rw [step_phoneEnded ho heq hfin] at hended
    exact (step_of_closed (reachable_inv ht) (hclosed hended) ho heq).1

/-- A client that the SOCKS side has left waits for the phone, in whatever pieces it acknowledges
and whatever lwIP answers, and is then freed: every acknowledgement brings the end nearer, and
until then one is outstanding. Where the pcb was not aborted the phone has everything. -/
theorem drains_to_phone (h : Reachable step Allowed accepted s) (hf : s.frame = none)
    (hc : s.client.clientClosed = false) (hs : s.client.socksClosed = true)
    (ht : Reachable step Acking s s') :
    s'.client.freed = true ∧
        (s'.client.closing = some .fin ∨ s'.client.closing = some .rst → s'.client.Drained) ∨
      (∀ a, Acking (.sent s'.client.tcpPending, a) s') ∧
        ∀ o s'', Acking o s' → step o s' = some s'' →
          s''.client.freed = true ∨ s''.leftToAck < s'.leftToAck := by
  have hphone : s.phoneEnded = false := by
    rw [← Bool.not_eq_true]
    intro hended
    exact absurd (hc.symm.trans (clientClosed_of_phoneEnded h hended)) (by simp)
  have hwaiting : s'.Waiting := ht.invariant (P := Waiting) ⟨reachable_inv h, hf, hphone, hs⟩
    fun t o t' _ hwait ho heq => (hwait.step ho heq).1
  have hinv := hwaiting.inv.client
  cases hc' : s'.client.clientClosed with
  | true =>
      refine .inl ⟨?_, hinv.drained hwaiting.phone⟩
      rw [hinv.freed, hc', hwaiting.closed, Bool.true_and]
  | false =>
      have hopen := hinv.isOpen hc'
      obtain ⟨hup, hpos⟩ := hopen.half hwaiting.closed
      exact .inr ⟨fun a => ⟨⟨hwaiting.frame, hinv.closing_eq_none hc', hopen.sentCallback.trans hup,
        hpos, hopen.acked.le⟩, _, rfl⟩, fun o s'' ho heq => (hwaiting.step ho heq).2⟩

theorem drains_to_phone_relayed :
    ∃ s, step (.closed, willing) relayed = some s ∧ Acking (.sent 2, willing) s := by
  have hclosed := reachable_relayed.tail (o := (.closed, willing)) ⟨rfl, rfl, rfl⟩ rfl
  refine ⟨_, rfl, ((drains_to_phone hclosed rfl rfl rfl (Reachable.refl _)).resolve_left ?_).1
    willing⟩
  rintro ⟨hfreed, -⟩
  exact absurd hfreed (by decide)

end State

end Relay

end Matador
