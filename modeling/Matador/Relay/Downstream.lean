import Mathlib.Data.List.Basic
import Mathlib.Data.List.Infix
import Mathlib.Data.List.TakeDrop
import Mathlib.Tactic.Common
import Matador.Relay.Handlers

/-!
# The handlers that pass bytes to the phone

What is read from the SOCKS connection is queued in lwIP as far as its send buffer goes; the
rest waits until lwIP reports that bytes were acknowledged. `Sending` is the state in which
`client_socks_recv_send_out` is called, from both places.
-/

namespace Matador

namespace Relay

open Check

namespace Client

variable {c : Client} {a : Answers} {f p e : Bool}

theorem read_inv {data : List UInt8} (h : Inv f p e c) (hs : c.socksClosed = false)
    (hbusy : c.recvIf = .busy) (hpos : 0 < data.length)
    (hle : data.length ≤ clientSocksRecvBufSize) :
    Inv f p e { c with recvIf := .done data, fromSocks := c.fromSocks ++ data } := by
  have hcore := h.core
  obtain ⟨hbuf, hup⟩ := hcore.recv (by simp [hbusy])
  refine ⟨⟨⟨hcore.send, fun _ => ⟨hbuf, hup⟩, ⟨hle, ?_⟩, hcore.up,
    hcore.down.trans (List.prefix_append _ _), by simp [hup]⟩, h.freed, h.closing,
    fun hc => ?_, h.dead, ?_⟩, h.half, by simp [hs]⟩
  · intro d hd
    cases hd
    exact hpos
  · have hopen := h.isOpen hc
    have hdown := hopen.down
    rw [unqueued_eq_nil hbuf, inHand, hbusy, List.append_nil, List.append_nil] at hdown
    refine ⟨hopen.err, hopen.recvCallback, hopen.sentCallback, hopen.half, by simp, hopen.waiting,
      ?_, hopen.acked, hopen.window⟩
    change c.toClient ++ (c.unqueued ++ data) = c.fromSocks ++ data
    rw [unqueued_eq_nil hbuf, List.nil_append, hdown]
  · intro hp hx
    exact absurd (h.drained hp hx).1 (by simp [hs])

/-- The client after the next `k` bytes of the receive buffer are queued in lwIP. -/
def queued (data : List UInt8) (k : ℕ) (c : Client) : Client :=
  { c with
    toClient := c.toClient ++ (data.drop c.recvBufSent).take k
    sndBuf := c.sndBuf - k
    recvBufSent := c.recvBufSent + k
    tcpPending := c.tcpPending + k }

def sentOut (data : List UInt8) (k : ℕ) (c : Client) : Client :=
  { c.queued data k with
    recvBuf := if c.recvBufSent + k < data.length then some data else none
    recvWaiting := decide (c.recvBufSent + k < data.length) }

/-- The loop ends, and has queued some of the bytes. -/
theorem sendOutLoop_eq (a : Answers) {data : List UInt8} {k : ℕ} (hlt : c.recvBufSent < data.length)
    (hk : data.length - c.recvBufSent < k) :
    ∃ j failed, c.recvBufSent + j ≤ data.length ∧
      sendOutLoop a data k c = some (c.queued data j, failed) := by
  induction k generalizing c with
  | zero => omega
  | succ k ih =>
      have hnone : c.queued data 0 = c := by simp [queued]
      unfold sendOutLoop
      dsimp only
      generalize ht : min (data.length - c.recvBufSent) c.sndBuf = t
      by_cases hzero : t = 0
      · exact ⟨0, false, by omega, by rw [if_pos hzero, hnone]⟩
      rw [if_neg hzero]
      cases a.write c.recvBufSent with
      | mem => exact ⟨0, false, by omega, by rw [hnone]⟩
      | other => exact ⟨0, true, by omega, by rw [hnone]⟩
      | ok =>
          change ∃ j failed, _ ∧ (if (c.queued data t).recvBufSent < data.length then
            sendOutLoop a data k (c.queued data t) else some (c.queued data t, false)) = _
          have hsent : (c.queued data t).recvBufSent = c.recvBufSent + t := rfl
          split_ifs with hmore
          · obtain ⟨j, failed, hj, heq⟩ := ih hmore (by omega)
            refine ⟨t + j, failed, by omega, ?_⟩
            rw [heq]
            simp only [queued, List.take_add, List.drop_drop, List.append_assoc, Nat.add_assoc,
              Nat.sub_sub]
          · exact ⟨t, false, by omega, rfl⟩

/-- A client with bytes in its receive buffer, in a handler that queues them. -/
structure Sending (f e : Bool) (data : List UInt8) (c : Client) : Prop where
  core : c.Core
  freed : c.freed = false
  closed : c.clientClosed = false
  closing : c.closing = none
  dead : f = true → c.deadClient = c.clientClosed
  err : c.errCallback = true
  recvCallback : c.recvCallback = !(c.socksUp && c.socksClosed)
  sentCallback : c.sentCallback = c.socksUp
  up : c.socksUp = true
  buf : c.recvBuf = some data
  idle : c.recvIf = .idle
  more : c.recvBufSent < data.length
  waiting : c.recvWaiting = false
  down : c.toClient ++ data.drop c.recvBufSent = c.fromSocks
  acked : c.acked + c.tcpPending = c.toClient.length
  window : c.rcvWnd + c.buf.length = Lwip.tcpWnd
  sent : e = false → c.socksClosed = true → c.unsent = []

variable {data : List UInt8}

theorem Sending.core_queued (h : Sending f e data c) (k : ℕ) : (c.queued data k).Core := by
  have hcore := h.core
  refine ⟨hcore.send, fun hne => absurd h.idle hne, hcore.inHand, hcore.up, ?_, ?_⟩
  · change c.toClient ++ (data.drop c.recvBufSent).take k <+: c.fromSocks
    rw [← h.down, List.prefix_append_right_inj]
    exact List.take_prefix _ _
  · intro hnot
    have hup : c.socksUp = false := hnot
    exact absurd hup (by simp [h.up])

theorem Sending.abort (h : Sending f e data c) (k : ℕ) :
    ∃ c', clientAbortClient a (c.queued data k) = some c' ∧ Inv f p e c' ∧
      c'.clientClosed = true ∧ (c.socksClosed = true → c'.socksClosed = true) := by
  let d : Client := { (c.queued data k).removeCallbacks with closing := some .abort }
  have hcore := (h.core_queued k).withoutPcb (p := p) (f := f) (e := e) (d := d) h.freed
    ⟨.abort, false, false, false, rfl⟩ h.sent (by simp [d])
  refine ⟨d.withoutPcb, ?_, hcore, rfl, fun hs => Bool.or_eq_true_iff.2 (.inl hs)⟩
  have hclosed : (c.queued data k).clientClosed = false := h.closed
  rw [clientAbortClient, assert_of hclosed, Option.bind_eq_bind, Option.bind_some, depth]
  exact clientHandleFreedClient_eq (c := d) 2 h.closed

/-- What `client_socks_recv_send_out` does: the pcb is aborted, or some bytes are queued and the
client waits with the others. -/
theorem clientSocksRecvSendOut_spec (h : Sending f e data c) :
    (∃ c', c.clientSocksRecvSendOut a = some (c', false) ∧ Inv f p e c' ∧
        c'.clientClosed = true ∧ (c.socksClosed = true → c'.socksClosed = true)) ∨
      ∃ k, c.recvBufSent + k ≤ data.length ∧ 0 < c.tcpPending + k ∧
        c.clientSocksRecvSendOut a = some (c.sentOut data k, true) := by
  have hdata : c.recvBuf.getD [] = data := by rw [h.buf]; rfl
  have hlen : c.recvBuf ≠ none ∧ 0 < data.length :=
    ⟨by rw [h.buf]; simp, (Nat.zero_le _).trans_lt h.more⟩
  obtain ⟨k, failed, hk, hloop⟩ := sendOutLoop_eq a h.more (k := data.length + 1) (by omega)
  obtain ⟨c', habort, hinv, hclosed⟩ := h.abort (a := a) (p := p) k
  have hstart : c.clientSocksRecvSendOut a =
      if failed = true then some (c', false)
      else if a.output = false then some (c', false)
      else if c.recvBufSent + k < data.length then
        if c.tcpPending + k = 0 then some (c', false)
        else some ({ c.queued data k with recvWaiting := true }, true)
      else some ({ c.queued data k with recvBuf := none }, true) := by
    simp only [clientSocksRecvSendOut, assert_of h.closed, assert_of h.up, assert_of hlen,
      assert_of h.more, assert_of h.waiting, hdata, hloop, habort, Option.bind_eq_bind,
      Option.bind_some]
    rfl
  rw [hstart]
  split_ifs with hfailed hout hwait hpend
  · exact .inl ⟨c', rfl, hinv, hclosed⟩
  · exact .inl ⟨c', rfl, hinv, hclosed⟩
  · exact .inl ⟨c', rfl, hinv, hclosed⟩
  · refine .inr ⟨k, hk, by omega, ?_⟩
    rw [sentOut, if_pos hwait, decide_eq_true hwait, ← h.buf]
    rfl
  · have hmore' := h.more
    refine .inr ⟨k, hk, by omega, ?_⟩
    rw [sentOut, if_neg hwait, decide_eq_false hwait, ← h.waiting]
    rfl

theorem Sending.inv_sentOut (h : Sending f e data c) {k : ℕ} (hk : c.recvBufSent + k ≤ data.length)
    (hpos : 0 < c.tcpPending + k) {i : RecvIf}
    (hi : i = .idle ∧ (c.recvBufSent + k < data.length ∨ c.socksClosed = true) ∨
      i = .busy ∧ c.recvBufSent + k = data.length) :
    Inv f p e { c.sentOut data k with recvIf := i } := by
  have hcore := h.core_queued k
  have hin : Client.inHand { c with recvIf := i } = [] := by
    obtain ⟨rfl, -⟩ | ⟨rfl, -⟩ := hi <;> rfl
  refine ⟨⟨⟨hcore.send, ?_, ⟨?_, ?_⟩, hcore.up, hcore.down, ?_⟩, ?_, ?_, fun _ => ⟨h.err,
    h.recvCallback, h.sentCallback, fun _ => ⟨h.up, hpos⟩, ?_, ?_, ?_, ?_, h.window⟩, h.dead, ?_⟩,
    ?_, h.sent⟩
  · intro hne
    obtain ⟨rfl, -⟩ | ⟨rfl, hend⟩ := hi
    · exact absurd rfl hne
    · exact ⟨if_neg (by omega), h.up⟩
  · exact (congrArg List.length hin).trans_le (Nat.zero_le _)
  · intro d hd
    obtain ⟨rfl, -⟩ | ⟨rfl, -⟩ := hi <;> cases hd
  · intro hnot
    have hup : c.socksUp = false := hnot
    exact absurd hup (by simp [h.up])
  · change c.freed = (c.clientClosed && c.socksClosed)
    rw [h.freed, h.closed, Bool.false_and]
  · change c.clientClosed = c.closing.isSome
    rw [h.closed, h.closing, Option.isSome_none]
  · intro hs _ hnone
    obtain ⟨rfl, hlt | hsc⟩ | ⟨rfl, -⟩ := hi
    · exact absurd ((if_pos hlt).symm.trans hnone) (by simp)
    · exact absurd (hsc.symm.trans hs) (by simp)
    · simp
  · intro d hd
    have hd' : (if c.recvBufSent + k < data.length then some data else none) = some d := hd
    split_ifs at hd' with hlt
    cases hd'
    exact ⟨decide_eq_true hlt, hlt, hpos⟩
  · change c.toClient ++ (data.drop c.recvBufSent).take k ++
      (((if c.recvBufSent + k < data.length then some data else none).getD []).drop
        (c.recvBufSent + k) ++ Client.inHand { c with recvIf := i }) = c.fromSocks
    rw [hin, List.append_nil, ← h.down, List.append_assoc]
    congr 1
    split_ifs with hlt
    · rw [Option.getD_some, ← List.drop_drop, List.take_append_drop]
    · rw [Option.getD_none, List.drop_nil, List.append_nil]
      exact List.take_of_length_le (by rw [List.length_drop]; omega)
  · have hacked := h.acked
    change c.acked + (c.tcpPending + k) =
      (c.toClient ++ (data.drop c.recvBufSent).take k).length
    rw [List.length_append, List.length_take, List.length_drop]
    omega
  · intro _ hx
    have hx' : c.closing = some .fin ∨ c.closing = some .rst := hx
    rw [h.closing] at hx'
    simp at hx'
  · intro hc
    exact absurd (h.closed.symm.trans hc) (by simp)

theorem clientSocksRecvInitiate_eq (hc : c.clientClosed = false) (hs : c.socksClosed = false)
    (hup : c.socksUp = true) (hbuf : c.recvBuf = none) (hidle : c.recvIf = .idle) :
    c.clientSocksRecvInitiate = some { c with recvIf := .busy } := by
  simp only [clientSocksRecvInitiate, assert_of hc, assert_of hs, assert_of hup, assert_of hbuf,
    assert_of hidle, Option.bind_eq_bind, Option.bind_some]

theorem clientSocksRecvHandlerDone_inv (h : Inv f p e c) (hs : c.socksClosed = false)
    (hdone : c.recvIf = .done data) :
    ∃ c', c.clientSocksRecvHandlerDone a data = some c' ∧ Inv f p e c' := by
  have hcore := h.core
  obtain ⟨hbuf, hup⟩ := hcore.recv (by simp [hdone])
  have hpos := hcore.inHand.2 data hdone
  have hin : c.inHand = data := by rw [inHand, hdone]
  have hle : data.length ≤ clientSocksRecvBufSize := by
    have hle := hcore.inHand.1
    rwa [hin] at hle
  have hidle : Core { c with recvIf := .idle } :=
    ⟨hcore.send, fun hne => absurd rfl hne, ⟨Nat.zero_le _, fun d hd => by cases hd⟩, hcore.up,
      hcore.down, hcore.notUp⟩
  -- without a pcb the bytes are dropped
  by_cases hc : c.clientClosed = true
  · refine ⟨{ c with recvIf := .idle }, ?_, ⟨⟨hidle, h.freed, h.closing, ?_, h.dead, ?_⟩, h.half,
      h.sent⟩⟩
    · simp only [clientSocksRecvHandlerDone, assert_of hpos, assert_of hle, assert_of hs,
        assert_of hup, assert_of hbuf, Option.bind_eq_bind, Option.bind_some, if_pos hc]
    · intro hopen
      exact absurd (hc.symm.trans hopen) (by simp)
    · intro hp hx
      exact absurd (h.drained hp hx).1 (by simp [hs])
  · have hnot := hc
    have hc := Bool.eq_false_iff.2 hc
    have hopen := h.isOpen hc
    have hdown := hopen.down
    rw [unqueued_eq_nil hbuf, hin, List.nil_append] at hdown
    let d : Client :=
      { c with recvIf := .idle, recvBuf := some data, recvBufSent := 0, recvWaiting := false }
    have hsending : Sending f e data d :=
      ⟨⟨hidle.send, fun hne => absurd rfl hne, hidle.inHand, hidle.up, hidle.down,
        fun hnot => absurd hup (by rw [show c.socksUp = false from hnot]; simp)⟩,
        h.freed_eq_false hc, hc, h.closing_eq_none hc, h.dead, hopen.err, hopen.recvCallback,
        hopen.sentCallback, hup, rfl, rfl, hpos, rfl, hdown, hopen.acked, hopen.window, h.sent⟩
    have hstart : c.clientSocksRecvHandlerDone a data = (d.clientSocksRecvSendOut a).bind
        fun r => if r.2 = true ∧ r.1.recvBuf = none then clientSocksRecvInitiate r.1
          else some r.1 := by
      simp only [clientSocksRecvHandlerDone, assert_of hpos, assert_of hle, assert_of hs,
        assert_of hup, assert_of hbuf, Option.bind_eq_bind, Option.bind_some, if_neg hnot]
      rfl
    rw [hstart]
    obtain ⟨c', heq, hinv, -⟩ | ⟨k, hk, hpend, heq⟩ :=
      clientSocksRecvSendOut_spec (a := a) (p := p) hsending
    · exact ⟨c', by simp [heq], hinv⟩
    · rw [heq, Option.bind_some]
      by_cases hlt : d.recvBufSent + k < data.length
      · exact ⟨_, if_neg (by simp [sentOut, hlt]), hsending.inv_sentOut hk hpend
          (.inl ⟨hsending.idle, .inl hlt⟩)⟩
      · have hnone : (if d.recvBufSent + k < data.length then some data else none) = none :=
          if_neg hlt
        exact ⟨_, (if_pos ⟨rfl, hnone⟩).trans (clientSocksRecvInitiate_eq hc hs hup hnone rfl),
          hsending.inv_sentOut hk hpend (.inr ⟨rfl, by omega⟩)⟩

def acknowledged (len : ℕ) (c : Client) : Client :=
  { c with
    sndBuf := c.sndBuf + len
    acked := c.acked + len
    tcpPending := c.tcpPending - len }

variable {len : ℕ}

theorem Core.acknowledged (len : ℕ) (h : c.Core) (hup : c.socksUp = true) :
    (c.acknowledged len).Core :=
  ⟨h.send, h.recv, h.inHand, h.up, h.down,
    fun hnot => absurd hup (by rw [show c.socksUp = false from hnot]; simp)⟩

theorem Open.acknowledged (h : c.Open) (hle : len ≤ c.tcpPending) :
    (c.acknowledged len).acked + (c.acknowledged len).tcpPending =
      (c.acknowledged len).toClient.length := by
  have hacked := h.acked
  change c.acked + len + (c.tcpPending - len) = c.toClient.length
  omega

/-- What `client_sent_func` leaves of the client `c` and returns: `ERR_ABRT` exactly if the pcb
was given up. It synchronises only with a SOCKS connection that is up. -/
def SentOk (f p e : Bool) (c : Client) (r : Option (Client × Option Err)) : Prop :=
  ∃ c' r', r = some (c', r') ∧ Inv f p e c' ∧ (c.socksClosed = true → c'.socksClosed = true) ∧
    (r' = some .abrt ∧ c'.clientClosed = true ∨
      (r' = none ∧ c.socksClosed = false ∨ r' = some .ok) ∧ c'.clientClosed = false ∧
        c'.fromSocks = c.fromSocks ∧ c'.acked = c.acked)

/-- All bytes read are queued: the client is closed if all are acknowledged and the SOCKS side
is down. -/
theorem acknowledged_of_none (h : Inv f p e c) (hc : c.clientClosed = false)
    (hup : c.socksUp = true) (hle : len ≤ c.tcpPending) (hbuf : c.recvBuf = none) :
    SentOk f p e (c.acknowledged len) (if c.socksClosed = true ∧ c.tcpPending - len = 0 then
      (clientFreeClient depth a (c.acknowledged len)).bind fun c => some (c, some .abrt)
    else some (c.acknowledged len, some .ok)) := by
  have hopen := h.isOpen hc
  have hcore := h.core.acknowledged len hup
  have hacked := hopen.acknowledged hle
  split_ifs with hlast
  · refine ⟨_, _, by rw [depth, clientFreeClient_eq (c := c.acknowledged len) 1 hc,
      Option.bind_some], hcore.withoutPcb (h.freed_eq_false hc) (tcpClose_removeCallbacks a _)
      h.sent fun _ _ => ⟨hlast.1, ?_, ?_⟩, fun hs => Bool.or_eq_true_iff.2 (.inl hs),
      .inl ⟨rfl, rfl⟩⟩
    · have hdown := hopen.down
      rwa [unqueued_eq_nil hbuf, List.nil_append] at hdown
    · rw [show (c.acknowledged len).tcpPending = 0 from hlast.2, Nat.add_zero] at hacked
      exact hacked
  · refine ⟨_, _, rfl, ⟨⟨hcore, h.freed, h.closing, fun _ => ⟨hopen.err, hopen.recvCallback,
      hopen.sentCallback, fun hs => ⟨hup, ?_⟩, hopen.reading, ?_, hopen.down, hacked,
      hopen.window⟩, h.dead, ?_⟩, h.half, h.sent⟩, id, .inr ⟨.inr rfl, hc, rfl, rfl⟩⟩
    · exact Nat.pos_of_ne_zero fun hzero => hlast ⟨hs, hzero⟩
    · intro b hb
      exact absurd (hbuf.symm.trans hb) (by simp)
    · intro _ hx
      have hx' : c.closing = some .fin ∨ c.closing = some .rst := hx
      rw [h.closing_eq_none hc] at hx'
      simp at hx'

theorem Inv.sending {b : List UInt8} (h : Inv f p e c) (hc : c.clientClosed = false)
    (hup : c.socksUp = true) (hle : len ≤ c.tcpPending) (hbuf : c.recvBuf = some b) :
    Sending f e b { c.acknowledged len with recvWaiting := false } := by
  have hopen := h.isOpen hc
  have hcore := h.core.acknowledged len hup
  have hidle : c.recvIf = .idle := by
    by_contra hne
    exact absurd (hbuf.symm.trans (h.core.recv hne).1) (by simp)
  have hdown := hopen.down
  rw [unqueued, hbuf, inHand, hidle, List.append_nil] at hdown
  exact ⟨⟨hcore.send, hcore.recv, hcore.inHand, hcore.up, hcore.down, hcore.notUp⟩,
    h.freed_eq_false hc, hc, h.closing_eq_none hc, h.dead, hopen.err, hopen.recvCallback,
    hopen.sentCallback, hup, hbuf, hidle, (hopen.waiting b hbuf).2.1, rfl, hdown,
    hopen.acknowledged hle, hopen.window, h.sent⟩

theorem Sending.sentOk (h : Sending f e data c) :
    SentOk f p e c ((c.clientSocksRecvSendOut a).bind fun r =>
      if r.2 = false then some (r.1, some .abrt)
      else (assert (0 < r.1.tcpPending)).bind fun _ =>
        if r.1.recvBuf = none ∧ r.1.socksClosed = false then
          (clientSocksRecvInitiate r.1).bind fun c => some (c, none)
        else some (r.1, some .ok)) := by
  obtain ⟨c', heq, hinv, hclosed⟩ | ⟨k, hk, hpend, heq⟩ :=
    clientSocksRecvSendOut_spec (a := a) (p := p) h
  · exact ⟨c', _, by rw [heq]; rfl, hinv, hclosed.2, .inl ⟨rfl, hclosed.1⟩⟩
  have hpos : 0 < (c.sentOut data k).tcpPending := hpend
  rw [heq, Option.bind_some, if_neg (by simp), assert_of hpos, Option.bind_some]
  by_cases hread : ¬ c.recvBufSent + k < data.length ∧ c.socksClosed = false
  · have hnone : (if c.recvBufSent + k < data.length then some data else none) = none :=
      if_neg hread.1
    refine ⟨_, none, ?_, h.inv_sentOut hk hpend (.inr ⟨rfl, by omega⟩), id,
      .inr ⟨.inl ⟨rfl, hread.2⟩, h.closed, rfl, rfl⟩⟩
    rw [if_pos ⟨hnone, hread.2⟩,
      clientSocksRecvInitiate_eq (c := c.sentOut data k) h.closed hread.2 h.up hnone h.idle]
    rfl
  · refine ⟨_, some .ok, if_neg ?_, h.inv_sentOut hk hpend (.inl ⟨h.idle, ?_⟩), id,
      .inr ⟨.inr rfl, h.closed, rfl, rfl⟩⟩
    · rintro ⟨hnone, hs⟩
      refine hread ⟨fun hlt => ?_, hs⟩
      exact absurd ((if_pos hlt).symm.trans hnone) (by simp)
    · cases hs : c.socksClosed with
      | true => exact .inr rfl
      | false => exact .inl (by_contra fun hge => hread ⟨hge, hs⟩)

theorem clientSentFunc_inv (h : Inv f p e c) (hc : c.clientClosed = false)
    (hup : c.socksUp = true) (hpos : 0 < len) (hle : len ≤ c.tcpPending) :
    SentOk f p e (c.acknowledged len) (Client.clientSentFunc a len
      { c with sndBuf := c.sndBuf + len, acked := c.acked + len }) := by
  simp only [clientSentFunc, assert_of hc, assert_of hup, assert_of hpos, assert_of hle,
    Option.bind_eq_bind, Option.bind_some]
  by_cases hbuf : c.recvBuf = none
  · rw [if_neg (not_not_intro hbuf)]
    exact acknowledged_of_none h hc hup hle hbuf
  · obtain ⟨b, hb⟩ := Option.ne_none_iff_exists'.1 hbuf
    obtain ⟨hwait, hlt, -⟩ := (h.isOpen hc).waiting b hb
    have hmore : c.recvBufSent < (c.recvBuf.getD []).length := by
      rw [hb]
      exact hlt
    rw [if_pos hbuf, assert_of hwait, Option.bind_some, assert_of hmore, Option.bind_some]
    exact (h.sending hc hup hle hb).sentOk

end Client

end Relay

end Matador
