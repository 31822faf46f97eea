import Mathlib.Data.List.Basic
import Mathlib.Data.List.Infix
import Mathlib.Data.List.TakeDrop
import Mathlib.Tactic.Common
import Matador.Relay.Invariant

/-!
# The handlers that close a side or pass bytes to the SOCKS side

Each function that the surroundings of a client call is shown, from the invariant and what the
surroundings guarantee, to run to its end without a failed assertion and to leave the invariant
in place.
-/

namespace Matador

namespace Relay

open Check

namespace Client

variable {c : Client} {a : Answers} {f p e : Bool}

theorem Inv.freed_eq_false (h : Inv f p e c) (hc : c.clientClosed = false) : c.freed = false := by
  rw [h.freed, hc]
  rfl

theorem Inv.closing_eq_none (h : Inv f p e c) (hc : c.clientClosed = false) :
    c.closing = none := by
  rw [← Option.not_isSome_iff_eq_none, ← h.closing, hc]
  simp

/-! ### The phone's side goes down -/

theorem tcpClose_removeCallbacks (a : Answers) (c : Client) :
    ∃ x r s e, c.removeCallbacks.tcpClose a = { c with
      closing := some x, recvCallback := r, sentCallback := s, errCallback := e } :=
  ⟨_, _, _, _, rfl⟩

theorem clientErrFunc_inv (h : Inv f p e c) (hc : c.clientClosed = false) :
    ∃ c', c.clientErrFunc a = some c' ∧ Inv f p e c' := by
  refine ⟨_, ?_, h.core.withoutPcb (h.freed_eq_false hc) ⟨.gone, c.recvCallback, c.sentCallback,
    c.errCallback, rfl⟩ h.sent ?_⟩
  · rw [clientErrFunc, assert_of hc, Option.bind_eq_bind, Option.bind_some, depth]
    exact clientHandleFreedClient_eq (c := { c with closing := some .gone }) 2 hc
  · intro _ hx
    simp at hx

theorem clientRecvFuncFin_inv (h : Inv f p e c) (hc : c.clientClosed = false) :
    ∃ c', c.clientRecvFuncFin a = some c' ∧ Inv f true e c' ∧ c'.clientClosed = true := by
  refine ⟨_, ?_, h.core.withoutPcb (h.freed_eq_false hc) (tcpClose_removeCallbacks a c) h.sent
    (by simp), rfl⟩
  rw [clientRecvFuncFin, assert_of hc, Option.bind_eq_bind, Option.bind_some, depth,
    clientFreeClient_eq 1 hc]

theorem clientMurder_inv (h : Inv f p e c) :
    ∃ c', c.clientMurder = some c' ∧ Inv f p true c' := by
  have hcore := h.core
  cases hc : c.clientClosed with
  | false =>
      have heq : c.clientMurder = some { c.removeCallbacks with
          closing := some .abort
          deadClient := true
          clientClosed := true
          socksClosed := true
          freed := true } := by
        simp [clientMurder, clientDealloc, hc, assert_of]
      exact ⟨_, heq, ⟨⟨⟨by simp, hcore.recv, hcore.inHand, hcore.up, hcore.down, hcore.notUp⟩, rfl,
        rfl, by simp, fun _ => rfl, by simp⟩, by simp, by simp⟩⟩
  | true =>
      have heq : c.clientMurder = some { c with socksClosed := true, freed := true } := by
        simp [clientMurder, clientDealloc, hc, assert_of]
      refine ⟨_, heq, ⟨⟨⟨by simp, hcore.recv, hcore.inHand, hcore.up, hcore.down, hcore.notUp⟩,
        by simp [hc], h.closing, by simp [hc], h.dead, ?_⟩, by simp, by simp⟩⟩
      intro hp hx
      exact ⟨rfl, (h.drained hp hx).2⟩

/-! ### The SOCKS side goes down -/

theorem Core.withoutSocks (h : c.Core) : Core { c with socksClosed := true } :=
  ⟨by simp, h.recv, h.inHand, h.up, h.down, h.notUp⟩

theorem unqueued_eq_nil (h : c.recvBuf = none) : c.unqueued = [] := by
  simp [unqueued, h]

/-- `client_free_socks`, called because the connection has ended or because everything has been
sent. -/
theorem clientFreeSocks_inv (h : Kept f p c) (hs : c.socksClosed = false)
    (hsent : e = false → c.unsent = []) :
    ∃ c', clientFreeSocks depth a c = some c' ∧ Inv f p e c' := by
  have hcore := h.core.withoutSocks
  cases hc : c.clientClosed with
  | true =>
      have hdrained := h.drained
      refine ⟨_, clientFreeSocks_of_closed 3 hc hs, ⟨⟨⟨by simp, hcore.recv, hcore.inHand, hcore.up,
        hcore.down, hcore.notUp⟩, by simp [hc], h.closing, by simp [hc], h.dead, ?_⟩, by simp,
        fun he _ => hsent he⟩⟩
      intro hp hx
      exact ⟨rfl, (hdrained hp hx).2⟩
  | false =>
      have hopen := h.isOpen hc
      have hfreed : c.freed = false := by rw [h.freed, hc]; rfl
      by_cases hp : c.socksUp = true ∧ (c.recvBuf ≠ none ∨ 0 < c.tcpPending)
      · have hpending : 0 < c.tcpPending := by
          obtain hbuf | hpos := hp.2
          · obtain ⟨d, hd⟩ := Option.ne_none_iff_exists'.1 hbuf
            exact (hopen.waiting d hd).2.2
          · exact hpos
        have hclosing := h.closing
        refine ⟨_, clientFreeSocks_of_pending 3 hc hs hp.1 hp.2, ⟨⟨⟨by simp, hcore.recv,
          hcore.inHand, hcore.up, hcore.down, hcore.notUp⟩, by simp [hc, hfreed], hclosing,
          fun _ => ⟨hopen.err, by simp [hp.1], hopen.sentCallback, fun _ => ⟨hp.1, hpending⟩,
            by simp, hopen.waiting, hopen.down, hopen.acked, hopen.window⟩, h.dead, ?_⟩,
          by simp [hc], fun he _ => hsent he⟩⟩
        intro hph hx
        exact ⟨rfl, (h.drained hph hx).2⟩
      · refine ⟨_, clientFreeSocks_of_drained 0 hc hs hp, hcore.withoutPcb hfreed
          (tcpClose_removeCallbacks a _) (fun he _ => hsent he) ?_⟩
        intro _ _
        obtain ⟨hbuf, hpend⟩ : c.recvBuf = none ∧ c.tcpPending = 0 := by
          cases hup : c.socksUp with
          | false =>
              obtain ⟨-, hbuf, hpend, -⟩ := h.core.notUp hup
              exact ⟨hbuf, hpend⟩
          | true =>
              have hnot : ¬ (c.recvBuf ≠ none ∨ 0 < c.tcpPending) := fun hx => hp ⟨hup, hx⟩
              rw [not_or, not_not] at hnot
              exact ⟨hnot.1, by omega⟩
        have hdown := hopen.down
        have hacked := hopen.acked
        rw [unqueued_eq_nil hbuf, List.nil_append] at hdown
        exact ⟨rfl, hdown, by dsimp only; omega⟩

theorem clientSocksHandlerError_inv (h : Inv f p e c) (hs : c.socksClosed = false) :
    ∃ c', c.clientSocksHandlerError a = some c' ∧ Inv f p true c' := by
  obtain ⟨c', hc', hinv⟩ := clientFreeSocks_inv (e := true) h.toKept hs (by simp)
  exact ⟨c', by rw [clientSocksHandlerError, assert_of hs]; exact hc', hinv⟩

theorem clientSocksHandlerClosed_inv (h : Inv f p e c) (hs : c.socksClosed = false)
    (hup : c.socksUp = true) :
    ∃ c', c.clientSocksHandlerClosed a = some c' ∧ Inv f p true c' := by
  obtain ⟨c', hc', hinv⟩ := clientFreeSocks_inv (e := true) h.toKept hs (by simp)
  exact ⟨c', by rw [clientSocksHandlerClosed, assert_of hs, assert_of hup]; exact hc', hinv⟩

/-! ### From the phone to the SOCKS side -/

theorem unsent_of_idle (h : c.sendIf = .idle) : c.unsent = c.buf := by
  simp [unsent, h]

theorem unsent_append (data : List UInt8) (h : ∀ len, c.sendIf = .done len → len ≤ c.buf.length) :
    Client.unsent { c with buf := c.buf ++ data } = c.unsent ++ data := by
  unfold unsent
  cases hi : c.sendIf with
  | done len => simp [List.drop_append_of_le_length (h len hi)]
  | idle => rfl
  | busy len => rfl

theorem Open.socksClosed_eq_false (h : c.Open) (hcb : c.recvCallback = true) :
    c.socksClosed = false := by
  have hcb' := h.recvCallback
  rw [hcb] at hcb'
  cases hs : c.socksClosed with
  | false => rfl
  | true =>
      rw [hs, (h.half hs).1] at hcb'
      exact absurd hcb' (by simp)

theorem SendOk.done_le {len : ℕ} (h : c.SendOk) (hi : c.sendIf = .done len) :
    len ≤ c.buf.length := by
  rw [SendOk, hi] at h
  exact h.2.2

theorem SendOk.idle (h : c.SendOk) (hempty : c.buf = []) : c.sendIf = .idle := by
  cases hi : c.sendIf with
  | idle => rfl
  | busy len =>
      rw [SendOk, hi, hempty] at h
      exact absurd h.2 (by simp; omega)
  | done len =>
      rw [SendOk, hi, hempty] at h
      exact absurd h.2 (by simp; omega)

theorem SendOk.append {data : List UInt8} (h : c.SendOk)
    (hstart : ¬ ((c.buf ++ data).length = data.length ∧ c.socksUp = true)) :
    SendOk { c with buf := c.buf ++ data } := by
  rw [List.length_append] at hstart
  unfold SendOk at h ⊢
  cases hi : c.sendIf with
  | idle =>
      rw [hi] at h
      intro hup
      exact absurd ⟨by rw [h hup, List.length_nil, Nat.zero_add], hup⟩ hstart
  | busy len | done len =>
      rw [hi] at h
      exact ⟨h.1, h.2.1, by rw [List.length_append]; omega⟩

theorem buffered_inv {data : List UInt8} {i : SendIf} (h : Inv f p e c)
    (hc : c.clientClosed = false) (hs : c.socksClosed = false) (hle : data.length ≤ c.rcvWnd)
    (hi : SendOk { c with buf := c.buf ++ data, sendIf := i })
    (hun : Client.unsent { c with buf := c.buf ++ data, sendIf := i } =
      Client.unsent { c with buf := c.buf ++ data })
    (hidle : c.socksUp = false → i = .idle) :
    Inv f p e { c with
      rcvWnd := c.rcvWnd - data.length
      buf := c.buf ++ data
      fromClient := c.fromClient ++ data
      sendIf := i } := by
  have hopen := h.isOpen hc
  have hcore := h.core
  have hwin := hopen.window
  have hup : c.toSocks ++ Client.unsent { c with buf := c.buf ++ data } = c.fromClient ++ data := by
    rw [unsent_append data fun _ => (hcore.send hs).done_le, ← List.append_assoc, hcore.up]
  refine ⟨⟨⟨fun _ => hi, hcore.recv, hcore.inHand, ?_, hcore.down, ?_⟩, h.freed, h.closing,
    fun _ => ⟨hopen.err, hopen.recvCallback, hopen.sentCallback, hopen.half, hopen.reading,
      hopen.waiting, hopen.down, hopen.acked, ?_⟩, h.dead, h.drained⟩, by simp [hc], by simp [hs]⟩
  · exact (congrArg (c.toSocks ++ ·) hun).trans hup
  · intro hnot
    exact ⟨hidle hnot, (hcore.notUp hnot).2⟩
  · rw [List.length_append]
    dsimp only
    omega

/-- `client_recv_func` takes what lwIP passes on: it is never refused, and the callback
synchronises if it has started sending. -/
theorem clientRecvFunc_inv {data : List UInt8} (h : Inv f p e c) (hc : c.clientClosed = false)
    (hcb : c.recvCallback = true) (hpos : 0 < data.length) (hle : data.length ≤ c.rcvWnd) :
    ∃ c' r, Client.clientRecvFunc data { c with rcvWnd := c.rcvWnd - data.length } = some (c', r) ∧
      Inv f p e c' ∧ c'.clientClosed = false ∧ (r = none ∨ r = some .ok) := by
  have hs := (h.isOpen hc).socksClosed_eq_false hcb
  have hsend := h.core.send hs
  have hwin := (h.isOpen hc).window
  have hfits : ¬ Lwip.tcpWnd - c.buf.length < data.length := by omega
  by_cases hstart : (c.buf ++ data).length = data.length ∧ c.socksUp = true
  · -- the buffer was empty, so the interface is idle and sending starts
    have hlen : 0 < (c.buf ++ data).length := by rw [List.length_append]; omega
    have hidle := hsend.idle (List.length_eq_zero_iff.1 (by
      have hlength := hstart.1
      rw [List.length_append] at hlength
      omega))
    refine ⟨_, none, ?_, buffered_inv (i := .busy (c.buf ++ data).length) h hc hs hle
      ⟨hstart.2, hlen, le_rfl⟩ ?_ (by simp [hstart.2]), hc, .inl rfl⟩
    · simp only [clientRecvFunc, clientSendToSocks, senderSend, assert_of hc, assert_of hpos,
        if_neg hfits, if_pos hstart, assert_of hs, assert_of hstart.2, assert_of hlen,
        assert_of hidle, Option.bind_eq_bind, Option.bind_some]
    · rw [unsent_of_idle (c := { c with buf := c.buf ++ data }) hidle]
      rfl
  · refine ⟨_, some .ok, ?_, buffered_inv (i := c.sendIf) h hc hs hle (hsend.append hstart) rfl
      fun hnot => (h.core.notUp hnot).1, hc, .inr rfl⟩
    simp only [clientRecvFunc, assert_of hc, assert_of hpos, if_neg hfits, if_neg hstart,
      Option.bind_eq_bind, Option.bind_some]

theorem written_inv {len l : ℕ} (h : Inv f p e c) (hs : c.socksClosed = false)
    (hbusy : c.sendIf = .busy l) (hpos : 0 < len) (hle : len ≤ l) :
    Inv f p e { c with sendIf := .done len, toSocks := c.toSocks ++ c.buf.take len } := by
  have hcore := h.core
  have hsend := hcore.send hs
  have hup := hcore.up
  rw [SendOk, hbusy] at hsend
  refine ⟨⟨⟨fun _ => ⟨hsend.1, hpos, hle.trans hsend.2.2⟩, hcore.recv, hcore.inHand, ?_,
    hcore.down, ?_⟩, h.freed, h.closing, fun hc => ?_, h.dead, h.drained⟩, h.half, ?_⟩
  · rw [unsent, hbusy] at hup
    change c.toSocks ++ c.buf.take len ++ c.buf.drop len = c.fromClient
    rw [List.append_assoc, List.take_append_drop]
    exact hup
  · intro hnot
    rw [hsend.1] at hnot
    exact absurd hnot (by simp)
  · have hopen := h.isOpen hc
    exact ⟨hopen.err, hopen.recvCallback, hopen.sentCallback, hopen.half, hopen.reading,
      hopen.waiting, hopen.down, hopen.acked, hopen.window⟩
  · intro _ hs'
    rw [hs] at hs'
    exact absurd hs' (by simp)

theorem dropped_kept {len w : ℕ} {i : SendIf} (h : Inv f p e c) (hs : c.socksClosed = false)
    (hdone : c.sendIf = .done len) (hw : c.clientClosed = false → w = c.rcvWnd + len)
    (hi : SendOk { c with buf := c.buf.drop len, sendIf := i })
    (hun : Client.unsent { c with buf := c.buf.drop len, sendIf := i } = c.buf.drop len) :
    Kept f p { c with rcvWnd := w, buf := c.buf.drop len, sendIf := i } := by
  have hcore := h.core
  have hsend := hcore.send hs
  have hup := hcore.up
  rw [SendOk, hdone] at hsend
  rw [unsent, hdone] at hup
  refine ⟨⟨fun _ => hi, hcore.recv, hcore.inHand, (congrArg (c.toSocks ++ ·) hun).trans hup,
    hcore.down, by simp [hsend.1]⟩, h.freed, h.closing, fun hc => ?_, h.dead, h.drained⟩
  have hopen := h.isOpen hc
  have hwin := hopen.window
  refine ⟨hopen.err, hopen.recvCallback, hopen.sentCallback, hopen.half, hopen.reading,
    hopen.waiting, hopen.down, hopen.acked, ?_⟩
  dsimp only
  rw [hw hc, List.length_drop]
  omega

/-- The window is given back to lwIP, which never gets more than it had. -/
theorem confirmSent_dropped {len : ℕ} (h : Inv f p e c) (hle : len ≤ c.buf.length) :
    ∃ w, (c.clientClosed = false → w = c.rcvWnd + len) ∧
      confirmSent len { c with sendIf := .idle, buf := c.buf.drop len } =
        some { c with rcvWnd := w, buf := c.buf.drop len, sendIf := .idle } := by
  have hconst : Lwip.tcpWnd = 5840 := rfl
  cases hc : c.clientClosed with
  | true => exact ⟨c.rcvWnd, by simp, by simp [confirmSent]⟩
  | false =>
      have hwin := (h.isOpen hc).window
      have hroom : len ≤ 0xffff - c.rcvWnd := by omega
      have hmin : min (c.rcvWnd + len) Lwip.tcpWnd = c.rcvWnd + len := by omega
      exact ⟨c.rcvWnd + len, fun _ => rfl, by
        simp [confirmSent, tcpRecved, assert_of hroom, hmin]⟩

/-- `client_socks_send_handler_done` takes the written bytes out of the buffer and gives the
window back; the next bytes are sent, or a client without a pcb is done. -/
theorem clientSocksSendHandlerDone_inv {len : ℕ} (h : Inv f p e c) (hs : c.socksClosed = false)
    (hdone : c.sendIf = .done len) :
    ∃ c', c.clientSocksSendHandlerDone a len = some c' ∧ Inv f p e c' := by
  have hsend := h.core.send hs
  rw [SendOk, hdone] at hsend
  obtain ⟨hsup, hpos, hle⟩ := hsend
  have hlen : 0 < c.buf.length := by omega
  obtain ⟨w, hw, hrecved⟩ := confirmSent_dropped h hle
  have hstart : c.clientSocksSendHandlerDone a len =
      if 0 < (c.buf.drop len).length then
        senderSend { c with rcvWnd := w, buf := c.buf.drop len, sendIf := .idle }
      else if c.clientClosed = true then
        clientFreeSocks depth a { c with rcvWnd := w, buf := c.buf.drop len, sendIf := .idle }
      else some { c with rcvWnd := w, buf := c.buf.drop len, sendIf := .idle } := by
    simp only [clientSocksSendHandlerDone, assert_of hs, assert_of hsup, assert_of hlen,
      assert_of hpos, assert_of hle, hrecved, Option.bind_eq_bind, Option.bind_some]
  rw [hstart]
  by_cases hrest : 0 < (c.buf.drop len).length
  · have hne : c.buf.drop len ≠ [] := List.ne_nil_of_length_pos hrest
    have hkeep := dropped_kept (i := .busy (c.buf.drop len).length) h hs hdone hw
      ⟨hsup, hrest, le_rfl⟩ rfl
    refine ⟨_, ?_, ⟨hkeep, fun _ _ => hne, by simp [hs]⟩⟩
    simp only [if_pos hrest, senderSend, assert_of hrest, assert_of, Option.bind_eq_bind,
      Option.bind_some]
  · have hnil : c.buf.drop len = [] := List.length_eq_zero_iff.1 (by omega)
    have hkeep := dropped_kept (i := .idle) h hs hdone hw (fun _ => hnil) rfl
    rw [if_neg hrest]
    by_cases hc : c.clientClosed = true
    · rw [if_pos hc]
      exact clientFreeSocks_inv hkeep hs fun _ => unsent_eq_nil hnil
    · rw [if_neg hc]
      exact ⟨_, rfl, ⟨hkeep, fun hc' => absurd hc' hc, by simp [hs]⟩⟩

/-! ### The SOCKS connection is up -/

def withSocksUp (c : Client) : Client :=
  { c with
    recvBuf := none
    tcpPending := 0
    sentCallback := if c.clientClosed then c.sentCallback else true
    socksUp := true }

def Sends (c : Client) (i : SendIf) : Prop :=
  i = .idle ∧ c.buf = [] ∨ i = .busy c.buf.length ∧ 0 < c.buf.length

def Reads (c : Client) (r : RecvIf) : Prop := r = .busy ∨ r = .idle ∧ c.clientClosed = true

theorem Open.withSocksUp {i : SendIf} {r : RecvIf} (h : c.Open) (hcore : c.Core)
    (hc : c.clientClosed = false) (hs : c.socksClosed = false) (hup : c.socksUp = false)
    (hr : c.Reads r) : Open { c.withSocksUp with sendIf := i, recvIf := r } := by
  obtain ⟨-, hbuf, hpend, hto, hack, hfrom⟩ := hcore.notUp hup
  have hcb := h.recvCallback
  refine ⟨h.err, ?_, by simp [Client.withSocksUp, hc], by simp [Client.withSocksUp, hs],
    fun _ _ _ => ?_, by simp [Client.withSocksUp], ?_, ?_, h.window⟩
  · rw [hup] at hcb
    simpa [Client.withSocksUp, hs] using hcb
  · obtain rfl | ⟨-, hc'⟩ := hr
    · simp
    · exact absurd hc' (by simp [hc])
  · have hin : Client.inHand { c.withSocksUp with sendIf := i, recvIf := r } = [] := by
      obtain rfl | ⟨rfl, -⟩ := hr <;> rfl
    change c.toClient ++ ([].drop c.recvBufSent ++ _) = c.fromSocks
    rw [hin, hto, hfrom]
    simp
  · simp [Client.withSocksUp, hto, hack]

theorem withSocksUp_inv {i : SendIf} {r : RecvIf} (h : Inv f p e c) (hs : c.socksClosed = false)
    (hup : c.socksUp = false) (hi : c.Sends i) (hr : c.Reads r) :
    Inv f p e { c.withSocksUp with sendIf := i, recvIf := r } := by
  have hcore := h.core
  have hun := hcore.up
  rw [unsent_of_idle (hcore.notUp hup).1] at hun
  have hin : Client.inHand { c.withSocksUp with sendIf := i, recvIf := r } = [] := by
    obtain rfl | ⟨rfl, -⟩ := hr <;> rfl
  have hunsent : Client.unsent { c.withSocksUp with sendIf := i, recvIf := r } = c.buf := by
    obtain ⟨rfl, -⟩ | ⟨rfl, -⟩ := hi <;> rfl
  refine ⟨⟨⟨fun _ => ?_, fun _ => ⟨rfl, rfl⟩, ⟨?_, ?_⟩, ?_, hcore.down, by simp [withSocksUp]⟩,
    h.freed, h.closing, fun hc => (h.isOpen hc).withSocksUp hcore hc hs hup hr, h.dead, ?_⟩,
    h.half, by simp [withSocksUp, hs]⟩
  · obtain ⟨rfl, hnil⟩ | ⟨rfl, hpos⟩ := hi
    · exact fun _ => hnil
    · exact ⟨rfl, hpos, le_rfl⟩
  · exact (congrArg List.length hin).trans_le (Nat.zero_le _)
  · intro d hd
    obtain rfl | ⟨rfl, -⟩ := hr <;> cases hd
  · exact (congrArg (c.toSocks ++ ·) hunsent).trans hun
  · intro hp hx
    exact absurd (h.drained hp hx).1 (by simp [hs])

theorem startSending_withSocksUp (hs : c.socksClosed = false) (hsi : c.sendIf = .idle) :
    ∃ i, c.Sends i ∧ c.withSocksUp.startSending = some { c.withSocksUp with sendIf := i } := by
  by_cases hnil : c.buf = []
  · exact ⟨.idle, .inl ⟨rfl, hnil⟩, by simp [startSending, withSocksUp, hnil, hsi]⟩
  · have hpos : 0 < c.buf.length := List.length_pos_iff.2 hnil
    refine ⟨.busy c.buf.length, .inr ⟨rfl, hpos⟩, ?_⟩
    simp [startSending, clientSendToSocks, senderSend, withSocksUp, hnil, hs, hsi, assert_of, hpos]

theorem clientSocksHandlerUp_inv (h : Inv f p e c) (hs : c.socksClosed = false)
    (hup : c.socksUp = false) : ∃ c', c.clientSocksHandlerUp = some c' ∧ Inv f p e c' := by
  have hri : c.recvIf = .idle := by
    by_contra hne
    have hsup := (h.core.recv hne).2
    rw [hup] at hsup
    exact absurd hsup (by simp)
  obtain ⟨i, hi, hstart⟩ := startSending_withSocksUp hs (h.core.notUp hup).1
  have hrun : c.clientSocksHandlerUp =
      if c.clientClosed = false then clientSocksRecvInitiate { c.withSocksUp with sendIf := i }
      else some { c.withSocksUp with sendIf := i } := by
    rw [clientSocksHandlerUp, assert_of hs, assert_of hup]
    exact congrArg (Option.bind · _) hstart
  rw [hrun]
  by_cases hc : c.clientClosed = false
  · refine ⟨_, ?_, withSocksUp_inv (r := .busy) h hs hup hi (.inl rfl)⟩
    rw [if_pos hc]
    simp [clientSocksRecvInitiate, withSocksUp, hc, hs, hri, assert_of]
  · rw [if_neg hc]
    exact ⟨_, rfl, withSocksUp_inv (r := c.recvIf) h hs hup hi (.inr ⟨hri, by simpa using hc⟩)⟩

end Client

end Relay

end Matador
