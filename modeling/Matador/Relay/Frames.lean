import Mathlib.Data.List.Basic
import Mathlib.Tactic.Common
import Matador.Relay.Runs

/-!
# What the handlers leave alone

Only `client_recv_func` adds to the bytes taken from the phone and only
`client_socks_send_handler_done` removes bytes from the buffer. Every other function keeps both,
whatever it closes, and none of them opens a side again.
-/

namespace Matador

namespace Relay

open Check

namespace Client

/-- The phone's bytes are the same, and a side that is down stays down. -/
structure Keeps (c c' : Client) : Prop where
  buf : c'.buf = c.buf
  fromClient : c'.fromClient = c.fromClient
  socks : c.socksClosed = true → c'.socksClosed = true
  pcb : c.clientClosed = true → c'.clientClosed = true

variable {c c' c'' : Client} {a : Answers}

theorem Keeps.refl (c : Client) : c.Keeps c := ⟨rfl, rfl, id, id⟩

theorem Keeps.trans (h : c.Keeps c') (h' : c'.Keeps c'') : c.Keeps c'' :=
  ⟨h'.buf.trans h.buf, h'.fromClient.trans h.fromClient, h'.socks ∘ h.socks, h'.pcb ∘ h.pcb⟩

theorem clientDealloc_keeps (h : c.clientDealloc = some c') : c.Keeps c' := by
  simp only [clientDealloc, Option.bind_eq_bind, assert_bind_eq_some] at h
  obtain ⟨-, -, h⟩ := h
  cases h
  exact ⟨rfl, rfl, id, id⟩

/-- The three functions that call each other, by induction on the depth of the calls. -/
theorem closing_keeps (k : ℕ) :
    (∀ c c', clientHandleFreedClient k a c = some c' → c.Keeps c') ∧
      (∀ c c', clientFreeClient k a c = some c' → c.Keeps c') ∧
      ∀ c c', clientFreeSocks k a c = some c' → c.Keeps c' := by
  induction k with
  | zero => exact ⟨by simp [clientHandleFreedClient], by simp [clientFreeClient],
      by simp [clientFreeSocks]⟩
  | succ k ih =>
      obtain ⟨ihHandle, ihClient, ihSocks⟩ := ih
      refine ⟨fun c c' h => ?_, fun c c' h => ?_, fun c c' h => ?_⟩
      · simp only [clientHandleFreedClient, Option.bind_eq_bind, assert_bind_eq_some] at h
        obtain ⟨-, h⟩ := h
        have hstart : c.Keeps { c with deadClient := true, clientClosed := true } :=
          ⟨rfl, rfl, id, fun _ => rfl⟩
        split_ifs at h with hbuf hs
        · cases h
          exact hstart
        · exact hstart.trans (ihSocks _ _ h)
        · exact hstart.trans (clientDealloc_keeps h)
      · simp only [clientFreeClient, Option.bind_eq_bind, assert_bind_eq_some] at h
        have hstart : c.Keeps (c.removeCallbacks.tcpClose a) := ⟨rfl, rfl, id, id⟩
        exact hstart.trans (ihHandle _ _ h.2)
      · simp only [clientFreeSocks, Option.bind_eq_bind, assert_bind_eq_some] at h
        obtain ⟨-, h⟩ := h
        generalize (if c.socksUp ∧ c.clientClosed = false then false else c.recvCallback) = r at h
        have hstart : c.Keeps { c with recvCallback := r, socksClosed := true } :=
          ⟨rfl, rfl, fun _ => rfl, id⟩
        split_ifs at h with hpend hc
        · cases h
          exact hstart
        · exact hstart.trans (ihClient _ _ h)
        · exact hstart.trans (clientDealloc_keeps h)

theorem clientAbortClient_keeps (h : clientAbortClient a c = some c') : c.Keeps c' := by
  simp only [clientAbortClient, Option.bind_eq_bind, assert_bind_eq_some] at h
  have hstart : c.Keeps { c.removeCallbacks with closing := some .abort } := ⟨rfl, rfl, id, id⟩
  exact hstart.trans ((closing_keeps depth).1 _ _ h.2)

theorem clientErrFunc_keeps (h : clientErrFunc a c = some c') : c.Keeps c' := by
  simp only [clientErrFunc, Option.bind_eq_bind, assert_bind_eq_some] at h
  have hstart : c.Keeps { c with closing := some .gone } := ⟨rfl, rfl, id, id⟩
  exact hstart.trans ((closing_keeps depth).1 _ _ h.2)

theorem clientRecvFuncFin_keeps (h : clientRecvFuncFin a c = some c') : c.Keeps c' := by
  simp only [clientRecvFuncFin, Option.bind_eq_bind, assert_bind_eq_some] at h
  exact (closing_keeps depth).2.1 _ _ h.2

theorem clientMurder_keeps (h : clientMurder c = some c') : c.Keeps c' := by
  have hend := clientDealloc_keeps h
  by_cases hc : c.clientClosed = false
  · rw [if_pos hc] at hend
    exact ⟨hend.buf, hend.fromClient, fun _ => hend.socks rfl, fun _ => hend.pcb rfl⟩
  · rw [if_neg hc] at hend
    exact ⟨hend.buf, hend.fromClient, fun _ => hend.socks rfl, hend.pcb⟩

theorem senderSend_keeps (h : senderSend c = some c') : c.Keeps c' := by
  simp only [senderSend, Option.bind_eq_bind, assert_bind_eq_some] at h
  obtain ⟨-, -, h⟩ := h
  cases h
  exact ⟨rfl, rfl, id, id⟩

theorem clientSendToSocks_keeps (h : clientSendToSocks c = some c') : c.Keeps c' := by
  simp only [clientSendToSocks, Option.bind_eq_bind, assert_bind_eq_some] at h
  exact senderSend_keeps h.2.2.2

theorem clientSocksRecvInitiate_keeps (h : clientSocksRecvInitiate c = some c') :
    c.Keeps c' := by
  simp only [clientSocksRecvInitiate, Option.bind_eq_bind, assert_bind_eq_some] at h
  obtain ⟨-, -, -, -, -, h⟩ := h
  cases h
  exact ⟨rfl, rfl, id, id⟩

theorem startSending_keeps (h : startSending c = some c') : c.Keeps c' := by
  unfold startSending at h
  split_ifs at h with hbuf
  · exact clientSendToSocks_keeps h
  · cases h
    exact Keeps.refl _

theorem clientSocksHandlerUp_keeps (h : clientSocksHandlerUp c = some c') : c.Keeps c' := by
  simp only [clientSocksHandlerUp, Option.bind_eq_bind, assert_bind_eq_some] at h
  obtain ⟨-, -, h⟩ := h
  obtain ⟨d, hd, h⟩ := Option.bind_eq_some_iff.1 h
  have hstart : c.Keeps { c with
      recvBuf := none
      tcpPending := 0
      sentCallback := if c.clientClosed then c.sentCallback else true
      socksUp := true } := ⟨rfl, rfl, id, id⟩
  have hsend := hstart.trans (startSending_keeps hd)
  split_ifs at h with hc
  · exact hsend.trans (clientSocksRecvInitiate_keeps h)
  · cases h
    exact hsend

theorem clientSocksHandlerError_keeps (h : clientSocksHandlerError a c = some c') :
    c.Keeps c' := by
  simp only [clientSocksHandlerError, Option.bind_eq_bind, assert_bind_eq_some] at h
  exact (closing_keeps depth).2.2 _ _ h.2

theorem clientSocksHandlerClosed_keeps (h : clientSocksHandlerClosed a c = some c') :
    c.Keeps c' := by
  simp only [clientSocksHandlerClosed, Option.bind_eq_bind, assert_bind_eq_some] at h
  exact (closing_keeps depth).2.2 _ _ h.2.2

theorem sendOutLoop_keeps {data : List UInt8} {k : ℕ} {failed : Bool}
    (h : sendOutLoop a data k c = some (c', failed)) : c.Keeps c' := by
  induction k generalizing c with
  | zero => simp [sendOutLoop] at h
  | succ k ih =>
      unfold sendOutLoop at h
      dsimp only at h
      split_ifs at h with hzero hmore
      · cases h
        exact Keeps.refl _
      · split at h
        · cases h
          exact Keeps.refl _
        · cases h
          exact Keeps.refl _
        · have hnext := ih h
          exact ⟨hnext.buf, hnext.fromClient, hnext.socks, hnext.pcb⟩
      · split at h
        · cases h
          exact Keeps.refl _
        · cases h
          exact Keeps.refl _
        · cases h
          exact ⟨rfl, rfl, id, id⟩

theorem clientSocksRecvSendOut_keeps {up : Bool}
    (h : clientSocksRecvSendOut a c = some (c', up)) : c.Keeps c' := by
  simp only [clientSocksRecvSendOut, Option.bind_eq_bind, assert_bind_eq_some] at h
  obtain ⟨-, -, -, -, -, h⟩ := h
  obtain ⟨⟨d, failed⟩, hd, h⟩ := Option.bind_eq_some_iff.1 h
  have hloop := sendOutLoop_keeps hd
  -- the pcb is aborted in three of the five branches
  have habort : (clientAbortClient a d).bind (fun c => some (c, false)) = some (c', up) →
      c.Keeps c' := by
    intro habort
    obtain ⟨d', hd', heq⟩ := Option.bind_eq_some_iff.1 habort
    cases heq
    exact hloop.trans (clientAbortClient_keeps hd')
  dsimp only at h
  split_ifs at h with hfailed hout hmore hpend
  · exact habort h
  · exact habort h
  · exact habort h
  · cases h
    exact ⟨hloop.buf, hloop.fromClient, hloop.socks, hloop.pcb⟩
  · cases h
    exact ⟨hloop.buf, hloop.fromClient, hloop.socks, hloop.pcb⟩

theorem clientSocksRecvHandlerDone_keeps {data : List UInt8}
    (h : clientSocksRecvHandlerDone a data c = some c') : c.Keeps c' := by
  simp only [clientSocksRecvHandlerDone, Option.bind_eq_bind, assert_bind_eq_some] at h
  obtain ⟨-, -, -, -, -, h⟩ := h
  split_ifs at h with hc
  · cases h
    exact ⟨rfl, rfl, id, id⟩
  · obtain ⟨⟨d, up⟩, hd, h⟩ := Option.bind_eq_some_iff.1 h
    have hout := clientSocksRecvSendOut_keeps hd
    have hsend : c.Keeps d := ⟨hout.buf, hout.fromClient, hout.socks, hout.pcb⟩
    dsimp only at h
    split_ifs at h with hread
    · exact hsend.trans (clientSocksRecvInitiate_keeps h)
    · cases h
      exact hsend

theorem clientSentFunc_keeps {len : ℕ} {r : Option Err}
    (h : clientSentFunc a len c = some (c', r)) : c.Keeps c' := by
  simp only [clientSentFunc, Option.bind_eq_bind, assert_bind_eq_some] at h
  obtain ⟨-, -, -, -, h⟩ := h
  split_ifs at h with hbuf hlast
  · simp only [assert_bind_eq_some] at h
    obtain ⟨-, -, h⟩ := h
    obtain ⟨⟨d, up⟩, hd, h⟩ := Option.bind_eq_some_iff.1 h
    have hout := clientSocksRecvSendOut_keeps hd
    have hsend : c.Keeps d := ⟨hout.buf, hout.fromClient, hout.socks, hout.pcb⟩
    dsimp only at h
    split_ifs at h with hup hread
    · cases h
      exact hsend
    · obtain ⟨d', hd', h⟩ := Option.bind_eq_some_iff.1 (assert_bind_eq_some.1 h).2
      cases h
      exact hsend.trans (clientSocksRecvInitiate_keeps hd')
    · cases (assert_bind_eq_some.1 h).2
      exact hsend
  · obtain ⟨d, hd, h⟩ := Option.bind_eq_some_iff.1 h
    cases h
    have hfree := (closing_keeps depth).2.1 _ _ hd
    exact ⟨hfree.buf, hfree.fromClient, hfree.socks, hfree.pcb⟩
  · cases h
    exact ⟨rfl, rfl, id, id⟩

/-- `client_recv_func` adds the bytes it is given to the buffer. -/
theorem clientRecvFunc_took {data : List UInt8} {r : Option Err}
    (h : clientRecvFunc data c = some (c', r)) (hfits : data.length ≤ Lwip.tcpWnd - c.buf.length) :
    c'.buf = c.buf ++ data ∧ c'.fromClient = c.fromClient ++ data ∧
      c'.socksClosed = c.socksClosed := by
  simp only [clientRecvFunc, Option.bind_eq_bind, assert_bind_eq_some,
    if_neg (not_lt.2 hfits)] at h
  obtain ⟨-, -, h⟩ := h
  split_ifs at h with hstart
  · obtain ⟨-, h⟩ := assert_bind_eq_some.1 h
    obtain ⟨d, hd, h⟩ := Option.bind_eq_some_iff.1 h
    cases h
    simp only [clientSendToSocks, senderSend, Option.bind_eq_bind, assert_bind_eq_some] at hd
    obtain ⟨-, -, -, -, -, hd⟩ := hd
    cases hd
    exact ⟨rfl, rfl, rfl⟩
  · cases h
    exact ⟨rfl, rfl, rfl⟩

/-- While the pcb is up, `client_socks_send_handler_done` removes the bytes written. -/
theorem clientSocksSendHandlerDone_gave {len : ℕ} (hc : c.clientClosed = false)
    (h : clientSocksSendHandlerDone a len c = some c') :
    c'.buf = c.buf.drop len ∧ c'.fromClient = c.fromClient ∧ c'.socksClosed = c.socksClosed := by
  simp only [clientSocksSendHandlerDone, Option.bind_eq_bind, assert_bind_eq_some] at h
  obtain ⟨-, -, -, -, -, h⟩ := h
  obtain ⟨d, hd, h⟩ := Option.bind_eq_some_iff.1 h
  simp only [confirmSent, if_pos hc, tcpRecved, Option.bind_eq_bind, assert_bind_eq_some] at hd
  obtain ⟨-, hd⟩ := hd
  cases hd
  dsimp only at h
  split_ifs at h with hmore hclosed
  · simp only [senderSend, Option.bind_eq_bind, assert_bind_eq_some] at h
    obtain ⟨-, -, h⟩ := h
    cases h
    exact ⟨rfl, rfl, rfl⟩
  · exact absurd (hc.symm.trans hclosed) (by simp)
  · cases h
    exact ⟨rfl, rfl, rfl⟩

end Client

namespace State

variable {s s' : State} {a : Answers}

/-- A step that neither takes bytes from the phone nor removes any from the buffer. -/
theorem step_keeps {event : Event} (ho : Allowed (event, a) s)
    (hs : step (event, a) s = some s') (hrecv : ∀ data, event ≠ .recv data)
    (hsend : event ≠ .sendDone) : s.client.Keeps s'.client := by
  have hhandle : ∀ {c : Option Client} {t : State}, t.handle c = some s' → c = some s'.client := by
    intro c t h
    obtain ⟨c', hc', rfl⟩ := Option.map_eq_some_iff.1 h
    exact hc'
  have hcallback : ∀ {f : Frame} {r : Option (Client × Option Err)} {t : State} {c : Client},
      t.callback f r = some s' → (∀ c' r', r = some (c', r') → c.Keeps c') →
        c.Keeps s'.client := by
    intro f r t c h hkeep
    obtain ⟨⟨c', _ | _⟩, hc', rfl⟩ := Option.map_eq_some_iff.1 h
    · have hkept := hkeep _ _ hc'
      exact ⟨hkept.buf, hkept.fromClient, hkept.socks, hkept.pcb⟩
    · exact hkeep _ _ hc'
  cases event with
  | recv data => exact absurd rfl (hrecv data)
  | sendDone => exact absurd rfl hsend
  | fin =>
      refine hcallback hs fun c' r' heq => ?_
      obtain ⟨d, hd, heq⟩ := Option.map_eq_some_iff.1 heq
      cases heq
      exact Client.clientRecvFuncFin_keeps hd
  | err => exact Client.clientErrFunc_keeps (hhandle hs)
  | sent len =>
      refine hcallback hs fun c' r' heq => ?_
      have hkept := Client.clientSentFunc_keeps heq
      exact ⟨hkept.buf, hkept.fromClient, hkept.socks, hkept.pcb⟩
  | up => exact Client.clientSocksHandlerUp_keeps (hhandle hs)
  | error => exact Client.clientSocksHandlerError_keeps (hhandle hs)
  | closed => exact Client.clientSocksHandlerClosed_keeps (hhandle hs)
  | written len =>
      cases hs
      exact ⟨rfl, rfl, id, id⟩
  | read data =>
      cases hs
      exact ⟨rfl, rfl, id, id⟩
  | recvDone =>
      obtain ⟨-, d, hdone⟩ := ho
      rw [step, hdone] at hs
      exact Client.clientSocksRecvHandlerDone_keeps (hhandle hs)
  | commit =>
      cases hs
      exact Client.Keeps.refl _
  | murder => exact Client.clientMurder_keeps (hhandle hs)

theorem step_recv_took {data : List UInt8} (hs : step (.recv data, a) s = some s')
    (hfits : data.length ≤ Lwip.tcpWnd - s.client.buf.length) :
    s'.client.buf = s.client.buf ++ data ∧ s'.client.fromClient = s.client.fromClient ++ data ∧
      s'.client.socksClosed = s.client.socksClosed := by
  obtain ⟨⟨c', r⟩, hc', rfl⟩ := Option.map_eq_some_iff.1 hs
  have htook := Client.clientRecvFunc_took hc' hfits
  cases r with
  | none => exact htook
  | some e => exact htook

theorem step_sendDone_gave {len : ℕ} (hc : s.client.clientClosed = false)
    (hdone : s.client.sendIf = .done len) (hs : step (.sendDone, a) s = some s') :
    s'.client.buf = s.client.buf.drop len ∧ s'.client.fromClient = s.client.fromClient ∧
      s'.client.socksClosed = s.client.socksClosed := by
  rw [step, hdone] at hs
  obtain ⟨c', hc', rfl⟩ := Option.map_eq_some_iff.1 hs
  exact Client.clientSocksSendHandlerDone_gave hc hc'

end State

end Relay

end Matador
