import Mathlib.Data.List.Basic
import Mathlib.Data.List.Infix
import Mathlib.Data.List.TakeDrop
import Mathlib.Tactic.Common
import Matador.Relay.Machine

/-!
# What holds of a client in every run

The invariant has a part that does not depend on the phone's side, a part about a client whose
pcb is up, and the rules about closing: a client is freed exactly when both sides are closed, a
client without a pcb still has bytes for the SOCKS side, and one without a SOCKS connection
still has bytes on their way to the phone. The functions that close a side are described by
what they return; every handler is then shown not to fail and to keep the invariant.
-/

namespace Matador

namespace Relay

open Check

namespace Client

def unsent (c : Client) : List UInt8 :=
  match c.sendIf with
  | .done len => c.buf.drop len
  | _ => c.buf

def inHand (c : Client) : List UInt8 :=
  match c.recvIf with
  | .done data => data
  | _ => []

def unqueued (c : Client) : List UInt8 := (c.recvBuf.getD []).drop c.recvBufSent

/-- The operation of the send interface fits the buffer, and there is one whenever there is
something to send. -/
def SendOk (c : Client) : Prop :=
  match c.sendIf with
  | .idle => c.socksUp = true → c.buf = []
  | .busy len | .done len => c.socksUp = true ∧ 0 < len ∧ len ≤ c.buf.length

/-- The part that does not depend on the phone's side. -/
structure Core (c : Client) : Prop where
  send : c.socksClosed = false → c.SendOk
  recv : c.recvIf ≠ .idle → c.recvBuf = none ∧ c.socksUp = true
  inHand : c.inHand.length ≤ clientSocksRecvBufSize ∧ ∀ d, c.recvIf = .done d → 0 < d.length
  up : c.toSocks ++ c.unsent = c.fromClient
  down : c.toClient <+: c.fromSocks
  notUp : c.socksUp = false →
    c.sendIf = .idle ∧ c.recvBuf = none ∧ c.tcpPending = 0 ∧ c.toClient = [] ∧ c.acked = 0 ∧
      c.fromSocks = []

/-- The part about a client whose pcb is up. -/
structure Open (c : Client) : Prop where
  err : c.errCallback = true
  recvCallback : c.recvCallback = !(c.socksUp && c.socksClosed)
  sentCallback : c.sentCallback = c.socksUp
  half : c.socksClosed = true → c.socksUp = true ∧ 0 < c.tcpPending
  reading : c.socksClosed = false → c.socksUp = true → c.recvBuf = none → c.recvIf ≠ .idle
  waiting : ∀ d, c.recvBuf = some d →
    c.recvWaiting = true ∧ c.recvBufSent < d.length ∧ 0 < c.tcpPending
  down : c.toClient ++ (c.unqueued ++ c.inHand) = c.fromSocks
  acked : c.acked + c.tcpPending = c.toClient.length
  window : c.rcvWnd + c.buf.length = Lwip.tcpWnd

/-- The SOCKS side is closed, and everything from it has reached the phone, but for what was in
hand when the SOCKS connection failed. -/
def Drained (c : Client) : Prop :=
  c.socksClosed = true ∧ c.toClient ++ c.inHand = c.fromSocks ∧ c.acked = c.toClient.length

/-- The part of the invariant that also holds while a handler closes the SOCKS side; the
arguments say whether a callback is synchronising and whether the phone's end was reported. -/
structure Kept (framed phoneEnded : Bool) (c : Client) : Prop where
  core : c.Core
  freed : c.freed = (c.clientClosed && c.socksClosed)
  closing : c.clientClosed = c.closing.isSome
  isOpen : c.clientClosed = false → c.Open
  dead : framed = true → c.deadClient = c.clientClosed
  drained : phoneEnded = false → c.closing = some .fin ∨ c.closing = some .rst → c.Drained

/-- The invariant of a client; the last argument says whether an end of the SOCKS connection
was reported. -/
structure Inv (framed phoneEnded socksEnded : Bool) (c : Client) : Prop
    extends Kept framed phoneEnded c where
  half : c.clientClosed = true → c.socksClosed = false → c.buf ≠ []
  sent : socksEnded = false → c.socksClosed = true → c.unsent = []

variable {c : Client} {a : Answers} {f p e : Bool}

theorem unsent_eq_nil (h : c.buf = []) : c.unsent = [] := by
  unfold unsent
  split <;> simp [h]

theorem inv_accepted : Inv true false false accepted where
  core := ⟨fun _ => by simp [SendOk, accepted], by simp [accepted], ⟨Nat.zero_le _, by
    simp [accepted]⟩, rfl, List.prefix_rfl, by simp [accepted]⟩
  freed := rfl
  closing := rfl
  isOpen := fun _ => ⟨rfl, rfl, rfl, by simp [accepted], by simp [accepted], by simp [accepted],
    rfl, rfl, rfl⟩
  half := by simp [accepted]
  dead := fun _ => rfl
  sent := by simp [accepted]
  drained := by simp [accepted]

/-! ### Closing a side -/

/-- The client once its pcb is given up: the SOCKS side goes on as long as there are bytes for
it. -/
def withoutPcb (c : Client) : Client :=
  { c with
    deadClient := true
    clientClosed := true
    socksClosed := c.socksClosed || c.buf.isEmpty
    freed := c.freed || (c.socksClosed || c.buf.isEmpty) }

theorem clientHandleFreedClient_eq (k : ℕ) (h : c.clientClosed = false) :
    clientHandleFreedClient (k + 2) a c = some c.withoutPcb := by
  cases hs : c.socksClosed <;> cases hb : c.buf <;>
    simp [clientHandleFreedClient, clientFreeSocks, clientDealloc, withoutPcb, h, hs, hb,
      assert_of]

theorem clientFreeClient_eq (k : ℕ) (h : c.clientClosed = false) :
    clientFreeClient (k + 3) a c = some (c.removeCallbacks.tcpClose a).withoutPcb := by
  rw [clientFreeClient, assert_of h, Option.bind_eq_bind, Option.bind_some,
    clientHandleFreedClient_eq (c := c.removeCallbacks.tcpClose a) k h]

theorem clientFreeSocks_of_closed (k : ℕ) (h : c.clientClosed = true) (hs : c.socksClosed = false) :
    clientFreeSocks (k + 1) a c = some { c with socksClosed := true, freed := true } := by
  simp [clientFreeSocks, clientDealloc, h, hs, assert_of]

theorem clientFreeSocks_of_pending (k : ℕ) (h : c.clientClosed = false)
    (hs : c.socksClosed = false) (hup : c.socksUp = true)
    (hp : c.recvBuf ≠ none ∨ 0 < c.tcpPending) :
    clientFreeSocks (k + 1) a c = some { c with recvCallback := false, socksClosed := true } := by
  simp [clientFreeSocks, h, hs, hup, hp, assert_of]

theorem clientFreeSocks_of_drained (k : ℕ) (h : c.clientClosed = false)
    (hs : c.socksClosed = false)
    (hp : ¬ (c.socksUp = true ∧ (c.recvBuf ≠ none ∨ 0 < c.tcpPending))) :
    clientFreeSocks (k + 4) a c =
      some (({ c with socksClosed := true }.removeCallbacks).tcpClose a).withoutPcb := by
  let d : Client := { c with
    recvCallback := if c.socksUp ∧ c.clientClosed = false then false else c.recvCallback
    socksClosed := true }
  have hcond : ¬ (d.socksUp = true ∧ (d.recvBuf ≠ none ∨ 0 < d.tcpPending) ∧
      d.clientClosed = false) := fun hc => hp ⟨hc.1, hc.2.1⟩
  rw [clientFreeSocks, assert_of hs, Option.bind_eq_bind, Option.bind_some, if_neg hcond,
    if_pos h, clientFreeClient_eq (c := d) k h]
  rfl

theorem Core.withoutPcb {d : Client} (h : c.Core) (hfreed : c.freed = false)
    (hd : ∃ x r s e, d = { c with
      closing := some x, recvCallback := r, sentCallback := s, errCallback := e })
    (hsent : e = false → c.socksClosed = true → c.unsent = [])
    (hdrained : p = false → d.closing = some .fin ∨ d.closing = some .rst → c.Drained) :
    Inv f p e d.withoutPcb := by
  obtain ⟨x, r, s, e', rfl⟩ := hd
  refine ⟨⟨⟨?_, h.recv, h.inHand, h.up, h.down, h.notUp⟩, ?_, rfl, by simp [Client.withoutPcb],
    fun _ => rfl, ?_⟩, ?_, ?_⟩
  · intro hs
    simp only [Client.withoutPcb, Bool.or_eq_false_iff] at hs
    exact h.send hs.1
  · simp [Client.withoutPcb, hfreed]
  · intro hp hx
    obtain ⟨hs, hdown⟩ := hdrained hp hx
    exact ⟨by simp [Client.withoutPcb, hs], hdown⟩
  · intro _ hs
    simp only [Client.withoutPcb, Bool.or_eq_false_iff, List.isEmpty_eq_false_iff] at hs
    exact hs.2
  · intro he hs
    simp only [Client.withoutPcb, Bool.or_eq_true, List.isEmpty_iff] at hs
    obtain hs | hs := hs
    · exact hsent he hs
    · exact unsent_eq_nil (c := c) hs

end Client

end Relay

end Matador
