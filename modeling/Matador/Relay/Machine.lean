import Mathlib.Data.List.Basic
import Mathlib.Tactic.Common
import Matador.Library.Transition
import Matador.Relay.Client

/-!
# The runs of a client

lwIP calls the callbacks registered at the pcb, one at a time. Three of the callbacks commit
what they have started: `SYNC_COMMIT` runs the jobs of the SOCKS side that were set since
`SYNC_FROMHERE` before the callback goes on, so a client can lose its pcb, or be freed, under
a callback that is still to return. What happens on the SOCKS side, inside such a frame or
outside, is: the handshake ends, bytes are written or read, the `job_done` of an interface
runs, the connection fails or is closed.

`Allowed` is what lwIP and the SOCKS client guarantee: a callback is called only while it is
registered and the pcb is not given up, never within a frame; lwIP passes on no more than the
window holds and reports no more as sent than was queued; nothing is reported by a SOCKS client
that has been freed, and its end of stream is found by a read.
-/

namespace Matador

namespace Relay

open Transition

/-- The callbacks that synchronise: `listener_accept_func`, `client_recv_func` with a pbuf, and
`client_sent_func`. -/
inductive Frame
  | accept
  | recv
  | sent
deriving DecidableEq

/-- A client, the callback that is synchronising, what the last step returned to lwIP, and
whether the end of the phone's stream and an end of the SOCKS connection have been reported. -/
structure State where
  client : Client
  frame : Option Frame
  returned : Option Err
  phoneEnded : Bool
  socksEnded : Bool
deriving DecidableEq

inductive Event
  -- callbacks of lwIP
  | recv (data : List UInt8)
  | fin
  | err
  | sent (len : ℕ)
  -- events of the SOCKS client
  | up
  | error
  | closed
  -- its two stream interfaces
  | written (len : ℕ)
  | sendDone
  | read (data : List UInt8)
  | recvDone
  -- the end of a synchronisation, and the end of the process
  | commit
  | murder
deriving DecidableEq

namespace State

def accepted : State := ⟨Client.accepted, some .accept, none, false, false⟩

def handle (s : State) (c : Option Client) : Option State :=
  c.map fun c => { s with client := c, returned := none }

/-- A callback of lwIP that returns `r`, or synchronises in the frame `f`. -/
def callback (s : State) (f : Frame) (r : Option (Client × Option Err)) : Option State :=
  r.map fun
    | (c, some e) => { s with client := c, returned := some e }
    | (c, none) => { s with
        client := { c with deadClient := false }, frame := some f, returned := none }

def step : Event × Answers → State → Option State
  | (.recv data, _), s =>
      -- lwIP has taken the segment out of the window before it calls
      let c := { s.client with rcvWnd := s.client.rcvWnd - data.length }
      s.callback .recv (c.clientRecvFunc data)
  | (.fin, a), s =>
      { s with phoneEnded := true }.callback .recv
        ((s.client.clientRecvFuncFin a).map fun c => (c, some .abrt))
  | (.err, a), s => s.handle (s.client.clientErrFunc a)
  | (.sent len, a), s =>
      let c := { s.client with
        sndBuf := s.client.sndBuf + len
        acked := s.client.acked + len }
      s.callback .sent (c.clientSentFunc a len)
  | (.up, _), s => s.handle s.client.clientSocksHandlerUp
  | (.error, a), s =>
      { s with socksEnded := true }.handle (s.client.clientSocksHandlerError a)
  | (.closed, a), s =>
      { s with socksEnded := true }.handle (s.client.clientSocksHandlerClosed a)
  | (.written len, _), s => s.handle (some { s.client with
      sendIf := .done len
      toSocks := s.client.toSocks ++ s.client.buf.take len })
  | (.sendDone, a), s =>
      match s.client.sendIf with
      | .done len => s.handle (s.client.clientSocksSendHandlerDone a len)
      | _ => none
  | (.read data, _), s => s.handle (some { s.client with
      recvIf := .done data
      fromSocks := s.client.fromSocks ++ data })
  | (.recvDone, a), s =>
      match s.client.recvIf with
      | .done data => s.handle (s.client.clientSocksRecvHandlerDone a data)
      | _ => none
  | (.commit, _), s =>
      some { s with frame := none, returned := some (if s.client.deadClient then .abrt else .ok) }
  | (.murder, _), s => { s with socksEnded := true }.handle s.client.clientMurder

def Allowed : Event × Answers → State → Prop
  | (.recv data, _), s =>
      s.frame = none ∧ s.client.closing = none ∧ s.client.recvCallback = true ∧
        0 < data.length ∧ data.length ≤ s.client.rcvWnd
  | (.fin, a), s =>
      s.frame = none ∧ s.client.closing = none ∧ s.client.recvCallback = true ∧ a.finTaken = false
  | (.err, _), s => s.frame = none ∧ s.client.closing = none ∧ s.client.errCallback = true
  | (.sent len, _), s =>
      s.frame = none ∧ s.client.closing = none ∧ s.client.sentCallback = true ∧ 0 < len ∧
        s.client.acked + len ≤ s.client.toClient.length
  | (.up, _), s => s.client.socksClosed = false ∧ s.client.socksUp = false
  | (.error, _), s => s.client.socksClosed = false
  | (.closed, _), s =>
      s.client.socksClosed = false ∧ s.client.socksUp = true ∧ s.client.recvIf = .busy
  | (.written len, _), s =>
      s.client.socksClosed = false ∧ 0 < len ∧ ∃ l, s.client.sendIf = .busy l ∧ len ≤ l
  | (.sendDone, _), s => s.client.socksClosed = false ∧ ∃ l, s.client.sendIf = .done l
  | (.read data, _), s =>
      s.client.socksClosed = false ∧ s.client.recvIf = .busy ∧ 0 < data.length ∧
        data.length ≤ clientSocksRecvBufSize
  | (.recvDone, _), s => s.client.socksClosed = false ∧ ∃ d, s.client.recvIf = .done d
  | (.commit, _), s => s.frame ≠ none
  | (.murder, _), s => s.frame = none ∧ s.client.freed = false

end State

end Relay

end Matador
