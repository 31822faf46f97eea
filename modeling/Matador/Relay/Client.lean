import Mathlib.Data.List.Basic
import Mathlib.Data.List.Infix
import Mathlib.Tactic.Common
import Matador.Library.Check
import Matador.Lwip.Receive

/-!
# A TCP client of tun2socks

`struct tcp_client` joins a connection of the phone, which lwIP ends in the process, to a
connection through the SOCKS server. What the phone sends is kept in `buf` until the SOCKS side
has taken it; what the SOCKS side sends is read into `socks_recv_buf` and queued in lwIP. Each
side may go down while the other still has data to pass on.

The functions of tun2socks.c are translated one by one. `ASSERT` is compiled in, so a handler
has the result `none` where one fails. The answers of `tcp_write`, `tcp_output` and `tcp_close`
are arguments. A client also carries what has passed through it: the bytes taken from the phone
and from the SOCKS side, those passed on, and how many of them the phone has acknowledged.

The counter `num_clients` is not part of a client. The assertions about it, `num_clients >= 0` in
`listener_accept_func` and `num_clients > 0` in `client_dealloc`, are left out here and follow
with the runs of all clients.
-/

namespace Matador

namespace Relay

open Check

def clientSocksRecvBufSize : ℕ := 8192

def tcpSndBuf : ℕ := 16384

inductive Err
  | ok
  | mem
  | abrt
deriving DecidableEq

inductive WriteAnswer
  | ok
  | mem
  | other
deriving DecidableEq

/-- The answers of lwIP during one handler: to `tcp_write` at each offset in the receive
buffer, whether `tcp_output` and `tcp_close` succeed, and whether a FIN is taken out of the
window that is not reported yet. -/
structure Answers where
  write : ℕ → WriteAnswer
  output : Bool
  close : Bool
  finTaken : Bool

/-- How the connection of the phone was given up: closed with a FIN or, where lwIP finds data
not taken, with a RST; aborted; or found gone in `client_err_func`. -/
inductive Closing
  | fin
  | rst
  | abort
  | gone
deriving DecidableEq

/-- A `StreamPassInterface` of the sender: no operation, one of that many bytes, or one of
which that many bytes are written and whose `job_done` is pending. -/
inductive SendIf
  | idle
  | busy (len : ℕ)
  | done (len : ℕ)
deriving DecidableEq

/-- A `StreamRecvInterface` of the receiver: no operation, one under way, or one that has read
these bytes and whose `job_done` is pending. -/
inductive RecvIf
  | idle
  | busy
  | done (data : List UInt8)
deriving DecidableEq

/-- `struct tcp_client` with the parts of its pcb that it uses. `recvBuf` is `none` where
`socks_recv_buf_used` is `-1`, and `deadClient` is the variable `dead_client` points to. -/
structure Client where
  -- the pcb: its windows, that for receiving without a FIN not reported, and its callbacks
  rcvWnd : ℕ
  sndBuf : ℕ
  recvCallback : Bool
  sentCallback : Bool
  errCallback : Bool
  closing : Option Closing
  -- the fields of the structure
  deadClient : Bool
  clientClosed : Bool
  buf : List UInt8
  socksUp : Bool
  socksClosed : Bool
  sendIf : SendIf
  recvIf : RecvIf
  recvBuf : Option (List UInt8)
  recvBufSent : ℕ
  recvWaiting : Bool
  tcpPending : ℕ
  freed : Bool
  -- what has passed through
  fromClient : List UInt8
  toSocks : List UInt8
  fromSocks : List UInt8
  toClient : List UInt8
  acked : ℕ
deriving DecidableEq

namespace Client

/-- The client as `listener_accept_func` has set it up when it commits. -/
def accepted : Client where
  rcvWnd := Lwip.tcpWnd
  sndBuf := tcpSndBuf
  recvCallback := true
  sentCallback := false
  errCallback := true
  closing := none
  deadClient := false
  clientClosed := false
  buf := []
  socksUp := false
  socksClosed := false
  sendIf := .idle
  recvIf := .idle
  recvBuf := none
  recvBufSent := 0
  recvWaiting := false
  tcpPending := 0
  freed := false
  fromClient := []
  toSocks := []
  fromSocks := []
  toClient := []
  acked := 0

def clientDealloc (c : Client) : Option Client := do
  assert (c.clientClosed = true)
  assert (c.socksClosed = true)
  some { c with freed := true }

def removeCallbacks (c : Client) : Client :=
  { c with recvCallback := false, sentCallback := false, errCallback := false }

/-- `tcp_close`, and `tcp_abort` where it fails. lwIP sends a RST if the window shows that not
all data was taken. -/
def tcpClose (a : Answers) (c : Client) : Client :=
  let how := if c.rcvWnd ≠ Lwip.tcpWnd ∨ a.finTaken then Closing.rst
    else if a.close then .fin else .abort
  { c with closing := some how }

mutual

/-- `client_handle_freed_client`. The first argument bounds the depth of the calls. -/
def clientHandleFreedClient : ℕ → Answers → Client → Option Client
  | 0, _, _ => none
  | k + 1, a, c => do
      assert (c.clientClosed = false)
      let c := { c with deadClient := true, clientClosed := true }
      if c.buf ≠ [] ∧ c.socksClosed = false then
        some c
      else if c.socksClosed = false then
        clientFreeSocks k a c
      else
        clientDealloc c

def clientFreeClient : ℕ → Answers → Client → Option Client
  | 0, _, _ => none
  | k + 1, a, c => do
      assert (c.clientClosed = false)
      clientHandleFreedClient k a (c.removeCallbacks.tcpClose a)

def clientFreeSocks : ℕ → Answers → Client → Option Client
  | 0, _, _ => none
  | k + 1, a, c => do
      assert (c.socksClosed = false)
      let c := { c with
        recvCallback := if c.socksUp ∧ c.clientClosed = false then false else c.recvCallback
        socksClosed := true }
      if c.socksUp ∧ (c.recvBuf ≠ none ∨ 0 < c.tcpPending) ∧ c.clientClosed = false then
        some c
      else if c.clientClosed = false then
        clientFreeClient k a c
      else
        clientDealloc c

end

/-- The calls of the three functions go four deep at most. -/
def depth : ℕ := 4

def clientAbortClient (a : Answers) (c : Client) : Option Client := do
  assert (c.clientClosed = false)
  clientHandleFreedClient depth a { c.removeCallbacks with closing := some .abort }

def clientMurder (c : Client) : Option Client :=
  let c := if c.clientClosed = false then
      { c.removeCallbacks with closing := some .abort, deadClient := true, clientClosed := true }
    else c
  clientDealloc { c with socksClosed := true }

def clientErrFunc (a : Answers) (c : Client) : Option Client := do
  assert (c.clientClosed = false)
  -- lwIP has freed the pcb before the call
  clientHandleFreedClient depth a { c with closing := some .gone }

def senderSend (c : Client) : Option Client := do
  assert (0 < c.buf.length)
  assert (c.sendIf = .idle)
  some { c with sendIf := .busy c.buf.length }

def clientSendToSocks (c : Client) : Option Client := do
  assert (c.socksClosed = false)
  assert (c.socksUp = true)
  assert (0 < c.buf.length)
  senderSend c

/-- `client_recv_func` with a pbuf of these bytes, up to where it synchronises: the client,
and what is returned if it does not. -/
def clientRecvFunc (data : List UInt8) (c : Client) : Option (Client × Option Err) := do
  assert (c.clientClosed = false)
  assert (0 < data.length)
  if Lwip.tcpWnd - c.buf.length < data.length then
    some (c, some .mem)
  else
    let c := { c with buf := c.buf ++ data, fromClient := c.fromClient ++ data }
    if c.buf.length = data.length ∧ c.socksUp then do
      assert (c.socksClosed = false)
      let c ← clientSendToSocks c
      some (c, none)
    else
      some (c, some .ok)

def clientRecvFuncFin (a : Answers) (c : Client) : Option Client := do
  assert (c.clientClosed = false)
  clientFreeClient depth a c

def clientSocksRecvInitiate (c : Client) : Option Client := do
  assert (c.clientClosed = false)
  assert (c.socksClosed = false)
  assert (c.socksUp = true)
  assert (c.recvBuf = none)
  assert (c.recvIf = .idle)
  some { c with recvIf := .busy }

def startSending (c : Client) : Option Client :=
  if c.buf ≠ [] then clientSendToSocks c else some c

def clientSocksHandlerUp (c : Client) : Option Client := do
  assert (c.socksClosed = false)
  assert (c.socksUp = false)
  let c := { c with
    recvBuf := none
    tcpPending := 0
    sentCallback := if c.clientClosed then c.sentCallback else true
    socksUp := true }
  let c ← startSending c
  if c.clientClosed = false then clientSocksRecvInitiate c else some c

def clientSocksHandlerError (a : Answers) (c : Client) : Option Client := do
  assert (c.socksClosed = false)
  clientFreeSocks depth a c

def clientSocksHandlerClosed (a : Answers) (c : Client) : Option Client := do
  assert (c.socksClosed = false)
  assert (c.socksUp = true)
  clientFreeSocks depth a c

def tcpRecved (len : ℕ) (c : Client) : Option Client := do
  assert (len ≤ 0xffff - c.rcvWnd)
  some { c with rcvWnd := min (c.rcvWnd + len) Lwip.tcpWnd }

def confirmSent (len : ℕ) (c : Client) : Option Client :=
  if c.clientClosed = false then tcpRecved len c else some c

def clientSocksSendHandlerDone (a : Answers) (len : ℕ) (c : Client) : Option Client := do
  assert (c.socksClosed = false)
  assert (c.socksUp = true)
  assert (0 < c.buf.length)
  assert (0 < len)
  assert (len ≤ c.buf.length)
  let c ← confirmSent len { c with sendIf := .idle, buf := c.buf.drop len }
  if 0 < c.buf.length then
    senderSend c
  else if c.clientClosed then
    clientFreeSocks depth a c
  else
    some c

/-- The loop of `client_socks_recv_send_out`: the client, and whether `tcp_write` failed with
an error other than `ERR_MEM`. The first argument bounds the number of rounds. -/
def sendOutLoop (a : Answers) (data : List UInt8) : ℕ → Client → Option (Client × Bool)
  | 0, _ => none
  | k + 1, c =>
      let toWrite := min (data.length - c.recvBufSent) c.sndBuf
      if toWrite = 0 then
        some (c, false)
      else
        match a.write c.recvBufSent with
        | .mem => some (c, false)
        | .other => some (c, true)
        | .ok =>
            let c := { c with
              toClient := c.toClient ++ (data.drop c.recvBufSent).take toWrite
              sndBuf := c.sndBuf - toWrite
              recvBufSent := c.recvBufSent + toWrite
              tcpPending := c.tcpPending + toWrite }
            if c.recvBufSent < data.length then sendOutLoop a data k c else some (c, false)

/-- `client_socks_recv_send_out`: the client, and whether its pcb is still up. -/
def clientSocksRecvSendOut (a : Answers) (c : Client) : Option (Client × Bool) := do
  let data := c.recvBuf.getD []
  assert (c.clientClosed = false)
  assert (c.socksUp = true)
  assert (c.recvBuf ≠ none ∧ 0 < data.length)
  assert (c.recvBufSent < data.length)
  assert (c.recvWaiting = false)
  let (c, failed) ← sendOutLoop a data (data.length + 1) c
  if failed then do
    let c ← clientAbortClient a c
    some (c, false)
  else if a.output = false then do
    let c ← clientAbortClient a c
    some (c, false)
  else if c.recvBufSent < data.length then
    if c.tcpPending = 0 then do
      let c ← clientAbortClient a c
      some (c, false)
    else
      some ({ c with recvWaiting := true }, true)
  else
    some ({ c with recvBuf := none }, true)

def clientSocksRecvHandlerDone (a : Answers) (data : List UInt8) (c : Client) :
    Option Client := do
  assert (0 < data.length)
  assert (data.length ≤ clientSocksRecvBufSize)
  assert (c.socksClosed = false)
  assert (c.socksUp = true)
  assert (c.recvBuf = none)
  if c.clientClosed then
    some { c with recvIf := .idle }
  else do
    let (c, up) ← clientSocksRecvSendOut a
      { c with recvIf := .idle, recvBuf := some data, recvBufSent := 0, recvWaiting := false }
    if up ∧ c.recvBuf = none then clientSocksRecvInitiate c else some c

/-- `client_sent_func`, up to where it synchronises: the client, and what is returned if it
does not. -/
def clientSentFunc (a : Answers) (len : ℕ) (c : Client) : Option (Client × Option Err) := do
  assert (c.clientClosed = false)
  assert (c.socksUp = true)
  assert (0 < len)
  assert (len ≤ c.tcpPending)
  if c.recvBuf ≠ none then do
    assert (c.recvWaiting = true)
    assert (c.recvBufSent < (c.recvBuf.getD []).length)
    let (c, up) ← clientSocksRecvSendOut a
      { c with tcpPending := c.tcpPending - len, recvWaiting := false }
    if up = false then
      some (c, some .abrt)
    else do
      assert (0 < c.tcpPending)
      if c.recvBuf = none ∧ c.socksClosed = false then do
        let c ← clientSocksRecvInitiate c
        some (c, none)
      else
        some (c, some .ok)
  else if c.socksClosed ∧ c.tcpPending - len = 0 then do
    let c ← clientFreeClient depth a { c with tcpPending := c.tcpPending - len }
    some (c, some .abrt)
  else
    some ({ c with tcpPending := c.tcpPending - len }, some .ok)

end Client

end Relay

end Matador
