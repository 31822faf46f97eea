import Mathlib.Data.Nat.Cast.Order.Ring
import Mathlib.Tactic.Common
import Matador.Library.Check
import Matador.Library.Serial

/-!
# Receiving TCP data in lwIP

The part of `tcp_receive` that takes the data of a segment in: the segment is cut to what
is new and to the window, what is next in sequence is passed on together with what the
out-of-sequence queue can now add, and the rest is put in the queue. The queue keeps
whole segments, in the order of their sequence numbers. A segment carries its length
`len` beside its data, as `struct tcp_seg` does, since the code sets the two apart.

`LWIP_ASSERT` is compiled in and aborts the process, so a function with an assertion has
the result `none` where it fails. Whether `tcp_seg_copy` finds memory is an argument.
-/

namespace Matador

namespace Lwip

open Check Serial

def seqLt (a b : UInt32) : Prop := diff a b < 0

def seqLeq (a b : UInt32) : Prop := diff a b ≤ 0

def seqGt (a b : UInt32) : Prop := 0 < diff a b

def seqGeq (a b : UInt32) : Prop := 0 ≤ diff a b

def seqBetween (a b c : UInt32) : Prop := seqGeq a b ∧ seqLeq a c

instance (a b : UInt32) : Decidable (seqLt a b) := inferInstanceAs (Decidable (_ < _))

instance (a b : UInt32) : Decidable (seqLeq a b) := inferInstanceAs (Decidable (_ ≤ _))

instance (a b : UInt32) : Decidable (seqGt a b) := inferInstanceAs (Decidable (_ < _))

instance (a b : UInt32) : Decidable (seqGeq a b) := inferInstanceAs (Decidable (_ ≤ _))

instance (a b c : UInt32) : Decidable (seqBetween a b c) := inferInstanceAs (Decidable (_ ∧ _))

def sub16 (a b : ℕ) : ℕ := (a + 65536 - b % 65536) % 65536

/-- `TCP_WND` of lwipopts.h: four times `TCP_MSS`. -/
def tcpWnd : ℕ := 4 * 1460

/-- `struct tcp_seg` with the fields of its header that receiving uses; `data` is what the
pbuf holds. -/
structure Seg where
  seqno : UInt32
  len : ℕ
  data : List UInt8
  fin : Bool
  syn : Bool
deriving DecidableEq

def Seg.tcpLen (seg : Seg) : ℕ := seg.len + if seg.fin || seg.syn then 1 else 0

inductive TcpState
  | closed
  | listen
  | synSent
  | synRcvd
  | established
  | finWait1
  | finWait2
  | closeWait
  | closing
  | lastAck
  | timeWait
deriving DecidableEq

/-- The states before `CLOSE_WAIT` in the order of the enumeration: those in which no FIN
has been received. -/
def TcpState.beforeCloseWait : TcpState → Bool
  | closed | listen | synSent | synRcvd | established | finWait1 | finWait2 => true
  | closeWait | closing | lastAck | timeWait => false

/-- The fields of `struct tcp_pcb` that receiving uses. -/
structure Pcb where
  state : TcpState
  rcvNxt : UInt32
  rcvWnd : ℕ
  rcvAnnWnd : ℕ
  rcvAnnRightEdge : UInt32
  mss : ℕ
  ooseq : List Seg
deriving DecidableEq

def tcpUpdateRcvAnnWnd (pcb : Pcb) : Option (Pcb × ℕ) :=
  let newRightEdge := pcb.rcvNxt + .ofNat pcb.rcvWnd
  if seqGeq newRightEdge (pcb.rcvAnnRightEdge + .ofNat (min (tcpWnd / 2) pcb.mss)) then
    some ({ pcb with rcvAnnWnd := pcb.rcvWnd }, (newRightEdge - pcb.rcvAnnRightEdge).toNat)
  else if seqGt pcb.rcvNxt pcb.rcvAnnRightEdge then
    some ({ pcb with rcvAnnWnd := 0 }, 0)
  else do
    let newRcvAnnWnd := (pcb.rcvAnnRightEdge - pcb.rcvNxt).toNat
    assert (newRcvAnnWnd ≤ 0xffff)
    some ({ pcb with rcvAnnWnd := newRcvAnnWnd }, 0)

def tcpRecved (pcb : Pcb) (len : ℕ) : Option (Pcb × ℕ) := do
  assert (len ≤ 0xffff - pcb.rcvWnd)
  tcpUpdateRcvAnnWnd { pcb with rcvWnd := min (pcb.rcvWnd + len) tcpWnd }

/-- The window field of an outgoing segment: from then on the peer may send up to
`rcv_nxt + rcv_ann_wnd`. -/
def announce (pcb : Pcb) : Pcb :=
  { pcb with rcvAnnRightEdge := pcb.rcvNxt + .ofNat pcb.rcvAnnWnd }

def trimFront (pcb : Pcb) (inseg : Seg) : Option Seg :=
  if seqBetween pcb.rcvNxt (inseg.seqno + 1) (inseg.seqno + .ofNat inseg.tcpLen - 1) then do
    let off := diff pcb.rcvNxt inseg.seqno
    assert (off < 0x7fff)
    assert (off ≤ inseg.data.length)
    some { inseg with
      seqno := pcb.rcvNxt
      len := sub16 inseg.len (pcb.rcvNxt - inseg.seqno).toNat
      data := inseg.data.drop off.toNat }
  else
    some inseg

def trimToWindow (pcb : Pcb) (inseg : Seg) : Option Seg :=
  if pcb.rcvWnd < inseg.tcpLen then do
    let len := if inseg.syn then sub16 pcb.rcvWnd 1 else pcb.rcvWnd
    let inseg := { inseg with fin := false, len := len, data := inseg.data.take len }
    assert (inseg.seqno + .ofNat inseg.tcpLen = pcb.rcvNxt + .ofNat pcb.rcvWnd)
    some inseg
  else
    some inseg

/-- Both loops that free the queued segments which end where `seg` ends or before: `stop`
is the length by which `seg` is measured, and `copies` says whether a FIN is taken over. -/
def absorb (stop : Seg → ℕ) (copies : Seg → Bool) (seg : Seg) : List Seg → Seg × List Seg
  | [] => (seg, [])
  | next :: rest =>
      if seqGeq (seg.seqno + .ofNat (stop seg)) (next.seqno + .ofNat next.len) then
        absorb stop copies (if next.fin && copies seg then { seg with fin := true } else seg) rest
      else
        (seg, next :: rest)

def trimToQueue (inseg : Seg) : List Seg → Option Seg
  | [] => some inseg
  | next :: _ =>
      if seqGt (inseg.seqno + .ofNat inseg.tcpLen) next.seqno then do
        let gap := (next.seqno - inseg.seqno).toNat % 65536
        let len := if inseg.syn then sub16 gap 1 else gap
        let inseg := { inseg with len := len, data := inseg.data.take len }
        assert (inseg.seqno + .ofNat inseg.tcpLen = next.seqno)
        some inseg
      else
        some inseg

def adjustOoseq (inseg : Seg) (ooseq : List Seg) : Option (Seg × List Seg) :=
  if ooseq.isEmpty then
    some (inseg, [])
  else if inseg.fin then
    some (inseg, [])
  else do
    let (inseg, ooseq) := absorb Seg.tcpLen (fun seg => !seg.syn) inseg ooseq
    let inseg ← trimToQueue inseg ooseq
    some (inseg, ooseq)

/-- The loop that passes on what is now in sequence at the head of the queue; `data` and
`fin` are `recv_data` and `TF_GOT_FIN` so far. -/
def dequeue (pcb : Pcb) (data : List UInt8) (fin : Bool) :
    List Seg → Option (Pcb × List UInt8 × Bool)
  | [] => some ({ pcb with ooseq := [] }, data, fin)
  | cseg :: rest =>
      if cseg.seqno = pcb.rcvNxt then do
        assert (cseg.tcpLen ≤ pcb.rcvWnd)
        let (pcb, _) ← tcpUpdateRcvAnnWnd { pcb with
          rcvNxt := pcb.rcvNxt + .ofNat cseg.tcpLen
          rcvWnd := pcb.rcvWnd - cseg.tcpLen }
        let pcb := if cseg.fin ∧ pcb.state = .established then { pcb with state := .closeWait }
          else pcb
        dequeue pcb (data ++ cseg.data) (fin || cseg.fin) rest
      else
        some ({ pcb with ooseq := cseg :: rest }, data, fin)

def receiveInSequence (pcb : Pcb) (inseg : Seg) : Option (Pcb × List UInt8 × Bool) := do
  let inseg ← trimToWindow pcb inseg
  let (inseg, ooseq) ← adjustOoseq inseg pcb.ooseq
  assert (inseg.tcpLen ≤ pcb.rcvWnd)
  let (pcb, _) ← tcpUpdateRcvAnnWnd { pcb with
    rcvNxt := inseg.seqno + .ofNat inseg.tcpLen
    rcvWnd := pcb.rcvWnd - inseg.tcpLen }
  dequeue pcb inseg.data inseg.fin ooseq

def Seg.cutAt (seg : Seg) (seqno : UInt32) : Seg :=
  if seqGt (seg.seqno + .ofNat seg.len) seqno then
    let len := (seqno - seg.seqno).toNat % 65536
    { seg with len := len, data := seg.data.take len }
  else
    seg

/-- `tcp_oos_insert_segment`: the new segment `cseg` before the segments `next` of the
queue, without those it covers. -/
def tcpOosInsertSegment (cseg : Seg) (next : List Seg) : List Seg :=
  if cseg.fin then
    [cseg]
  else
    match absorb Seg.len (fun _ => true) cseg next with
    | (cseg, []) => [cseg]
    | (cseg, next :: rest) => cseg.cutAt next.seqno :: next :: rest

/-- The check of the window for a segment put last in the queue. The two ends are compared
as unsigned numbers. -/
def trimToEdge (pcb : Pcb) (inseg : Seg) : Option Seg :=
  let edge := pcb.rcvNxt + .ofNat pcb.rcvWnd
  if UInt32.ofNat inseg.tcpLen + inseg.seqno > edge then do
    let len := (edge - inseg.seqno).toNat % 65536
    let inseg := { inseg with fin := false, len := len, data := inseg.data.take len }
    assert (inseg.seqno + .ofNat inseg.tcpLen = edge)
    some inseg
  else
    some inseg

def goesBefore (inseg next : Seg) : Option Seg → Prop
  | none => seqLt inseg.seqno next.seqno
  | some prev => seqBetween inseg.seqno (prev.seqno + 1) (next.seqno - 1)

instance (inseg next : Seg) (prev : Option Seg) : Decidable (goesBefore inseg next prev) :=
  match prev with
  | none => inferInstanceAs (Decidable (seqLt _ _))
  | some _ => inferInstanceAs (Decidable (seqBetween _ _ _))

/-- The loop that looks for the place of the segment in the queue: the queue from `prev`
on afterwards, where `copied` says whether `tcp_seg_copy` found memory. -/
def place (pcb : Pcb) (inseg : Seg) (copied : Bool) :
    Option Seg → List Seg → Option (List Seg)
  | prev, [] => some prev.toList
  | prev, next :: rest =>
      if inseg.seqno = next.seqno then
        if inseg.len > next.len ∧ copied then
          some (prev.toList ++ tcpOosInsertSegment inseg (next :: rest))
        else
          some (prev.toList ++ next :: rest)
      else if goesBefore inseg next prev then
        if copied then
          some ((prev.map (·.cutAt inseg.seqno)).toList ++ tcpOosInsertSegment inseg (next :: rest))
        else
          some (prev.toList ++ next :: rest)
      else if rest = [] ∧ seqGt inseg.seqno next.seqno then
        if next.fin ∨ ¬ copied then
          some (prev.toList ++ [next])
        else do
          let last ← trimToEdge pcb inseg
          some (prev.toList ++ [next.cutAt inseg.seqno, last])
      else do
        let queue ← place pcb inseg copied (some next) rest
        some (prev.toList ++ queue)

def receiveOutOfSequence (pcb : Pcb) (inseg : Seg) (copied : Bool) :
    Option (Pcb × List UInt8 × Bool) :=
  if pcb.ooseq = [] then
    some ({ pcb with ooseq := if copied then [inseg] else [] }, [], false)
  else do
    let ooseq ← place pcb inseg copied none pcb.ooseq
    some ({ pcb with ooseq := ooseq }, [], false)

/-- `tcp_receive` as far as it takes data in: the connection afterwards, the data for the
application and whether a FIN was reached. -/
def tcpReceive (pcb : Pcb) (inseg : Seg) (copied : Bool) : Option (Pcb × List UInt8 × Bool) :=
  if 0 < inseg.tcpLen ∧ pcb.state.beforeCloseWait then do
    let inseg ← trimFront pcb inseg
    if seqBetween inseg.seqno pcb.rcvNxt (pcb.rcvNxt + .ofNat pcb.rcvWnd - 1) then
      if pcb.rcvNxt = inseg.seqno then
        receiveInSequence pcb inseg
      else
        receiveOutOfSequence pcb inseg copied
    else
      some (pcb, [], false)
  else
    some (pcb, [], false)

/-- `tcp_process` in the states `ESTABLISHED` and `CLOSE_WAIT`, for a segment without RST:
a SYN is only answered, and a FIN closes the peer's direction. -/
def tcpProcess (pcb : Pcb) (inseg : Seg) (copied : Bool) : Option (Pcb × List UInt8 × Bool) :=
  if inseg.syn then
    some (pcb, [], false)
  else do
    let (pcb, data, fin) ← tcpReceive pcb inseg copied
    some (if fin then { pcb with state := .closeWait } else pcb, data, fin)

/-- What `tcp_input` does to the window before it reports a FIN: the application will not
call `tcp_recved` for it. -/
def correctForFin (pcb : Pcb) : Pcb :=
  if pcb.rcvWnd ≠ tcpWnd then { pcb with rcvWnd := pcb.rcvWnd + 1 } else pcb

end Lwip

end Matador
