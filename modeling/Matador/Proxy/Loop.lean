import Mathlib.Data.Finset.Card
import Mathlib.Data.Int.Notation
import Matador.Library.Buffer
import Matador.Library.Descriptor
import Matador.Library.Transition

/-!
# The forwarding loop of the proxy

The `main` of `proxy.c` waits with `select` for a captured Ethernet frame on
`sock_raw_recv` and for a datagram of the tunnel on `sock_udp`, and treats both in
the same buffer of `BUFLEN` bytes. An iteration of the loop is one step of a
machine. Its label says what `select` reports and what each `recvfrom` returns;
nothing is assumed about the bytes.

The headers are read at fixed offsets of the buffer, whatever the length of the
message is, so a short message is completed by bytes of earlier ones. The frames
and packets that the loop sends and the sockets that it opens are kept as a list
of actions with the newest in front, and `messages` is the history of what was
copied into the buffer. The debug output is not modelled, and neither are the
values of `fd_udp_port`, which the program never reads: an action records the index
that is used and the value that is stored. A write outside of the array is recorded
in the same way and changes no other variable.
-/

namespace Matador

namespace Proxy

def bufLen : ℕ := 65535

/-- `FD_SETSIZE`, the length of `fd_udp_port`. -/
def fdSetSize : ℕ := 1024

def exitText : List UInt8 := [69, 88, 73, 84]

def openText : List UInt8 := [79, 80, 69, 78, 33]

/-! ## Reading the buffer -/

def bytesAt (buffer : ℕ → UInt8) (offset count : ℕ) : List UInt8 :=
  (List.range count).map fun k => buffer (offset + k)

def shortAt (buffer : ℕ → UInt8) (offset : ℕ) : ℕ :=
  256 * (buffer offset).toNat + (buffer (offset + 1)).toNat

/-- `strcmp` finds the text, which has no NUL, at the offset. -/
def strcmpEq (buffer : ℕ → UInt8) : ℕ → List UInt8 → Bool
  | offset, [] => buffer offset = 0
  | offset, c :: text => buffer offset = c && strcmpEq buffer (offset + 1) text

/-! ## The state -/

/-- The variables that are set before the loop: the address of the interface, the
client that was learned in the handshake, the ports of the command line, the three
sockets, and the descriptor limit of the process. -/
structure Config where
  ifAddr : List UInt8
  ifMac : List UInt8
  clientAddr : List UInt8
  port : ℤ
  rport : ℤ
  sockUdp : ℕ
  sockRawRecv : ℕ
  sockRawSend : ℕ
  limit : ℕ
  deriving DecidableEq

/-- What the loop does: a reply to an ARP request, a packet sent to the client, a
packet injected on `sock_raw_send` with its destination, and a socket opened for a
port with the index and the value that are stored in `fd_udp_port`. For a frame
shorter than its header the length of the packet wraps around and `sendto` fails. -/
inductive Action where
  | arpReply (frame : List UInt8)
  | forward (packet : List UInt8)
  | forwardWrapped
  | inject (packet destination : List UInt8)
  | openFake (sock : ℤ) (sourcePort port : ℕ)
  deriving DecidableEq

/-- The loop is running, has ended because of `eof_socket`, or the program has
ended because `select` failed. -/
inductive Control where
  | running
  | ended
  | failed
  deriving DecidableEq

/-- The variables of the loop; `opened` are the open descriptors of the process. -/
structure State where
  buffer : ℕ → UInt8
  maxfd : ℤ
  opened : Finset ℕ
  rset : Finset ℕ
  control : Control
  messages : List (List UInt8)
  actions : List Action

inductive Received where
  | error
  | message (bytes : List UInt8)
  deriving DecidableEq

def Received.recsize : Received → ℤ
  | error => -1
  | message bytes => (bytes.take bufLen).length

def State.recvfrom (s : State) : Received → State
  | .error => s
  | .message bytes =>
      { s with
        buffer := Buffer.receive (bytes.take bufLen) s.buffer
        messages := bytes.take bufLen :: s.messages }

/-! ## Captured frames -/

def arpFrame (config : Config) (dest : List UInt8) : List UInt8 :=
  dest ++ config.ifMac ++ [0x08, 0x06] ++ [0, 1, 0x08, 0x00, 6, 4, 0, 2] ++
    config.ifMac ++ config.ifAddr ++ config.ifMac ++ config.ifAddr

/-- The variable `skip` for an IP packet behind an Ethernet header: TCP is skipped,
and so is UDP from the client with the ports of the tunnel. -/
def skip (config : Config) (buffer : ℕ → UInt8) : Bool :=
  if buffer 23 = 1 then false
  else if buffer 23 = 6 then true
  else if buffer 23 = 17 then
    bytesAt buffer 26 4 = config.clientAddr && (shortAt buffer 34 : ℤ) = config.rport &&
      (shortAt buffer 36 : ℤ) = config.port
  else false

def frameAction (config : Config) (buffer : ℕ → UInt8) (recsize : ℕ) : Option Action :=
  if shortAt buffer 12 = 0x0806 then
    if shortAt buffer 20 = 1 ∧ bytesAt buffer 38 4 = config.ifAddr then
      some (.arpReply (arpFrame config (bytesAt buffer 22 6)))
    else none
  else if shortAt buffer 12 = 0x0800 then
    if bytesAt buffer 30 4 = config.ifAddr ∧ ¬ skip config buffer then
      if 14 ≤ recsize then some (.forward (bytesAt buffer 14 (recsize - 14)))
      else some .forwardWrapped
    else none
  else none

def State.frame (config : Config) (r : Received) (s : State) : State :=
  let s := s.recvfrom r
  if 0 < r.recsize then
    { s with actions := (frameAction config s.buffer r.recsize.toNat).toList ++ s.actions }
  else s

/-! ## Datagrams of the tunnel -/

inductive Branch where
  | exit
  | icmp
  | tcp
  | udp
  | other
  | eof
  deriving DecidableEq

def branch (buffer : ℕ → UInt8) (recsize : ℤ) : Branch :=
  if recsize = 4 ∧ strcmpEq buffer 0 exitText then .exit
  else if 0 < recsize then
    if buffer 9 = 1 then .icmp
    else if buffer 9 = 6 then .tcp
    else if buffer 9 = 17 then .udp
    else .other
  else .eof

def State.inject (recsize : ℕ) (s : State) : State :=
  { s with actions := .inject (bytesAt s.buffer 0 recsize) (bytesAt s.buffer 16 4) :: s.actions }

def State.openFake (config : Config) (s : State) : State :=
  let action (sock : ℤ) := Action.openFake sock (shortAt s.buffer 20) (shortAt s.buffer 22)
  match Descriptor.allocate config.limit s.opened with
  | some fd =>
      { s with opened := insert fd s.opened, maxfd := fd, actions := action fd :: s.actions }
  -- the result of `socket` is not checked, and -1 is used like a descriptor
  | none => { s with maxfd := -1, actions := action (-1) :: s.actions }

def State.datagram (config : Config) (r : Received) (s : State) : State :=
  let s := s.recvfrom r
  match branch s.buffer r.recsize with
  | .exit | .eof => { s with control := .ended }
  | .icmp | .other => s.inject r.recsize.toNat
  | .tcp => s
  | .udp => (s.openFake config).inject r.recsize.toNat

/-! ## The loop -/

def fdRange (first last : ℤ) : List ℕ :=
  (List.range (last + 1 - first).toNat).map fun k => (first + k).toNat

def State.drain (config : Config) (received : ℕ → Received) (s : State) : State :=
  (fdRange (config.sockRawSend + 1) s.maxfd).foldl
    (fun s sockFake => if sockFake ∈ s.rset then s.recvfrom (received sockFake) else s) s

/-- What `select` reports: an error, or the descriptors that are ready, with what
`recvfrom` would return for each of them. -/
inductive Input where
  | selectFails
  | ready (fds : Finset ℕ) (received : ℕ → Received)

def State.watched (config : Config) (s : State) : Finset ℕ :=
  -- the loop over the other sockets begins behind its end
  s.rset ∪ {config.sockUdp, config.sockRawRecv, config.sockRawSend} ∪
    (fdRange (s.maxfd + 1) s.maxfd).toFinset

/-- The set `rset` after `select`: of the watched descriptors up to `maxfd` those
that are ready. -/
def State.selected (config : Config) (fds : Finset ℕ) (s : State) : Finset ℕ :=
  (s.watched config).filter fun fd => (fd : ℤ) < s.maxfd + 1 ∧ fd ∈ fds

def State.beforeDatagram (config : Config) (fds : Finset ℕ) (received : ℕ → Received)
    (s : State) : State :=
  let s := { s with rset := s.selected config fds }
  if config.sockRawRecv ∈ s.rset then s.frame config (received config.sockRawRecv) else s

def State.afterDatagram (config : Config) (fds : Finset ℕ) (received : ℕ → Received)
    (s : State) : State :=
  let s := s.beforeDatagram config fds received
  if config.sockUdp ∈ s.rset then s.datagram config (received config.sockUdp) else s

/-- One iteration of the loop; `none` when it has ended or while `select` blocks. -/
def step (config : Config) (x : Input) (s : State) : Option State :=
  match s.control, x with
  | .running, .selectFails => some { s with control := .failed }
  | .running, .ready fds received =>
      if s.selected config fds = ∅ then none
      else some ((s.afterDatagram config fds received).drain config received)
  | _, _ => none

/-- The states in which the loop is entered: the three sockets were opened one after
the other by a process with some inherited descriptors, others may have been opened
since, and the buffer holds `"OPEN!"` and the datagram of the handshake. -/
inductive Start (config : Config) : State → Prop where
  | enter (inherited others : Finset ℕ) (garbage : ℕ → UInt8) (handshake : List UInt8)
      (hudp : Descriptor.allocate config.limit inherited = some config.sockUdp)
      (hrecv : Descriptor.allocate config.limit (insert config.sockUdp inherited) =
        some config.sockRawRecv)
      (hsend : Descriptor.allocate config.limit
        (insert config.sockRawRecv (insert config.sockUdp inherited)) = some config.sockRawSend) :
      Start config {
        buffer := Buffer.content [handshake.take bufLen, openText ++ [0]] garbage
        maxfd := config.sockRawSend
        opened := insert config.sockRawSend
          (insert config.sockRawRecv (insert config.sockUdp inherited)) ∪ others
        rset := ∅
        control := .running
        messages := [handshake.take bufLen, openText ++ [0]]
        actions := [] }

def Run (config : Config) (s₀ s : State) : Prop :=
  Transition.Reachable (step config) (fun _ _ => True) s₀ s

end Proxy

end Matador
