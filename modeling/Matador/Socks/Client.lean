import Mathlib.Data.List.Basic
import Mathlib.Tactic.Common
import Matador.Library.Check

/-!
# The SOCKS client of tun2socks

`BSocksClient` connects to the SOCKS server, offers its authentication methods, sends a name and
a password if the server asks for them, and requests the connection to the destination. All of it
is done by callbacks of the reactor: a packet is written in pieces, by `PacketStreamSender`, and a
reply is received in pieces into the one buffer of the client, which is reallocated for every
packet and every reply.

The functions of BSocksClient.c are translated one by one. An `ASSERT` that fails is `none`, and
so is a store outside of the buffer. Whether an allocation succeeds is an argument. A client also
carries what was written to the server and read from it.
-/

namespace Matador

namespace Socks

open Check

/-! ### The constants and packets of socks_proto.h -/

def socksVersion : UInt8 := 0x05

def socksCmdConnect : UInt8 := 0x01

def socksRepSucceeded : UInt8 := 0x00

def socksAtypIpv4 : UInt8 := 0x01

def socksAtypIpv6 : UInt8 := 0x04

/-- `struct BSocksClient_auth_info`: no authentication, or a name and a password. -/
inductive AuthInfo
  | none
  | password (username password : List UInt8)
deriving DecidableEq

def AuthInfo.authType : AuthInfo → UInt8
  | .none => 0x00
  | .password _ _ => 0x02

/-- `BAddr`, with its fields as they are stored, in network byte order. -/
inductive Addr
  | ipv4 (ip : Vector UInt8 4) (port : Vector UInt8 2)
  | ipv6 (ip : Vector UInt8 16) (port : Vector UInt8 2)
deriving DecidableEq

def Addr.atyp : Addr → UInt8
  | .ipv4 _ _ => socksAtypIpv4
  | .ipv6 _ _ => socksAtypIpv6

def Addr.bytes : Addr → List UInt8
  | .ipv4 ip port => ip.toList ++ port.toList
  | .ipv6 ip port => ip.toList ++ port.toList

def addrLen (atyp : UInt8) : Option ℕ :=
  if atyp = socksAtypIpv4 then some 6 else if atyp = socksAtypIpv6 then some 18 else none

def hello (authInfo : List AuthInfo) : List UInt8 :=
  socksVersion :: UInt8.ofNat authInfo.length :: authInfo.map AuthInfo.authType

def passwordPacket (username password : List UInt8) : List UInt8 :=
  1 :: UInt8.ofNat username.length :: (username ++ UInt8.ofNat password.length :: password)

def request (destAddr : Addr) : List UInt8 :=
  socksVersion :: socksCmdConnect :: 0 :: destAddr.atyp :: destAddr.bytes

/-! ### The client -/

inductive Phase
  | connecting
  | sendingHello
  | sentHello
  | sendingPassword
  | sentPassword
  | sendingRequest
  | sentRequest
  | receivedReplyHeader
  | up
deriving DecidableEq

inductive Failure
  | connectionFailed
  | connectionInitFailed
  | invalidNumberOfMethods
  | reallocFailed
  | wrongVersion
  | noMethodAccepted
  | invalidLength
  | passwordReplyVersion
  | passwordReplyNegative
  | replyNotSuccessful
  | unknownAddressType
  | connectionError
  | connectionClosed
deriving DecidableEq

/-- What `BSocksClient_Free` has to free: nothing but the connector, the connection with the
interfaces of the handshake, or the connection with those for data. -/
inductive Resources
  | connector
  | control
  | data
deriving DecidableEq

/-- `BSocksClient`. `inUsed` is how much of the buffer `PacketStreamSender` has written, if it has
a packet; `recvDest`, `recvLen` and `recvTotal` describe the reply that is received, if one is
under way. -/
structure Client where
  authInfo : List AuthInfo
  destAddr : Addr
  phase : Phase
  buffer : Option (List UInt8)
  inUsed : Option ℕ
  receiving : Bool
  recvDest : ℕ
  recvLen : ℕ
  recvTotal : ℕ
  resources : Resources
  -- what was reported to the handler
  up : Bool
  failed : Option Failure
  -- what has passed over the connection
  sent : List UInt8
  received : List UInt8
deriving DecidableEq

namespace Client

def init (authInfo : List AuthInfo) (destAddr : Addr) : Client where
  authInfo := authInfo
  destAddr := destAddr
  phase := .connecting
  buffer := none
  inUsed := none
  receiving := false
  recvDest := 0
  recvLen := 0
  recvTotal := 0
  resources := .connector
  up := false
  failed := none
  sent := []
  received := []

def reportError (why : Failure) (c : Client) : Client := { c with failed := some why }

def realloc (size : ℕ) (buffer : Option (List UInt8)) : List UInt8 :=
  -- the new bytes are overwritten before anything reads them
  (buffer.getD []).take size ++ List.replicate (size - (buffer.getD []).length) 0

/-- `memcpy` to an offset of the buffer; nothing outside of it is written. -/
def store (offset : ℕ) (data buffer : List UInt8) : Option (List UInt8) := do
  assert (offset + data.length ≤ buffer.length)
  some (buffer.take offset ++ data ++ buffer.drop (offset + data.length))

def sendPacket (size : ℕ) (packet : List UInt8) (phase : Phase) (c : Client) : Option Client := do
  let buffer ← store 0 packet (realloc size c.buffer)
  assert (c.inUsed = none)
  some { c with buffer := some buffer, inUsed := some 0, phase := phase }

def startReceive (dest total : ℕ) (c : Client) : Option Client := do
  assert (0 < total)
  assert (c.receiving = false)
  some { c with receiving := true, recvDest := dest, recvLen := 0, recvTotal := total }

/-- A buffer is reserved for a reply, of which the first `total` bytes are received. -/
def awaitReply (alloc : Bool) (size total : ℕ) (phase : Phase) (c : Client) : Option Client :=
  if alloc then do
    let c ← startReceive 0 total { c with buffer := some (realloc size c.buffer) }
    some { c with phase := phase }
  else
    some (c.reportError .reallocFailed)

def connectorHandler (isError initOk alloc : Bool) (c : Client) : Option Client := do
  assert (c.phase = .connecting)
  if isError then
    some (c.reportError .connectionFailed)
  else if initOk = false then
    some (c.reportError .connectionInitFailed)
  else if c.authInfo.length = 0 ∨ 255 < c.authInfo.length then
    some (c.reportError .invalidNumberOfMethods)
  else if alloc = false then
    some (c.reportError .reallocFailed)
  else do
    let c := { c with resources := .control }
    sendPacket (2 + c.authInfo.length) (hello c.authInfo) .sendingHello c

def connectionHandler (recvClosed : Bool) (c : Client) : Option Client := do
  assert (c.phase ≠ .connecting)
  if c.phase = .up ∧ recvClosed then
    some (c.reportError .connectionClosed)
  else
    some (c.reportError .connectionError)

def authFinished (alloc : Bool) (c : Client) : Option Client :=
  if alloc then
    sendPacket (4 + c.destAddr.bytes.length) (request c.destAddr) .sendingRequest c
  else
    some (c.reportError .reallocFailed)

def sendHandlerDone (alloc : Bool) (c : Client) : Option Client := do
  assert (c.buffer ≠ none)
  match c.phase with
  | .sendingHello => awaitReply alloc 2 2 .sentHello c
  -- only the header is received at first, in a buffer for the longer one of the addresses
  | .sendingRequest => awaitReply alloc (4 + max 6 18) 4 .sentRequest c
  | .sendingPassword => awaitReply alloc 2 2 .sentPassword c
  | _ => none

/-- `output_handler_done` of PacketStreamSender.c and the end of the packet, with the bytes
written to the connection -/
def outputHandlerDone (alloc : Bool) (len : ℕ) (c : Client) : Option Client := do
  let packet := c.buffer.getD []
  match c.inUsed with
  | none => none
  | some used => do
      assert (0 < len)
      assert (len ≤ packet.length - used)
      let sent := c.sent ++ (packet.drop used).take len
      if used + len < packet.length then
        some { c with inUsed := some (used + len), sent := sent }
      else
        sendHandlerDone alloc { c with inUsed := none, sent := sent }

/-! The branches of `recv_handler_done`, by the state of the client -/

def receivedHello (alloc : Bool) (c : Client) : Option Client :=
  let buffer := c.buffer.getD []
  if buffer.getD 0 0 ≠ socksVersion then
    some (c.reportError .wrongVersion)
  else
    match c.authInfo.find? (fun info => info.authType == buffer.getD 1 0) with
    | none => some (c.reportError .noMethodAccepted)
    | some .none => authFinished alloc c
    | some (.password username password) =>
        if username.length = 0 ∨ 255 < username.length ∨ password.length = 0 ∨
            255 < password.length then
          some (c.reportError .invalidLength)
        else if alloc = false then
          some (c.reportError .reallocFailed)
        else
          sendPacket (1 + 1 + username.length + 1 + password.length)
            (passwordPacket username password) .sendingPassword c

def receivedPasswordReply (alloc : Bool) (c : Client) : Option Client :=
  let buffer := c.buffer.getD []
  if buffer.getD 0 0 ≠ 1 then
    some (c.reportError .passwordReplyVersion)
  else if buffer.getD 1 0 ≠ 0 then
    some (c.reportError .passwordReplyNegative)
  else
    authFinished alloc c

def receivedReply (c : Client) : Option Client :=
  let buffer := c.buffer.getD []
  if buffer.getD 0 0 ≠ socksVersion then
    some (c.reportError .wrongVersion)
  else if buffer.getD 1 0 ≠ socksRepSucceeded then
    some (c.reportError .replyNotSuccessful)
  else
    match addrLen (buffer.getD 3 0) with
    | none => some (c.reportError .unknownAddressType)
    | some len => do
        let c ← startReceive 4 len c
        some { c with phase := .receivedReplyHeader }

def replyReceived (alloc : Bool) (c : Client) : Option Client :=
  match c.phase with
  | .sentHello => receivedHello alloc c
  | .sentPassword => receivedPasswordReply alloc c
  | .sentRequest => receivedReply c
  | .receivedReplyHeader =>
      some { c with buffer := none, resources := .data, phase := .up, up := true }
  | _ => none

/-- `recv_handler_done`, with the bytes that the connection has stored -/
def recvHandlerDone (alloc : Bool) (data : List UInt8) (c : Client) : Option Client := do
  assert (c.receiving = true)
  assert (data.length ≤ c.recvTotal - c.recvLen)
  let buffer ← store (c.recvDest + c.recvLen) data (c.buffer.getD [])
  let c := { c with
    buffer := some buffer
    recvLen := c.recvLen + data.length
    received := c.received ++ data }
  if c.recvLen < c.recvTotal then
    some c
  else
    replyReceived alloc { c with receiving := false }

/-- What `BSocksClient_Free` frees besides the connector and the buffer, by its state -/
def freedResources (c : Client) : Resources :=
  if c.phase = .connecting then .connector else if c.phase = .up then .data else .control

end Client

/-- What the reactor reports to a client: the end of the connection attempt, bytes written, bytes
received, or the end of the connection. -/
inductive Event
  | connected (isError initOk : Bool)
  | written (len : ℕ)
  | read (data : List UInt8)
  | connection (recvClosed : Bool)
deriving DecidableEq

namespace Client

def step : Event × Bool → Client → Option Client
  | (.connected isError initOk, alloc), c => c.connectorHandler isError initOk alloc
  | (.written len, alloc), c => c.outputHandlerDone alloc len
  | (.read data, alloc), c => c.recvHandlerDone alloc data
  | (.connection recvClosed, _), c => c.connectionHandler recvClosed

/-- A client is called back until it has reported an error: once for the connector, with at most
the bytes it has passed on, with at most the bytes it has asked for and at least one of them, and
about the connection while there is one. -/
def Allowed : Event × Bool → Client → Prop
  | (.connected _ _, _), c => c.failed = none ∧ c.phase = .connecting
  | (.written len, _), c =>
      c.failed = none ∧ ∃ used, c.inUsed = some used ∧ 0 < len ∧
        used + len ≤ (c.buffer.getD []).length
  | (.read data, _), c =>
      c.failed = none ∧ c.receiving = true ∧ 0 < data.length ∧
        c.recvLen + data.length ≤ c.recvTotal
  | (.connection _, _), c => c.failed = none ∧ c.phase ≠ .connecting

instance : ∀ (e : Event × Bool) (c : Client), Decidable (Allowed e c)
  | (.connected _ _, _), c => inferInstanceAs (Decidable (c.failed = none ∧ c.phase = .connecting))
  | (.written len, _), c =>
      match hused : c.inUsed with
      | none => isFalse fun ⟨_, used, h, _⟩ => by rw [hused] at h; cases h
      | some used =>
          decidable_of_iff
            (c.failed = none ∧ 0 < len ∧ used + len ≤ (c.buffer.getD []).length)
            ⟨fun ⟨hf, hpos, hle⟩ => ⟨hf, used, hused, hpos, hle⟩, fun ⟨hf, used', h, hpos, hle⟩ =>
              ⟨hf, hpos, by rw [hused] at h; cases h; exact hle⟩⟩
  | (.read data, _), c =>
      inferInstanceAs (Decidable (c.failed = none ∧ c.receiving = true ∧ 0 < data.length ∧
        c.recvLen + data.length ≤ c.recvTotal))
  | (.connection _, _), c => inferInstanceAs (Decidable (c.failed = none ∧ c.phase ≠ .connecting))

end Client

end Socks

end Matador
