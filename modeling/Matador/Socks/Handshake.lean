import Mathlib.Data.List.Basic
import Mathlib.Data.List.TakeDrop
import Mathlib.Tactic.Common
import Matador.Library.Dialogue
import Matador.Library.Transition
import Matador.Socks.Client

/-!
# The handshake that the SOCKS client carries out

`handshake` is the handshake as a dialogue: what is written, how long each reply is, and how it
goes on. The client refines it. Its position in the dialogue is read off its state, by `residual`,
and every callback takes it to the position that the dialogue has after the same bytes, however
the packets and replies are cut. So the outcome depends on the bytes of the server alone, and no
byte behind the last reply is read.
-/

namespace Matador

namespace Socks

open Check Dialogue Transition

/-! ### The handshake as a dialogue -/

def replied (header : List UInt8) : Dialogue UInt8 (Except Failure Unit) :=
  if header.getD 0 0 ≠ socksVersion then
    .stop (.error .wrongVersion)
  else if header.getD 1 0 ≠ socksRepSucceeded then
    .stop (.error .replyNotSuccessful)
  else
    match addrLen (header.getD 3 0) with
    | none => .stop (.error .unknownAddressType)
    | some len => .recv len fun _ => .stop (.ok ())

def requesting (destAddr : Addr) : Dialogue UInt8 (Except Failure Unit) :=
  .send (request destAddr) (.recv 4 replied)

def authenticated (destAddr : Addr) (reply : List UInt8) :
    Dialogue UInt8 (Except Failure Unit) :=
  if reply.getD 0 0 ≠ 1 then
    .stop (.error .passwordReplyVersion)
  else if reply.getD 1 0 ≠ 0 then
    .stop (.error .passwordReplyNegative)
  else
    requesting destAddr

def greeted (authInfo : List AuthInfo) (destAddr : Addr) (reply : List UInt8) :
    Dialogue UInt8 (Except Failure Unit) :=
  if reply.getD 0 0 ≠ socksVersion then
    .stop (.error .wrongVersion)
  else
    match authInfo.find? (fun info => info.authType == reply.getD 1 0) with
    | none => .stop (.error .noMethodAccepted)
    | some .none => requesting destAddr
    | some (.password username password) =>
        if username.length = 0 ∨ 255 < username.length ∨ password.length = 0 ∨
            255 < password.length then
          .stop (.error .invalidLength)
        else
          .send (passwordPacket username password) (.recv 2 (authenticated destAddr))

def handshake (authInfo : List AuthInfo) (destAddr : Addr) :
    Dialogue UInt8 (Except Failure Unit) :=
  if authInfo.length = 0 ∨ 255 < authInfo.length then
    .stop (.error .invalidNumberOfMethods)
  else
    .send (hello authInfo) (.recv 2 (greeted authInfo destAddr))

namespace Client

/-! ### The position of a client in it -/

def packetLeft (c : Client) : List UInt8 := (c.buffer.getD []).drop (c.inUsed.getD 0)

def replyPart (c : Client) : List UInt8 := ((c.buffer.getD []).drop c.recvDest).take c.recvLen

/-- How the handshake goes on from the state of a client. -/
def residual (c : Client) : Dialogue UInt8 (Except Failure Unit) :=
  match c.phase with
  | .connecting => handshake c.authInfo c.destAddr
  | .sendingHello => .send c.packetLeft (.recv 2 (greeted c.authInfo c.destAddr))
  | .sentHello => .recv (c.recvTotal - c.recvLen) fun rest =>
      greeted c.authInfo c.destAddr (c.replyPart ++ rest)
  | .sendingPassword => .send c.packetLeft (.recv 2 (authenticated c.destAddr))
  | .sentPassword => .recv (c.recvTotal - c.recvLen) fun rest =>
      authenticated c.destAddr (c.replyPart ++ rest)
  | .sendingRequest => .send c.packetLeft (.recv 4 replied)
  | .sentRequest => .recv (c.recvTotal - c.recvLen) fun rest => replied (c.replyPart ++ rest)
  | .receivedReplyHeader => .recv (c.recvTotal - c.recvLen) fun _ => .stop (.ok ())
  | .up => .stop (.ok ())

def Writes (c : Client) : Prop :=
  ∃ packet used, c.buffer = some packet ∧ c.inUsed = some used ∧ used < packet.length ∧
    c.receiving = false

/-- A reply of `total` bytes is being received at an offset in a buffer of `size` bytes. -/
def Reads (dest total size : ℕ) (c : Client) : Prop :=
  ∃ buffer, c.buffer = some buffer ∧ buffer.length = size ∧ c.inUsed = none ∧
    c.receiving = true ∧ c.recvDest = dest ∧ c.recvTotal = total ∧ c.recvLen < total ∧
    dest + total ≤ size

/-- What the buffer is used for in each state. -/
def Shape (c : Client) : Prop :=
  match c.phase with
  | .connecting => c.inUsed = none ∧ c.receiving = false
  | .sendingHello | .sendingPassword | .sendingRequest => c.Writes
  | .sentHello | .sentPassword => c.Reads 0 2 2
  | .sentRequest => c.Reads 0 4 22
  | .receivedReplyHeader => ∃ len, c.Reads 4 len 22
  | .up => c.inUsed = none ∧ c.receiving = false

end Client

/-- The errors that the server's answers cause, and the length of the list of methods. -/
def Failure.protocol : Failure → Bool
  | .invalidNumberOfMethods | .wrongVersion | .noMethodAccepted | .invalidLength
  | .passwordReplyVersion | .passwordReplyNegative | .replyNotSuccessful
  | .unknownAddressType => true
  | _ => false

namespace Client

/-- What a client keeps whatever happens: its arguments, the resources that go with its state, and
that it was reported up if it is. -/
structure Base (authInfo : List AuthInfo) (destAddr : Addr) (c : Client) : Prop where
  auth : c.authInfo = authInfo
  dest : c.destAddr = destAddr
  resources : c.resources = c.freedResources
  up : c.up = decide (c.phase = .up)

/-- The client is where the handshake is after the bytes written and read; if it has failed over
an answer, the handshake has too, and if it was up, the handshake has succeeded. -/
structure Inv (authInfo : List AuthInfo) (destAddr : Addr) (c : Client) : Prop
    extends Base authInfo destAddr c where
  talk : ∃ d, (handshake authInfo destAddr).After c.sent c.received d ∧
    (c.failed = none → d = c.residual) ∧
    (∀ why, c.failed = some why → why.protocol = true → d = .stop (.error why)) ∧
    (c.up = true → d = .stop (.ok ()))
  shape : c.failed = none → c.Shape

variable {authInfo : List AuthInfo} {destAddr : Addr} {c c' : Client}

theorem inv_init : Inv authInfo destAddr (init authInfo destAddr) where
  auth := rfl
  dest := rfl
  talk := ⟨_, After.refl _, fun _ => rfl, by simp [init], by simp [init]⟩
  shape := fun _ => ⟨rfl, rfl⟩
  resources := rfl
  up := rfl

theorem Inv.after (h : Inv authInfo destAddr c) (hf : c.failed = none) :
    (handshake authInfo destAddr).After c.sent c.received c.residual := by
  obtain ⟨d, hd, heq, -⟩ := h.talk
  rw [← heq hf]
  exact hd

theorem Base.residual_of_up (h : c.Base authInfo destAddr) (hup : c.up = true) :
    c.residual = .stop (.ok ()) := by
  have hp : c.phase = .up := of_decide_eq_true (h.up.symm.trans hup)
  rw [residual, hp]

theorem inv_of_after {d : Dialogue UInt8 (Except Failure Unit)} (hb : c.Base authInfo destAddr)
    (hf : c.failed = none) (hs : c.Shape) (hd : c.residual = d)
    (h : (handshake authInfo destAddr).After c.sent c.received d) : Inv authInfo destAddr c where
  toBase := hb
  talk := by
    refine ⟨d, h, fun _ => hd.symm, ?_, fun hup => hd.symm.trans (hb.residual_of_up hup)⟩
    intro why hw
    exact absurd (hf.symm.trans hw) (by simp)
  shape := fun _ => hs

/-- A client that fails over an answer has failed as the handshake does. -/
theorem inv_of_stop {why : Failure} (hb : c.Base authInfo destAddr) (hup : c.up = false)
    (h : (handshake authInfo destAddr).After c.sent c.received (.stop (.error why))) :
    Inv authInfo destAddr (c.reportError why) where
  auth := hb.auth
  dest := hb.dest
  resources := hb.resources
  up := hb.up
  talk := by
    refine ⟨_, h, by simp [reportError], ?_, by simp [reportError, hup]⟩
    rintro why' ⟨⟩ -
    rfl
  shape := by simp [reportError]

/-- A client may fail for another reason at any time. -/
theorem inv_of_break {why : Failure} {d : Dialogue UInt8 (Except Failure Unit)}
    (hb : c.Base authInfo destAddr) (hw : why.protocol = false)
    (hup : c.up = true → d = .stop (.ok ()))
    (h : (handshake authInfo destAddr).After c.sent c.received d) :
    Inv authInfo destAddr (c.reportError why) where
  auth := hb.auth
  dest := hb.dest
  resources := hb.resources
  up := hb.up
  talk := by
    refine ⟨d, h, by simp [reportError], ?_, hup⟩
    rintro why' ⟨⟩ hp
    exact absurd (hw.symm.trans hp) (by simp)
  shape := by simp [reportError]

def Writing (phase : Phase) : Prop :=
  phase = .sendingHello ∨ phase = .sendingPassword ∨ phase = .sendingRequest

/-- The states in which a reply is awaited, with its length and that of the buffer. -/
def Awaiting (phase : Phase) (total size : ℕ) : Prop :=
  (phase = .sentHello ∨ phase = .sentPassword) ∧ total = 2 ∧ size = 2 ∨
    phase = .sentRequest ∧ total = 4 ∧ size = 22

def Reading (phase : Phase) : Prop :=
  phase = .sentHello ∨ phase = .sentPassword ∨ phase = .sentRequest ∨
    phase = .receivedReplyHeader

theorem Reading.between {phase : Phase} (h : Reading phase) :
    phase ≠ .connecting ∧ phase ≠ .up := by
  obtain rfl | rfl | rfl | rfl := h <;> simp

/-- A client that has not failed waits for an answer about the connection, writes or reads. -/
theorem Shape.cases (h : c.Shape) :
    (c.phase = .connecting ∨ c.phase = .up) ∧ c.inUsed = none ∧ c.receiving = false ∨
      Writing c.phase ∧ c.Writes ∨
      Reading c.phase ∧ ∃ dest total size, c.Reads dest total size := by
  rw [Shape] at h
  cases hp : c.phase <;> rw [hp] at h
  case connecting => exact .inl ⟨.inl rfl, h⟩
  case up => exact .inl ⟨.inr rfl, h⟩
  case sendingHello => exact .inr (.inl ⟨.inl rfl, h⟩)
  case sendingPassword => exact .inr (.inl ⟨.inr (.inl rfl), h⟩)
  case sendingRequest => exact .inr (.inl ⟨.inr (.inr rfl), h⟩)
  case sentHello => exact .inr (.inr ⟨.inl rfl, _, _, _, h⟩)
  case sentPassword => exact .inr (.inr ⟨.inr (.inl rfl), _, _, _, h⟩)
  case sentRequest => exact .inr (.inr ⟨.inr (.inr (.inl rfl)), _, _, _, h⟩)
  case receivedReplyHeader =>
    obtain ⟨len, hreads⟩ := h
    exact .inr (.inr ⟨.inr (.inr (.inr rfl)), _, _, _, hreads⟩)

theorem shape_of_writes (hphase : Writing c.phase) (h : c.Writes) : c.Shape := by
  rw [Shape]
  obtain hp | hp | hp := hphase <;> rw [hp] <;> exact h

theorem shape_of_reads {total size : ℕ} (hphase : Awaiting c.phase total size)
    (h : c.Reads 0 total size) : c.Shape := by
  rw [Shape]
  obtain ⟨hp | hp, rfl, rfl⟩ | ⟨hp, rfl, rfl⟩ := hphase <;> rw [hp] <;> exact h

/-- Between the connector and the end of the handshake a client has the connection with the
interfaces of the handshake, and has not been reported up. -/
theorem base_of_control (hauth : c.authInfo = authInfo) (hdest : c.destAddr = destAddr)
    (hres : c.resources = .control) (hup : c.up = false) (hstart : c.phase ≠ .connecting)
    (hend : c.phase ≠ .up) : c.Base authInfo destAddr :=
  ⟨hauth, hdest, by rw [hres, freedResources, if_neg hstart, if_neg hend],
    by rw [hup, decide_eq_false hend]⟩

theorem Base.control (h : c.Base authInfo destAddr) (hstart : c.phase ≠ .connecting)
    (hend : c.phase ≠ .up) : c.resources = .control ∧ c.up = false :=
  ⟨by rw [h.resources, freedResources, if_neg hstart, if_neg hend],
    by rw [h.up, decide_eq_false hend]⟩

theorem Writing.between {phase : Phase} (h : Writing phase) :
    phase ≠ .connecting ∧ phase ≠ .up := by
  obtain rfl | rfl | rfl := h <;> simp

theorem Awaiting.between {phase : Phase} {total size : ℕ} (h : Awaiting phase total size) :
    phase ≠ .connecting ∧ phase ≠ .up := by
  obtain ⟨rfl | rfl, -⟩ | ⟨rfl, -⟩ := h <;> simp

/-! ### The buffer -/

@[simp] theorem length_realloc (size : ℕ) (buffer : Option (List UInt8)) :
    (realloc size buffer).length = size := by
  simp only [realloc, List.length_append, List.length_take, List.length_replicate]
  omega

theorem sendPacket_eq {size : ℕ} {packet : List UInt8} {phase : Phase}
    (hsize : size = packet.length) (hused : c.inUsed = none) :
    c.sendPacket size packet phase =
      some { c with buffer := some packet, inUsed := some 0, phase := phase } := by
  have hfits : 0 + packet.length ≤ (realloc size c.buffer).length := by
    rw [length_realloc]
    omega
  have hnone : (realloc size c.buffer).drop (0 + packet.length) = [] :=
    List.drop_of_length_le (by rw [length_realloc]; omega)
  simp only [sendPacket, store, assert_of hfits, assert_of hused, hnone, Option.bind_eq_bind,
    Option.bind_some, List.take_zero, List.nil_append, List.append_nil]

theorem awaitReply_eq {size total : ℕ} {phase : Phase} (hpos : 0 < total)
    (hidle : c.receiving = false) :
    c.awaitReply true size total phase = some { c with
      buffer := some (realloc size c.buffer)
      receiving := true
      recvDest := 0
      recvLen := 0
      recvTotal := total
      phase := phase } := by
  simp only [awaitReply, startReceive, assert_of hpos, assert_of hidle, Option.bind_eq_bind,
    Option.bind_some, if_true]

/-- Bytes stored behind those of a reply extend it. -/
theorem take_drop_store {dest len : ℕ} {data buffer : List UInt8}
    (h : dest + len + data.length ≤ buffer.length) :
    ((buffer.take (dest + len) ++ data ++ buffer.drop (dest + len + data.length)).drop dest).take
      (len + data.length) = (buffer.drop dest).take len ++ data := by
  have hle : dest ≤ (buffer.take (dest + len)).length := by
    rw [List.length_take]
    omega
  rw [List.append_assoc, List.drop_append_of_le_length hle, List.drop_take,
    Nat.add_sub_cancel_left, List.take_append, List.take_take, List.take_append]
  have hlen : ((buffer.drop dest).take len).length = len := by
    rw [List.length_take, List.length_drop]
    omega
  rw [hlen, Nat.add_sub_cancel_left, Nat.min_eq_right (Nat.le_add_right _ _),
    List.take_of_length_le (Nat.le_refl data.length), Nat.sub_self, List.take_zero, List.append_nil]

/-! ### The callbacks -/

theorem length_hello (authInfo : List AuthInfo) :
    (hello authInfo).length = 2 + authInfo.length := by
  simp [hello]
  omega

theorem length_passwordPacket (username password : List UInt8) :
    (passwordPacket username password).length =
      1 + 1 + username.length + 1 + password.length := by
  simp [passwordPacket]
  omega

theorem length_request (destAddr : Addr) :
    (request destAddr).length = 4 + destAddr.bytes.length := by
  simp [request]
  omega

theorem inv_sendPacket {packet : List UInt8} {phase : Phase} (hauth : c.authInfo = authInfo)
    (hdest : c.destAddr = destAddr) (hf : c.failed = none) (hres : c.resources = .control)
    (hup : c.up = false) (hidle : c.inUsed = none ∧ c.receiving = false)
    (hpos : 0 < packet.length) (hphase : Writing phase)
    (h : (handshake authInfo destAddr).After c.sent c.received
      (residual { c with buffer := some packet, inUsed := some 0, phase := phase })) :
    ∃ c', c.sendPacket packet.length packet phase = some c' ∧ Inv authInfo destAddr c' :=
  ⟨_, sendPacket_eq rfl hidle.1, inv_of_after
    (base_of_control hauth hdest hres hup hphase.between.1 hphase.between.2) hf
    (shape_of_writes hphase ⟨packet, 0, rfl, rfl, hpos, hidle.2⟩) rfl h⟩

theorem connectorHandler_inv {isError initOk alloc : Bool} (h : Inv authInfo destAddr c)
    (hf : c.failed = none) (hp : c.phase = .connecting) :
    ∃ c', c.connectorHandler isError initOk alloc = some c' ∧ Inv authInfo destAddr c' := by
  obtain rfl := h.auth
  obtain rfl := h.dest
  have hafter := h.after hf
  have hshape := h.shape hf
  have hup := h.up
  have hhere : c.residual = handshake c.authInfo c.destAddr := by rw [residual, hp]
  rw [Shape, hp] at hshape
  rw [hp] at hup
  rw [connectorHandler, assert_of hp, Option.bind_eq_bind, Option.bind_some]
  split_ifs with herr hinit hnum halloc
  · exact ⟨_, rfl, inv_of_break h.toBase rfl (by simp [hup]) hafter⟩
  · exact ⟨_, rfl, inv_of_break h.toBase rfl (by simp [hup]) hafter⟩
  · have hstop : c.residual = .stop (.error .invalidNumberOfMethods) := by
      rw [hhere, handshake, if_pos hnum]
    exact ⟨_, rfl, inv_of_stop h.toBase hup (hstop ▸ hafter)⟩
  · exact ⟨_, rfl, inv_of_break h.toBase rfl (by simp [hup]) hafter⟩
  · have hsend : c.residual =
        .send (hello c.authInfo) (.recv 2 (greeted c.authInfo c.destAddr)) := by
      rw [hhere, handshake, if_neg hnum]
    rw [hsend] at hafter
    dsimp only
    rw [← length_hello]
    exact inv_sendPacket (c := { c with resources := .control }) rfl rfl hf rfl hup hshape
      (by rw [length_hello]; omega) (.inl rfl) hafter

theorem connectionHandler_inv {recvClosed : Bool} (h : Inv authInfo destAddr c)
    (hf : c.failed = none) (hp : c.phase ≠ .connecting) :
    ∃ c', c.connectionHandler recvClosed = some c' ∧ Inv authInfo destAddr c' := by
  rw [connectionHandler, assert_of hp, Option.bind_eq_bind, Option.bind_some]
  split_ifs with hup
  · exact ⟨_, rfl, inv_of_break h.toBase rfl h.toBase.residual_of_up (h.after hf)⟩
  · exact ⟨_, rfl, inv_of_break h.toBase rfl h.toBase.residual_of_up (h.after hf)⟩

theorem inv_awaitReply {alloc : Bool} {size total : ℕ} {phase : Phase}
    {next : List UInt8 → Dialogue UInt8 (Except Failure Unit)} (hb : c.Base authInfo destAddr)
    (hf : c.failed = none) (hcontrol : c.resources = .control ∧ c.up = false)
    (hidle : c.inUsed = none ∧ c.receiving = false) (hphase : Awaiting phase total size)
    (h : (handshake authInfo destAddr).After c.sent c.received (.recv total next))
    (hnext : ∀ c₁ : Client, c₁.phase = phase → c₁.authInfo = authInfo →
      c₁.destAddr = destAddr → c₁.recvLen = 0 → c₁.recvTotal = total →
      c₁.residual = .recv total next) :
    ∃ c', c.awaitReply alloc size total phase = some c' ∧ Inv authInfo destAddr c' := by
  have hpos : 0 < total ∧ total ≤ size := by
    obtain ⟨-, rfl, rfl⟩ | ⟨-, rfl, rfl⟩ := hphase <;> decide
  cases alloc with
  | false => exact ⟨_, rfl, inv_of_break hb rfl (by simp [hcontrol.2]) h⟩
  | true =>
      refine ⟨_, awaitReply_eq hpos.1 hidle.2, inv_of_after
        (base_of_control hb.auth hb.dest hcontrol.1 hcontrol.2 hphase.between.1 hphase.between.2)
        hf (shape_of_reads hphase ?_) (hnext _ rfl hb.auth hb.dest rfl rfl) h⟩
      exact ⟨_, rfl, length_realloc _ _, hidle.1, rfl, rfl, rfl, hpos.1, by omega⟩

theorem after_write {packet : List UInt8} {used : ℕ} (len : ℕ) {w r : List UInt8}
    {d next : Dialogue UInt8 (Except Failure Unit)}
    (h : d.After w r (.send (packet.drop used) next)) :
    d.After (w ++ (packet.drop used).take len) r (.send (packet.drop (used + len)) next) := by
  rw [← List.take_append_drop len (packet.drop used), List.drop_drop] at h
  exact h.write

theorem outputHandlerDone_of {alloc : Bool} {len size total : ℕ} (phase' : Phase)
    (next : List UInt8 → Dialogue UInt8 (Except Failure Unit))
    (h : Inv authInfo destAddr c) (hf : c.failed = none) (hphase : Writing c.phase)
    (hpos : 0 < len) (hwrites : c.Writes)
    (hle : c.inUsed.getD 0 + len ≤ (c.buffer.getD []).length)
    (hreply : Awaiting phase' total size)
    (hdone : ∀ c₁ : Client, c₁.buffer ≠ none → c₁.phase = c.phase →
      c₁.sendHandlerDone alloc = c₁.awaitReply alloc size total phase')
    (hres : ∀ c₁ : Client, c₁.phase = c.phase → c₁.authInfo = authInfo →
      c₁.destAddr = destAddr → c₁.residual = .send c₁.packetLeft (.recv total next))
    (hnext : ∀ c₁ : Client, c₁.phase = phase' → c₁.authInfo = authInfo →
      c₁.destAddr = destAddr → c₁.recvLen = 0 → c₁.recvTotal = total →
      c₁.residual = .recv total next) :
    ∃ c', c.outputHandlerDone alloc len = some c' ∧ Inv authInfo destAddr c' := by
  obtain ⟨packet, used, hbuf, hused, hlt, hidle⟩ := hwrites
  simp only [hbuf, hused, Option.getD_some] at hle
  have hafter := h.after hf
  rw [hres c rfl h.auth h.dest, packetLeft, hbuf, hused, Option.getD_some, Option.getD_some]
    at hafter
  have hwritten := after_write len hafter
  have hlen : len ≤ packet.length - used := by omega
  simp only [outputHandlerDone, hbuf, hused, Option.getD_some, assert_of hpos, assert_of hlen,
    Option.bind_eq_bind, Option.bind_some]
  split_ifs with hmore
  · exact ⟨_, rfl, inv_of_after ⟨h.auth, h.dest, h.resources, h.up⟩ hf
      (shape_of_writes hphase ⟨packet, used + len, rfl, rfl, hmore, hidle⟩)
      (hres _ rfl h.auth h.dest) hwritten⟩
  · rw [List.drop_of_length_le (Nat.le_of_not_lt hmore)] at hwritten
    rw [hdone _ ?_ ?_]
    · exact inv_awaitReply ⟨h.auth, h.dest, h.resources, h.up⟩ hf
        (h.toBase.control hphase.between.1 hphase.between.2) ⟨rfl, hidle⟩ hreply hwritten.written
        hnext
    · exact Option.some_ne_none _
    · rfl

theorem writing_of_inUsed {used : ℕ} (h : Inv authInfo destAddr c) (hf : c.failed = none)
    (hused : c.inUsed = some used) : Writing c.phase ∧ c.Writes := by
  obtain ⟨-, hnone, -⟩ | hwrites | ⟨-, -, -, -, -, -, -, hnone, -⟩ := (h.shape hf).cases
  · exact absurd (hused.symm.trans hnone) (by simp)
  · exact hwrites
  · exact absurd (hused.symm.trans hnone) (by simp)

theorem outputHandlerDone_inv {alloc : Bool} {used len : ℕ} (h : Inv authInfo destAddr c)
    (hf : c.failed = none) (hused : c.inUsed = some used) (hpos : 0 < len)
    (hle : used + len ≤ (c.buffer.getD []).length) :
    ∃ c', c.outputHandlerDone alloc len = some c' ∧ Inv authInfo destAddr c' := by
  have hle' : c.inUsed.getD 0 + len ≤ (c.buffer.getD []).length := by rw [hused]; exact hle
  obtain ⟨hphase, hwrites⟩ := writing_of_inUsed h hf hused
  obtain hp | hp | hp := hphase
  · refine outputHandlerDone_of .sentHello (greeted authInfo destAddr) h hf (.inl hp) hpos
      hwrites hle' (.inl ⟨.inl rfl, rfl, rfl⟩) ?_ ?_ ?_
    · intro c₁ hb hp₁
      simp only [sendHandlerDone, assert_of hb, hp₁, hp, Option.bind_eq_bind, Option.bind_some]
    · rintro c₁ hp₁ rfl rfl
      rw [residual, hp₁, hp]
    · rintro c₁ hp₁ rfl rfl hzero htotal
      simp only [residual, hp₁, hzero, htotal, replyPart, List.take_zero, List.nil_append,
        Nat.sub_zero]
  · refine outputHandlerDone_of .sentPassword (authenticated destAddr) h hf (.inr (.inl hp)) hpos
      hwrites hle' (.inl ⟨.inr rfl, rfl, rfl⟩) ?_ ?_ ?_
    · intro c₁ hb hp₁
      simp only [sendHandlerDone, assert_of hb, hp₁, hp, Option.bind_eq_bind, Option.bind_some]
    · rintro c₁ hp₁ rfl rfl
      rw [residual, hp₁, hp]
    · rintro c₁ hp₁ rfl rfl hzero htotal
      simp only [residual, hp₁, hzero, htotal, replyPart, List.take_zero, List.nil_append,
        Nat.sub_zero]
  · refine outputHandlerDone_of .sentRequest replied h hf (.inr (.inr hp)) hpos hwrites hle'
      (.inr ⟨rfl, rfl, rfl⟩) ?_ ?_ ?_
    · intro c₁ hb hp₁
      simp only [sendHandlerDone, assert_of hb, hp₁, hp, Option.bind_eq_bind, Option.bind_some]
      rfl
    · rintro c₁ hp₁ rfl rfl
      rw [residual, hp₁, hp]
    · rintro c₁ hp₁ rfl rfl hzero htotal
      simp only [residual, hp₁, hzero, htotal, replyPart, List.take_zero, List.nil_append,
        Nat.sub_zero]

def goOn (c : Client) : List UInt8 → Dialogue UInt8 (Except Failure Unit) :=
  match c.phase with
  | .sentHello => greeted c.authInfo c.destAddr
  | .sentPassword => authenticated c.destAddr
  | .sentRequest => replied
  | _ => fun _ => .stop (.ok ())

theorem residual_of_reading (h : Reading c.phase) :
    c.residual = .recv (c.recvTotal - c.recvLen) fun rest => c.goOn (c.replyPart ++ rest) := by
  obtain hp | hp | hp | hp := h <;> simp only [residual, goOn, hp]

theorem reading_of_receiving (h : Inv authInfo destAddr c) (hf : c.failed = none)
    (hr : c.receiving = true) : Reading c.phase := by
  obtain ⟨-, hidle⟩ | ⟨-, -, -, -, -, -, hidle⟩ | ⟨hphase, -⟩ := (h.shape hf).cases
  · exact absurd (hr.symm.trans hidle.2) (by simp)
  · exact absurd (hr.symm.trans hidle) (by simp)
  · exact hphase

def took (data buffer : List UInt8) (c : Client) : Client :=
  { c with
    buffer := some buffer
    recvLen := c.recvLen + data.length
    received := c.received ++ data }

/-- Bytes that were asked for are stored in the buffer, behind those that are there. -/
theorem recvHandlerDone_eq (alloc : Bool) {data : List UInt8} {dest total size : ℕ}
    (h : c.Reads dest total size) (hle : c.recvLen + data.length ≤ c.recvTotal) :
    ∃ buffer, buffer.length = size ∧ (c.took data buffer).replyPart = c.replyPart ++ data ∧
      c.recvHandlerDone alloc data =
        if c.recvLen + data.length < c.recvTotal then some (c.took data buffer)
        else replyReceived alloc { c.took data buffer with receiving := false } := by
  obtain ⟨buffer, hbuf, rfl, -, hr, rfl, rfl, -, hroom⟩ := h
  have hfits : c.recvDest + c.recvLen + data.length ≤ buffer.length := by omega
  have hdata : data.length ≤ c.recvTotal - c.recvLen := by omega
  refine ⟨buffer.take (c.recvDest + c.recvLen) ++ data ++
    buffer.drop (c.recvDest + c.recvLen + data.length), ?_, ?_, ?_⟩
  · simp only [List.length_append, List.length_take, List.length_drop]
    omega
  · simp only [replyPart, took, hbuf, Option.getD_some]
    exact take_drop_store hfits
  · simp only [recvHandlerDone, store, hbuf, Option.getD_some, assert_of hr, assert_of hdata,
      assert_of hfits, Option.bind_eq_bind, Option.bind_some]
    rfl

theorem authFinished_inv {alloc : Bool} (hb : c.Base authInfo destAddr) (hf : c.failed = none)
    (hcontrol : c.resources = .control ∧ c.up = false)
    (hidle : c.inUsed = none ∧ c.receiving = false)
    (h : (handshake authInfo destAddr).After c.sent c.received (requesting destAddr)) :
    ∃ c', c.authFinished alloc = some c' ∧ Inv authInfo destAddr c' := by
  obtain rfl := hb.dest
  cases alloc with
  | false => exact ⟨_, rfl, inv_of_break hb rfl (by simp [hcontrol.2]) h⟩
  | true =>
      rw [authFinished, if_pos rfl, ← length_request]
      exact inv_sendPacket hb.auth rfl hf hcontrol.1 hcontrol.2 hidle
        (by rw [length_request]; omega) (.inr (.inr rfl)) h

theorem receivedHello_inv {alloc : Bool} (hb : c.Base authInfo destAddr) (hf : c.failed = none)
    (hcontrol : c.resources = .control ∧ c.up = false)
    (hidle : c.inUsed = none ∧ c.receiving = false)
    (h : (handshake authInfo destAddr).After c.sent c.received
      (greeted authInfo destAddr (c.buffer.getD []))) :
    ∃ c', c.receivedHello alloc = some c' ∧ Inv authInfo destAddr c' := by
  obtain rfl := hb.auth
  obtain rfl := hb.dest
  rw [greeted] at h
  rw [receivedHello]
  by_cases hversion : (c.buffer.getD []).getD 0 0 ≠ socksVersion
  · rw [if_pos hversion] at h ⊢
    exact ⟨_, rfl, inv_of_stop hb hcontrol.2 h⟩
  · rw [if_neg hversion] at h ⊢
    cases hfind : c.authInfo.find? fun info => info.authType == (c.buffer.getD []).getD 1 0 with
    | none =>
        rw [hfind] at h
        exact ⟨_, rfl, inv_of_stop hb hcontrol.2 h⟩
    | some info =>
        rw [hfind] at h
        cases info with
        | none => exact authFinished_inv hb hf hcontrol hidle h
        | password username password =>
            dsimp only at h ⊢
            split_ifs at h ⊢ with hlen halloc
            · exact ⟨_, rfl, inv_of_stop hb hcontrol.2 h⟩
            · exact ⟨_, rfl, inv_of_break hb rfl (by simp [hcontrol.2]) h⟩
            · rw [← length_passwordPacket]
              exact inv_sendPacket rfl rfl hf hcontrol.1 hcontrol.2 hidle
                (by rw [length_passwordPacket]; omega) (.inr (.inl rfl)) h

theorem receivedPasswordReply_inv {alloc : Bool} (hb : c.Base authInfo destAddr)
    (hf : c.failed = none) (hcontrol : c.resources = .control ∧ c.up = false)
    (hidle : c.inUsed = none ∧ c.receiving = false)
    (h : (handshake authInfo destAddr).After c.sent c.received
      (authenticated destAddr (c.buffer.getD []))) :
    ∃ c', c.receivedPasswordReply alloc = some c' ∧ Inv authInfo destAddr c' := by
  rw [authenticated] at h
  rw [receivedPasswordReply]
  split_ifs at h ⊢ with hversion hstatus
  · exact ⟨_, rfl, inv_of_stop hb hcontrol.2 h⟩
  · exact ⟨_, rfl, inv_of_stop hb hcontrol.2 h⟩
  · exact authFinished_inv hb hf hcontrol hidle h

theorem getD_take {n i : ℕ} (hi : i < n) (l : List UInt8) : (l.take n).getD i 0 = l.getD i 0 := by
  simp [List.getD_eq_getElem?_getD, List.getElem?_take_of_lt hi]

theorem addrLen_bounds {atyp : UInt8} {len : ℕ} (h : addrLen atyp = some len) :
    0 < len ∧ 4 + len ≤ 22 := by
  rw [addrLen] at h
  split_ifs at h <;> cases h <;> decide

theorem receivedReply_inv {buffer : List UInt8} (hb : c.Base authInfo destAddr)
    (hf : c.failed = none) (hcontrol : c.resources = .control ∧ c.up = false)
    (hidle : c.inUsed = none ∧ c.receiving = false) (hbuf : c.buffer = some buffer)
    (hsize : buffer.length = 22)
    (h : (handshake authInfo destAddr).After c.sent c.received (replied (buffer.take 4))) :
    ∃ c', c.receivedReply = some c' ∧ Inv authInfo destAddr c' := by
  rw [replied, getD_take (by decide), getD_take (by decide), getD_take (by decide)] at h
  rw [receivedReply, hbuf]
  dsimp only [Option.getD_some]
  split_ifs at h ⊢ with hversion hrep
  · exact ⟨_, rfl, inv_of_stop hb hcontrol.2 h⟩
  · exact ⟨_, rfl, inv_of_stop hb hcontrol.2 h⟩
  · cases hatyp : addrLen (buffer.getD 3 0) with
    | none =>
        rw [hatyp] at h
        exact ⟨_, rfl, inv_of_stop hb hcontrol.2 h⟩
    | some len =>
        rw [hatyp] at h
        obtain ⟨hpos, hroom⟩ := addrLen_bounds hatyp
        simp only [startReceive, assert_of hpos, assert_of hidle.2, Option.bind_eq_bind,
          Option.bind_some]
        refine ⟨_, rfl, inv_of_after (base_of_control hb.auth hb.dest hcontrol.1 hcontrol.2
          (by simp) (by simp)) hf ?_ rfl h⟩
        exact ⟨len, buffer, hbuf, hsize, hidle.1, rfl, rfl, rfl, hpos, hroom⟩

/-- While a part of the reply is still missing, its buffer is used as before. -/
theorem shape_took {data buffer : List UInt8} (hphase : Reading c.phase) (h : c.Shape)
    (hlen : buffer.length = (c.buffer.getD []).length)
    (hmore : c.recvLen + data.length < c.recvTotal) : (c.took data buffer).Shape := by
  have hkeep : ∀ dest total size, c.Reads dest total size →
      (c.took data buffer).Reads dest total size := by
    rintro dest total size ⟨old, hold, rfl, hnone, hr, hdest, rfl, -, hroom⟩
    rw [hold] at hlen
    exact ⟨buffer, rfl, hlen, hnone, hr, hdest, rfl, hmore, hroom⟩
  have hp' : (c.took data buffer).phase = c.phase := rfl
  rw [Shape, hp']
  rw [Shape] at h
  obtain hp | hp | hp | hp := hphase <;> rw [hp] at h ⊢
  · exact hkeep _ _ _ h
  · exact hkeep _ _ _ h
  · exact hkeep _ _ _ h
  · obtain ⟨len, hreads⟩ := h
    exact ⟨len, hkeep _ _ _ hreads⟩

theorem recvHandlerDone_of {alloc : Bool} {data : List UInt8} {dest total size : ℕ}
    (h : Inv authInfo destAddr c) (hf : c.failed = none) (hphase : Reading c.phase)
    (hreads : c.Reads dest total size) (hle : c.recvLen + data.length ≤ c.recvTotal)
    (hdone : ∀ buffer, buffer.length = size →
      (handshake authInfo destAddr).After c.sent (c.received ++ data)
        (c.goOn ((buffer.drop dest).take total)) →
      ∃ c', replyReceived alloc { c.took data buffer with receiving := false } = some c' ∧
        Inv authInfo destAddr c') :
    ∃ c', c.recvHandlerDone alloc data = some c' ∧ Inv authInfo destAddr c' := by
  obtain ⟨buffer, hlen, hpart, heq⟩ := recvHandlerDone_eq alloc hreads hle
  obtain ⟨old, hold, rfl, -, -, rfl, rfl, -⟩ := hreads
  have hafter := h.after hf
  rw [residual_of_reading hphase] at hafter
  have hread := hafter.read data (by omega)
  simp only [← List.append_assoc, ← hpart, Nat.sub_sub] at hread
  rw [heq]
  split_ifs with hmore
  · refine ⟨_, rfl, inv_of_after ⟨h.auth, h.dest, h.resources, h.up⟩ hf
      (shape_took hphase (h.shape hf) (by rw [hold]; exact hlen) hmore) ?_ hread⟩
    exact residual_of_reading (c := c.took data buffer) hphase
  · have hall : c.recvLen + data.length = c.recvTotal := by omega
    rw [hall, Nat.sub_self] at hread
    have hcomplete := hread.complete
    rw [List.append_nil, replyPart] at hcomplete
    refine hdone buffer hlen ?_
    rw [← hall]
    exact hcomplete

theorem recvHandlerDone_inv {alloc : Bool} {data : List UInt8} (h : Inv authInfo destAddr c)
    (hf : c.failed = none) (hr : c.receiving = true)
    (hle : c.recvLen + data.length ≤ c.recvTotal) :
    ∃ c', c.recvHandlerDone alloc data = some c' ∧ Inv authInfo destAddr c' := by
  have hphase := reading_of_receiving h hf hr
  have hcontrol := h.toBase.control hphase.between.1 hphase.between.2
  have hshape := h.shape hf
  rw [Shape] at hshape
  have hreading := hphase
  obtain hp | hp | hp | hp := hphase <;> rw [hp] at hshape
  · have hidle := hshape.choose_spec.2.2.1
    refine recvHandlerDone_of h hf hreading hshape hle fun buffer hlen hafter => ?_
    rw [goOn, hp, List.drop_zero, List.take_of_length_le (by omega), h.auth, h.dest] at hafter
    have heq : replyReceived alloc { c.took data buffer with receiving := false } =
        receivedHello alloc { c.took data buffer with receiving := false } := by
      simp only [replyReceived, took, hp]
    rw [heq]
    exact receivedHello_inv ⟨h.auth, h.dest, h.resources, h.up⟩ hf hcontrol ⟨hidle, rfl⟩ hafter
  · have hidle := hshape.choose_spec.2.2.1
    refine recvHandlerDone_of h hf hreading hshape hle fun buffer hlen hafter => ?_
    rw [goOn, hp, List.drop_zero, List.take_of_length_le (by omega), h.dest] at hafter
    have heq : replyReceived alloc { c.took data buffer with receiving := false } =
        receivedPasswordReply alloc { c.took data buffer with receiving := false } := by
      simp only [replyReceived, took, hp]
    rw [heq]
    exact receivedPasswordReply_inv ⟨h.auth, h.dest, h.resources, h.up⟩ hf hcontrol ⟨hidle, rfl⟩
      hafter
  · have hidle := hshape.choose_spec.2.2.1
    refine recvHandlerDone_of h hf hreading hshape hle fun buffer hlen hafter => ?_
    rw [goOn, hp, List.drop_zero] at hafter
    have heq : replyReceived alloc { c.took data buffer with receiving := false } =
        receivedReply { c.took data buffer with receiving := false } := by
      simp only [replyReceived, took, hp]
    rw [heq]
    exact receivedReply_inv ⟨h.auth, h.dest, h.resources, h.up⟩ hf hcontrol ⟨hidle, rfl⟩ rfl hlen
      hafter
  · obtain ⟨len, hreads⟩ := hshape
    have hidle := hreads.choose_spec.2.2.1
    refine recvHandlerDone_of h hf hreading hreads hle fun buffer hlen hafter => ?_
    rw [goOn, hp] at hafter
    have heq : replyReceived alloc { c.took data buffer with receiving := false } =
        some { c.took data buffer with
          receiving := false, buffer := none, resources := .data, phase := .up, up := true } := by
      simp only [replyReceived, took, hp]
    rw [heq]
    exact ⟨_, rfl, inv_of_after ⟨h.auth, h.dest, rfl, rfl⟩ hf ⟨hidle, rfl⟩ rfl hafter⟩

/-! ### Runs -/

/-- No callback that is allowed fails, and each keeps the client where the handshake is. -/
theorem step_inv {e : Event × Bool} (h : Inv authInfo destAddr c) (ha : Allowed e c) :
    ∃ c', step e c = some c' ∧ Inv authInfo destAddr c' := by
  obtain ⟨e, alloc⟩ := e
  cases e with
  | connected isError initOk => exact connectorHandler_inv h ha.1 ha.2
  | written len =>
      obtain ⟨hf, used, hused, hpos, hle⟩ := ha
      exact outputHandlerDone_inv h hf hused hpos hle
  | read data =>
      obtain ⟨hf, hr, -, hle⟩ := ha
      exact recvHandlerDone_inv h hf hr hle
  | connection recvClosed => exact connectionHandler_inv h ha.1 ha.2

theorem reachable_inv (h : Reachable step Allowed (init authInfo destAddr) c) :
    Inv authInfo destAddr c := by
  exact h.invariant_of_total inv_init fun _ _ => step_inv

end Client

end Socks

end Matador
