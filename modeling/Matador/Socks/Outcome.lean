import Mathlib.Data.List.Basic
import Mathlib.Tactic.Common
import Matador.Socks.Handshake

/-!
# What comes of the SOCKS handshake

The results about every run of a SOCKS client: no callback fails, and `BSocksClient_Free` frees
what the client holds; the outcome is that of the dialogue on the server's bytes, for any way in
which packets and replies are cut; a password and a request are written only to a server that has
asked for them; and the handshake comes to an end.
-/

namespace Matador

namespace Socks

open Check Dialogue Transition

/-! ### How much is written and read -/

theorem length_bytes_le (destAddr : Addr) : destAddr.bytes.length ≤ 18 := by
  cases destAddr <;> simp [Addr.bytes]

theorem replied_within (header : List UInt8) : (replied header).Within 0 18 := by
  rw [replied]
  split_ifs
  · exact within_stop _ _ _
  · exact within_stop _ _ _
  · split
    · exact within_stop _ _ _
    · next len hlen =>
      have hroom := (Client.addrLen_bounds hlen).2
      exact Within.recv (n := 0) (fun _ => within_stop _ _ _) (by omega)

theorem requesting_within (destAddr : Addr) : (requesting destAddr).Within 22 22 := by
  have hlen := length_bytes_le destAddr
  refine Within.send (Within.recv replied_within (Nat.le_refl _)) ?_
  rw [Client.length_request]
  omega

theorem authenticated_within (destAddr : Addr) (reply : List UInt8) :
    (authenticated destAddr reply).Within 22 22 := by
  rw [authenticated]
  split_ifs
  · exact within_stop _ _ _
  · exact within_stop _ _ _
  · exact requesting_within destAddr

/-- At most a password packet and a request follow the hello, and two replies. -/
theorem greeted_within (authInfo : List AuthInfo) (destAddr : Addr) (reply : List UInt8) :
    (greeted authInfo destAddr reply).Within 535 24 := by
  rw [greeted]
  split_ifs
  · exact within_stop _ _ _
  · split
    · exact within_stop _ _ _
    · exact (requesting_within destAddr).mono (by omega) (by omega)
    · split_ifs
      · exact within_stop _ _ _
      · refine Within.send (Within.recv (authenticated_within destAddr) (by omega)) ?_
        rw [Client.length_passwordPacket]
        omega

theorem handshake_within (authInfo : List AuthInfo) (destAddr : Addr) :
    (handshake authInfo destAddr).Within 792 26 := by
  rw [handshake]
  split_ifs
  · exact within_stop _ _ _
  · refine Within.send (Within.recv (greeted_within authInfo destAddr) (by omega)) ?_
    rw [Client.length_hello]
    omega

namespace Client

variable {authInfo : List AuthInfo} {destAddr : Addr} {c c' : Client}

/-! ### What passes over the connection -/

/-- Nothing passes over the connection, and the client does not go back to its connector. -/
def Quiet (c c' : Client) : Prop :=
  c'.sent = c.sent ∧ c'.received = c.received ∧
    (c.phase ≠ .connecting → c'.phase ≠ .connecting)

theorem reportError_quiet (why : Failure) (c : Client) : Quiet c (c.reportError why) :=
  ⟨rfl, rfl, id⟩

theorem sendPacket_quiet {size : ℕ} {packet : List UInt8} {phase : Phase}
    (hphase : phase ≠ .connecting) (h : c.sendPacket size packet phase = some c') :
    Quiet c c' ∧ c'.phase ≠ .connecting := by
  simp only [sendPacket, Option.bind_eq_bind, Option.bind_eq_some_iff, Option.some.injEq] at h
  obtain ⟨buffer, -, -, -, rfl⟩ := h
  exact ⟨⟨rfl, rfl, fun _ => hphase⟩, hphase⟩

theorem awaitReply_quiet {alloc : Bool} {size total : ℕ} {phase : Phase}
    (hphase : phase ≠ .connecting) (h : c.awaitReply alloc size total phase = some c') :
    Quiet c c' := by
  rw [awaitReply] at h
  split_ifs at h
  · simp only [startReceive, Option.bind_eq_bind, Option.bind_eq_some_iff,
      Option.some.injEq] at h
    obtain ⟨-, ⟨-, -, -, -, rfl⟩, rfl⟩ := h
    exact ⟨rfl, rfl, fun _ => hphase⟩
  · cases h
    exact reportError_quiet _ c

theorem authFinished_quiet {alloc : Bool} (h : c.authFinished alloc = some c') : Quiet c c' := by
  rw [authFinished] at h
  split_ifs at h
  · exact (sendPacket_quiet (by simp) h).1
  · cases h
    exact reportError_quiet _ c

theorem sendHandlerDone_quiet {alloc : Bool} (h : c.sendHandlerDone alloc = some c') :
    Quiet c c' := by
  simp only [sendHandlerDone, Option.bind_eq_bind, assert_bind_eq_some] at h
  obtain ⟨-, h⟩ := h
  split at h
  · exact awaitReply_quiet (by simp) h
  · exact awaitReply_quiet (by simp) h
  · exact awaitReply_quiet (by simp) h
  · cases h

theorem receivedHello_quiet {alloc : Bool} (h : c.receivedHello alloc = some c') : Quiet c c' := by
  rw [receivedHello] at h
  split at h
  · cases h
    exact reportError_quiet _ c
  · split at h
    · cases h
      exact reportError_quiet _ c
    · exact authFinished_quiet h
    · split_ifs at h
      · cases h
        exact reportError_quiet _ c
      · cases h
        exact reportError_quiet _ c
      · exact (sendPacket_quiet (by simp) h).1

theorem receivedPasswordReply_quiet {alloc : Bool}
    (h : c.receivedPasswordReply alloc = some c') : Quiet c c' := by
  rw [receivedPasswordReply] at h
  split_ifs at h
  · cases h
    exact reportError_quiet _ c
  · cases h
    exact reportError_quiet _ c
  · exact authFinished_quiet h

theorem receivedReply_quiet (h : c.receivedReply = some c') : Quiet c c' := by
  rw [receivedReply] at h
  split_ifs at h
  · cases h
    exact reportError_quiet _ c
  · cases h
    exact reportError_quiet _ c
  · split at h
    · cases h
      exact reportError_quiet _ c
    · simp only [startReceive, Option.bind_eq_bind, Option.bind_eq_some_iff,
        Option.some.injEq] at h
      obtain ⟨-, ⟨-, -, -, -, rfl⟩, rfl⟩ := h
      exact ⟨rfl, rfl, fun _ => by simp⟩

theorem replyReceived_quiet {alloc : Bool} (h : c.replyReceived alloc = some c') :
    Quiet c c' := by
  rw [replyReceived] at h
  split at h
  · exact receivedHello_quiet h
  · exact receivedPasswordReply_quiet h
  · exact receivedReply_quiet h
  · cases h
    exact ⟨rfl, rfl, fun _ => by simp⟩
  · cases h

theorem outputHandlerDone_sent {alloc : Bool} {len : ℕ}
    (h : c.outputHandlerDone alloc len = some c') :
    c'.sent.length = c.sent.length + len ∧ c'.received = c.received ∧
      (c.phase ≠ .connecting → c'.phase ≠ .connecting) := by
  rw [outputHandlerDone] at h
  dsimp only at h
  split at h
  · cases h
  · next used hused =>
    simp only [Option.bind_eq_bind, assert_bind_eq_some] at h
    obtain ⟨-, hlen, h⟩ := h
    have hsent : (c.sent ++ ((c.buffer.getD []).drop used).take len).length =
        c.sent.length + len := by
      rw [List.length_append, List.length_take, List.length_drop, Nat.min_eq_left hlen]
    split_ifs at h
    · cases h
      exact ⟨hsent, rfl, id⟩
    · obtain ⟨hs, hr, hp⟩ := sendHandlerDone_quiet h
      exact ⟨by rw [hs]; exact hsent, hr, hp⟩

theorem recvHandlerDone_received {alloc : Bool} {data : List UInt8}
    (h : c.recvHandlerDone alloc data = some c') :
    c'.received = c.received ++ data ∧ c'.sent = c.sent ∧
      (c.phase ≠ .connecting → c'.phase ≠ .connecting) := by
  simp only [recvHandlerDone, Option.bind_eq_bind, Option.bind_eq_some_iff] at h
  obtain ⟨-, -, -, -, buffer, -, h⟩ := h
  split_ifs at h
  · cases h
    exact ⟨rfl, rfl, id⟩
  · obtain ⟨hs, hr, hp⟩ := replyReceived_quiet h
    exact ⟨hr, hs, hp⟩

theorem connectorHandler_starts {isError initOk alloc : Bool}
    (h : c.connectorHandler isError initOk alloc = some c') :
    c'.sent = c.sent ∧ c'.received = c.received ∧
      (c'.failed ≠ none ∨ c'.phase ≠ .connecting) := by
  simp only [connectorHandler, Option.bind_eq_bind, assert_bind_eq_some] at h
  obtain ⟨-, h⟩ := h
  split_ifs at h
  · cases h
    exact ⟨rfl, rfl, .inl (by simp [reportError])⟩
  · cases h
    exact ⟨rfl, rfl, .inl (by simp [reportError])⟩
  · cases h
    exact ⟨rfl, rfl, .inl (by simp [reportError])⟩
  · cases h
    exact ⟨rfl, rfl, .inl (by simp [reportError])⟩
  · obtain ⟨⟨hs, hr, -⟩, hp⟩ := sendPacket_quiet (by simp) h
    exact ⟨hs, hr, .inr hp⟩

/-! ### The handshake ends -/

/-- How much may still happen to a client. -/
def left (c : Client) : ℕ :=
  (792 - c.sent.length) + (26 - c.received.length) + (if c.phase = .connecting then 1 else 0) +
    if c.failed = none then 1 else 0

theorem Inv.within (h : Inv authInfo destAddr c) :
    c.sent.length ≤ 792 ∧ c.received.length ≤ 26 := by
  obtain ⟨d, hafter, -⟩ := h.talk
  exact hafter.within (handshake_within authInfo destAddr)

/-- Every callback leaves less. -/
theorem left_step {e : Event × Bool} (h : Inv authInfo destAddr c) (ha : Allowed e c)
    (hs : step e c = some c') : Inv authInfo destAddr c' ∧ c'.left < c.left := by
  obtain ⟨c₁, hstep, hinv⟩ := step_inv h ha
  obtain rfl : c₁ = c' := Option.some.inj (hstep.symm.trans hs)
  refine ⟨hinv, ?_⟩
  obtain ⟨hsent, hreceived⟩ := hinv.within
  obtain ⟨e, alloc⟩ := e
  rw [left, left]
  cases e with
  | connected isError initOk =>
      obtain ⟨hf, hp⟩ := ha
      obtain ⟨hs', hr', hgone⟩ := connectorHandler_starts hs
      rw [hs', hr', if_pos hp, if_pos hf]
      obtain hfail | hphase := hgone
      · rw [if_neg hfail]
        split_ifs <;> omega
      · rw [if_neg hphase]
        split_ifs <;> omega
  | written len =>
      obtain ⟨hf, used, hused, hpos, -⟩ := ha
      have hphase := (writing_of_inUsed h hf hused).1.between.1
      obtain ⟨hs', hr', hp'⟩ := outputHandlerDone_sent hs
      rw [hr', if_neg (hp' hphase), if_neg hphase, if_pos hf]
      split_ifs <;> omega
  | read data =>
      obtain ⟨hf, hr, hpos, -⟩ := ha
      have hphase := (reading_of_receiving h hf hr).between.1
      obtain ⟨hr', hs', hp'⟩ := recvHandlerDone_received hs
      have hlen : c₁.received.length = c.received.length + data.length := by
        rw [hr', List.length_append]
      rw [hs', if_neg (hp' hphase), if_neg hphase, if_pos hf]
      split_ifs <;> omega
  | connection recvClosed =>
      obtain ⟨hf, hp⟩ := ha
      rw [step, connectionHandler, assert_of hp, Option.bind_eq_bind, Option.bind_some] at hs
      rw [if_pos hf]
      split_ifs at hs with hup
      · cases hs
        exact Nat.lt_succ_self _
      · cases hs
        exact Nat.lt_succ_self _

/-- A client that is neither up nor failed waits for its connector, for its packet to be written or
for the next byte of a reply. -/
theorem waits (h : Inv authInfo destAddr c) (hf : c.failed = none) (hup : c.phase ≠ .up)
    (alloc : Bool) (b : UInt8) : Allowed (.connected false true, alloc) c ∨
      Allowed (.written 1, alloc) c ∨ Allowed (.read [b], alloc) c := by
  obtain ⟨hp | hp, -⟩ | ⟨-, packet, used, hbuf, hused, hlt, -⟩ |
    ⟨-, dest, total, size, buffer, -, -, -, hr, -, rfl, hlt, -⟩ := (h.shape hf).cases
  · exact .inl ⟨hf, hp⟩
  · exact absurd hp hup
  · refine .inr (.inl ⟨hf, used, hused, Nat.one_pos, ?_⟩)
    rw [hbuf]
    exact hlt
  · exact .inr (.inr ⟨hf, hr, Nat.one_pos, hlt⟩)

def loggingIn : Client :=
  init [.none, .password [0x75] [0x70, 0x77]] (.ipv4 #v[10, 0, 0, 1] #v[0, 80])

def session : List (Event × Bool) :=
  [(.connected false true, true), (.written 4, true), (.read [5], true), (.read [2], true),
    (.written 2, true), (.written 4, true), (.read [1, 0], true), (.written 10, true),
    (.read [5, 0, 0], true), (.read [1], true), (.read [127, 0, 0], true), (.read [1, 4, 56], true)]

def loggedIn : Client :=
  { loggingIn with
    phase := .up
    recvDest := 4
    recvLen := 6
    recvTotal := 6
    resources := .data
    up := true
    sent := [5, 2, 0, 2, 1, 1, 0x75, 2, 0x70, 0x77, 5, 1, 0, 1, 10, 0, 0, 1, 0, 80]
    received := [5, 2, 1, 0, 5, 0, 0, 1, 127, 0, 0, 1, 4, 56] }

theorem reachableIn_loggedIn : ReachableIn step Allowed 12 loggingIn loggedIn :=
  follow_reachableIn session (by decide)

/-- The handshake ends. No client is called back more than 820 times, and one that is neither up
nor failed is never stuck: it waits for its connector, or can write, or takes whatever byte the
server sends. -/
theorem handshake_ends {n : ℕ} (h : ReachableIn step Allowed n (init authInfo destAddr) c) :
    n ≤ 820 ∧ (c.failed = none → c.phase ≠ .up → ∀ alloc b,
      Allowed (.connected false true, alloc) c ∨ Allowed (.written 1, alloc) c ∨
        Allowed (.read [b], alloc) c) := by
  have hle := h.add_measure_le (P := Inv authInfo destAddr) (μ := left)
    (fun c e c' hinv ha hs => left_step hinv ha hs) inv_init
  have hstart : (init authInfo destAddr).left = 820 := rfl
  exact ⟨by omega, fun hf hup => waits (reachable_inv h.reachable) hf hup⟩

theorem handshake_ends_loggedIn : 12 ≤ 820 ∧ (loggedIn.failed = none → loggedIn.phase ≠ .up →
    ∀ alloc b, Allowed (.connected false true, alloc) loggedIn ∨
      Allowed (.written 1, alloc) loggedIn ∨ Allowed (.read [b], alloc) loggedIn) :=
  handshake_ends reachableIn_loggedIn

/-- No callback fails an assertion or writes outside of its buffer, in any reachable state, and
whatever has happened, `BSocksClient_Free` frees the connection and the interfaces that the client
has. -/
theorem callbacks_safe (h : Reachable step Allowed (init authInfo destAddr) c) :
    (∀ e, Allowed e c → step e c ≠ none) ∧ c.freedResources = c.resources := by
  have hinv := reachable_inv h
  refine ⟨fun e ha => ?_, hinv.resources.symm⟩
  obtain ⟨c', hstep, -⟩ := step_inv hinv ha
  rw [hstep]
  simp

theorem callbacks_safe_loggedIn :
    (∀ e, Allowed e loggedIn → step e loggedIn ≠ none) ∧
      loggedIn.freedResources = loggedIn.resources :=
  callbacks_safe reachableIn_loggedIn.reachable

theorem exchange_of_not_up (h : Inv authInfo destAddr c) (hf : c.failed = none)
    (hp : c.phase ≠ .up) : c.residual.exchange [] ≠ ([], some (.ok (), [])) := by
  obtain ⟨hphase | hphase, -⟩ | ⟨hphase, packet, used, hbuf, hused, hlt, -⟩ |
    ⟨hphase, dest, total, size, buffer, -, -, -, -, -, rfl, hlt, -⟩ := (h.shape hf).cases
  · rw [residual, hphase]
    dsimp only
    rw [handshake]
    split_ifs <;> simp [exchange, hello]
  · exact absurd hphase hp
  · have hleft : c.packetLeft ≠ [] := by
      rw [packetLeft, hbuf, hused, Option.getD_some, Option.getD_some, Ne, List.drop_eq_nil_iff]
      omega
    obtain hphase | hphase | hphase := hphase <;> rw [residual, hphase] <;>
      simp [exchange, hleft]
  · have hmissing : ([] : List UInt8).length < c.recvTotal - c.recvLen := Nat.sub_pos_of_lt hlt
    rw [residual_of_reading hphase, exchange, if_pos hmissing]
    simp

/-- The outcome is that of the handshake on the bytes of the server, however they are cut. A client
that has not failed is up if and only if the handshake has succeeded on what was read, with what
was written. A client that was reported up, or has failed over an answer, has written what the
handshake writes and left unread whatever follows. -/
theorem outcome_of_handshake (h : Reachable step Allowed (init authInfo destAddr) c) :
    (c.failed = none → (c.up = true ↔
      (handshake authInfo destAddr).exchange c.received = (c.sent, some (.ok (), [])))) ∧
    (c.up = true → ∀ rest,
      (handshake authInfo destAddr).exchange (c.received ++ rest) =
        (c.sent, some (.ok (), rest))) ∧
    (∀ why, c.failed = some why → why.protocol = true → ∀ rest,
      (handshake authInfo destAddr).exchange (c.received ++ rest) =
        (c.sent, some (.error why, rest))) := by
  have hinv := reachable_inv h
  obtain ⟨d, hafter, hgoes, hfailed, hup⟩ := hinv.talk
  have hdone : c.up = true → ∀ rest, (handshake authInfo destAddr).exchange (c.received ++ rest) =
      (c.sent, some (.ok (), rest)) := by
    intro hc
    rw [hup hc] at hafter
    exact hafter.stopped
  refine ⟨fun hf => ⟨fun hc => ?_, fun hex => ?_⟩, hdone, ?_⟩
  · rw [← List.append_nil c.received]
    exact hdone hc []
  · rw [hinv.up, decide_eq_true_eq]
    by_contra hp
    have hnow := hafter []
    rw [List.append_nil, hex, hgoes hf, Prod.mk.injEq] at hnow
    have hnil := List.self_eq_append_right.1 hnow.1
    exact exchange_of_not_up hinv hf hp (Prod.ext hnil hnow.2.symm)
  · intro why hf hw
    rw [hfailed why hf hw] at hafter
    exact hafter.stopped

theorem outcome_of_handshake_loggedIn :
    (handshake loggingIn.authInfo loggingIn.destAddr).exchange loggedIn.received =
      (loggedIn.sent, some (.ok (), [])) :=
  ((outcome_of_handshake reachableIn_loggedIn.reachable).1 rfl).1 rfl

end Client

/-! ### What is written, and on whose word -/

theorem exchange_replied (header r : List UInt8) : ((replied header).exchange r).1 = [] := by
  rw [replied]
  split_ifs
  · rfl
  · rfl
  · split
    · rfl
    · rw [exchange]
      split_ifs <;> rfl

theorem exchange_requesting (destAddr : Addr) (r : List UInt8) :
    ((requesting destAddr).exchange r).1 = request destAddr := by
  have hreply : ((Dialogue.recv 4 replied).exchange r).1 = [] := by
    rw [exchange]
    split_ifs
    · rfl
    · exact exchange_replied _ _
  rw [requesting, exchange, hreply, List.append_nil]

theorem exchange_recv_two (next : List UInt8 → Dialogue UInt8 (Except Failure Unit))
    (r : List UInt8) :
    (Dialogue.recv 2 next).exchange r = ([], none) ∨
      ∃ a b rest, r = a :: b :: rest ∧
        (Dialogue.recv 2 next).exchange r = (next [a, b]).exchange rest := by
  match r with
  | [] => exact .inl rfl
  | [a] => exact .inl rfl
  | a :: b :: rest => exact .inr ⟨a, b, rest, rfl, rfl⟩

/-- The request goes to a server that has accepted the password. -/
theorem authenticated_cases (destAddr : Addr) (a b : UInt8) :
    (∃ why, authenticated destAddr [a, b] = .stop (.error why)) ∨
      a = 0x01 ∧ b = 0x00 ∧ authenticated destAddr [a, b] = requesting destAddr := by
  rw [authenticated]
  simp only [List.getD_cons_zero, List.getD_cons_succ]
  split_ifs with hversion hstatus
  · exact .inl ⟨_, rfl⟩
  · exact .inl ⟨_, rfl⟩
  · exact .inr ⟨not_not.1 hversion, not_not.1 hstatus, rfl⟩

/-- The request or the password goes to a server that has chosen the method for it. -/
theorem greeted_cases (authInfo : List AuthInfo) (destAddr : Addr) (a b : UInt8) :
    (∃ why, greeted authInfo destAddr [a, b] = .stop (.error why)) ∨
    (a = 0x05 ∧ b = 0x00 ∧ AuthInfo.none ∈ authInfo ∧
      greeted authInfo destAddr [a, b] = requesting destAddr) ∨
    (a = 0x05 ∧ b = 0x02 ∧ ∃ username password, AuthInfo.password username password ∈ authInfo ∧
      username.length ≤ 255 ∧ password.length ≤ 255 ∧ greeted authInfo destAddr [a, b] =
        .send (passwordPacket username password) (.recv 2 (authenticated destAddr))) := by
  rw [greeted]
  simp only [List.getD_cons_zero, List.getD_cons_succ]
  by_cases hversion : a ≠ socksVersion
  · rw [if_pos hversion]
    exact .inl ⟨_, rfl⟩
  · rw [if_neg hversion]
    have ha : a = 0x05 := not_not.1 hversion
    split
    · exact .inl ⟨_, rfl⟩
    · next hfind =>
      have hmethod := List.find?_some hfind
      exact .inr (.inl ⟨ha, (beq_iff_eq.1 hmethod).symm, List.mem_of_find?_eq_some hfind, rfl⟩)
    · next username password hfind =>
      have hmethod := List.find?_some hfind
      split_ifs with hlen
      · exact .inl ⟨_, rfl⟩
      · exact .inr (.inr ⟨ha, (beq_iff_eq.1 hmethod).symm, username, password,
          List.mem_of_find?_eq_some hfind, by omega, by omega, rfl⟩)

namespace Client

variable {authInfo : List AuthInfo} {destAddr : Addr} {c : Client}

/-- A password is written only to a server that has chosen this method, and a request only to one
that has chosen no authentication or has accepted the password. -/
theorem credentials_only_if_asked
    (h : Reachable step Allowed (init authInfo destAddr) c) :
    c.sent <+: hello authInfo ∨
    ([0x05, 0x00] <+: c.received ∧ AuthInfo.none ∈ authInfo ∧
      c.sent <+: hello authInfo ++ request destAddr) ∨
    ([0x05, 0x02] <+: c.received ∧ ∃ username password,
      AuthInfo.password username password ∈ authInfo ∧
      (c.sent <+: hello authInfo ++ passwordPacket username password ∨
        [0x05, 0x02, 0x01, 0x00] <+: c.received ∧
          c.sent <+: hello authInfo ++ passwordPacket username password ++ request destAddr)) := by
  obtain ⟨d, hafter, -⟩ := (reachable_inv h).talk
  have hsent := hafter.written_isPrefix []
  rw [List.append_nil, handshake] at hsent
  split_ifs at hsent with hnum
  · exact .inl (hsent.trans (List.nil_prefix ..))
  rw [exchange] at hsent
  obtain hnone | ⟨a, b, rest, hreceived, hnext⟩ :=
    exchange_recv_two (greeted authInfo destAddr) c.received
  · rw [hnone, List.append_nil] at hsent
    exact .inl hsent
  rw [hnext] at hsent
  rw [hreceived]
  obtain ⟨why, hstop⟩ | ⟨rfl, rfl, hmem, hrequest⟩ |
    ⟨rfl, rfl, username, password, hmem, -, -, hpassword⟩ := greeted_cases authInfo destAddr a b
  · rw [hstop, exchange, List.append_nil] at hsent
    exact .inl hsent
  · rw [hrequest, exchange_requesting] at hsent
    exact .inr (.inl ⟨⟨rest, rfl⟩, hmem, hsent⟩)
  · refine .inr (.inr ⟨⟨rest, rfl⟩, username, password, hmem, ?_⟩)
    rw [hpassword, exchange, ← List.append_assoc] at hsent
    obtain hnone | ⟨a', b', rest', rfl, hnext⟩ := exchange_recv_two (authenticated destAddr) rest
    · rw [hnone, List.append_nil] at hsent
      exact .inl hsent
    rw [hnext] at hsent
    obtain ⟨why, hstop⟩ | ⟨rfl, rfl, hrequest⟩ := authenticated_cases destAddr a' b'
    · rw [hstop, exchange, List.append_nil] at hsent
      exact .inl hsent
    · rw [hrequest, exchange_requesting] at hsent
      exact .inr ⟨⟨rest', rfl⟩, hsent⟩

theorem credentials_only_if_asked_loggedIn :
    loggedIn.sent <+: hello loggingIn.authInfo ∨
    ([0x05, 0x00] <+: loggedIn.received ∧ AuthInfo.none ∈ loggingIn.authInfo ∧
      loggedIn.sent <+: hello loggingIn.authInfo ++ request loggingIn.destAddr) ∨
    ([0x05, 0x02] <+: loggedIn.received ∧ ∃ username password,
      AuthInfo.password username password ∈ loggingIn.authInfo ∧
      (loggedIn.sent <+: hello loggingIn.authInfo ++ passwordPacket username password ∨
        [0x05, 0x02, 0x01, 0x00] <+: loggedIn.received ∧
          loggedIn.sent <+: hello loggingIn.authInfo ++ passwordPacket username password ++
            request loggingIn.destAddr)) :=
  credentials_only_if_asked reachableIn_loggedIn.reachable

end Client

/-! ### What the server reads -/

def readCounted : List UInt8 → Option (List UInt8 × List UInt8)
  | [] => none
  | n :: rest =>
      if rest.length < n.toNat then none else some (rest.take n.toNat, rest.drop n.toNat)

def readAddr (atyp : UInt8) (bytes : List UInt8) : Option Addr :=
  if atyp = socksAtypIpv4 ∧ bytes.length = 6 then
    some (.ipv4 (Vector.ofFn fun i => bytes.getD i 0) (Vector.ofFn fun i => bytes.getD (4 + i) 0))
  else if atyp = socksAtypIpv6 ∧ bytes.length = 18 then
    some (.ipv6 (Vector.ofFn fun i => bytes.getD i 0) (Vector.ofFn fun i => bytes.getD (16 + i) 0))
  else
    none

def readRequest : List UInt8 → Option Addr
  | version :: cmd :: 0 :: atyp :: bytes =>
      if version = socksVersion ∧ cmd = socksCmdConnect then readAddr atyp bytes else none
  | _ => none

def readLogin (bytes : List UInt8) : Option (Option (List UInt8 × List UInt8) × Addr) :=
  if bytes.head? = some 1 then do
    let (username, rest) ← readCounted bytes.tail
    let (password, rest) ← readCounted rest
    let destAddr ← readRequest rest
    some (some (username, password), destAddr)
  else do
    let destAddr ← readRequest bytes
    some (none, destAddr)

/-- The methods offered and what follows them, as a server reads them off all that a client
writes. -/
def readSession (bytes : List UInt8) :
    Option (List UInt8 × Option (List UInt8 × List UInt8) × Addr) :=
  if bytes.head? = some socksVersion then do
    let (methods, rest) ← readCounted bytes.tail
    let login ← readLogin rest
    some (methods, login)
  else
    none

theorem readCounted_append {field : List UInt8} (rest : List UInt8) (h : field.length ≤ 255) :
    readCounted (UInt8.ofNat field.length :: (field ++ rest)) = some (field, rest) := by
  have hlen : (UInt8.ofNat field.length).toNat = field.length := by
    rw [UInt8.toNat_ofNat']
    exact Nat.mod_eq_of_lt (by omega)
  rw [readCounted, hlen, if_neg (by rw [List.length_append]; omega), List.take_left,
    List.drop_left]

theorem ofFn_getD_append {m n : ℕ} (ip : Vector UInt8 m) (port : Vector UInt8 n) :
    (Vector.ofFn fun i : Fin m => (ip.toList ++ port.toList).getD i 0) = ip ∧
      (Vector.ofFn fun i : Fin n => (ip.toList ++ port.toList).getD (m + i) 0) = port := by
  constructor
  · ext i hi
    simp [List.getElem?_append_left]
  · ext i hi
    simp

theorem readAddr_bytes (destAddr : Addr) :
    readAddr destAddr.atyp destAddr.bytes = some destAddr := by
  cases destAddr with
  | ipv4 ip port =>
      have hlen : (ip.toList ++ port.toList).length = 6 := by simp
      obtain ⟨hip, hport⟩ := ofFn_getD_append ip port
      simp only [readAddr, Addr.atyp, Addr.bytes, hlen, and_self, if_true, hip, hport]
  | ipv6 ip port =>
      have hlen : (ip.toList ++ port.toList).length = 18 := by simp
      obtain ⟨hip, hport⟩ := ofFn_getD_append ip port
      have htype : ¬ (socksAtypIpv6 = socksAtypIpv4 ∧ 18 = 6) := by simp
      simp only [readAddr, Addr.atyp, Addr.bytes, hlen, if_neg htype, and_self, if_true, hip, hport]

theorem readRequest_request (destAddr : Addr) : readRequest (request destAddr) = some destAddr := by
  rw [request, readRequest, if_pos ⟨rfl, rfl⟩, readAddr_bytes]

theorem readSession_hello {authInfo : List AuthInfo} (hnum : authInfo.length ≤ 255)
    (rest : List UInt8) : readSession (hello authInfo ++ rest) =
      (readLogin rest).map (Prod.mk (authInfo.map AuthInfo.authType)) := by
  have hlen : (authInfo.map AuthInfo.authType).length ≤ 255 := by
    rw [List.length_map]
    exact hnum
  have hcount := readCounted_append rest hlen
  rw [List.length_map] at hcount
  simp only [readSession, hello, List.cons_append, List.head?_cons, List.tail_cons, if_true,
    hcount, Option.bind_eq_bind, Option.bind_some]
  cases readLogin rest <;> rfl

theorem readLogin_request (destAddr : Addr) :
    readLogin (request destAddr) = some (none, destAddr) := by
  have hhead : ¬ (request destAddr).head? = some 1 := by simp [request, socksVersion]
  simp only [readLogin, if_neg hhead, readRequest_request, Option.bind_eq_bind, Option.bind_some]

theorem readLogin_passwordPacket {username password : List UInt8} (huser : username.length ≤ 255)
    (hpass : password.length ≤ 255) (destAddr : Addr) :
    readLogin (passwordPacket username password ++ request destAddr) =
      some (some (username, password), destAddr) := by
  simp only [readLogin, passwordPacket, List.cons_append, List.append_assoc, List.head?_cons,
    List.tail_cons, if_true, readCounted_append _ huser, readCounted_append _ hpass,
    readRequest_request, Option.bind_eq_bind, Option.bind_some]

theorem written_of_ok {authInfo : List AuthInfo} {destAddr : Addr} {w r rest : List UInt8}
    (h : (handshake authInfo destAddr).exchange r = (w, some (.ok (), rest))) :
    authInfo.length ≤ 255 ∧
    (AuthInfo.none ∈ authInfo ∧ w = hello authInfo ++ request destAddr ∨
      ∃ username password, AuthInfo.password username password ∈ authInfo ∧
        username.length ≤ 255 ∧ password.length ≤ 255 ∧
        w = hello authInfo ++ (passwordPacket username password ++ request destAddr)) := by
  rw [handshake] at h
  split_ifs at h with hnum
  · cases h
  refine ⟨by omega, ?_⟩
  rw [exchange, Prod.mk.injEq] at h
  obtain ⟨hw, hok⟩ := h
  obtain hnone | ⟨a, b, r', -, hnext⟩ := exchange_recv_two (greeted authInfo destAddr) r
  · rw [hnone] at hok
    cases hok
  rw [hnext] at hw hok
  obtain ⟨why, hstop⟩ | ⟨-, -, hmem, hrequest⟩ |
    ⟨-, -, username, password, hmem, huser, hpass, hpassword⟩ :=
      greeted_cases authInfo destAddr a b
  · rw [hstop] at hok
    cases hok
  · rw [hrequest, exchange_requesting] at hw
    exact .inl ⟨hmem, hw.symm⟩
  · rw [hpassword, exchange] at hw hok
    obtain hnone | ⟨a', b', r'', -, hnext⟩ := exchange_recv_two (authenticated destAddr) r'
    · rw [hnone] at hok
      cases hok
    rw [hnext] at hw hok
    obtain ⟨why, hstop⟩ | ⟨-, -, hrequest⟩ := authenticated_cases destAddr a' b'
    · rw [hstop] at hok
      cases hok
    · rw [hrequest, exchange_requesting] at hw
      exact .inr ⟨username, password, hmem, huser, hpass, hw.symm⟩

/-- A server reads off the bytes of a client that came up what the client was told: the methods,
one of its credentials or none, and the destination. -/
theorem Client.server_reads_back {authInfo : List AuthInfo} {destAddr : Addr} {c : Client}
    (h : Reachable step Allowed (init authInfo destAddr) c) (hup : c.up = true) :
    ∃ login, readSession c.sent = some (authInfo.map AuthInfo.authType, login, destAddr) ∧
      (login = none ∧ AuthInfo.none ∈ authInfo ∨
        ∃ username password, login = some (username, password) ∧
          AuthInfo.password username password ∈ authInfo) := by
  obtain ⟨d, hafter, -, -, hdone⟩ := (reachable_inv h).talk
  rw [hdone hup] at hafter
  obtain ⟨hnum, ⟨hmem, hsent⟩ | ⟨username, password, hmem, huser, hpass, hsent⟩⟩ :=
    written_of_ok (hafter.stopped [])
  · refine ⟨none, ?_, .inl ⟨rfl, hmem⟩⟩
    rw [hsent, readSession_hello hnum, readLogin_request]
    rfl
  · refine ⟨some (username, password), ?_, .inr ⟨username, password, rfl, hmem⟩⟩
    rw [hsent, readSession_hello hnum, readLogin_passwordPacket huser hpass]
    rfl

theorem Client.server_reads_back_loggedIn :
    ∃ login, readSession loggedIn.sent =
      some (loggingIn.authInfo.map AuthInfo.authType, login, loggingIn.destAddr) ∧
      (login = none ∧ AuthInfo.none ∈ loggingIn.authInfo ∨
        ∃ username password, login = some (username, password) ∧
          AuthInfo.password username password ∈ loggingIn.authInfo) :=
  server_reads_back reachableIn_loggedIn.reachable rfl

end Socks

end Matador
