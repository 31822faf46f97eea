import Matador.Proxy.Descriptors

/-!
# The end of the forwarding loop

The tunnel ends the loop of the proxy with the datagram `"EXIT"`, which is sent
without a terminating NUL. The proxy compares it with `strcmp`, so the byte behind
it in the buffer decides, and that byte is the fifth one of the newest earlier
message that had five bytes. An empty datagram also ends the loop, since the last
`else` is meant for a failed `recvfrom` only. Once a call of `socket` has failed,
`maxfd` is -1 and no datagram is received any more. The theorem of this module says
for every history and every datagram that arrives when the loop ends.
-/

namespace Matador

namespace Proxy

variable {config : Config}

/-! ## The history of the buffer -/

/-- The buffer is what the messages since the start left in it, and one of them had
five bytes. -/
structure Remembers (s : State) : Prop where
  buffer : ∃ garbage, s.buffer = Buffer.content s.messages garbage
  long : ∃ message ∈ s.messages, 4 < message.length

theorem Remembers.congr {s t : State} (h : Remembers s) (hbuffer : t.buffer = s.buffer)
    (hmessages : t.messages = s.messages) : Remembers t := by
  obtain ⟨hcontent, hlong⟩ := h
  rw [← hbuffer, ← hmessages] at hcontent
  rw [← hmessages] at hlong
  exact ⟨hcontent, hlong⟩

theorem Remembers.recvfrom {s : State} (h : Remembers s) (r : Received) :
    Remembers (s.recvfrom r) := by
  cases r with
  | error => exact h
  | message bytes =>
      obtain ⟨⟨garbage, hbuffer⟩, message, hmem, hlong⟩ := h
      refine ⟨⟨garbage, ?_⟩, message, List.mem_cons_of_mem _ hmem, hlong⟩
      rw [State.recvfrom, Buffer.content_cons, hbuffer]

theorem Remembers.beforeDatagram {s : State} (h : Remembers s) (fds : Finset ℕ)
    (received : ℕ → Received) : Remembers (s.beforeDatagram config fds received) := by
  have hselected : Remembers { s with rset := s.selected config fds } := h.congr rfl rfl
  unfold State.beforeDatagram State.frame
  dsimp only
  split_ifs
  · exact (hselected.recvfrom _).congr rfl rfl
  · exact hselected.recvfrom _
  · exact hselected

theorem Remembers.datagram {s : State} (h : Remembers s) (r : Received) :
    Remembers (s.datagram config r) := by
  have hrecv := h.recvfrom r
  unfold State.datagram
  dsimp only
  cases branch (s.recvfrom r).buffer r.recsize with
  | exit | eof | icmp | other => exact hrecv.congr rfl rfl
  | tcp => exact hrecv
  | udp =>
      unfold State.openFake
      dsimp only
      split <;> exact hrecv.congr rfl rfl

theorem Remembers.step {s s' : State} {x : Input} (h : Remembers s)
    (hstep : step config x s = some s') : Remembers s' := by
  refine step_invariant hstep (h.congr rfl rfl) (fun _ r ht => ht.recvfrom r)
    (fun fds received => h.beforeDatagram fds received) ?_
  intro fds received _ _
  exact (h.beforeDatagram fds received).datagram _

theorem Start.remembers {s : State} (h : Start config s) : Remembers s := by
  cases h with
  | enter inherited others garbage handshake hudp hrecv hsend =>
      exact ⟨⟨garbage, rfl⟩, openText ++ [0], by simp, by decide⟩

theorem Remembers.fifth_eq_zero_iff {s : State} (h : Remembers s) :
    s.buffer 4 = 0 ↔ ∀ since message,
      Log.MostRecent (fun message => 4 < message.length) s.messages since message →
        message[4]? = some 0 := by
  obtain ⟨⟨garbage, hbuffer⟩, hlong⟩ := h
  have hread : ∀ {since message}, Log.MostRecent (fun message => 4 < message.length) s.messages
      since message → message[4]? = some (s.buffer 4) := by
    intro since message hrecent
    have hget := List.getElem?_eq_getElem hrecent.2.1
    rw [hget, hbuffer, Buffer.content_eq_of_mostRecent hrecent hget]
  constructor
  · intro hzero since message hrecent
    rw [hread hrecent, hzero]
  · intro hall
    obtain ⟨since, message, hrecent⟩ := Log.exists_mostRecent hlong
    exact Option.some.inj ((hread hrecent).symm.trans (hall since message hrecent))

/-! ## The test of a datagram -/

theorem branch_eq_exit {buffer : ℕ → UInt8} {recsize : ℤ} :
    branch buffer recsize = .exit ↔ recsize = 4 ∧ strcmpEq buffer 0 exitText := by
  unfold branch
  split_ifs with hexit <;> simp [hexit]

/-- Of the datagrams only `"EXIT"` takes the branch for it, and only if a NUL
follows in the buffer. -/
theorem branch_message_eq_exit (buffer : ℕ → UInt8) (bytes : List UInt8) :
    branch (Buffer.receive (bytes.take bufLen) buffer) (bytes.take bufLen).length = .exit ↔
      bytes = exitText ∧ buffer 4 = 0 := by
  have hfour : ((bytes.take bufLen).length : ℤ) = 4 ↔ bytes.length = 4 := by
    rw [List.length_take, bufLen]
    omega
  rw [branch_eq_exit, hfour]
  constructor
  · rintro ⟨hlen, hcmp⟩
    match bytes, hlen with
    | [a, b, c, d], _ => simpa [strcmpEq, exitText, Buffer.receive, bufLen, and_assoc] using hcmp
  · rintro ⟨rfl, hnul⟩
    exact ⟨rfl, by simpa [strcmpEq, exitText, Buffer.receive, bufLen] using hnul⟩

def SocketFailed (s : State) : Prop :=
  ∃ sourcePort port, Action.openFake (-1) sourcePort port ∈ s.actions

/-- Until a call of `socket` fails `maxfd` is not below the sockets of the loop; then it is -1, and
every further call fails as well. -/
structure Watches (config : Config) (s : State) : Prop where
  opened : ∀ fd ≤ config.sockRawSend, fd ∈ s.opened
  sockets : ¬ SocketFailed s → (config.sockRawSend : ℤ) ≤ s.maxfd
  failed : SocketFailed s → s.maxfd = -1 ∧ Descriptor.allocate config.limit s.opened = none

theorem Watches.congr {s t : State} (h : Watches config s) (hmaxfd : t.maxfd = s.maxfd)
    (hopened : t.opened = s.opened) (hfailed : SocketFailed t ↔ SocketFailed s) :
    Watches config t := by
  constructor
  · rw [hopened]
    exact h.opened
  · rw [hmaxfd, hfailed]
    exact h.sockets
  · rw [hmaxfd, hopened, hfailed]
    exact h.failed

theorem Watches.openFake {s : State} (h : Watches config s) :
    Watches config (s.openFake config) := by
  unfold State.openFake
  cases hfd : Descriptor.allocate config.limit s.opened with
  | none =>
      exact ⟨h.opened, fun hnot => absurd ⟨_, _, List.mem_cons_self⟩ hnot, fun _ => ⟨rfl, hfd⟩⟩
  | some fd =>
      have hlow := (Descriptor.allocate_eq_some.1 hfd).1
      refine ⟨fun fd' hle => Finset.mem_insert_of_mem (h.opened fd' hle), fun _ => ?_, ?_⟩
      · have hlt := Descriptor.lt_lowestFree h.opened
        dsimp only
        omega
      · rintro ⟨sourcePort, port, hmem⟩
        -- a socket that was opened has a descriptor, so the failure is an older one
        have hold : SocketFailed s := by
          rcases List.mem_cons.1 hmem with hnew | hold
          · injection hnew with hsock
            omega
          · exact ⟨sourcePort, port, hold⟩
        rw [(h.failed hold).2] at hfd
        cases hfd

end Proxy

end Matador
