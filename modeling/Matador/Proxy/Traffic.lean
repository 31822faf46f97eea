import Matador.Proxy.Reaction
import Matador.Proxy.Exit

/-!
# The traffic of the proxy

Two parts of the actions of the loop concern the tunnel: the packets that are
injected on `sock_raw_send`, which came through the tunnel, and the packets that are
forwarded to the client. Both are read off the actions with the oldest in front. An
iteration injects only in the branch for a datagram and forwards only in the branch
for a frame.
-/

namespace Matador

namespace Proxy

open Buffer (slice receive Reads)

variable {config : Config}

def Action.injected : Action → Option (List UInt8 × List UInt8)
  | inject packet destination => some (packet, destination)
  | _ => none

def Action.forwarded : Action → Option (List UInt8)
  | forward packet => some packet
  | _ => none

def State.injected (s : State) : List (List UInt8 × List UInt8) :=
  (s.actions.filterMap Action.injected).reverse

def State.forwarded (s : State) : List (List UInt8) :=
  (s.actions.filterMap Action.forwarded).reverse

def addressed (packet : List UInt8) : List UInt8 × List UInt8 :=
  (packet, (packet.drop 16).take 4)

theorem State.actions_frame (config : Config) (s : State) (r : Received) :
    (s.frame config r).actions = s.actions ∨ ∃ bytes, r = .message bytes ∧
      bytes.take bufLen ≠ [] ∧ (s.frame config r).actions =
        (frameAction config (receive (bytes.take bufLen) s.buffer)
          (bytes.take bufLen).length).toList ++ s.actions := by
  cases r with
  | error => exact Or.inl rfl
  | message bytes =>
      by_cases hnil : bytes.take bufLen = []
      · exact Or.inl (congrArg Prod.fst (reaction_frame_nil s hnil))
      · exact Or.inr ⟨bytes, rfl, hnil, congrArg Prod.fst (reaction_frame s hnil)⟩

/-! ## Injections -/

theorem injected_frameAction (buffer : ℕ → UInt8) (recsize : ℕ) :
    (frameAction config buffer recsize).toList.filterMap Action.injected = [] := by
  unfold frameAction
  split_ifs <;> rfl

theorem State.injected_beforeDatagram (s : State) (fds : Finset ℕ) (received : ℕ → Received) :
    (s.beforeDatagram config fds received).injected = s.injected := by
  unfold State.beforeDatagram State.injected
  dsimp only
  split_ifs
  · rcases State.actions_frame config { s with rset := s.selected config fds }
      (received config.sockRawRecv) with hactions | ⟨bytes, -, -, hactions⟩
    · rw [hactions]
    · rw [hactions, List.filterMap_append, injected_frameAction, List.nil_append]
  · rfl

/-- A packet that is not TCP is injected as it is and goes to its own destination. -/
theorem State.reaction_packet (s : State) {packet : List UInt8} (hmin : 20 ≤ packet.length)
    (hmax : packet.length ≤ bufLen) (htcp : packet[9]? ≠ some 6) :
    (s.datagram config (.message packet)).injected = s.injected ++ [addressed packet] ∧
      (s.datagram config (.message packet)).control = s.control := by
  have hreaction : (s.datagram config (.message packet)).reaction = _ := reaction_datagram s packet
  rw [List.take_of_length_le hmax] at hreaction
  have hprotocol : receive packet s.buffer 9 ≠ 6 := by
    have hget := List.getElem?_eq_getElem (by omega : 9 < packet.length)
    rw [Buffer.receive_of_some hget]
    intro heq
    exact htcp (by rw [hget, heq])
  have hpacket : slice (receive packet s.buffer) 0 packet.length = packet := by
    rw [Buffer.slice_receive (by omega), List.drop_zero, List.take_length]
  have hdest : slice (receive packet s.buffer) 16 4 = (packet.drop 16).take 4 :=
    Buffer.slice_receive (by omega) _
  unfold datagramReaction at hreaction
  rw [branch_of_long (by omega), if_neg hprotocol, hpacket, hdest] at hreaction
  unfold State.injected
  have hactions := congrArg Prod.fst hreaction
  have hcontrol := congrArg Prod.snd hreaction
  dsimp only [State.reaction] at hactions hcontrol
  rw [hactions, hcontrol]
  split_ifs <;> exact ⟨by simp [List.filterMap_cons, Action.injected, addressed], rfl⟩

/-- `"EXIT"` with a NUL behind it ends the loop and is not injected. -/
theorem State.reaction_exit {s : State} (hnul : s.buffer 4 = 0) :
    (s.datagram config (.message exitText)).injected = s.injected ∧
      (s.datagram config (.message exitText)).control = .ended := by
  have hreaction : (s.datagram config (.message exitText)).reaction = _ :=
    reaction_datagram s exitText
  unfold datagramReaction at hreaction
  rw [(branch_message_eq_exit s.buffer exitText).mpr ⟨rfl, hnul⟩] at hreaction
  have hactions := congrArg Prod.fst hreaction
  dsimp only [State.reaction] at hactions
  exact ⟨by unfold State.injected; rw [hactions], congrArg Prod.snd hreaction⟩

section Iteration

variable {s s' : State} {fds : Finset ℕ} {received : ℕ → Received}

theorem step_ready_eq (hstep : step config (.ready fds received) s = some s') :
    s.control = .running ∧ s' = (s.afterDatagram config fds received).drain config received := by
  rcases step_cases hstep with ⟨hfails, -⟩ | ⟨fds', received', heq, hcontrol, rfl⟩
  · cases hfails
  · obtain ⟨rfl, rfl⟩ := Input.ready.inj heq
    exact ⟨hcontrol, rfl⟩

theorem State.afterDatagram_of_mem (h : config.sockUdp ∈ s.selected config fds) :
    s.afterDatagram config fds received =
      (s.beforeDatagram config fds received).datagram config (received config.sockUdp) := by
  unfold State.afterDatagram
  dsimp only
  rw [State.rset_beforeDatagram, if_pos h]

theorem State.afterDatagram_of_notMem (h : config.sockUdp ∉ s.selected config fds) :
    s.afterDatagram config fds received = s.beforeDatagram config fds received := by
  unfold State.afterDatagram
  dsimp only
  rw [State.rset_beforeDatagram, if_neg h]

theorem State.injected_drain (s : State) (config : Config) (received : ℕ → Received) :
    (s.drain config received).injected = s.injected := by
  unfold State.injected
  rw [State.actions_drain]

theorem injected_step_of_notMem (hstep : step config (.ready fds received) s = some s')
    (h : config.sockUdp ∉ s.selected config fds) :
    s'.injected = s.injected ∧ s'.control = .running := by
  obtain ⟨hcontrol, rfl⟩ := step_ready_eq hstep
  rw [State.injected_drain, State.control_drain, State.afterDatagram_of_notMem h,
    State.injected_beforeDatagram, State.control_beforeDatagram]
  exact ⟨rfl, hcontrol⟩

theorem injected_step_of_packet (hstep : step config (.ready fds received) s = some s')
    (h : config.sockUdp ∈ s.selected config fds) {packet : List UInt8}
    (hreceived : received config.sockUdp = .message packet) (hmin : 20 ≤ packet.length)
    (hmax : packet.length ≤ bufLen) (htcp : packet[9]? ≠ some 6) :
    s'.injected = s.injected ++ [addressed packet] ∧ s'.control = .running := by
  obtain ⟨hcontrol, rfl⟩ := step_ready_eq hstep
  rw [State.injected_drain, State.control_drain, State.afterDatagram_of_mem h, hreceived]
  have hpacket : (State.datagram config (.message packet) _).injected = _ ∧ _ :=
    (s.beforeDatagram config fds received).reaction_packet hmin hmax htcp
  rw [hpacket.1, hpacket.2, State.injected_beforeDatagram, State.control_beforeDatagram]
  exact ⟨rfl, hcontrol⟩

theorem injected_step_of_exit (hstep : step config (.ready fds received) s = some s')
    (h : config.sockUdp ∈ s.selected config fds)
    (hreceived : received config.sockUdp = .message exitText)
    (hnul : (s.beforeDatagram config fds received).buffer 4 = 0) :
    s'.injected = s.injected ∧ s'.control = .ended := by
  obtain ⟨-, rfl⟩ := step_ready_eq hstep
  rw [State.injected_drain, State.control_drain, State.afterDatagram_of_mem h, hreceived,
    (State.reaction_exit hnul).1, (State.reaction_exit hnul).2, State.injected_beforeDatagram]
  exact ⟨rfl, rfl⟩

end Iteration

/-! ## Forwarded packets -/

theorem State.forwarded_recvfrom (s : State) (r : Received) :
    (s.recvfrom r).forwarded = s.forwarded := by
  unfold State.forwarded
  rw [State.actions_recvfrom]

theorem State.forwarded_datagram (s : State) (r : Received) :
    (s.datagram config r).forwarded = s.forwarded := by
  rw [← s.forwarded_recvfrom r]
  unfold State.datagram
  dsimp only
  cases branch (s.recvfrom r).buffer r.recsize with
  | exit | eof | tcp => rfl
  | icmp | other => rfl
  | udp =>
      unfold State.openFake
      cases Descriptor.allocate config.limit (s.recvfrom r).opened <;> rfl

/-- An iteration forwards what the branch for its frame does. -/
theorem forwarded_step {s s' : State} {fds : Finset ℕ} {received : ℕ → Received}
    (hstep : step config (.ready fds received) s = some s') :
    s'.forwarded = (s.beforeDatagram config fds received).forwarded := by
  obtain ⟨-, rfl⟩ := step_ready_eq hstep
  have hdrain : ((s.afterDatagram config fds received).drain config received).forwarded =
      (s.afterDatagram config fds received).forwarded := by
    unfold State.forwarded
    rw [State.actions_drain]
  rw [hdrain]
  by_cases hudp : config.sockUdp ∈ s.selected config fds
  · rw [State.afterDatagram_of_mem hudp, State.forwarded_datagram]
  · rw [State.afterDatagram_of_notMem hudp]

/-- What is forwarded is the part of the frame behind the Ethernet header, and `skip`
is not set. -/
theorem frameAction_eq_forward {buffer : ℕ → UInt8} {recsize : ℕ} {packet : List UInt8}
    (h : frameAction config buffer recsize = some (.forward packet)) :
    packet = slice buffer 14 (recsize - 14) ∧ ¬ skip config buffer := by
  unfold frameAction at h
  split_ifs at h with _ _ _ hskip _
  · cases h
  · exact ⟨(Action.forward.inj (Option.some.inj h)).symm, hskip.2⟩
  · cases h

theorem frameAction_ne_tcp {buffer : ℕ → UInt8} {recsize : ℕ} {packet : List UInt8}
    (h : frameAction config buffer recsize = some (.forward packet)) : packet[9]? ≠ some 6 := by
  obtain ⟨rfl, hskip⟩ := frameAction_eq_forward h
  intro htcp
  obtain ⟨hlen, hget⟩ := List.getElem?_eq_some_iff.mp htcp
  apply hskip
  rw [skip_eq_true_iff]
  simp only [slice, List.getElem_map, List.getElem_range] at hget
  exact Or.inl hget

def NoTcpForwarded (s : State) : Prop :=
  ∀ packet ∈ s.forwarded, packet[9]? ≠ some 6

theorem mem_forwarded {s : State} {packet : List UInt8} :
    packet ∈ s.forwarded ↔ Action.forward packet ∈ s.actions := by
  unfold State.forwarded
  rw [List.mem_reverse, List.mem_filterMap]
  constructor
  · rintro ⟨action, hmem, haction⟩
    cases action with
    | forward packet' =>
        rw [Action.forwarded, Option.some.injEq] at haction
        rwa [haction] at hmem
    | arpReply frame | forwardWrapped | inject packet destination | openFake sock sourcePort port =>
        cases haction
  · intro hmem
    exact ⟨_, hmem, rfl⟩

theorem NoTcpForwarded.step {s s' : State} {x : Input} (h : NoTcpForwarded s)
    (hstep : step config x s = some s') : NoTcpForwarded s' := by
  cases x with
  | selectFails =>
      rcases step_cases hstep with ⟨-, rfl⟩ | ⟨fds, received, heq, -⟩
      · exact h
      · cases heq
  | ready fds received =>
      intro packet hpacket
      rw [forwarded_step hstep] at hpacket
      unfold State.beforeDatagram at hpacket
      dsimp only at hpacket
      split_ifs at hpacket
      · rw [mem_forwarded] at hpacket
        rcases State.actions_frame config { s with rset := s.selected config fds }
          (received config.sockRawRecv) with hactions | ⟨bytes, -, -, hactions⟩
        · rw [hactions] at hpacket
          exact h packet (mem_forwarded.mpr hpacket)
        · rw [hactions, List.mem_append, Option.mem_toList] at hpacket
          rcases hpacket with hnew | hold
          · exact frameAction_ne_tcp hnew
          · exact h packet (mem_forwarded.mpr hold)
      · exact h packet hpacket

/-- An iteration that captures a frame with TCP forwards nothing. -/
theorem forwarded_step_tcp {s s' : State} {fds : Finset ℕ} {received : ℕ → Received}
    (hstep : step config (.ready fds received) s = some s') {frame : List UInt8}
    (hframe : received config.sockRawRecv = .message frame)
    (hip : Reads (frame.take bufLen) 12 [0x08, 0x00]) (htcp : Reads (frame.take bufLen) 23 [6]) :
    s'.forwarded = s.forwarded := by
  rw [forwarded_step hstep]
  unfold State.beforeDatagram
  dsimp only
  split_ifs
  · have hlen : 13 < (frame.take bufLen).length := length_of_reads hip (k := 1) (by decide)
    have hnone : frameAction config (receive (frame.take bufLen) s.buffer)
        (frame.take bufLen).length = none := by
      have hprotocol := (List.cons.inj (htcp.slice s.buffer)).1
      have hskip : skip config (receive (frame.take bufLen) s.buffer) = true :=
        skip_eq_true_iff.mpr (Or.inl hprotocol)
      rw [frameAction_ip (by omega) (hip.slice s.buffer), if_neg fun hboth => hboth.2 hskip]
    unfold State.forwarded
    rw [hframe]
    have hne : frame.take bufLen ≠ [] := List.ne_nil_of_length_pos (by omega)
    have hreaction : (State.frame config (.message frame) _).reaction = _ :=
      reaction_frame { s with rset := s.selected config fds } hne
    rw [hnone] at hreaction
    have hactions := congrArg Prod.fst hreaction
    exact congrArg (fun actions => (List.filterMap Action.forwarded actions).reverse) hactions
  · rfl

/-! ## A packet for the interface -/

def icmpFrame (padding : List UInt8) : List UInt8 :=
  [2, 0, 0, 0, 0, 1, 2, 0, 0, 0, 0, 9, 0x08, 0x00] ++ icmpPacket ++ padding

end Proxy

end Matador
