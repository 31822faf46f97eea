import Matador.Proxy.Iteration

/-!
# The descriptors of the proxy

A datagram with a UDP packet opens a socket that is never closed, and `maxfd` is
set to its descriptor. While the lowest free descriptor is below the limit of the
process and below `FD_SETSIZE`, the new descriptor is a valid index of
`fd_udp_port`, and it lies above the three sockets of the loop, because everything
up to `sock_raw_send` is open. As soon as there is no such descriptor, the next
UDP packet uses an invalid index, and if `socket` fails `select` watches nothing
any more.
-/

namespace Matador

namespace Proxy

variable {config : Config}

/-! ## The invariant -/

/-- Everything up to `sock_raw_send` is open, `maxfd` is not below it, and every
index of `fd_udp_port` that was used is one of the array. -/
structure Valid (config : Config) (s : State) : Prop where
  opened : ∀ fd ≤ config.sockRawSend, fd ∈ s.opened
  maxfd : (config.sockRawSend : ℤ) ≤ s.maxfd
  index : ∀ sock sourcePort port, Action.openFake sock sourcePort port ∈ s.actions →
    0 ≤ sock ∧ sock < fdSetSize

theorem stable_valid (config : Config) : Stable (Valid config) where
  recvfrom r h := by
    obtain ⟨hopened, hmaxfd, hindex⟩ := h
    constructor <;> simpa
  act hactions h := by
    refine ⟨h.opened, h.maxfd, ?_⟩
    intro sock sourcePort port hmem
    rcases List.mem_append.mp hmem with hnew | hold
    · exact absurd hnew (hactions sock sourcePort port)
    · exact h.index sock sourcePort port hold
  control _ h := ⟨h.opened, h.maxfd, h.index⟩

def Spare (config : Config) (opened : Finset ℕ) : Prop :=
  Descriptor.lowestFree opened < config.limit ∧ Descriptor.lowestFree opened < fdSetSize

theorem Valid.openFake {s : State} (h : Valid config s) (hspare : Spare config s.opened) :
    Valid config (s.openFake config) := by
  have hsend := Descriptor.lt_lowestFree h.opened
  simp only [State.openFake, Descriptor.allocate, if_pos hspare.1]
  refine ⟨fun fd hfd => Finset.mem_insert_of_mem (h.opened fd hfd), ?_, ?_⟩
  · exact Int.ofNat_le.mpr hsend.le
  · intro sock sourcePort port hmem
    rcases List.mem_cons.mp hmem with hnew | hold
    · obtain ⟨rfl, -, -⟩ := Action.openFake.inj hnew
      exact ⟨Int.natCast_nonneg _, by exact_mod_cast hspare.2⟩
    · exact h.index sock sourcePort port hold

def State.OpensFake (config : Config) (fds : Finset ℕ) (received : ℕ → Received) (s : State) :
    Prop :=
  let s := s.beforeDatagram config fds received
  let r := received config.sockUdp
  config.sockUdp ∈ s.rset ∧ branch (s.recvfrom r).buffer r.recsize = .udp

/-- If the iteration opens a socket, a descriptor below the limit of the process and
below `FD_SETSIZE` is free. -/
def SpareDescriptor (config : Config) : Input → State → Prop
  | .selectFails, _ => True
  | .ready fds received, s => s.OpensFake config fds received → Spare config s.opened

theorem Valid.step {s s' : State} {x : Input} (h : Valid config s)
    (hspare : SpareDescriptor config x s) (hstep : step config x s = some s') :
    Valid config s' := by
  refine (stable_valid config).step hstep h (fun _ => ⟨h.opened, h.maxfd, h.index⟩) ?_
  rintro fds received rfl hudp hbranch t ht hopened
  refine ht.openFake ?_
  rw [hopened]
  exact hspare ⟨hudp, hbranch⟩

theorem Start.sockets {s : State} (h : Start config s) :
    config.sockUdp < config.sockRawRecv ∧ config.sockRawRecv < config.sockRawSend := by
  cases h with
  | enter inherited others garbage handshake hudp hrecv hsend =>
      rw [Descriptor.allocate_eq_some] at hudp hrecv hsend
      constructor
      · rw [← hrecv.1]
        apply Descriptor.lt_lowestFree
        rw [← hudp.1]
        exact fun _ => Descriptor.mem_insert_of_le
      · rw [← hsend.1]
        apply Descriptor.lt_lowestFree
        rw [← hrecv.1]
        exact fun _ => Descriptor.mem_insert_of_le

theorem Start.valid {s : State} (h : Start config s) : Valid config s := by
  cases h with
  | enter inherited others garbage handshake hudp hrecv hsend =>
      rw [Descriptor.allocate_eq_some] at hsend
      refine ⟨fun fd hfd => Finset.mem_union_left _ ?_, le_rfl, by simp⟩
      rw [← hsend.1] at hfd ⊢
      exact Descriptor.mem_insert_of_le hfd

theorem State.mem_selected {s : State} {fds : Finset ℕ} {fd : ℕ}
    (hsocket : fd = config.sockUdp ∨ fd = config.sockRawRecv ∨ fd = config.sockRawSend)
    (hmaxfd : (fd : ℤ) ≤ s.maxfd) (hfd : fd ∈ fds) : fd ∈ s.selected config fds := by
  refine Finset.mem_filter.mpr ⟨?_, Int.lt_add_one_of_le hmaxfd, hfd⟩
  simp only [State.watched, Finset.mem_union, Finset.mem_insert, Finset.mem_singleton]
  exact Or.inl (Or.inr hsocket)

/-- In every run in which a descriptor below the limit of the process and below
`FD_SETSIZE` is free whenever a UDP packet is handled, every index of `fd_udp_port`
is one of the array, and at every `select` the number `maxfd` is at least the three
sockets of the loop, so that each of them is reported when it is ready. -/
theorem descriptors_valid {s₀ s : State} (h₀ : Start config s₀)
    (h : Transition.Reachable (step config) (SpareDescriptor config) s₀ s) :
    (∀ sock sourcePort port, Action.openFake sock sourcePort port ∈ s.actions →
      0 ≤ sock ∧ sock < fdSetSize) ∧
    ∀ fd, fd = config.sockUdp ∨ fd = config.sockRawRecv ∨ fd = config.sockRawSend →
      (fd : ℤ) ≤ s.maxfd ∧ ∀ fds, fd ∈ fds → fd ∈ s.selected config fds := by
  have hvalid : Valid config s :=
    h.invariant h₀.valid fun _ _ _ _ hs hspare hstep => hs.step hspare hstep
  refine ⟨hvalid.index, fun fd hsocket => ?_⟩
  have hle : (fd : ℤ) ≤ s.maxfd := by
    have hsockets := h₀.sockets
    have hmaxfd := hvalid.maxfd
    omega
  exact ⟨hle, fun fds hfd => State.mem_selected hsocket hle hfd⟩

/-! ## Without a spare descriptor -/

def InvalidIndex (s : State) : Prop :=
  ∃ sock sourcePort port, Action.openFake sock sourcePort port ∈ s.actions ∧
    ¬ (0 ≤ sock ∧ sock < fdSetSize)

theorem invalidIndex_openFake {s : State} (h : ¬ Spare config s.opened) :
    InvalidIndex (s.openFake config) := by
  unfold State.openFake Descriptor.allocate
  split_ifs with hlimit
  · refine ⟨_, _, _, List.mem_cons_self, fun hbound => h ⟨hlimit, ?_⟩⟩
    exact Int.ofNat_lt.mp hbound.2
  · exact ⟨-1, _, _, List.mem_cons_self, by decide⟩

theorem InvalidIndex.of_subset {s t : State} (h : InvalidIndex s) (hsub : s.actions ⊆ t.actions) :
    InvalidIndex t := by
  obtain ⟨sock, sourcePort, port, hmem, hbad⟩ := h
  exact ⟨sock, sourcePort, port, hsub hmem, hbad⟩

/-- The condition cannot be weakened: an iteration that does not meet it uses an
index outside of `fd_udp_port`. -/
theorem invalidIndex_of_step {s s' : State} {x : Input} (hspare : ¬ SpareDescriptor config x s)
    (hstep : step config x s = some s') : InvalidIndex s' := by
  rcases step_cases hstep with ⟨rfl, rfl⟩ | ⟨fds, received, rfl, -, rfl⟩
  · exact absurd trivial hspare
  · obtain ⟨⟨hudp, hbranch⟩, hnone⟩ := Classical.not_imp.mp hspare
    rw [← State.opened_beforeDatagram s fds received,
      ← State.opened_recvfrom _ (received config.sockUdp)] at hnone
    refine State.drain_invariant (P := InvalidIndex)
      (fun t r ht => ht.of_subset (by simp)) ?_ config received
    simp only [State.afterDatagram, if_pos hudp, State.datagram, hbranch]
    exact (invalidIndex_openFake hnone).of_subset (List.subset_cons_self _ _)

/-! ## Two runs -/

theorem descriptors_valid_first :
    let config := (enter 1024).1
    let s := ((enter 1024).2.afterDatagram config {3} fun _ => .message udpPacket).drain config
      fun _ => .message udpPacket
    (∀ sock sourcePort port, Action.openFake sock sourcePort port ∈ s.actions →
      0 ≤ sock ∧ sock < fdSetSize) ∧
    Action.openFake 6 1234 53 ∈ s.actions ∧ s.maxfd = 6 ∧
      ∀ fds, 3 ∈ fds → 3 ∈ s.selected config fds := by
  intro config s
  let x : Input := .ready {3} fun _ => .message udpPacket
  have hstep : step config x (enter 1024).2 = some s := rfl
  have hspare : SpareDescriptor config x (enter 1024).2 := fun _ => ⟨by decide, by decide⟩
  have hstart : Start config (enter 1024).2 := start_enter (by decide)
  have hreach : Transition.Reachable (step config) (SpareDescriptor config) (enter 1024).2 s :=
    (Transition.Reachable.refl _).tail hspare hstep
  have hvalid := descriptors_valid hstart hreach
  have haction : Action.openFake 6 1234 53 ∈ s.actions := by decide
  have hmaxfd : s.maxfd = 6 := by decide
  clear_value s
  exact ⟨hvalid.1, haction, hmaxfd, (hvalid.2 3 (Or.inl rfl)).2⟩

/-- The first UDP packet when the process may have no seventh descriptor. -/
theorem socket_failure_breaks_descriptors :
    let config := (enter 6).1
    let s := ((enter 6).2.afterDatagram config {3} fun _ => .message udpPacket).drain config
      fun _ => .message udpPacket
    Start config (enter 6).2 ∧ Run config (enter 6).2 s ∧ s.control = .running ∧
      Action.openFake (-1) 1234 53 ∈ s.actions ∧ s.maxfd < config.sockUdp ∧
      ∀ fds, s.selected config fds = ∅ := by
  intro config s
  have hstep : step config (.ready {3} fun _ => .message udpPacket) (enter 6).2 = some s := rfl
  refine ⟨start_enter (by decide), (Transition.Reachable.refl _).tail trivial hstep, by decide,
    by decide, by decide, fun fds => ?_⟩
  refine Finset.filter_eq_empty_iff.mpr ?_
  rintro fd - ⟨hlt, -⟩
  have hmaxfd : s.maxfd = -1 := by decide
  omega

end Proxy

end Matador
