import Matador.Proxy.Descriptors

/-!
# The sockets for the ports of the tunnel

The proxy opens a UDP socket for the source port of every tunnelled UDP packet, and the
loop at the end of an iteration is there to empty these sockets. It looks at `rset`, which
`select` has cut down to the descriptors that are ready, so a socket has to be added to
`rset` again before every call. The loop that should do this runs from `maxfd + 1` to
`maxfd` and adds nothing. Hence `rset` never has another descriptor than the three sockets
of the loop: as soon as a UDP packet was handled there is an open socket that `select` does
not watch, and the loop at the end of the iteration never reads anything.
-/

namespace Matador

namespace Proxy

variable {config : Config}

def Config.sockets (config : Config) : Finset ℕ :=
  {config.sockUdp, config.sockRawRecv, config.sockRawSend}

def State.IsFake (s : State) (sock : ℤ) : Prop :=
  ∃ sourcePort port, Action.openFake sock sourcePort port ∈ s.actions

/-- At the call of `select`, `rset` has the three sockets of the loop and every socket that
was opened for a tunnelled packet, and each of the latter stays in `rset` when it is ready,
which is what the loop at the end of the iteration asks for. -/
def Drains (config : Config) (s : State) : Prop :=
  config.sockets ⊆ s.watched config ∧
    ∀ sock, s.IsFake sock → ∃ fd ∈ s.watched config, (fd : ℤ) = sock ∧
      ∀ fds, fd ∈ fds → fd ∈ s.selected config fds

/-! ## The set before `select` -/

theorem fdRange_succ_self (maxfd : ℤ) : fdRange (maxfd + 1) maxfd = [] := by
  rw [fdRange, sub_self]
  rfl

theorem le_of_mem_fdRange {first last : ℤ} {fd : ℕ} (h : fd ∈ fdRange first last) :
    first ≤ fd := by
  simp only [fdRange, List.bind_eq_flatMap, List.pure_def, List.mem_map, List.mem_flatMap,
    List.mem_singleton] at h
  obtain ⟨_, ⟨k, -, rfl⟩, rfl⟩ := h
  omega

theorem State.watched_eq (config : Config) (s : State) :
    s.watched config = s.rset ∪ config.sockets := by
  rw [State.watched, fdRange_succ_self, List.toFinset_nil, Finset.union_empty]
  rfl

theorem State.sockets_subset_watched (config : Config) (s : State) :
    config.sockets ⊆ s.watched config := by
  rw [State.watched_eq]
  exact Finset.subset_union_right

/-! ## The invariant -/

/-- Everything up to `sock_raw_send` is open, nothing but the three sockets is left in
`rset`, and a socket for a tunnelled packet lies above them unless `socket` failed. -/
structure Unwatched (config : Config) (s : State) : Prop where
  opened : ∀ fd ≤ config.sockRawSend, fd ∈ s.opened
  rset : s.rset ⊆ config.sockets
  fake : ∀ sock, s.IsFake sock → sock = -1 ∨ (config.sockRawSend : ℤ) < sock

@[simp] theorem State.rset_recvfrom (s : State) (r : Received) :
    (s.recvfrom r).rset = s.rset := by
  cases r <;> rfl

@[simp] theorem State.isFake_recvfrom (s : State) (r : Received) (sock : ℤ) :
    (s.recvfrom r).IsFake sock ↔ s.IsFake sock := by
  rw [State.IsFake, State.IsFake, State.actions_recvfrom]

namespace Unwatched

theorem watched {s : State} (h : Unwatched config s) : s.watched config = config.sockets := by
  rw [State.watched_eq]
  exact Finset.union_eq_right.mpr h.rset

theorem stable (config : Config) : Stable (Unwatched config) where
  recvfrom r h := by
    obtain ⟨hopened, hrset, hfake⟩ := h
    constructor <;> simpa
  act hactions h := by
    refine ⟨h.opened, h.rset, ?_⟩
    rintro sock ⟨sourcePort, port, hmem⟩
    rcases List.mem_append.mp hmem with hnew | hold
    · exact absurd hnew (hactions sock sourcePort port)
    · exact h.fake sock ⟨sourcePort, port, hold⟩
  control _ h := ⟨h.opened, h.rset, h.fake⟩

theorem select {s : State} (h : Unwatched config s) (fds : Finset ℕ) :
    Unwatched config { s with rset := s.selected config fds } := by
  refine ⟨h.opened, ?_, h.fake⟩
  rw [← h.watched]
  exact Finset.filter_subset _ _

theorem openFake {s : State} (h : Unwatched config s) : Unwatched config (s.openFake config) := by
  unfold State.openFake
  dsimp only
  split
  case h_1 fd hallocate =>
      obtain ⟨rfl, -⟩ := Descriptor.allocate_eq_some.mp hallocate
      refine ⟨fun fd hfd => Finset.mem_insert_of_mem (h.opened fd hfd), h.rset, ?_⟩
      rintro sock ⟨sourcePort, port, hmem⟩
      rcases List.mem_cons.mp hmem with hnew | hold
      · obtain ⟨rfl, -, -⟩ := Action.openFake.inj hnew
        exact Or.inr (Int.ofNat_lt.mpr (Descriptor.lt_lowestFree h.opened))
      · exact h.fake sock ⟨sourcePort, port, hold⟩
  case h_2 =>
      refine ⟨h.opened, h.rset, ?_⟩
      rintro sock ⟨sourcePort, port, hmem⟩
      rcases List.mem_cons.mp hmem with hnew | hold
      · exact Or.inl (Action.openFake.inj hnew).1
      · exact h.fake sock ⟨sourcePort, port, hold⟩

theorem step {s s' : State} {x : Input} (h : Unwatched config s)
    (hstep : Proxy.step config x s = some s') : Unwatched config s' :=
  (stable config).step hstep h h.select fun _ _ _ _ _ _ ht _ => ht.openFake

end Unwatched

theorem Start.unwatched {s : State} (h : Start config s) : Unwatched config s := by
  have hopened := h.valid.opened
  cases h with
  | enter inherited others garbage handshake hudp hrecv hsend =>
      refine ⟨hopened, Finset.empty_subset _, ?_⟩
      rintro sock ⟨sourcePort, port, hmem⟩
      cases hmem

theorem Run.unwatched {s₀ s : State} (h₀ : Start config s₀) (h : Run config s₀ s) :
    Unwatched config s :=
  h.invariant h₀.unwatched fun _ _ _ _ hs _ hstep => hs.step hstep

/-! ## The loop at the end of an iteration -/

theorem Start.le_sockRawSend {s₀ : State} (h₀ : Start config s₀) {fd : ℕ}
    (h : fd ∈ config.sockets) : fd ≤ config.sockRawSend := by
  have hsockets := h₀.sockets
  simp only [Config.sockets, Finset.mem_insert, Finset.mem_singleton] at h
  omega

/-- The loop starts above the three sockets, so it finds no descriptor in `rset`. -/
theorem Unwatched.drain {s₀ s : State} (h₀ : Start config s₀) (h : Unwatched config s)
    (received : ℕ → Received) : s.drain config received = s := by
  have hskip : ∀ fd ∈ fdRange (config.sockRawSend + 1) s.maxfd, fd ∉ s.rset := by
    intro fd hfd hmem
    have hge := le_of_mem_fdRange hfd
    have hle := h₀.le_sockRawSend (h.rset hmem)
    omega
  unfold State.drain
  generalize fdRange (config.sockRawSend + 1) s.maxfd = fds at hskip
  induction fds with
  | nil => rfl
  | cons fd fds ih =>
      rw [List.foldl_cons, if_neg (hskip fd List.mem_cons_self)]
      exact ih fun fd hfd => hskip fd (List.mem_cons_of_mem _ hfd)

/-- In every run, no socket is ever emptied: an iteration ends with the state in which the
loop at its end is entered. -/
theorem drain_idle {s₀ s s' : State} (h₀ : Start config s₀) (h : Run config s₀ s)
    {fds : Finset ℕ} {received : ℕ → Received}
    (hstep : step config (.ready fds received) s = some s') :
    s' = s.afterDatagram config fds received := by
  have hstable := Unwatched.stable config
  have hbefore : Unwatched config (s.beforeDatagram config fds received) :=
    hstable.beforeDatagram ((h.unwatched h₀).select fds) received
  have hafter : Unwatched config (s.afterDatagram config fds received) := by
    unfold State.afterDatagram
    dsimp only
    split_ifs
    · exact hstable.datagram hbefore _ fun _ => (hstable.recvfrom _ hbefore).openFake
    · exact hbefore
  rcases step_cases hstep with ⟨hx, -⟩ | ⟨fds', received', hx, -, rfl⟩
  · cases hx
  · obtain ⟨rfl, rfl⟩ := Input.ready.inj hx
    exact hafter.drain h₀ received

/-! ## Every `select` of every run -/

/-- At every `select` of every run, the three sockets are in `rset`, and every socket that
was opened for a tunnelled packet is in `rset` as well exactly as long as there is none. -/
theorem drains_iff_no_fake {s₀ s : State} (h₀ : Start config s₀) (h : Run config s₀ s) :
    Drains config s ↔ ∀ sock, ¬ s.IsFake sock := by
  have hunwatched := h.unwatched h₀
  constructor
  · rintro ⟨-, hdrains⟩ sock hfake
    obtain ⟨fd, hfd, rfl, -⟩ := hdrains sock hfake
    rw [hunwatched.watched] at hfd
    have hle := h₀.le_sockRawSend hfd
    have habove := hunwatched.fake fd hfake
    omega
  · intro hnone
    exact ⟨s.sockets_subset_watched config, fun sock hfake => absurd hfake (hnone sock)⟩

/-- An iteration in which an ICMP packet is captured and one comes out of the tunnel: they are
forwarded and injected, and no socket is opened for them. -/
theorem drains_iff_no_fake_icmp :
    let config := (enter 1024).1
    let frame : List UInt8 := [2, 0, 0, 0, 0, 1, 2, 0, 0, 0, 0, 2, 0x08, 0x00] ++ icmpPacket
    let received (fd : ℕ) : Received := .message (if fd = 4 then frame else icmpPacket)
    let s := ((enter 1024).2.afterDatagram config {3, 4} received).drain config received
    s.actions = [.inject icmpPacket [10, 0, 0, 3], .forward icmpPacket] ∧ Drains config s := by
  intro config frame received s
  have hstep : step config (.ready {3, 4} received) (enter 1024).2 = some s := rfl
  have hactions : s.actions = [.inject icmpPacket [10, 0, 0, 3], .forward icmpPacket] := by decide
  have hrun : Run config (enter 1024).2 s := (Transition.Reachable.refl _).tail trivial hstep
  refine ⟨hactions, (drains_iff_no_fake (start_enter (by decide)) hrun).mpr ?_⟩
  rintro sock ⟨sourcePort, port, hmem⟩
  rw [hactions] at hmem
  simp at hmem

/-- The first UDP packet of the tunnel: its socket is the descriptor 6, `select` is called
with 3, 4 and 5, and when 6 is ready nothing is left of it in `rset`. -/
theorem first_fake_not_watched :
    let config := (enter 1024).1
    let s := ((enter 1024).2.afterDatagram config {3} fun _ => .message udpPacket).drain config
      fun _ => .message udpPacket
    Start config (enter 1024).2 ∧ Run config (enter 1024).2 s ∧ s.control = .running ∧
      Action.openFake 6 1234 53 ∈ s.actions ∧ s.watched config = {3, 4, 5} ∧
      6 ∉ s.selected config {6} ∧ ¬ Drains config s := by
  intro config s
  have hstep : step config (.ready {3} fun _ => .message udpPacket) (enter 1024).2 = some s := rfl
  have haction : Action.openFake 6 1234 53 ∈ s.actions := by decide
  have hwatched : s.watched config = {3, 4, 5} := by decide
  have hcontrol : s.control = .running := by decide
  have hselected : 6 ∉ s.selected config {6} := by decide
  have hrun : Run config (enter 1024).2 s := (Transition.Reachable.refl _).tail trivial hstep
  clear_value s
  refine ⟨start_enter (by decide), hrun, hcontrol, haction, hwatched, hselected, ?_⟩
  rintro ⟨-, hdrains⟩
  obtain ⟨fd, hfd, heq, -⟩ := hdrains 6 ⟨_, _, haction⟩
  obtain rfl : fd = 6 := by omega
  rw [hwatched] at hfd
  exact absurd hfd (by decide)

end Proxy

end Matador
