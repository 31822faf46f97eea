import Matador.Proxy.Loop

/-!
# What an iteration changes

An iteration receives at most one frame, then at most one datagram, and at last
empties the sockets above `sock_raw_send`. Receiving changes the buffer and the
history only, the branch for a frame adds at most an action, and everything else
happens in the branch for a datagram. `step_invariant` is the rule that the
invariants of the loop are proved with: it leaves the frame and the datagram to be
shown and takes care of the rest. An invariant that is `Stable`, because it is about the
descriptors and the sockets that were opened, has to be shown for a new `rset` and for a new
socket only.
-/

namespace Matador

namespace Proxy

variable {config : Config}

@[simp] theorem State.maxfd_recvfrom (s : State) (r : Received) :
    (s.recvfrom r).maxfd = s.maxfd := by
  cases r <;> rfl

@[simp] theorem State.opened_recvfrom (s : State) (r : Received) :
    (s.recvfrom r).opened = s.opened := by
  cases r <;> rfl

@[simp] theorem State.control_recvfrom (s : State) (r : Received) :
    (s.recvfrom r).control = s.control := by
  cases r <;> rfl

@[simp] theorem State.actions_recvfrom (s : State) (r : Received) :
    (s.recvfrom r).actions = s.actions := by
  cases r <;> rfl

theorem State.drain_invariant {P : State → Prop} (hP : ∀ s r, P s → P (s.recvfrom r)) {s : State}
    (h : P s) (config : Config) (received : ℕ → Received) : P (s.drain config received) := by
  unfold State.drain
  generalize fdRange (config.sockRawSend + 1) s.maxfd = fds
  induction fds generalizing s with
  | nil => exact h
  | cons fd fds ih =>
      rw [List.foldl_cons]
      apply ih
      split_ifs
      · exact hP s _ h
      · exact h

theorem State.actions_drain (s : State) (config : Config) (received : ℕ → Received) :
    (s.drain config received).actions = s.actions :=
  State.drain_invariant (P := fun t => t.actions = s.actions)
    (fun t r ht => by rw [State.actions_recvfrom, ht]) rfl config received

theorem State.control_drain (s : State) (config : Config) (received : ℕ → Received) :
    (s.drain config received).control = s.control :=
  State.drain_invariant (P := fun t => t.control = s.control)
    (fun t r ht => by rw [State.control_recvfrom, ht]) rfl config received

theorem State.beforeDatagram_eq (config : Config) (s : State) (fds : Finset ℕ)
    (received : ℕ → Received) :
    ∃ buffer messages actions, s.beforeDatagram config fds received =
      { s with
        rset := s.selected config fds, buffer := buffer, messages := messages,
        actions := actions } := by
  unfold State.beforeDatagram State.frame
  cases received config.sockRawRecv with
  | error =>
      dsimp only
      split_ifs <;> exact ⟨_, _, _, rfl⟩
  | message bytes =>
      dsimp only
      split_ifs <;> exact ⟨_, _, _, rfl⟩

theorem State.opened_beforeDatagram (s : State) (fds : Finset ℕ) (received : ℕ → Received) :
    (s.beforeDatagram config fds received).opened = s.opened := by
  obtain ⟨_, _, _, hbefore⟩ := s.beforeDatagram_eq config fds received
  rw [hbefore]

theorem State.control_beforeDatagram (s : State) (fds : Finset ℕ) (received : ℕ → Received) :
    (s.beforeDatagram config fds received).control = s.control := by
  obtain ⟨_, _, _, hbefore⟩ := s.beforeDatagram_eq config fds received
  rw [hbefore]

theorem State.rset_beforeDatagram (s : State) (fds : Finset ℕ) (received : ℕ → Received) :
    (s.beforeDatagram config fds received).rset = s.selected config fds := by
  obtain ⟨_, _, _, hbefore⟩ := s.beforeDatagram_eq config fds received
  rw [hbefore]

/-! ## Whole iterations -/

theorem step_ready {s : State} (hcontrol : s.control = .running) (fds : Finset ℕ)
    (received : ℕ → Received) :
    step config (.ready fds received) s = if s.selected config fds = ∅ then none
      else some ((s.afterDatagram config fds received).drain config received) := by
  unfold step
  rw [hcontrol]

theorem step_of_not_running {s : State} (hcontrol : s.control ≠ .running) (x : Input) :
    step config x s = none := by
  unfold step
  cases h : s.control with
  | running => exact absurd h hcontrol
  | ended | failed => rfl

theorem step_cases {x : Input} {s s' : State}
    (h : step config x s = some s') :
    (x = .selectFails ∧ s' = { s with control := .failed }) ∨
      ∃ fds received, x = .ready fds received ∧ s.control = .running ∧
        s' = (s.afterDatagram config fds received).drain config received := by
  unfold step at h
  split at h
  · exact Or.inl ⟨rfl, (Option.some.inj h).symm⟩
  · rename_i fds received hcontrol
    split_ifs at h
    exact Or.inr ⟨fds, received, rfl, hcontrol, (Option.some.inj h).symm⟩
  · cases h

/-- What holds after the frame of an iteration and is kept by the datagram and by
receiving holds after the iteration. -/
theorem step_invariant {P : State → Prop} {x : Input} {s s' : State}
    (hstep : step config x s = some s') (hfails : P { s with control := .failed })
    (hrecv : ∀ t r, P t → P (t.recvfrom r))
    (hbefore : ∀ fds received, P (s.beforeDatagram config fds received))
    (hdatagram : ∀ fds received, x = .ready fds received →
      config.sockUdp ∈ (s.beforeDatagram config fds received).rset →
        P ((s.beforeDatagram config fds received).datagram config (received config.sockUdp))) :
    P s' := by
  rcases step_cases hstep with ⟨rfl, rfl⟩ | ⟨fds, received, rfl, -, rfl⟩
  · exact hfails
  · refine State.drain_invariant hrecv ?_ config received
    unfold State.afterDatagram
    dsimp only
    split_ifs with hudp
    · exact hdatagram fds received rfl hudp
    · exact hbefore fds received

/-! ## Invariants of the descriptors -/

/-- Receiving a message, actions that open no socket and the end of the loop keep the
property. -/
structure Stable (P : State → Prop) : Prop where
  recvfrom : ∀ {s : State} (r : Received), P s → P (s.recvfrom r)
  act : ∀ {s : State} {actions : List Action},
    (∀ sock sourcePort port, Action.openFake sock sourcePort port ∉ actions) → P s →
      P { s with actions := actions ++ s.actions }
  control : ∀ {s : State} (control : Control), P s → P { s with control := control }

theorem frameAction_ne_openFake (config : Config) (buffer : ℕ → UInt8) (recsize : ℕ) {sock : ℤ}
    {sourcePort port : ℕ} :
    Action.openFake sock sourcePort port ∉ (frameAction config buffer recsize).toList := by
  unfold frameAction
  split_ifs <;> simp

namespace Stable

variable {P : State → Prop}

theorem frame (hP : Stable P) {s : State} (h : P s) (r : Received) : P (s.frame config r) := by
  unfold State.frame
  dsimp only
  split_ifs
  · exact hP.act (fun _ _ _ => frameAction_ne_openFake config _ _) (hP.recvfrom r h)
  · exact hP.recvfrom r h

theorem beforeDatagram (hP : Stable P) {s : State} {fds : Finset ℕ}
    (h : P { s with rset := s.selected config fds }) (received : ℕ → Received) :
    P (s.beforeDatagram config fds received) := by
  unfold State.beforeDatagram
  dsimp only
  split_ifs
  · exact hP.frame h _
  · exact h

theorem inject (hP : Stable P) {s : State} (h : P s) (recsize : ℕ) : P (s.inject recsize) := by
  let action := Action.inject (bytesAt s.buffer 0 recsize) (bytesAt s.buffer 16 4)
  have hinject : ∀ sock sourcePort port, Action.openFake sock sourcePort port ∉ [action] := by
    simp [action]
  exact hP.act hinject h

theorem datagram (hP : Stable P) {s : State} (h : P s) (r : Received)
    (hopen : branch (s.recvfrom r).buffer r.recsize = .udp →
      P ((s.recvfrom r).openFake config)) : P (s.datagram config r) := by
  have hrecv := hP.recvfrom r h
  unfold State.datagram
  dsimp only
  cases hbranch : branch (s.recvfrom r).buffer r.recsize with
  | exit | eof => exact hP.control .ended hrecv
  | icmp | other => exact hP.inject hrecv _
  | tcp => exact hrecv
  | udp => exact hP.inject (hopen hbranch) _

/-- A stable property is kept by an iteration if it is kept by a new `rset`, and by a new
socket if the iteration opens one. -/
theorem step (hP : Stable P) {x : Input} {s s' : State} (hstep : Proxy.step config x s = some s')
    (h : P s) (hselected : ∀ fds, P { s with rset := s.selected config fds })
    (hopen : ∀ fds received, x = .ready fds received →
      config.sockUdp ∈ (s.beforeDatagram config fds received).rset →
      branch ((s.beforeDatagram config fds received).recvfrom (received config.sockUdp)).buffer
        (received config.sockUdp).recsize = .udp →
      ∀ t, P t → t.opened = s.opened → P (t.openFake config)) : P s' := by
  refine step_invariant hstep (hP.control .failed h) (fun _ r ht => hP.recvfrom r ht)
    (fun fds received => hP.beforeDatagram (hselected fds) received) ?_
  intro fds received hx hudp
  have hbefore : P (s.beforeDatagram config fds received) :=
    hP.beforeDatagram (hselected fds) received
  refine hP.datagram hbefore _ fun hbranch => ?_
  refine hopen fds received hx hudp hbranch _ (hP.recvfrom _ hbefore) ?_
  rw [State.opened_recvfrom, State.opened_beforeDatagram]

end Stable

/-! ## A process with three inherited descriptors -/

def udpPacket : List UInt8 :=
  [0x45, 0, 0, 28, 0, 0, 0, 0, 64, 17, 0, 0, 10, 0, 0, 1, 10, 0, 0, 2,
    0x04, 0xd2, 0, 53, 0, 8, 0, 0]

def icmpPacket : List UInt8 :=
  [0x45, 0, 0, 24, 0, 0, 0, 0, 64, 1, 0, 0, 10, 0, 0, 9, 10, 0, 0, 3, 0, 0, 0, 0]

/-- The loop as it is entered by a process with three inherited descriptors. -/
def enter (limit : ℕ) : Config × State :=
  let config : Config :=
    { ifAddr := [10, 0, 0, 3], ifMac := [2, 0, 0, 0, 0, 1], clientAddr := [10, 0, 0, 4],
      port := 6001, rport := 6002, sockUdp := 3, sockRawRecv := 4, sockRawSend := 5,
      limit := limit }
  (config,
    { buffer := Buffer.content [openText, openText ++ [0]] fun _ => 0, maxfd := 5,
      opened := insert 5 (insert 4 (insert 3 {0, 1, 2})) ∪ ∅, rset := ∅, control := .running,
      messages := [openText, openText ++ [0]], actions := [] })

theorem start_enter {limit : ℕ} (h : 5 < limit) : Start (enter limit).1 (enter limit).2 := by
  have hudp : Descriptor.lowestFree {0, 1, 2} = 3 := by decide
  have hrecv : Descriptor.lowestFree {3, 0, 1, 2} = 4 := by decide
  have hsend : Descriptor.lowestFree {4, 3, 0, 1, 2} = 5 := by decide
  refine Start.enter {0, 1, 2} ∅ (fun _ => 0) openText ?_ ?_ ?_
  · exact Descriptor.allocate_eq_some.mpr ⟨hudp, by change 3 < limit; omega⟩
  · exact Descriptor.allocate_eq_some.mpr ⟨hrecv, by change 4 < limit; omega⟩
  · exact Descriptor.allocate_eq_some.mpr ⟨hsend, h⟩

end Proxy

end Matador
