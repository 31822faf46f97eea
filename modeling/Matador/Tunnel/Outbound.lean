import Matador.Proxy.Descriptors
import Matador.Proxy.Traffic

/-!
# The way out through the tunnel

The program `tunnel` gets the packets of the TUN device in `tun_packet_received` and
sends those that are not TCP as datagrams to the proxy; after `tun2socks_run` it
sends `"EXIT"` on the same socket. Here it is composed with the loop of the proxy.
The datagrams between the two are delivered once and in order, so they form a queue,
and `recvfrom` on `sock_udp` takes its first element. Everything else at the proxy,
in particular the captured frames, is arbitrary.

`"EXIT"` is a datagram like the others for a proxy that does not recognise it, and
then it is injected as if it were a packet.
-/

namespace Matador

namespace Tunnel

open Proxy (Config Received exitText bufLen addressed)

/-- A packet read from the TUN device: it has an IP header and fits into a datagram. -/
structure Packet where
  bytes : List UInt8
  header : 20 ≤ bytes.length
  fits : bytes.length ≤ 65507

def Packet.IsTcp (packet : Packet) : Prop := packet.bytes[9]? = some 6

instance (packet : Packet) : Decidable packet.IsTcp :=
  inferInstanceAs (Decidable (_ = _))

/-- The datagram that is sent for a packet of `bufLen` bytes at the front of the
buffer of the TUN device. -/
def tunPacketReceived (buf : ℕ → UInt8) (bufLen : ℕ) : Option (List UInt8) :=
  if buf 9 ≠ 6 then some (Proxy.bytesAt buf 0 bufLen) else none

/-- The two programs and the datagrams on the way to the proxy; `handed` are the
packets of the TUN device, and both lists have the oldest in front. -/
structure Outbound where
  handed : List Packet
  channel : List (List UInt8)
  finished : Bool
  proxy : Proxy.State

/-- What can happen: a packet is read from the TUN device into a buffer with some
content behind it, `tun2socks_run` returns, or the proxy makes an iteration. -/
inductive Outbound.Event where
  | tunPacket (packet : Packet) (behind : ℕ → UInt8)
  | finish
  | selectFails
  | iterate (fds : Finset ℕ) (received : ℕ → Received)

def Outbound.ready (config : Config) (fds : Finset ℕ) (s : Outbound) : Finset ℕ :=
  if s.channel = [] then fds.erase config.sockUdp else fds

def Outbound.arriving (config : Config) (received : ℕ → Received) (s : Outbound) : ℕ → Received :=
  Function.update received config.sockUdp ((s.channel.head?.map Received.message).getD .error)

def Outbound.input (config : Config) (fds : Finset ℕ) (received : ℕ → Received) (s : Outbound) :
    Proxy.Input :=
  .ready (s.ready config fds) (s.arriving config received)

def Outbound.step (config : Config) : Event → Outbound → Option Outbound
  | .tunPacket packet behind, s =>
      if s.finished then none
      else some { s with
        handed := s.handed ++ [packet]
        channel := s.channel ++
          (tunPacketReceived (Buffer.receive packet.bytes behind) packet.bytes.length).toList }
  | .finish, s =>
      if s.finished then none
      else some { s with finished := true, channel := s.channel ++ [exitText] }
  | .selectFails, s =>
      (Proxy.step config .selectFails s.proxy).map fun proxy => { s with proxy := proxy }
  | .iterate fds received, s =>
      (Proxy.step config (s.input config fds received) s.proxy).map fun proxy =>
        { s with
          proxy := proxy
          channel := if config.sockUdp ∈ s.proxy.selected config (s.ready config fds) then
            s.channel.tail else s.channel }

inductive Outbound.Start (config : Config) : Outbound → Prop where
  | enter (proxy : Proxy.State) (h : Proxy.Start config proxy) :
      Outbound.Start config { handed := [], channel := [], finished := false, proxy := proxy }

variable {config : Config}

/-- A descriptor is free if a UDP packet is handled, and if `"EXIT"` is handled the
newest earlier message with five bytes has a NUL as its fifth. -/
def Outbound.Regular (config : Config) : Event → Outbound → Prop
  | .iterate fds received, s =>
      Proxy.SpareDescriptor config (s.input config fds received) s.proxy ∧
        (config.sockUdp ∈ s.proxy.selected config (s.ready config fds) →
          s.channel.head? = some exitText → ∀ since message,
            Log.MostRecent (fun message => 4 < message.length)
              (s.proxy.beforeDatagram config (s.ready config fds)
                (s.arriving config received)).messages since message →
              message[4]? = some 0)
  | _, _ => True

/-! ## What arrives at the proxy -/

theorem tunPacketReceived_eq (packet : Packet) (behind : ℕ → UInt8) :
    tunPacketReceived (Buffer.receive packet.bytes behind) packet.bytes.length =
      if packet.IsTcp then none else some packet.bytes := by
  have hlen : 9 < packet.bytes.length := Nat.lt_of_lt_of_le (by decide) packet.header
  have hget := List.getElem?_eq_getElem hlen
  have hpacket : Proxy.bytesAt (Buffer.receive packet.bytes behind) 0 packet.bytes.length =
      packet.bytes := by
    rw [Proxy.bytesAt_eq_slice, Buffer.slice_receive (by omega), List.drop_zero, List.take_length]
  have htcp : packet.IsTcp ↔ Buffer.receive packet.bytes behind 9 = 6 := by
    rw [Packet.IsTcp, Buffer.receive_of_some hget, hget, Option.some.injEq]
  unfold tunPacketReceived
  rw [hpacket]
  by_cases h : packet.IsTcp
  · rw [if_pos h, if_neg (not_not.mpr (htcp.mp h))]
  · rw [if_neg h, if_pos (mt htcp.mpr h)]

theorem Outbound.step_cases {e : Event} {s s' : Outbound} (h : Outbound.step config e s = some s') :
    (∃ packet behind, e = .tunPacket packet behind ∧ s.finished = false ∧
      s' = { s with
        handed := s.handed ++ [packet]
        channel := s.channel ++ if packet.IsTcp then [] else [packet.bytes] }) ∨
    (e = .finish ∧ s.finished = false ∧
      s' = { s with finished := true, channel := s.channel ++ [exitText] }) ∨
    (∃ proxy, e = .selectFails ∧ Proxy.step config .selectFails s.proxy = some proxy ∧
      s' = { s with proxy := proxy }) ∨
    ∃ fds received proxy, e = .iterate fds received ∧
      Proxy.step config (s.input config fds received) s.proxy = some proxy ∧
      s' = { s with
        proxy := proxy
        channel := if config.sockUdp ∈ s.proxy.selected config (s.ready config fds) then
          s.channel.tail else s.channel } := by
  cases e with
  | tunPacket packet behind =>
      cases hfinished : s.finished with
      | true => simp [Outbound.step, hfinished] at h
      | false =>
          refine Or.inl ⟨packet, behind, rfl, rfl, ?_⟩
          simp only [Outbound.step, hfinished, Bool.false_eq_true, if_false, Option.some.injEq,
            tunPacketReceived_eq] at h
          rw [← h]
          split_ifs <;> simp
  | finish =>
      cases hfinished : s.finished with
      | true => simp [Outbound.step, hfinished] at h
      | false =>
          simp only [Outbound.step, hfinished, Bool.false_eq_true, if_false, Option.some.injEq] at h
          exact Or.inr (Or.inl ⟨rfl, rfl, h.symm⟩)
  | selectFails =>
      obtain ⟨proxy, hproxy, hs'⟩ := Option.map_eq_some_iff.mp h
      exact Or.inr (Or.inr (Or.inl ⟨proxy, rfl, hproxy, hs'.symm⟩))
  | iterate fds received =>
      obtain ⟨proxy, hproxy, hs'⟩ := Option.map_eq_some_iff.mp h
      exact Or.inr (Or.inr (Or.inr ⟨fds, received, proxy, rfl, hproxy, hs'.symm⟩))

section Arrival

variable {s : Outbound} {fds : Finset ℕ} {received : ℕ → Received}

theorem Outbound.channel_ne_nil
    (h : config.sockUdp ∈ s.proxy.selected config (s.ready config fds)) : s.channel ≠ [] := by
  intro hnil
  have hready := (Finset.mem_filter.mp h).2.2
  rw [Outbound.ready, if_pos hnil] at hready
  exact Finset.notMem_erase _ _ hready

theorem Outbound.arriving_sockUdp {datagram : List UInt8} {rest : List (List UInt8)}
    (h : s.channel = datagram :: rest) :
    s.arriving config received config.sockUdp = .message datagram := by
  rw [Outbound.arriving, Function.update_self, h]
  rfl

end Arrival

/-! ## The invariant -/

def Outbound.exitWaiting (s : Outbound) : List (List UInt8) :=
  if s.finished = true ∧ s.proxy.control ≠ .ended then [exitText] else []

def Outbound.expected (s : Outbound) : List (List UInt8 × List UInt8) :=
  (s.handed.filter fun packet => ¬ packet.IsTcp).map fun packet => addressed packet.bytes

/-- The packets that are not TCP are those that were injected and after them the
pending ones, which are in the channel. -/
structure Outbound.Exact (config : Config) (s : Outbound) (pending : List Packet) : Prop where
  valid : Proxy.Valid config s.proxy
  remembers : Proxy.Remembers s.proxy
  noTcp : ∀ packet ∈ pending, ¬ packet.IsTcp
  injected : s.proxy.injected ++ pending.map (fun packet => addressed packet.bytes) = s.expected
  channel : s.channel = pending.map Packet.bytes ++ s.exitWaiting
  ended : s.proxy.control = .ended → s.finished = true ∧ pending = []

theorem Outbound.Start.exact {s : Outbound} (h : Outbound.Start config s) : s.Exact config [] := by
  obtain ⟨proxy, hproxy⟩ := h
  refine ⟨hproxy.valid, hproxy.remembers, by simp, ?_, rfl, ?_⟩
  · cases hproxy
    rfl
  · cases hproxy
    intro hended
    cases hended

theorem Outbound.Exact.hand {s : Outbound} {pending : List Packet} (h : s.Exact config pending)
    (hfinished : s.finished = false) (packet : Packet) :
    ∃ pending', Outbound.Exact config { s with
      handed := s.handed ++ [packet]
      channel := s.channel ++ if packet.IsTcp then [] else [packet.bytes] } pending' := by
  have hwaiting : ∀ handed channel, Outbound.exitWaiting
      { s with handed := handed, channel := channel } = [] := by
    intro handed channel
    simp [Outbound.exitWaiting, hfinished]
  have hchannel : s.channel = pending.map Packet.bytes := by
    rw [h.channel, hwaiting s.handed s.channel, List.append_nil]
  by_cases htcp : packet.IsTcp
  · refine ⟨pending, h.valid, h.remembers, h.noTcp, ?_, ?_, h.ended⟩
    · rw [h.injected, Outbound.expected, Outbound.expected, List.filter_append,
        List.filter_cons_of_neg (by simpa using htcp), List.filter_nil, List.append_nil]
    · rw [hwaiting, if_pos htcp, List.append_nil, List.append_nil, hchannel]
  · refine ⟨pending ++ [packet], h.valid, h.remembers, ?_, ?_, ?_, ?_⟩
    · intro packet' hmem
      rcases List.mem_append.mp hmem with hold | hnew
      · exact h.noTcp packet' hold
      · obtain rfl := List.mem_singleton.mp hnew
        exact htcp
    · rw [List.map_append, ← List.append_assoc, h.injected, Outbound.expected, Outbound.expected,
        List.filter_append, List.filter_cons_of_pos (by simpa using htcp), List.filter_nil,
        List.map_append]
    · rw [hwaiting, if_neg htcp, List.append_nil, List.map_append, hchannel]
      rfl
    · intro hended
      rw [(h.ended hended).1] at hfinished
      cases hfinished

theorem Outbound.Exact.finish {s : Outbound} {pending : List Packet} (h : s.Exact config pending)
    (hfinished : s.finished = false) :
    Outbound.Exact config { s with finished := true, channel := s.channel ++ [exitText] }
      pending := by
  have hrunning : s.proxy.control ≠ .ended := by
    intro hended
    rw [(h.ended hended).1] at hfinished
    cases hfinished
  refine ⟨h.valid, h.remembers, h.noTcp, h.injected, ?_, fun hended => absurd hended hrunning⟩
  rw [Outbound.exitWaiting, if_pos ⟨rfl, hrunning⟩, h.channel, Outbound.exitWaiting,
    if_neg fun hboth => by simp [hfinished] at hboth, List.append_nil]

/-- The invariant after a step of the proxy in which it does not end and takes no
datagram from the channel. -/
theorem Outbound.Exact.proxy {s : Outbound} {pending : List Packet} (h : s.Exact config pending)
    {proxy : Proxy.State} (hvalid : Proxy.Valid config proxy) (hremembers : Proxy.Remembers proxy)
    (hinjected : proxy.injected = s.proxy.injected) (hcontrol : proxy.control ≠ .ended)
    (hold : s.proxy.control ≠ .ended) :
    Outbound.Exact config { s with proxy := proxy } pending := by
  refine ⟨hvalid, hremembers, h.noTcp, ?_, ?_, fun hended => absurd hended hcontrol⟩
  · rw [hinjected]
    exact h.injected
  · rw [h.channel, Outbound.exitWaiting, Outbound.exitWaiting]
    simp [hcontrol, hold]

theorem Outbound.Exact.packet {s : Outbound} {packet : Packet} {pending : List Packet}
    (h : s.Exact config (packet :: pending)) {proxy : Proxy.State}
    (hvalid : Proxy.Valid config proxy) (hremembers : Proxy.Remembers proxy)
    (hinjected : proxy.injected = s.proxy.injected ++ [addressed packet.bytes])
    (hcontrol : proxy.control ≠ .ended) (hold : s.proxy.control ≠ .ended) :
    Outbound.Exact config { s with proxy := proxy, channel := s.channel.tail } pending := by
  refine ⟨hvalid, hremembers, fun packet' hmem => h.noTcp packet' (List.mem_cons_of_mem _ hmem),
    ?_, ?_, fun hended => absurd hended hcontrol⟩
  · have hsplit := h.injected
    rw [List.map_cons] at hsplit
    rw [hinjected, List.append_assoc]
    exact hsplit
  · rw [h.channel, Outbound.exitWaiting, Outbound.exitWaiting]
    simp [hcontrol, hold]

theorem Outbound.Exact.exit {s : Outbound} (h : s.Exact config []) (hfinished : s.finished = true)
    {proxy : Proxy.State} (hvalid : Proxy.Valid config proxy) (hremembers : Proxy.Remembers proxy)
    (hinjected : proxy.injected = s.proxy.injected) (hcontrol : proxy.control = .ended)
    (hold : s.proxy.control ≠ .ended) :
    Outbound.Exact config { s with proxy := proxy, channel := s.channel.tail } [] := by
  refine ⟨hvalid, hremembers, by simp, ?_, ?_, fun _ => ⟨hfinished, rfl⟩⟩
  · rw [hinjected]
    exact h.injected
  · rw [h.channel, Outbound.exitWaiting, Outbound.exitWaiting]
    simp [hcontrol, hold, hfinished]

/-- An iteration of the proxy that meets the condition keeps the invariant. -/
theorem Outbound.Exact.iterate {s : Outbound} {pending : List Packet} (h : s.Exact config pending)
    {fds : Finset ℕ} {received : ℕ → Received} (hok : Regular config (.iterate fds received) s)
    {proxy : Proxy.State}
    (hstep : Proxy.step config (s.input config fds received) s.proxy = some proxy) :
    ∃ pending', Outbound.Exact config { s with
      proxy := proxy
      channel := if config.sockUdp ∈ s.proxy.selected config (s.ready config fds) then
        s.channel.tail else s.channel } pending' := by
  obtain ⟨hspare, hexit⟩ := hok
  have hvalid := h.valid.step hspare hstep
  have hremembers := h.remembers.step hstep
  have hrunning := (Proxy.step_ready_eq hstep).1
  have hold : s.proxy.control ≠ .ended := by
    rw [hrunning]
    decide
  by_cases hmem : config.sockUdp ∈ s.proxy.selected config (s.ready config fds)
  · rw [if_pos hmem]
    cases pending with
    | cons packet pending =>
        have harriving : s.arriving config received config.sockUdp = .message packet.bytes :=
          Outbound.arriving_sockUdp h.channel
        have htcp : ¬ packet.IsTcp := h.noTcp packet List.mem_cons_self
        have hmax : packet.bytes.length ≤ bufLen := packet.fits.trans (by decide)
        obtain ⟨hinjected, hcontrol⟩ :=
          Proxy.injected_step_of_packet hstep hmem harriving packet.header hmax htcp
        exact ⟨pending, h.packet hvalid hremembers hinjected (by rw [hcontrol]; decide) hold⟩
    | nil =>
        have hchannel := h.channel
        have hne := Outbound.channel_ne_nil hmem
        rw [List.map_nil, List.nil_append] at hchannel
        unfold Outbound.exitWaiting at hchannel
        split_ifs at hchannel with hfinished
        · have hnul := (h.remembers.beforeDatagram _ _).fifth_eq_zero_iff.mpr
            (hexit hmem (by rw [hchannel]; rfl))
          obtain ⟨hinjected, hcontrol⟩ := Proxy.injected_step_of_exit hstep hmem
            (Outbound.arriving_sockUdp hchannel) hnul
          exact ⟨[], h.exit hfinished.1 hvalid hremembers hinjected hcontrol hold⟩
        · exact absurd hchannel hne
  · rw [if_neg hmem]
    obtain ⟨hinjected, hcontrol⟩ := Proxy.injected_step_of_notMem hstep hmem
    exact ⟨pending, h.proxy hvalid hremembers hinjected (by rw [hcontrol]; decide) hold⟩

theorem Outbound.Exact.step {s s' : Outbound} {pending : List Packet} (h : s.Exact config pending)
    {e : Event} (hok : Regular config e s) (hstep : Outbound.step config e s = some s') :
    ∃ pending', s'.Exact config pending' := by
  rcases Outbound.step_cases hstep with ⟨packet, behind, -, hfinished, rfl⟩ |
    ⟨-, hfinished, rfl⟩ | ⟨proxy, -, hproxy, rfl⟩ | ⟨fds, received, proxy, rfl, hproxy, rfl⟩
  · exact h.hand hfinished packet
  · exact ⟨pending, h.finish hfinished⟩
  · have hspare : Proxy.SpareDescriptor config .selectFails s.proxy := trivial
    have hvalid := h.valid.step hspare hproxy
    have hremembers := h.remembers.step hproxy
    rcases Proxy.step_cases hproxy with ⟨-, rfl⟩ | ⟨fds, received, heq, -⟩
    · refine ⟨pending, h.proxy hvalid hremembers rfl nofun ?_⟩
      intro hended
      rw [Proxy.step_of_not_running (by rw [hended]; decide)] at hproxy
      cases hproxy
    · cases heq
  · exact h.iterate hok hproxy

theorem Outbound.Exact.progress {s : Outbound} {pending : List Packet} (h : s.Exact config pending)
    (hsockets : config.sockUdp < config.sockRawRecv ∧ config.sockRawRecv < config.sockRawSend)
    (hrunning : s.proxy.control = .running) (hchannel : s.channel ≠ []) (received : ℕ → Received) :
    ∃ s', Outbound.step config (.iterate {config.sockUdp} received) s = some s' ∧
      s'.channel = s.channel.tail := by
  have hready : s.ready config {config.sockUdp} = {config.sockUdp} := if_neg hchannel
  have hmem : config.sockUdp ∈ s.proxy.selected config (s.ready config {config.sockUdp}) := by
    refine Proxy.State.mem_selected (Or.inl rfl) ?_
      (by rw [hready]; exact Finset.mem_singleton_self _)
    have hmaxfd := h.valid.maxfd
    omega
  have hne : s.proxy.selected config (s.ready config {config.sockUdp}) ≠ ∅ :=
    Finset.ne_empty_of_mem hmem
  unfold Outbound.step
  dsimp only
  rw [Outbound.input, Proxy.step_ready hrunning, if_neg hne, if_pos hmem]
  exact ⟨_, rfl, rfl⟩

theorem Outbound.forwarded_step {e : Event} {s s' : Outbound}
    (h : Proxy.NoTcpForwarded s.proxy) (hstep : Outbound.step config e s = some s') :
    Proxy.NoTcpForwarded s'.proxy := by
  rcases Outbound.step_cases hstep with ⟨packet, behind, -, -, rfl⟩ |
    ⟨-, -, rfl⟩ | ⟨proxy, -, hproxy, rfl⟩ | ⟨fds, received, proxy, -, hproxy, rfl⟩
  · exact h
  · exact h
  · exact h.step hproxy
  · exact h.step hproxy

theorem Outbound.iterate_tcp {s s' : Outbound} {fds : Finset ℕ} {received : ℕ → Received}
    (hsockets : config.sockUdp < config.sockRawRecv) {frame : List UInt8}
    (hframe : received config.sockRawRecv = .message frame)
    (hip : Buffer.Reads (frame.take bufLen) 12 [0x08, 0x00])
    (htcp : Buffer.Reads (frame.take bufLen) 23 [6])
    (hstep : Outbound.step config (.iterate fds received) s = some s') :
    s'.proxy.forwarded = s.proxy.forwarded := by
  obtain ⟨proxy, hproxy, rfl⟩ := Option.map_eq_some_iff.mp hstep
  refine Proxy.forwarded_step_tcp hproxy ?_ hip htcp
  rw [Outbound.arriving, Function.update_of_ne hsockets.ne', hframe]

/-- In every run in which a descriptor is free whenever a UDP packet is handled, and a
NUL follows `"EXIT"` when it is handled, the proxy has injected the packets that are
not TCP in their order, each once, unchanged and to its own destination, up to those
that are still in the channel; the loop does not end before them, and the next one
can be received. TCP is neither in the channel nor forwarded to the client. -/
theorem outbound_packets_exact {s₀ s : Outbound} (h₀ : Outbound.Start config s₀)
    (h : Transition.Reachable (Outbound.step config) (Outbound.Regular config) s₀ s) :
    (∃ pending : List Packet,
      s.proxy.injected ++ pending.map (fun packet => addressed packet.bytes) =
        s.expected ∧ s.channel = pending.map Packet.bytes ++ s.exitWaiting) ∧
      (s.channel = [] ∨ s.proxy.control = .ended → s.proxy.injected = s.expected) ∧
      (s.proxy.control = .ended → s.finished = true) ∧
      (s.proxy.control = .running → s.channel ≠ [] → ∀ received, ∃ s',
        Outbound.step config (.iterate {config.sockUdp} received) s = some s' ∧
          s'.channel = s.channel.tail) ∧
      (∀ datagram ∈ s.channel, datagram[9]? ≠ some 6) ∧
      (∀ packet ∈ s.proxy.forwarded, packet[9]? ≠ some 6) ∧
      ∀ fds received frame s', received config.sockRawRecv = .message frame →
        Buffer.Reads (frame.take bufLen) 12 [0x08, 0x00] →
        Buffer.Reads (frame.take bufLen) 23 [6] →
        Outbound.step config (.iterate fds received) s = some s' →
          s'.proxy.forwarded = s.proxy.forwarded := by
  have hsockets :
      config.sockUdp < config.sockRawRecv ∧ config.sockRawRecv < config.sockRawSend := by
    obtain ⟨proxy, hproxy⟩ := h₀
    exact hproxy.sockets
  obtain ⟨pending, hexact⟩ : ∃ pending, s.Exact config pending := by
    refine h.invariant (P := fun s => ∃ pending, s.Exact config pending) ⟨[], h₀.exact⟩ ?_
    rintro t e t' - ⟨pending, hexact⟩ hok hstep
    exact hexact.step hok hstep
  have hforwarded : Proxy.NoTcpForwarded s.proxy := by
    refine h.invariant ?_ fun t e t' _ ht _ hstep => Outbound.forwarded_step ht hstep
    obtain ⟨proxy, hproxy⟩ := h₀
    cases hproxy
    intro packet hpacket
    simp [Proxy.State.forwarded] at hpacket
  refine ⟨⟨pending, hexact.injected, hexact.channel⟩, ?_, fun hended => (hexact.ended hended).1,
    hexact.progress hsockets, ?_, hforwarded, ?_⟩
  · intro hdone
    have hnil : pending = [] := by
      rcases hdone with hempty | hended
      · have hchannel := hexact.channel
        rw [hempty] at hchannel
        exact List.map_eq_nil_iff.mp (List.append_eq_nil_iff.mp hchannel.symm).1
      · exact (hexact.ended hended).2
    have hinjected := hexact.injected
    rwa [hnil, List.map_nil, List.append_nil] at hinjected
  · intro datagram hmem
    rw [hexact.channel, List.mem_append, List.mem_map] at hmem
    rcases hmem with ⟨packet, hpacket, rfl⟩ | hexit
    · exact hexact.noTcp packet hpacket
    · unfold Outbound.exitWaiting at hexit
      split_ifs at hexit
      · obtain rfl := List.mem_singleton.mp hexit
        decide
      · cases hexit
  · intro fds received frame s' hframe hip htcp hstep
    exact Outbound.iterate_tcp hsockets.1 hframe hip htcp hstep

def outboundEnter : Config × Outbound :=
  ((Proxy.enter 1024).1,
    { handed := [], channel := [], finished := false, proxy := (Proxy.enter 1024).2 })

theorem outbound_packets_exact_udp :
    let packet : Packet := ⟨Proxy.udpPacket, by decide, by decide⟩
    let config := outboundEnter.1
    let sent : Outbound := { outboundEnter.2 with handed := [packet], channel := [packet.bytes] }
    let proxy := (sent.proxy.afterDatagram config {3} (sent.arriving config fun _ => .error)).drain
      config (sent.arriving config fun _ => .error)
    proxy.injected = [(Proxy.udpPacket, [10, 0, 0, 2])] := by
  intro packet config sent proxy
  have hproxy :
      Proxy.step config (sent.input config {3} fun _ => .error) sent.proxy = some proxy := rfl
  clear_value proxy
  let arrived : Outbound := { sent with proxy := proxy, channel := [] }
  have hhand :
      Outbound.step config (.tunPacket packet fun _ => 0) outboundEnter.2 = some sent := rfl
  have hmem : config.sockUdp ∈ sent.proxy.selected config (sent.ready config {3}) := by decide
  have hiterate : Outbound.step config (.iterate {3} fun _ => .error) sent = some arrived := by
    unfold Outbound.step
    dsimp only
    rw [hproxy, if_pos hmem]
    rfl
  have hregular : Outbound.Regular config (.iterate {3} fun _ => .error) sent :=
    ⟨fun _ => ⟨by decide, by decide⟩, fun _ hhead => absurd hhead (by decide)⟩
  have hstart : Outbound.Start config outboundEnter.2 := .enter _ (Proxy.start_enter (by decide))
  have hfirst : Outbound.Regular config (.tunPacket packet fun _ => 0) outboundEnter.2 := trivial
  have hsent := (Transition.Reachable.refl _).tail hfirst hhand
  have hexpected : arrived.expected = [(Proxy.udpPacket, [10, 0, 0, 2])] := rfl
  have hinjected := (outbound_packets_exact hstart (hsent.tail hregular hiterate)).2.1 (Or.inl rfl)
  exact hinjected.trans hexpected

/-- `"EXIT"` right after the handshake is injected although no packet was handed to
the tunnel. -/
theorem exit_injected_as_packet :
    let config := outboundEnter.1
    let finished : Outbound := { outboundEnter.2 with finished := true, channel := [exitText] }
    Outbound.Start config outboundEnter.2 ∧
      Outbound.step config .finish outboundEnter.2 = some finished ∧
      ∃ s, Outbound.step config (.iterate {3} fun _ => .error) finished = some s ∧
        s.handed = [] ∧ s.proxy.injected = [(exitText, [0, 0, 0, 0])] ∧
          s.proxy.control = .running :=
  ⟨.enter _ (Proxy.start_enter (by decide)), rfl, _, rfl, rfl, rfl, rfl⟩

end Tunnel

end Matador
