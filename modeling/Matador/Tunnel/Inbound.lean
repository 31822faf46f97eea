import Matador.Proxy.Capture

/-!
# The way in through the tunnel

The proxy sends `"OPEN!"` to the client before its loop and then what it forwards. The
tunnel has a socket on the port of the client until it has sent its own `"OPEN!"`; then
it closes this socket and, later, binds `sock_udp_tun` to the port. What arrives before
that is lost. The child of the tunnel throws the first datagram of `sock_udp_tun` away,
whatever it is, and passes all others to `tun2socks_write`. Responses of the STUN server
to repeated requests may still arrive at any time.

The datagrams of the proxy are delivered once and in order. Each datagram is labelled
with what it is; the programs do not look at the label.
-/

namespace Matador

namespace Tunnel

open Proxy (Config Received Captured openText bufLen totalLength icmpPacket icmpFrame)

/-- A datagram that arrives at the client: a control message, which is `"OPEN!"` or a
STUN response, or a packet. -/
inductive Datagram where
  | control (bytes : List UInt8)
  | packet (bytes : List UInt8)
  deriving DecidableEq

def Datagram.bytes : Datagram → List UInt8
  | control bytes => bytes
  | packet bytes => bytes

def Datagram.packet? : Datagram → Option (List UInt8)
  | control _ => none
  | packet bytes => some bytes

/-- The socket of the tunnel: `sock_udp` is still open, it is closed, or
`sock_udp_tun` is bound. -/
inductive Phase where
  | opened
  | closed
  | bound
  deriving DecidableEq

/-- The proxy with the frames it has captured, the datagrams on the way to the client,
and the tunnel with the datagrams in the buffer of `sock_udp_tun`; `cleared` says that
the child has thrown the first one away, and `written` is what was passed to
`tun2socks_write`. All lists have the oldest in front. -/
structure Inbound where
  proxy : Proxy.State
  captured : List Captured
  channel : List Datagram
  phase : Phase
  queue : List Datagram
  cleared : Bool
  written : List Datagram

/-- What can happen: an iteration of the proxy, in which a captured frame may belong to
the tunnel, the arrival of a datagram of the proxy or of the STUN server, the next
action on the sockets of the tunnel, and a `recvfrom` of its child. -/
inductive Inbound.Event where
  | selectFails
  | iterate (fds : Finset ℕ) (received : ℕ → Received) (own : Bool)
  | deliver
  | stunResponse (bytes : List UInt8)
  | close
  | bind
  | recvfrom

def Inbound.frames (config : Config) (fds : Finset ℕ) (received : ℕ → Received) (own : Bool)
    (s : Inbound) : List Captured :=
  if config.sockRawRecv ∈ s.proxy.selected config fds then
    match received config.sockRawRecv with
    | .message frame => [⟨frame, own⟩]
    | .error => []
  else []

def sendto (n : ℕ) (proxy : Proxy.State) : List Datagram :=
  ((proxy.forwarded.drop n).filter fun packet => packet.length ≤ 65507).map Datagram.packet

/-- A datagram reaches the tunnel, which has no socket for it before `sock_udp_tun` is
bound, or closes the one that has it. -/
def Inbound.arrive (datagram : Datagram) (s : Inbound) : Inbound :=
  match s.phase with
  | .opened | .closed => s
  | .bound => { s with queue := s.queue ++ [datagram] }

def Inbound.receive (datagram : Datagram) (s : Inbound) : Inbound :=
  if s.cleared then
    if 0 < datagram.bytes.length then { s with written := s.written ++ [datagram] } else s
  else { s with cleared := true }

def Inbound.step (config : Config) : Event → Inbound → Option Inbound
  | .selectFails, s =>
      (Proxy.step config .selectFails s.proxy).map fun proxy => { s with proxy := proxy }
  | .iterate fds received own, s =>
      (Proxy.step config (.ready fds received) s.proxy).map fun proxy =>
        { s with
          proxy := proxy
          captured := s.captured ++ s.frames config fds received own
          channel := s.channel ++ sendto s.proxy.forwarded.length proxy }
  | .deliver, s =>
      match s.channel with
      | [] => none
      | datagram :: channel => some ({ s with channel := channel }.arrive datagram)
  | .stunResponse bytes, s => some (s.arrive (.control bytes))
  | .close, s => if s.phase = .opened then some { s with phase := .closed } else none
  | .bind, s => if s.phase = .closed then some { s with phase := .bound } else none
  | .recvfrom, s =>
      match s.queue with
      | [] => none
      | datagram :: queue => some ({ s with queue := queue }.receive datagram)

/-- The proxy enters its loop, `"OPEN!"` of the proxy is on the way, and the tunnel has
not closed its first socket. -/
inductive Inbound.Start (config : Config) : Inbound → Prop where
  | enter (proxy : Proxy.State) (h : Proxy.Start config proxy) :
      Inbound.Start config
        { proxy := proxy, captured := [], channel := [.control openText], phase := .opened,
          queue := [], cleared := false, written := [] }

def Inbound.Fresh (s : Inbound) : Prop := s.cleared = false ∧ s.queue = []

/-- Every captured frame is clean. A control message reaches `sock_udp_tun` only as
its first datagram, and a packet only after it. -/
def Inbound.Regular (config : Config) : Event → Inbound → Prop
  | .iterate fds received own, s => ∀ c ∈ s.frames config fds received own, c.Clean config
  | .deliver, s =>
      match s.channel with
      | [] => True
      | .control _ :: _ => s.phase = .bound → s.Fresh
      | .packet _ :: _ => s.phase = .bound ∧ ¬ s.Fresh
  | .stunResponse _, s => s.phase = .bound → s.Fresh
  | _, _ => True

def Inbound.expected (config : Config) (s : Inbound) : List (List UInt8) :=
  s.captured.filterMap (Captured.packet config)

variable {config : Config}

/-! ## What the proxy sends -/

theorem forwarded_iterate (hconfig : config.WellFormed) {s : Inbound} {fds : Finset ℕ}
    {received : ℕ → Received} {own : Bool}
    (hclean : ∀ c ∈ s.frames config fds received own, c.Clean config) {proxy : Proxy.State}
    (hstep : Proxy.step config (.ready fds received) s.proxy = some proxy) :
    proxy.forwarded = s.proxy.forwarded ++
      (s.frames config fds received own).filterMap (Captured.packet config) := by
  rw [Proxy.forwarded_step hstep]
  unfold Inbound.frames at hclean ⊢
  unfold Proxy.State.beforeDatagram
  dsimp only
  split_ifs at hclean ⊢
  · cases hreceived : received config.sockRawRecv with
    | error => exact (List.append_nil _).symm
    | message frame =>
        rw [hreceived] at hclean
        have hframe :=
          Proxy.forwarded_frame_of_clean hconfig (hclean ⟨frame, own⟩ List.mem_cons_self)
          { s.proxy with rset := s.proxy.selected config fds }
        refine hframe.trans ?_
        rw [List.filterMap_cons, List.filterMap_nil]
        cases Captured.packet config ⟨frame, own⟩ <;> rfl
  · exact (List.append_nil _).symm

theorem sendto_iterate (hconfig : config.WellFormed) {s : Inbound} {fds : Finset ℕ}
    {received : ℕ → Received} {own : Bool}
    (hclean : ∀ c ∈ s.frames config fds received own, c.Clean config) {proxy : Proxy.State}
    (hstep : Proxy.step config (.ready fds received) s.proxy = some proxy) :
    sendto s.proxy.forwarded.length proxy =
      ((s.frames config fds received own).filterMap (Captured.packet config)).map
        Datagram.packet := by
  rw [sendto, forwarded_iterate hconfig hclean hstep, List.drop_left, List.filter_eq_self.mpr]
  intro packet hmem
  obtain ⟨c, hc, hpacket⟩ := List.mem_filterMap.mp hmem
  exact decide_eq_true (Captured.length_packet (hclean c hc) hpacket).2.2

/-! ## The invariant -/

def packets (datagrams : List Datagram) : List (List UInt8) :=
  datagrams.filterMap Datagram.packet?

theorem packets_append (l l' : List Datagram) : packets (l ++ l') = packets l ++ packets l' :=
  List.filterMap_append

theorem packets_map_packet (l : List (List UInt8)) : packets (l.map Datagram.packet) = l := by
  rw [packets, List.filterMap_map]
  exact List.filterMap_some

def AllPackets (datagrams : List Datagram) : Prop :=
  ∀ d ∈ datagrams, ∃ bytes, d = .packet bytes

theorem AllPackets.append_packet {l : List Datagram} (h : AllPackets l) (bytes : List UInt8) :
    AllPackets (l ++ [.packet bytes]) := by
  intro d hd
  rcases List.mem_append.mp hd with hold | hnew
  · exact h d hold
  · exact ⟨bytes, List.mem_singleton.mp hnew⟩

theorem AllPackets.map_bytes {l : List Datagram} (h : AllPackets l) :
    l.map Datagram.bytes = packets l := by
  induction l with
  | nil => rfl
  | cons d l ih =>
      obtain ⟨bytes, rfl⟩ := h d List.mem_cons_self
      rw [List.map_cons, ih fun d hd => h d (List.mem_cons_of_mem _ hd)]
      rfl

/-- The packets that were written, those in the queue and those on the way are the
expected ones, and of the datagrams in the tunnel only the first one of the queue may
be a control message, as long as the child has not thrown it away. -/
structure Inbound.Transparent (config : Config) (s : Inbound) : Prop where
  stream : packets s.written ++ packets s.queue ++ packets s.channel = s.expected config
  lengths : ∀ packet ∈ s.expected config, packet.length = totalLength packet ∧ 0 < packet.length
  written : AllPackets s.written
  queue : s.cleared = true → AllPackets s.queue
  first : s.cleared = false → s.queue = [] ∨
    ∃ bytes rest, s.queue = .control bytes :: rest ∧ AllPackets rest

theorem Inbound.Start.transparent {s : Inbound} (h : Inbound.Start config s) :
    s.Transparent config := by
  obtain ⟨proxy, -⟩ := h
  refine ⟨rfl, ?_, ?_, ?_, fun _ => Or.inl rfl⟩
  · simp [Inbound.expected]
  · simp [AllPackets]
  · simp

theorem Inbound.Transparent.arrive_control {s : Inbound} (h : s.Transparent config)
    (bytes : List UInt8) (hfresh : s.phase = .bound → s.Fresh) :
    (s.arrive (.control bytes)).Transparent config := by
  unfold Inbound.arrive
  cases hphase : s.phase with
  | opened | closed => exact h
  | bound =>
      obtain ⟨hcleared, hqueue⟩ := hfresh hphase
      refine ⟨?_, h.lengths, h.written, ?_, ?_⟩
      · have hstream := h.stream
        rw [hqueue] at hstream ⊢
        exact hstream
      · intro htrue
        rw [hcleared] at htrue
        cases htrue
      · intro _
        refine Or.inr ⟨bytes, [], ?_, by simp [AllPackets]⟩
        rw [hqueue]
        rfl

theorem Inbound.Transparent.arrive_packet {s : Inbound} (h : s.Transparent config)
    {bytes : List UInt8} {channel : List Datagram} (hchannel : s.channel = .packet bytes :: channel)
    (hphase : s.phase = .bound) (hfresh : ¬ s.Fresh) :
    ({ s with channel := channel }.arrive (.packet bytes)).Transparent config := by
  unfold Inbound.arrive
  dsimp only
  rw [hphase]
  refine ⟨?_, h.lengths, h.written, ?_, ?_⟩
  · have hstream := h.stream
    rw [hchannel] at hstream
    refine Eq.trans ?_ hstream
    simp [packets, Datagram.packet?]
  · intro htrue
    exact (h.queue htrue).append_packet bytes
  · intro hfalse
    refine Or.inr ?_
    rcases h.first hfalse with hempty | ⟨control, rest, hqueue, hrest⟩
    · exact absurd ⟨hfalse, hempty⟩ hfresh
    · exact ⟨control, rest ++ [.packet bytes], by rw [hqueue]; rfl, hrest.append_packet bytes⟩

theorem Inbound.Transparent.receive {s : Inbound} (h : s.Transparent config) {datagram : Datagram}
    {queue : List Datagram} (hqueue : s.queue = datagram :: queue) :
    ({ s with queue := queue }.receive datagram).Transparent config := by
  have hstream := h.stream
  rw [hqueue] at hstream
  unfold Inbound.receive
  dsimp only
  cases hcleared : s.cleared with
  | true =>
      have hall := h.queue hcleared
      rw [hqueue] at hall
      obtain ⟨bytes, rfl⟩ := hall datagram List.mem_cons_self
      have hmem : bytes ∈ s.expected config := by
        rw [← hstream]
        exact List.mem_append_left _ (List.mem_append_right _ List.mem_cons_self)
      have hpos : 0 < (Datagram.packet bytes).bytes.length := (h.lengths bytes hmem).2
      rw [if_pos rfl, if_pos hpos]
      refine ⟨?_, h.lengths, h.written.append_packet bytes, ?_, ?_⟩
      · refine Eq.trans ?_ hstream
        simp [packets, Datagram.packet?]
      · exact fun _ d hd => hall d (List.mem_cons_of_mem _ hd)
      · intro hfalse
        cases hfalse
  | false =>
      rw [if_neg (by decide)]
      rcases h.first hcleared with hempty | ⟨control, rest, hcontrol, hrest⟩
      · rw [hempty] at hqueue
        cases hqueue
      · rw [hcontrol] at hqueue
        obtain ⟨rfl, rfl⟩ := List.cons.inj hqueue
        refine ⟨hstream, h.lengths, h.written, fun _ => hrest, ?_⟩
        intro hfalse
        cases hfalse

theorem Inbound.Transparent.iterate {s : Inbound} (h : s.Transparent config)
    (hconfig : config.WellFormed) {fds : Finset ℕ} {received : ℕ → Received} {own : Bool}
    (hclean : ∀ c ∈ s.frames config fds received own, c.Clean config) {proxy : Proxy.State}
    (hstep : Proxy.step config (.ready fds received) s.proxy = some proxy) :
    Inbound.Transparent config { s with
      proxy := proxy
      captured := s.captured ++ s.frames config fds received own
      channel := s.channel ++ sendto s.proxy.forwarded.length proxy } := by
  refine ⟨?_, ?_, h.written, h.queue, h.first⟩
  · have hstream := h.stream
    unfold Inbound.expected at hstream ⊢
    dsimp only
    rw [List.filterMap_append, ← hstream, sendto_iterate hconfig hclean hstep, packets_append,
      packets_map_packet, List.append_assoc _ (packets s.channel)]
  · intro packet hmem
    unfold Inbound.expected at hmem
    rw [List.filterMap_append, List.mem_append] at hmem
    rcases hmem with hold | hnew
    · exact h.lengths packet hold
    · obtain ⟨c, hc, hpacket⟩ := List.mem_filterMap.mp hnew
      obtain ⟨htotal, hmin, -⟩ := Proxy.Captured.length_packet (hclean c hc) hpacket
      exact ⟨htotal, by omega⟩

theorem Inbound.Transparent.step {s s' : Inbound} (h : s.Transparent config)
    (hconfig : config.WellFormed) {e : Event} (hok : Regular config e s)
    (hstep : Inbound.step config e s = some s') : s'.Transparent config := by
  cases e with
  | selectFails =>
      obtain ⟨proxy, -, rfl⟩ := Option.map_eq_some_iff.mp hstep
      exact ⟨h.stream, h.lengths, h.written, h.queue, h.first⟩
  | iterate fds received own =>
      obtain ⟨proxy, hproxy, rfl⟩ := Option.map_eq_some_iff.mp hstep
      exact h.iterate hconfig hok hproxy
  | deliver =>
      cases hchannel : s.channel with
      | nil => simp [Inbound.step, hchannel] at hstep
      | cons datagram channel =>
          simp only [Inbound.step, hchannel, Option.some.injEq] at hstep
          obtain rfl := hstep
          cases datagram with
          | control bytes =>
              simp only [Inbound.Regular, hchannel] at hok
              have hdelivered : Inbound.Transparent config { s with channel := channel } := by
                refine ⟨?_, h.lengths, h.written, h.queue, h.first⟩
                have hstream := h.stream
                rw [hchannel] at hstream
                exact hstream
              exact hdelivered.arrive_control bytes hok
          | packet bytes =>
              simp only [Inbound.Regular, hchannel] at hok
              exact h.arrive_packet hchannel hok.1 hok.2
  | stunResponse bytes =>
      obtain rfl := Option.some.inj hstep
      exact h.arrive_control bytes hok
  | close | bind =>
      simp only [Inbound.step] at hstep
      split_ifs at hstep
      obtain rfl := Option.some.inj hstep
      exact ⟨h.stream, h.lengths, h.written, h.queue, h.first⟩
  | recvfrom =>
      cases hqueue : s.queue with
      | nil => simp [Inbound.step, hqueue] at hstep
      | cons datagram queue =>
          simp only [Inbound.step, hqueue, Option.some.injEq] at hstep
          obtain rfl := hstep
          exact h.receive hqueue

/-- In every run in which the captured frames are clean, a control message reaches
`sock_udp_tun` as its first datagram only, and packets after it only, the buffers
passed to `tun2socks_write` are the packets for the client in their order, each once
and as long as its total length says, up to those that are still on the way. No control
message is among them. -/
theorem inbound_packets_exact (hconfig : config.WellFormed) {s₀ s : Inbound}
    (h₀ : Inbound.Start config s₀)
    (h : Transition.Reachable (Inbound.step config) (Inbound.Regular config) s₀ s) :
    s.written.map Datagram.bytes ++ packets s.queue ++ packets s.channel = s.expected config ∧
      (s.queue = [] → s.channel = [] → s.written.map Datagram.bytes = s.expected config) ∧
      (∀ d ∈ s.written, ∃ packet, d = .packet packet ∧ packet.length = totalLength packet) ∧
      (s.queue ≠ [] →
        ∃ s', Inbound.step config .recvfrom s = some s' ∧ s'.queue = s.queue.tail) := by
  have htransparent : s.Transparent config :=
    h.invariant h₀.transparent fun _ _ _ _ hs hok hstep => hs.step hconfig hok hstep
  have hstream := htransparent.stream
  rw [← htransparent.written.map_bytes] at hstream
  refine ⟨hstream, ?_, ?_, ?_⟩
  · intro hqueue hchannel
    rw [hqueue, hchannel] at hstream
    simpa [packets] using hstream
  · intro d hd
    obtain ⟨packet, rfl⟩ := htransparent.written d hd
    refine ⟨packet, rfl, (htransparent.lengths packet ?_).1⟩
    rw [← hstream]
    exact List.mem_append_left _ (List.mem_append_left _ (List.mem_map_of_mem hd))
  · intro hne
    obtain ⟨datagram, queue, hqueue⟩ := List.exists_cons_of_ne_nil hne
    refine ⟨_, by rw [Inbound.step, hqueue], ?_⟩
    rw [hqueue]
    unfold Inbound.receive
    dsimp only
    split_ifs <;> rfl

def inboundEnter : Config × Inbound :=
  ((Proxy.enter 1024).1,
    { proxy := (Proxy.enter 1024).2, captured := [], channel := [.control openText],
      phase := .opened, queue := [], cleared := false, written := [] })

theorem start_inboundEnter : Inbound.Start inboundEnter.1 inboundEnter.2 :=
  .enter _ (Proxy.start_enter (by decide))

def captureIcmp (padding : List UInt8) : Inbound.Event :=
  .iterate {4} (fun _ => .message (icmpFrame padding)) false

/-- `"OPEN!"` arrives when `sock_udp_tun` is bound, and a frame without padding is
written as it is. -/
theorem inbound_packets_exact_icmp :
    ∃ s, [.close, .bind, .deliver, .recvfrom, captureIcmp [], .deliver, .recvfrom].foldlM
        (fun s e => Inbound.step inboundEnter.1 e s) inboundEnter.2 = some s ∧
      s.written.map Datagram.bytes = [icmpPacket] := by
  have hclean : ∀ c ∈ [Captured.mk (icmpFrame []) false], c.Clean inboundEnter.1 := by decide
  have hstart : Transition.Reachable (Inbound.step inboundEnter.1) (Inbound.Regular inboundEnter.1)
      inboundEnter.2 inboundEnter.2 := .refl _
  have hclosed := hstart.tail (o := .close) trivial rfl
  have hbound := hclosed.tail (o := .bind) trivial rfl
  have hopen := hbound.tail (o := .deliver) (fun _ => ⟨rfl, rfl⟩) rfl
  have hcleared := hopen.tail (o := .recvfrom) trivial rfl
  have hcaptured := hcleared.tail (o := captureIcmp []) hclean rfl
  have harrived := hcaptured.tail (o := .deliver) ⟨rfl, fun hfresh => nomatch hfresh.1⟩ rfl
  have hwritten := harrived.tail (o := .recvfrom) trivial rfl
  exact ⟨_, rfl, (inbound_packets_exact ⟨rfl, rfl⟩ start_inboundEnter hwritten).2.1 rfl rfl⟩

/-- The shortest Ethernet frame is padded, and what is written is longer than the
packet; if `"OPEN!"` arrives before `sock_udp_tun` is bound, the first packet is
thrown away; and after a late STUN response `"OPEN!"` is written. -/
theorem padding_and_order_change_stream :
    let run (events : List Inbound.Event) : Option Inbound :=
      events.foldlM (fun s e => Inbound.step inboundEnter.1 e s) inboundEnter.2
    Inbound.Start inboundEnter.1 inboundEnter.2 ∧
      (∃ s, run [.close, .bind, .deliver, .recvfrom, captureIcmp (List.replicate 22 0), .deliver,
        .recvfrom] = some s ∧ s.expected inboundEnter.1 = [icmpPacket] ∧
          s.written.map Datagram.bytes = [icmpPacket ++ List.replicate 22 0]) ∧
      (∃ s, run [.deliver, .close, .bind, captureIcmp [], .deliver, .recvfrom] = some s ∧
        s.expected inboundEnter.1 = [icmpPacket] ∧ s.written = [] ∧ s.queue = [] ∧
          s.channel = []) ∧
      ∃ s, run [.close, .bind, .stunResponse [1, 1], .deliver, .recvfrom, .recvfrom] = some s ∧
        s.written = [.control openText] :=
  ⟨start_inboundEnter, ⟨_, rfl, rfl, rfl⟩, ⟨_, rfl, rfl, rfl, rfl, rfl⟩, ⟨_, rfl, rfl⟩⟩

end Tunnel

end Matador
