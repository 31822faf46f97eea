import Matador.Proxy.Traffic
import Matador.Stun.Request

/-!
# The handshake at the proxy

Before its loop the proxy asks the STUN server for its address, prints it for the
tunnel, sends `"OPEN!"` to the client, and takes the sender of the next datagram for
the client. All of this happens on `sock_udp`. The three parties are the STUN server,
which may answer every request late and more than once, the tunnel, which can send only
after it has read the address of the proxy, and the proxy. Their datagrams meet in the
buffer of `sock_udp`.

`stun_request` returns after the first datagram it receives. Any other response is
still in the buffer, or arrives later, and the blocking `recvfrom` of the proxy takes
it if it is the first one there. The tunnel sends `"OPEN!"` from a socket that it closes
afterwards, and everything else from another one, which it binds to the port of its own
STUN answer. A NAT may show the two under different addresses.
-/

namespace Matador

namespace Tunnel

open Stun (Endpoint Attempt stunRequest inaddrAny)

/-- The addresses of the STUN server and of the two sockets of the tunnel as the proxy sees
them, `opener` for the `sock_udp` of the tunnel and `tunnel` for its `sock_udp_tun`, the number
of requests, the content of `mapped` before the first one, and the loop of the proxy as
it is entered with some datagram. -/
structure Parties where
  server : Endpoint
  opener : Endpoint
  tunnel : Endpoint
  stuncount : ℕ
  garbage : Endpoint
  config : Proxy.Config
  initial : List UInt8 → Proxy.State

/-- Where the proxy is: before and after `stun_send` in `stun_request`, with the attempts
so far, before it sends `"OPEN!"`, in the blocking `recvfrom`, in its loop with the
client it has learned, or at its end. -/
inductive Stage where
  | requesting (attempts : List Attempt)
  | waiting (attempts : List Attempt)
  | opening
  | blocking
  | loop (client : Endpoint) (state : Proxy.State)
  | exited

/-- The proxy, the buffer of `sock_udp` with the oldest datagram in front, the number of
requests that the STUN server may answer, and whether the address was printed. -/
structure Handshake where
  stage : Stage
  inbox : List (Endpoint × List UInt8)
  requests : ℕ
  connect : Bool

/-- The steps of the proxy, and the arrival of a response of the STUN server, of the `"OPEN!"` of
the tunnel, and of one of its later datagrams. Nothing is said about their order or number. -/
inductive Handshake.Event where
  | stunSend (succeeds : Bool)
  | noReply
  | stunReceive
  | resolveFails
  | sendOpen
  | recvfrom
  | recvFails
  | iterate (x : Proxy.Input)
  | serverResponds (data : List UInt8)
  | tunnelOpens
  | tunnelSends (data : List UInt8)

def Parties.printsConnect (parties : Parties) (attempts : List Attempt) : Bool :=
  let result := stunRequest attempts parties.garbage
  result.1 = 0 ∧ result.2.addr ≠ inaddrAny

def Handshake.stunReturns (parties : Parties) (attempts : List Attempt) (s : Handshake) :
    Handshake :=
  { s with stage := .opening, connect := parties.printsConnect attempts }

def Handshake.retry (parties : Parties) (attempts : List Attempt) (s : Handshake) : Handshake :=
  if attempts.length < parties.stuncount then { s with stage := .requesting attempts }
  else s.stunReturns parties attempts

def Parties.loopConfig (parties : Parties) (client : Endpoint) : Proxy.Config :=
  { parties.config with clientAddr := client.addr }

def Handshake.step (parties : Parties) (e : Event) (s : Handshake) : Option Handshake :=
  match e, s.stage, s.inbox with
  | .stunSend succeeds, .requesting attempts, _ =>
      some (if succeeds then { s with stage := .waiting attempts, requests := s.requests + 1 }
        else s.retry parties (attempts ++ [.sendFails]))
  | .noReply, .waiting attempts, _ => some (s.retry parties (attempts ++ [.noReply]))
  | .stunReceive, .waiting attempts, (_, data) :: inbox =>
      let s := { s with inbox := inbox }
      some (if data = [] then s.retry parties (attempts ++ [.reply data])
        else s.stunReturns parties (attempts ++ [.reply data]))
  | .resolveFails, .opening, _ => some { s with stage := .exited }
  | .sendOpen, .opening, _ => some { s with stage := .blocking }
  | .recvfrom, .blocking, (source, data) :: inbox =>
      some { s with stage := .loop source (parties.initial data), inbox := inbox }
  | .recvFails, .blocking, _ => some { s with stage := .exited }
  | .iterate x, .loop client state, _ =>
      (Proxy.step (parties.loopConfig client) x state).map fun state =>
        { s with stage := .loop client state }
  | .serverResponds data, _, inbox =>
      if 0 < s.requests then some { s with inbox := inbox ++ [(parties.server, data)] } else none
  | .tunnelOpens, _, inbox =>
      if s.connect then some { s with inbox := inbox ++ [(parties.opener, Proxy.openText)] }
      else none
  | .tunnelSends data, _, inbox =>
      if s.connect then some { s with inbox := inbox ++ [(parties.tunnel, data)] } else none
  | _, _, _ => none

def Handshake.start (parties : Parties) : Handshake :=
  Handshake.retry parties [] { stage := .opening, inbox := [], requests := 0, connect := false }

def Handshake.sent (s : Handshake) : List (Endpoint × List UInt8) :=
  match s.stage with
  | .loop client state => state.forwarded.map fun packet => (client, packet)
  | _ => []

/-- When `stun_request` returns it leaves no datagram in the buffer, afterwards no
response arrives before the first datagram of the tunnel, and if that is `"OPEN!"`, then both
sockets of the tunnel are seen under one address. -/
def Handshake.Regular (parties : Parties) (e : Event) (s : Handshake) : Prop :=
  match e, s.stage with
  | .stunSend succeeds, .requesting attempts =>
      succeeds = false → parties.stuncount ≤ attempts.length + 1 → s.inbox = []
  | .noReply, .waiting attempts => parties.stuncount ≤ attempts.length + 1 → s.inbox = []
  | .stunReceive, .waiting attempts => ∀ datagram ∈ s.inbox.head?,
      datagram.2 ≠ [] ∨ parties.stuncount ≤ attempts.length + 1 → s.inbox.tail = []
  | .serverResponds _, .opening | .serverResponds _, .blocking => s.inbox ≠ []
  | .tunnelOpens, .opening | .tunnelOpens, .blocking =>
      s.inbox = [] → parties.opener = parties.tunnel
  | _, _ => True

variable {parties : Parties}

/-- Between `stun_request` and the loop the first datagram in the buffer is one of the
tunnel, and in the loop the client is the tunnel. -/
def Handshake.Agrees (parties : Parties) (s : Handshake) : Prop :=
  match s.stage with
  | .requesting _ | .waiting _ | .exited => True
  | .opening | .blocking => ∀ datagram ∈ s.inbox.head?, datagram.1 = parties.tunnel
  | .loop client _ => client = parties.tunnel

theorem Handshake.agrees_stunReturns {s : Handshake} (hinbox : s.inbox = [])
    (attempts : List Attempt) : (s.stunReturns parties attempts).Agrees parties := by
  change ∀ datagram ∈ s.inbox.head?, datagram.1 = parties.tunnel
  rw [hinbox]
  simp

theorem Handshake.agrees_retry {s : Handshake} {attempts : List Attempt}
    (hinbox : parties.stuncount ≤ attempts.length → s.inbox = []) :
    (s.retry parties attempts).Agrees parties := by
  unfold Handshake.retry
  split_ifs with hlt
  · trivial
  · exact Handshake.agrees_stunReturns (hinbox (Nat.le_of_not_lt hlt)) attempts

theorem Handshake.agrees_start : (Handshake.start parties).Agrees parties :=
  Handshake.agrees_retry fun _ => rfl

theorem Handshake.Agrees.arrive {s : Handshake} (h : s.Agrees parties)
    (datagram : Endpoint × List UInt8)
    (hfirst : s.stage = .opening ∨ s.stage = .blocking → s.inbox = [] →
      datagram.1 = parties.tunnel) :
    Handshake.Agrees parties { s with inbox := s.inbox ++ [datagram] } := by
  unfold Handshake.Agrees at h ⊢
  cases hstage : s.stage with
  | requesting attempts | waiting attempts | exited => trivial
  | loop client state =>
      rw [hstage] at h
      exact h
  | opening | blocking =>
      rw [hstage] at h hfirst
      cases hinbox : s.inbox with
      | nil => simpa [hinbox] using hfirst
      | cons first inbox => simpa [hinbox] using h

theorem Handshake.Agrees.step {s s' : Handshake} {e : Event} (h : s.Agrees parties)
    (hok : Regular parties e s) (hstep : Handshake.step parties e s = some s') :
    s'.Agrees parties := by
  unfold Handshake.step at hstep
  split at hstep
  case h_1 succeeds attempts inbox hstage =>
    obtain rfl := Option.some.inj hstep
    simp only [Handshake.Regular, hstage] at hok
    split_ifs with hsucceeds
    · trivial
    · refine Handshake.agrees_retry fun hlast => ?_
      rw [List.length_append] at hlast
      exact hok (by simpa using hsucceeds) hlast
  case h_2 attempts inbox hstage =>
    obtain rfl := Option.some.inj hstep
    simp only [Handshake.Regular, hstage] at hok
    refine Handshake.agrees_retry fun hlast => ?_
    rw [List.length_append] at hlast
    exact hok hlast
  case h_3 attempts source data inbox hstage hinbox =>
    obtain rfl := Option.some.inj hstep
    simp only [Handshake.Regular, hstage, hinbox, List.head?_cons, Option.mem_def,
      Option.some.injEq, forall_eq', List.tail_cons] at hok
    split_ifs with hdata
    · refine Handshake.agrees_retry fun hlast => ?_
      rw [List.length_append] at hlast
      exact hok (Or.inr hlast)
    · exact Handshake.agrees_stunReturns (hok (Or.inl hdata)) _
  case h_4 | h_7 =>
    obtain rfl := Option.some.inj hstep
    trivial
  case h_5 inbox hstage =>
    obtain rfl := Option.some.inj hstep
    simp only [Handshake.Agrees, hstage] at h
    exact h
  case h_6 source data inbox hstage hinbox =>
    obtain rfl := Option.some.inj hstep
    simp only [Handshake.Agrees, hstage, hinbox] at h
    exact h _ rfl
  case h_8 x client state inbox hstage =>
    obtain ⟨state', -, rfl⟩ := Option.map_eq_some_iff.mp hstep
    simp only [Handshake.Agrees, hstage] at h
    exact h
  case h_9 data stage =>
    split_ifs at hstep
    obtain rfl := Option.some.inj hstep
    refine h.arrive _ fun hearly hempty => ?_
    rcases hearly with hstage | hstage
    · simp only [Handshake.Regular, hstage] at hok
      exact absurd hempty hok
    · simp only [Handshake.Regular, hstage] at hok
      exact absurd hempty hok
  case h_10 stage =>
    split_ifs at hstep
    obtain rfl := Option.some.inj hstep
    refine h.arrive _ fun hearly hempty => ?_
    rcases hearly with hstage | hstage
    · simp only [Handshake.Regular, hstage] at hok
      exact hok hempty
    · simp only [Handshake.Regular, hstage] at hok
      exact hok hempty
  case h_11 data stage =>
    split_ifs at hstep
    obtain rfl := Option.some.inj hstep
    exact h.arrive _ fun _ _ => rfl
  case h_12 => cases hstep

/-- In every run in which `stun_request` leaves no response in the buffer, no response arrives
between its end and the first datagram of the tunnel, and that datagram comes from the address of
`sock_udp_tun`, the client of the loop is that address, and all packets are sent to it. -/
theorem client_is_tunnel {s : Handshake}
    (h : Transition.Reachable (Handshake.step parties) (Handshake.Regular parties)
      (Handshake.start parties) s) :
    (∀ client state, s.stage = .loop client state → client = parties.tunnel) ∧
      ∀ packet ∈ s.sent, packet.1 = parties.tunnel := by
  have hagrees : s.Agrees parties :=
    h.invariant Handshake.agrees_start fun _ _ _ _ hs hok hstep => hs.step hok hstep
  unfold Handshake.Agrees at hagrees
  unfold Handshake.sent
  cases hstage : s.stage with
  | requesting attempts | waiting attempts | opening | blocking | exited =>
      exact ⟨nofun, nofun⟩
  | loop client state =>
      rw [hstage] at hagrees
      refine ⟨?_, ?_⟩
      · intro client' state' heq
        rw [← (Stage.loop.inj heq).1]
        exact hagrees
      · intro packet hpacket
        obtain ⟨bytes, -, rfl⟩ := List.mem_map.mp hpacket
        exact hagrees

/-! ## Three runs -/

/-- A STUN server and a tunnel at fixed addresses; the address from which `"OPEN!"` comes is a
parameter. -/
def someParties (opener : Endpoint) : Parties where
  server := ⟨[192, 0, 2, 1], 3478⟩
  opener := opener
  tunnel := ⟨[10, 0, 0, 4], 6002⟩
  stuncount := Stun.stunCount
  garbage := .zero
  config := (Proxy.enter 1024).1
  initial handshake :=
    let messages := [handshake.take Proxy.bufLen, Proxy.openText ++ [0]]
    { (Proxy.enter 1024).2 with
      buffer := Buffer.content messages fun _ => 0
      messages := messages }

def stunResponse : List UInt8 :=
  [1, 1, 0, 12] ++ List.replicate 16 0 ++ [0, 1, 0, 8, 0, 1, 0x17, 0x71, 10, 0, 0, 3]

def loopCaptures : Handshake.Event :=
  .iterate (.ready {4} fun _ => .message (Proxy.icmpFrame []))

def answeredOnce : List Handshake.Event :=
  [.stunSend true, .serverResponds stunResponse, .stunReceive, .sendOpen, .tunnelOpens, .recvfrom,
    loopCaptures]

def oneAddress : Parties := someParties ⟨[10, 0, 0, 4], 6002⟩

def otherPort : Parties := someParties ⟨[10, 0, 0, 4], 40001⟩

theorem client_is_tunnel_answered :
    ∃ s, answeredOnce.foldlM (fun s e => Handshake.step oneAddress e s)
        (Handshake.start oneAddress) = some s ∧
      s.sent.length = 1 ∧ ∀ packet ∈ s.sent, packet.1 = oneAddress.tunnel := by
  have hstart : Transition.Reachable (Handshake.step oneAddress) (Handshake.Regular oneAddress)
      (Handshake.start oneAddress) (Handshake.start oneAddress) := .refl _
  have hrequested := hstart.tail (o := .stunSend true) nofun rfl
  have hanswered := hrequested.tail (o := .serverResponds stunResponse) trivial rfl
  have hreturned := hanswered.tail (o := .stunReceive) (fun _ _ _ => rfl) rfl
  have hblocking := hreturned.tail (o := .sendOpen) trivial rfl
  have hopened := hblocking.tail (o := .tunnelOpens) (fun _ => rfl) rfl
  have hlooping := hopened.tail (o := .recvfrom) trivial rfl
  have hforwarded := hlooping.tail (o := loopCaptures) trivial rfl
  exact ⟨_, rfl, rfl, (client_is_tunnel hforwarded).2⟩

/-- The first request is repeated and both are answered: the second response is taken
for a datagram of the client, and a captured packet is sent to the STUN server. Behind a NAT that
shows the two sockets of the tunnel under different ports, the packet is sent to the port of the
one that is closed. -/
theorem client_is_not_tunnel :
    (∃ s, [.stunSend true, .noReply, .stunSend true, .serverResponds stunResponse,
        .serverResponds stunResponse, .stunReceive, .sendOpen, .recvfrom, loopCaptures].foldlM
          (fun s e => Handshake.step oneAddress e s)
          (Handshake.start oneAddress) = some s ∧
      s.sent = [(⟨[192, 0, 2, 1], 3478⟩, Proxy.icmpPacket)]) ∧
    (∃ s, answeredOnce.foldlM (fun s e => Handshake.step otherPort e s)
        (Handshake.start otherPort) = some s ∧
      s.sent = [(⟨[10, 0, 0, 4], 40001⟩, Proxy.icmpPacket)]) ∧
    oneAddress.tunnel = ⟨[10, 0, 0, 4], 6002⟩ ∧ otherPort.tunnel = ⟨[10, 0, 0, 4], 6002⟩ :=
  ⟨⟨_, rfl, rfl⟩, ⟨_, rfl, rfl⟩, rfl, rfl⟩

end Tunnel

end Matador
