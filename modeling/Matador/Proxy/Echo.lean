import Matador.Proxy.Capture

/-!
# Datagrams of the tunnel on the interface

The datagrams that the client sends to the proxy are captured on the interface as well,
and the proxy must not send them back. It looks for the two ports behind the first
twenty bytes of the IP header and compares them with those of the command line. There
they are only in a packet without options that is not a later fragment, and the source
port is that of the command line only if no NAT has changed it.
-/

namespace Matador

namespace Proxy

open Buffer (slice receive Reads)
open Bytes (wordAt word word_value)

variable {config : Config} {clientPort : ℕ}

def localPort (config : Config) : ℕ := (config.port % 65536).toNat

/-- A captured frame with a datagram, or a fragment of a datagram, that the client has
sent from its port to the proxy: the Ethernet header and the first twenty bytes of the
IP header, which has the address of the client, the options, and the part of the
datagram from the fragment offset on. -/
structure TunnelFragment (config : Config) (clientPort : ℕ) where
  front : List UInt8
  options : List UInt8
  offset : ℕ
  rest : List UInt8
  payload : List UInt8
  padding : List UInt8
  length_front : front.length = 34
  type : Reads front 12 [0x08, 0x00]
  headerLength : front[14]? = some (UInt8.ofNat (0x45 + options.length / 4))
  fragmentOffset : wordAt front 20 % 8192 = offset
  protocol : Reads front 23 [17]
  source : Reads front 26 config.clientAddr
  total : wordAt front 16 = 20 + options.length + payload.length
  part : payload =
    ((word clientPort ++ word (localPort config) ++ rest).drop (8 * offset)).take payload.length

def TunnelFragment.tail (f : TunnelFragment config clientPort) : List UInt8 :=
  f.options ++ f.payload ++ f.padding

def TunnelFragment.frame (f : TunnelFragment config clientPort) : List UInt8 := f.front ++ f.tail

/-- The four bytes behind the first twenty of the IP header are the ports of the command
line; those that the frame does not have are those in the buffer. -/
def TunnelFragment.PortsFollow (f : TunnelFragment config clientPort) (buffer : ℕ → UInt8) : Prop :=
  let behind := receive f.tail fun k => buffer (34 + k)
  (shortAt behind 0 : ℤ) = config.rport ∧ (shortAt behind 2 : ℤ) = config.port

theorem TunnelFragment.header_le (f : TunnelFragment config clientPort) : 34 ≤ f.frame.length := by
  rw [TunnelFragment.frame, List.length_append, f.length_front]
  omega

theorem TunnelFragment.shortAt_frame (f : TunnelFragment config clientPort) {k : ℕ} (hk : k ≤ 4)
    (buffer : ℕ → UInt8) :
    shortAt (receive (f.frame.take bufLen) buffer) (34 + k) =
      shortAt (receive f.tail fun k => buffer (34 + k)) k := by
  have hbyte : ∀ j ≤ 5, receive (f.frame.take bufLen) buffer (34 + j) =
      receive f.tail (fun k => buffer (34 + k)) j := by
    intro j hj
    rw [Buffer.receive_take (by rw [bufLen]; omega), TunnelFragment.frame, ← f.length_front]
    exact Buffer.receive_append_right f.front f.tail buffer j
  rw [shortAt, shortAt, hbyte k (by omega), Nat.add_assoc 34 k 1, hbyte (k + 1) (by omega)]

theorem TunnelFragment.skip_iff (hconfig : config.WellFormed) (f : TunnelFragment config clientPort)
    (buffer : ℕ → UInt8) :
    skip config (receive (f.frame.take bufLen) buffer) = true ↔ f.PortsFollow buffer := by
  have hreads : ∀ {offset value}, Reads f.front offset value → offset + value.length ≤ bufLen →
      slice (receive (f.frame.take bufLen) buffer) offset value.length = value := by
    intro offset value hfront hle
    exact ((Buffer.reads_take hle).mpr (hfront.append_right f.tail)).slice buffer
  have hudp : receive (f.frame.take bufLen) buffer 23 = 17 :=
    (List.cons.inj (hreads f.protocol (by decide))).1
  have hclient : slice (receive (f.frame.take bufLen) buffer) 26 4 = config.clientAddr := by
    have hslice := hreads f.source (by rw [hconfig.clientAddr]; decide)
    rwa [hconfig.clientAddr] at hslice
  have h34 : shortAt (receive (f.frame.take bufLen) buffer) 34 = _ :=
    f.shortAt_frame (by decide : 0 ≤ 4) buffer
  have h36 : shortAt (receive (f.frame.take bufLen) buffer) 36 = _ :=
    f.shortAt_frame (by decide : 2 ≤ 4) buffer
  rw [skip_eq_true_iff, hudp, hclient, h34, h36]
  have hnot : ¬ (17 : UInt8) = 6 := by decide
  simp only [hnot, false_or, true_and]
  rfl

/-- In a whole datagram without options the ports follow if and only if the source port
is the one of the command line. -/
theorem TunnelFragment.portsFollow_iff {f : TunnelFragment config clientPort}
    (hport : 0 ≤ config.port ∧ config.port < 65536) (hclient : clientPort < 65536)
    (hoptions : f.options = []) (hoffset : f.offset = 0) (hpayload : 4 ≤ f.payload.length)
    (buffer : ℕ → UInt8) : f.PortsFollow buffer ↔ (clientPort : ℤ) = config.rport := by
  have hpart := f.part
  rw [hoffset, Nat.mul_zero, List.drop_zero] at hpart
  have hbyte : ∀ k < 4,
      f.tail[k]? = (word clientPort ++ word (localPort config) ++ f.rest)[k]? := by
    intro k hk
    rw [TunnelFragment.tail, hoptions, List.nil_append, List.getElem?_append_left (by omega)]
    exact (congrArg (fun l => l[k]?) hpart).trans (List.getElem?_take_of_lt (by omega))
  have hlocal : localPort config < 65536 := by
    rw [localPort]
    omega
  have hlocalPort : (localPort config : ℤ) = config.port := by
    rw [localPort]
    omega
  have hsource : shortAt (receive f.tail fun k => buffer (34 + k)) 0 = clientPort := by
    rw [shortAt, Buffer.receive_of_some (hbyte 0 (by decide)),
      Buffer.receive_of_some (hbyte 1 (by decide)), word_value hclient]
  have hdest : shortAt (receive f.tail fun k => buffer (34 + k)) 2 = localPort config := by
    rw [shortAt, Buffer.receive_of_some (hbyte 2 (by decide)),
      Buffer.receive_of_some (hbyte 3 (by decide)), word_value hlocal]
  unfold TunnelFragment.PortsFollow
  dsimp only
  rw [hsource, hdest]
  exact and_iff_left hlocalPort

/-- A frame of the tunnel is not sent back if and only if it is not for the interface or
the four bytes behind the first twenty of the IP header are the two ports of the command
line. For a whole datagram without options the latter is that the client sends from the
port of the command line. -/
theorem tunnel_not_echoed_iff (hconfig : config.WellFormed) (f : TunnelFragment config clientPort)
    (s : State) :
    ((s.frame config (.message f.frame)).forwarded = s.forwarded ↔
      ¬ Reads f.front 30 config.ifAddr ∨ f.PortsFollow s.buffer) ∧
    (0 ≤ config.port ∧ config.port < 65536 → clientPort < 65536 → f.options = [] → f.offset = 0 →
      4 ≤ f.payload.length → (f.PortsFollow s.buffer ↔ (clientPort : ℤ) = config.rport)) := by
  refine ⟨?_, fun hport hclient hoptions hoffset hpayload =>
    TunnelFragment.portsFollow_iff hport hclient hoptions hoffset hpayload s.buffer⟩
  have hheader := f.header_le
  have hlen : 14 ≤ (f.frame.take bufLen).length := le_length_take (by omega) (by decide)
  have htype : slice (receive (f.frame.take bufLen) s.buffer) 12 2 = [0x08, 0x00] :=
    (type_take_iff (by omega) s.buffer).mpr (f.type.append_right f.tail)
  have hdest : slice (receive (f.frame.take bufLen) s.buffer) 30 4 = config.ifAddr ↔
      Reads f.front 30 config.ifAddr := by
    rw [destination_take_iff hconfig hheader]
    refine ⟨fun h k hk => ?_, fun h => h.append_right f.tail⟩
    have hget := h k hk
    rwa [TunnelFragment.frame, List.getElem?_append_left] at hget
    rw [f.length_front]
    have hfour := hconfig.ifAddr
    omega
  rw [State.forwarded_frame s (List.ne_nil_of_length_pos (by omega)), frameAction_ip hlen htype]
  by_cases hforward : slice (receive (f.frame.take bufLen) s.buffer) 30 4 = config.ifAddr ∧
      ¬ skip config (receive (f.frame.take bufLen) s.buffer) = true
  · rw [if_pos hforward]
    refine iff_of_false (fun heq => ?_) ?_
    · have hlength := congrArg List.length heq
      simp [Action.forwarded] at hlength
    · rw [hdest, f.skip_iff hconfig] at hforward
      exact not_or.mpr ⟨not_not.mpr hforward.1, hforward.2⟩
  · rw [if_neg hforward]
    refine iff_of_true (List.append_nil _) ?_
    rw [hdest, f.skip_iff hconfig] at hforward
    tauto

def clientFront (total fragmentOffset : UInt8) : List UInt8 :=
  [2, 0, 0, 0, 0, 1, 2, 0, 0, 0, 0, 4, 0x08, 0x00,
    0x45, 0, 0, total, 0, 0, 0, fragmentOffset, 64, 17, 0, 0, 10, 0, 0, 4, 10, 0, 0, 3]

def clientDatagram (clientPort : ℕ) : TunnelFragment (enter 1024).1 clientPort where
  front := clientFront 28 0
  options := []
  offset := 0
  rest := [0, 8, 0, 0]
  payload := word clientPort ++ word 6001 ++ [0, 8, 0, 0]
  padding := []
  length_front := rfl
  type := by decide
  headerLength := rfl
  fragmentOffset := rfl
  protocol := by decide
  source := by decide
  total := rfl
  part := rfl

def clientFragment : TunnelFragment (enter 1024).1 6002 where
  front := clientFront 24 1
  options := []
  offset := 1
  rest := [0, 12, 0, 0, 1, 2, 3, 4]
  payload := [1, 2, 3, 4]
  padding := []
  length_front := rfl
  type := by decide
  headerLength := rfl
  fragmentOffset := rfl
  protocol := by decide
  source := by decide
  total := rfl
  part := rfl

theorem tunnel_not_echoed_iff_whole :
    let s := (enter 1024).2
    (s.frame (enter 1024).1 (.message (clientDatagram 6002).frame)).forwarded = s.forwarded := by
  intro s
  have hports :=
    (tunnel_not_echoed_iff ⟨rfl, rfl⟩ (clientDatagram 6002) s).2 (by decide) (by decide)
    rfl rfl (by decide)
  exact (tunnel_not_echoed_iff ⟨rfl, rfl⟩ (clientDatagram 6002) s).1.mpr (Or.inr (hports.mpr rfl))

/-- A later fragment from the port of the command line and a datagram whose port a NAT
has changed are sent back to the client. -/
theorem tunnel_echoed :
    let s := (enter 1024).2
    (s.frame (enter 1024).1 (.message clientFragment.frame)).forwarded =
        [clientFragment.frame.drop 14] ∧
      (s.frame (enter 1024).1 (.message (clientDatagram 7000).frame)).forwarded =
        [(clientDatagram 7000).frame.drop 14] :=
  ⟨rfl, rfl⟩

end Proxy

end Matador
