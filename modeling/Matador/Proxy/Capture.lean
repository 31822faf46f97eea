import Matador.Library.Bytes
import Matador.Proxy.Traffic

/-!
# Captured frames and the packets in them

The proxy takes everything behind the Ethernet header of a captured frame for the
packet, and it finds its own datagrams by the ports behind the first twenty bytes of
the IP header. This module compares that with what is in the frame: the packet is as
long as its total length says, and a label says whether the frame belongs to a
datagram of the tunnel, which a later fragment itself does not tell. On clean frames
the two agree.
-/

namespace Matador

namespace Proxy

open Buffer (slice receive Reads)
open Bytes (wordAt wordAt_take)

variable {config : Config}

def totalLength (packet : List UInt8) : ℕ := wordAt packet 2

/-- A frame on the interface; `own` says that it carries a datagram that the tunnel
sent to the proxy, or a fragment of one. -/
structure Captured where
  frame : List UInt8
  own : Bool

/-- The IPv4 packet for the interface that has to reach the client, if the frame has
one: TCP and the datagrams of the tunnel have not. -/
def Captured.packet (config : Config) (c : Captured) : Option (List UInt8) :=
  if Reads c.frame 12 [0x08, 0x00] ∧ Reads c.frame 30 config.ifAddr ∧ ¬ Reads c.frame 23 [6] ∧
      c.own = false then
    some ((c.frame.drop 14).take (totalLength (c.frame.drop 14)))
  else none

/-- The four bytes behind the first twenty of the IP header are the ports of the tunnel,
and the frame is UDP from the client. -/
def TunnelPorts (config : Config) (frame : List UInt8) : Prop :=
  Reads frame 23 [17] ∧ Reads frame 26 config.clientAddr ∧ (wordAt frame 34 : ℤ) = config.rport ∧
    (wordAt frame 36 : ℤ) = config.port

instance (config : Config) (frame : List UInt8) : Decidable (TunnelPorts config frame) :=
  inferInstanceAs (Decidable (_ ∧ _ ∧ _ ∧ _))

/-- The frame has an Ethernet header, and if it carries an IP packet for the interface
that is not TCP, the packet has a whole header, its ports tell whether it belongs to
the tunnel, and if it does not, nothing follows the packet in the frame and it fits
into a datagram. -/
def Captured.Clean (config : Config) (c : Captured) : Prop :=
  14 ≤ c.frame.length ∧ (Reads c.frame 12 [0x08, 0x00] → 34 ≤ c.frame.length ∧
    (Reads c.frame 30 config.ifAddr → ¬ Reads c.frame 23 [6] →
      (Reads c.frame 23 [17] → Reads c.frame 26 config.clientAddr → 38 ≤ c.frame.length) ∧
      (c.own = true ↔ TunnelPorts config c.frame) ∧
      (c.own = false → c.frame.length = 14 + totalLength (c.frame.drop 14) ∧
        totalLength (c.frame.drop 14) ≤ 65507)))

instance (config : Config) (c : Captured) : Decidable (c.Clean config) :=
  inferInstanceAs (Decidable (_ ∧ (_ → _ ∧ (_ → ¬ _ → _ ∧ _ ∧ (_ → _ ∧ _)))))

theorem Captured.length_packet {c : Captured} (hclean : c.Clean config)
    {packet : List UInt8} (h : c.packet config = some packet) :
    packet.length = totalLength packet ∧ 20 ≤ packet.length ∧ packet.length ≤ 65507 := by
  unfold Captured.packet at h
  split_ifs at h with hcond
  obtain ⟨hip, haddr, htcp, hown⟩ := hcond
  obtain ⟨hheader, hclean⟩ := hclean.2 hip
  obtain ⟨hlen, hmax⟩ := (hclean haddr htcp).2.2 hown
  have hpacket : packet = c.frame.drop 14 := by
    rw [← Option.some.inj h, List.take_of_length_le]
    rw [List.length_drop]
    omega
  have hlength : packet.length = c.frame.length - 14 := by rw [hpacket, List.length_drop]
  rw [← hpacket] at hlen hmax
  omega

theorem shortAt_receive {message : List UInt8} {offset : ℕ} (h : offset + 2 ≤ message.length)
    (buffer : ℕ → UInt8) : shortAt (receive message buffer) offset = wordAt message offset := by
  have hbyte : ∀ k, k < message.length → receive message buffer k = message.getD k 0 := by
    intro k hk
    rw [receive, List.getD_eq_getElem?_getD, List.getElem?_eq_getElem hk, Option.getD_some,
      Option.getD_some]
  rw [shortAt, wordAt, hbyte _ (by omega), hbyte _ (by omega)]

/-- On a frame with a whole header, and with the ports if it is UDP from the client,
`skip` is set for TCP and for the ports of the tunnel. -/
theorem skip_receive_iff (hconfig : config.WellFormed) {frame : List UInt8}
    (hheader : 34 ≤ frame.length)
    (hports : Reads frame 23 [17] → Reads frame 26 config.clientAddr → 38 ≤ frame.length)
    (buffer : ℕ → UInt8) :
    skip config (receive frame buffer) = true ↔ Reads frame 23 [6] ∨ TunnelPorts config frame := by
  have hprotocol : ∀ value, Reads frame 23 [value] ↔ receive frame buffer 23 = value := by
    intro value
    rw [Buffer.reads_iff_slice_eq (show 23 + 1 ≤ frame.length by omega) buffer]
    change [receive frame buffer 23] = [value] ↔ _
    rw [List.singleton_inj]
  have hclient : Reads frame 26 config.clientAddr ↔
      slice (receive frame buffer) 26 4 = config.clientAddr := by
    have hlen := hconfig.clientAddr
    rw [Buffer.reads_iff_slice_eq (by omega) buffer, hlen]
  rw [skip_eq_true_iff, hprotocol 6, TunnelPorts, hprotocol 17, hclient]
  refine or_congr_right (and_congr_right fun hudp => and_congr_right fun haddr => ?_)
  have hlen := hports ((hprotocol 17).mpr hudp) (hclient.mpr haddr)
  rw [shortAt_receive (by omega), shortAt_receive (by omega)]

theorem tunnelPorts_take (hconfig : config.WellFormed) (frame : List UInt8) :
    TunnelPorts config (frame.take bufLen) ↔ TunnelPorts config frame := by
  have hclient : 26 + config.clientAddr.length ≤ bufLen := by
    rw [hconfig.clientAddr]
    decide
  rw [TunnelPorts, TunnelPorts, Buffer.reads_take (by decide), Buffer.reads_take hclient,
    wordAt_take (by decide), wordAt_take (by decide)]

theorem le_length_take {frame : List UInt8} {n : ℕ} (h : n ≤ frame.length) (hn : n ≤ bufLen) :
    n ≤ (frame.take bufLen).length := by
  rw [List.length_take]
  exact le_min hn h

theorem skip_take_iff (hconfig : config.WellFormed) {frame : List UInt8}
    (hheader : 34 ≤ frame.length)
    (hports : Reads frame 23 [17] → Reads frame 26 config.clientAddr → 38 ≤ frame.length)
    (buffer : ℕ → UInt8) :
    skip config (receive (frame.take bufLen) buffer) = true ↔
      Reads frame 23 [6] ∨ TunnelPorts config frame := by
  have hclient : 26 + config.clientAddr.length ≤ bufLen := by
    rw [hconfig.clientAddr]
    decide
  rw [skip_receive_iff hconfig (le_length_take hheader (by decide)), tunnelPorts_take hconfig,
    Buffer.reads_take (by decide)]
  rw [Buffer.reads_take (by decide), Buffer.reads_take hclient]
  exact fun hudp haddr => le_length_take (hports hudp haddr) (by decide)

theorem type_take_iff {frame : List UInt8} (hlen : 14 ≤ frame.length) (buffer : ℕ → UInt8) :
    slice (receive (frame.take bufLen) buffer) 12 2 = [0x08, 0x00] ↔
      Reads frame 12 [0x08, 0x00] := by
  have h14 : 12 + [(0x08 : UInt8), 0x00].length ≤ (frame.take bufLen).length :=
    le_length_take hlen (by decide)
  rw [← Buffer.reads_take (by decide : 12 + [(0x08 : UInt8), 0x00].length ≤ bufLen)]
  exact (Buffer.reads_iff_slice_eq h14 buffer).symm

theorem destination_take_iff (hconfig : config.WellFormed) {frame : List UInt8}
    (hheader : 34 ≤ frame.length) (buffer : ℕ → UInt8) :
    slice (receive (frame.take bufLen) buffer) 30 4 = config.ifAddr ↔
      Reads frame 30 config.ifAddr := by
  have hlen := hconfig.ifAddr
  have h34 := le_length_take hheader (by decide)
  rw [← Buffer.reads_take (by rw [hlen]; decide : 30 + config.ifAddr.length ≤ bufLen),
    Buffer.reads_iff_slice_eq (by omega) buffer, hlen]

theorem forwarded_frameAction_of_not_ip {buffer : ℕ → UInt8} (recsize : ℕ)
    (hip : slice buffer 12 2 ≠ [0x08, 0x00]) :
    (frameAction config buffer recsize).toList.filterMap Action.forwarded = [] := by
  have hshort : ¬ shortAt buffer 12 = 0x0800 := mt (shortAt_eq_iff 0x08 0x00 rfl).mp hip
  unfold frameAction
  rw [if_neg hshort]
  split_ifs <;> rfl

theorem State.forwarded_frame (s : State) {bytes : List UInt8} (hne : bytes.take bufLen ≠ []) :
    (s.frame config (.message bytes)).forwarded = s.forwarded ++
      (frameAction config (receive (bytes.take bufLen) s.buffer)
        (bytes.take bufLen).length).toList.filterMap Action.forwarded := by
  have hactions := congrArg Prod.fst (reaction_frame s hne : (s.frame config _).reaction = _)
  dsimp only [State.reaction] at hactions
  unfold State.forwarded
  rw [hactions, List.filterMap_append, List.reverse_append]
  cases frameAction config (receive (bytes.take bufLen) s.buffer) (bytes.take bufLen).length with
  | none => rfl
  | some action => cases action <;> rfl

/-- A clean frame is forwarded exactly if it has a packet for the client, and what is
forwarded is that packet. -/
theorem forwarded_frame_of_clean (hconfig : config.WellFormed) {c : Captured}
    (hclean : c.Clean config) (s : State) :
    (s.frame config (.message c.frame)).forwarded = s.forwarded ++ (c.packet config).toList := by
  obtain ⟨hethernet, hclean⟩ := hclean
  have h14 : 14 ≤ (c.frame.take bufLen).length := le_length_take hethernet (by decide)
  rw [State.forwarded_frame s (List.ne_nil_of_length_pos (by omega))]
  congr 1
  by_cases hip : Reads c.frame 12 [0x08, 0x00]
  · obtain ⟨hheader, hclean⟩ := hclean hip
    have hdest := destination_take_iff hconfig hheader s.buffer
    rw [frameAction_ip h14 ((type_take_iff hethernet s.buffer).mpr hip)]
    unfold Captured.packet
    by_cases haddr : Reads c.frame 30 config.ifAddr
    · by_cases htcp : Reads c.frame 23 [6]
      · have htcp' : Reads (c.frame.take bufLen) 23 [6] := (Buffer.reads_take (by decide)).mpr htcp
        have hskip : skip config (receive (c.frame.take bufLen) s.buffer) = true :=
          skip_eq_true_iff.mpr (Or.inl (List.cons.inj (htcp'.slice s.buffer)).1)
        rw [if_neg fun h => h.2 hskip, if_neg fun h => h.2.2.1 htcp]
        rfl
      · obtain ⟨hports, hown, hwhole⟩ := hclean haddr htcp
        have hskip :
            skip config (receive (c.frame.take bufLen) s.buffer) = true ↔ c.own = true := by
          rw [skip_take_iff hconfig hheader hports, ← hown, or_iff_right htcp]
        cases howned : c.own with
        | true =>
            rw [if_neg fun h => h.2 (hskip.mpr howned), if_neg fun h => Bool.noConfusion h.2.2.2]
            rfl
        | false =>
            obtain ⟨hlen, hmax⟩ := hwhole howned
            have hfits : c.frame.length ≤ bufLen := by
              rw [bufLen]
              omega
            have hdrop : c.frame.length - 14 = totalLength (c.frame.drop 14) := by omega
            have hskip' : ¬ skip config (receive (c.frame.take bufLen) s.buffer) = true := by
              rw [hskip, howned]
              decide
            rw [if_pos ⟨hdest.mpr haddr, hskip'⟩, if_pos ⟨hip, haddr, htcp, rfl⟩,
              List.take_of_length_le hfits, Buffer.slice_receive (by omega), hdrop]
            rfl
    · rw [if_neg fun h => haddr (hdest.mp h.1), if_neg fun h => haddr h.2.1]
      rfl
  · rw [forwarded_frameAction_of_not_ip _ (mt (type_take_iff hethernet s.buffer).mp hip),
      Captured.packet, if_neg fun h => hip h.1]
    rfl

end Proxy

end Matador
