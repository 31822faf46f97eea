import Matador.Library.Bytes
import Matador.Library.Field
import Matador.Proxy.Iteration

/-!
# What the reaction to a packet depends on

The branches of the loop read the headers of a frame or of a datagram at fixed
offsets and never compare the offsets with `recsize`. A field behind the end of the
message is read from what earlier messages left in the buffer, so the reaction to
a short message is not a function of the message. `FrameDecided` and
`DatagramDecided` are the messages for which it is: every field that the decision
still depends on was received. The main theorem compares the reactions from any two
contents of the buffer.
-/

namespace Matador

namespace Proxy

open Buffer (slice receive Reads RulesOut place)

variable {config : Config}

structure Config.WellFormed (config : Config) : Prop where
  ifAddr : config.ifAddr.length = 4
  clientAddr : config.clientAddr.length = 4

/-! ## Fields and ports -/

def portBytes (port : ℤ) : Option (List UInt8) :=
  if 0 ≤ port ∧ port < 65536 then some (Bytes.word port.toNat) else none

theorem bytesAt_eq_slice (buffer : ℕ → UInt8) (offset count : ℕ) :
    bytesAt buffer offset count = slice buffer offset count := rfl

theorem slice_two (buffer : ℕ → UInt8) (offset : ℕ) :
    slice buffer offset 2 = [buffer offset, buffer (offset + 1)] := rfl

theorem shortAt_eq_iff {buffer : ℕ → UInt8} {offset n : ℕ} (high low : UInt8)
    (hn : 256 * high.toNat + low.toNat = n) :
    shortAt buffer offset = n ↔ slice buffer offset 2 = [high, low] := by
  have h₁ := (buffer (offset + 1)).toNat_lt
  have h₂ := low.toNat_lt
  rw [slice_two, List.cons.injEq, List.cons.injEq, ← UInt8.toNat_inj, ← UInt8.toNat_inj, shortAt]
  constructor
  · intro h
    exact ⟨by omega, by omega, rfl⟩
  · rintro ⟨h, h', -⟩
    omega

theorem shortAt_eq_port_iff {buffer : ℕ → UInt8} {offset : ℕ} {port : ℤ} :
    (shortAt buffer offset : ℤ) = port ↔ portBytes port = some (slice buffer offset 2) := by
  have hlt : shortAt buffer offset < 65536 := by
    have h₁ := (buffer offset).toNat_lt
    have h₂ := (buffer (offset + 1)).toNat_lt
    rw [shortAt]
    omega
  unfold portBytes
  split_ifs with hport
  · have hn := Bytes.word_value (by omega : port.toNat < 65536)
    rw [Option.some.injEq, eq_comm (b := slice buffer offset 2), Bytes.word,
      ← shortAt_eq_iff _ _ hn]
    omega
  · simp only [iff_false]
    omega

/-- What was received of the field is not what it is for the port. -/
def PortRuledOut (message : List UInt8) (offset : ℕ) (port : ℤ) : Prop :=
  ∀ value, portBytes port = some value → RulesOut message offset value

theorem length_of_portBytes {port : ℤ} {value : List UInt8} (h : portBytes port = some value) :
    value.length = 2 := by
  unfold portBytes at h
  split_ifs at h
  rw [← Option.some.inj h]
  rfl

theorem PortRuledOut.shortAt_ne {message : List UInt8} {offset : ℕ} {port : ℤ}
    (h : PortRuledOut message offset port) (buffer : ℕ → UInt8) :
    (shortAt (receive message buffer) offset : ℤ) ≠ port := by
  intro heq
  have hbytes := shortAt_eq_port_iff.mp heq
  have hne := (h _ hbytes).slice_ne buffer
  rw [length_of_portBytes hbytes] at hne
  exact hne rfl

/-! ## The reactions as functions of the fields -/

theorem frameAction_eq_none {buffer : ℕ → UInt8} (recsize : ℕ)
    (harp : slice buffer 12 2 ≠ [0x08, 0x06]) (hip : slice buffer 12 2 ≠ [0x08, 0x00]) :
    frameAction config buffer recsize = none := by
  rw [ne_eq, ← shortAt_eq_iff _ _ rfl] at harp hip
  exact (if_neg harp).trans (if_neg hip)

theorem frameAction_arp {buffer : ℕ → UInt8} (recsize : ℕ)
    (harp : slice buffer 12 2 = [0x08, 0x06]) :
    frameAction config buffer recsize =
      if slice buffer 20 2 = [0, 1] ∧ slice buffer 38 4 = config.ifAddr then
        some (.arpReply (arpFrame config (slice buffer 22 6)))
      else none := by
  rw [← shortAt_eq_iff _ _ rfl] at harp
  have hop : shortAt buffer 20 = 1 ↔ slice buffer 20 2 = [0, 1] := shortAt_eq_iff 0 1 rfl
  refine (if_pos harp).trans ?_
  simp only [hop, bytesAt_eq_slice]

theorem frameAction_ip {buffer : ℕ → UInt8} {recsize : ℕ} (hlen : 14 ≤ recsize)
    (hip : slice buffer 12 2 = [0x08, 0x00]) :
    frameAction config buffer recsize =
      if slice buffer 30 4 = config.ifAddr ∧ ¬ skip config buffer then
        some (.forward (slice buffer 14 (recsize - 14)))
      else none := by
  rw [← shortAt_eq_iff _ _ rfl] at hip
  have harp : shortAt buffer 12 ≠ 0x0806 := by
    rw [hip]
    decide
  refine (if_neg harp).trans ((if_pos hip).trans ?_)
  simp only [bytesAt_eq_slice, if_pos hlen]

theorem skip_eq_true_iff {buffer : ℕ → UInt8} :
    skip config buffer = true ↔ buffer 23 = 6 ∨ buffer 23 = 17 ∧
      slice buffer 26 4 = config.clientAddr ∧ (shortAt buffer 34 : ℤ) = config.rport ∧
        (shortAt buffer 36 : ℤ) = config.port := by
  rw [← bytesAt_eq_slice]
  unfold skip
  split_ifs with h₁ h₆ h₁₇
  · simp [h₁]
  · simp [h₆]
  · simp [h₁₇, and_assoc]
  · simp [h₆, h₁₇]

/-! ## Frames -/

/-- An ARP frame is decided if everything up to the target address was received, or
if it is known not to be a request for the address of the interface. -/
def ArpDecided (config : Config) (frame : List UInt8) : Prop :=
  42 ≤ frame.length ∨ RulesOut frame 20 [0, 1] ∨ RulesOut frame 38 config.ifAddr

/-- An IP frame is decided if it is known to be for another address or to carry TCP,
or if the addresses were received and the ports are not needed or were received as
well. -/
def IpDecided (config : Config) (frame : List UInt8) : Prop :=
  RulesOut frame 30 config.ifAddr ∨ Reads frame 23 [6] ∨
    34 ≤ frame.length ∧ (38 ≤ frame.length ∨ RulesOut frame 23 [17] ∨
      RulesOut frame 26 config.clientAddr ∨ PortRuledOut frame 34 config.rport ∨
        PortRuledOut frame 36 config.port)

def FrameDecided (config : Config) (frame : List UInt8) : Prop :=
  frame = [] ∨ RulesOut frame 12 [0x08, 0x06] ∧ RulesOut frame 12 [0x08, 0x00] ∨
    Reads frame 12 [0x08, 0x06] ∧ ArpDecided config frame ∨
      Reads frame 12 [0x08, 0x00] ∧ IpDecided config frame

section Frames

variable {frame : List UInt8}

theorem length_of_reads {offset : ℕ} {value : List UInt8} (h : Reads frame offset value)
    {k : ℕ} (hk : k < value.length) : offset + k < frame.length := by
  have hget := h k hk
  rw [List.getElem?_eq_getElem hk] at hget
  exact (List.getElem?_eq_some_iff.mp hget).1

theorem ArpDecided.frameAction_eq (h : ArpDecided config frame)
    (hconfig : config.WellFormed) (harp : Reads frame 12 [0x08, 0x06]) (b b' : ℕ → UInt8) :
    frameAction config (receive frame b) frame.length =
      frameAction config (receive frame b') frame.length := by
  rw [frameAction_arp _ (harp.slice b), frameAction_arp _ (harp.slice b')]
  rcases h with hlen | hop | htarget
  · rw [Buffer.slice_receive_congr (by omega : 20 + 2 ≤ frame.length) b b',
      Buffer.slice_receive_congr (by omega : 38 + 4 ≤ frame.length) b b',
      Buffer.slice_receive_congr (by omega : 22 + 6 ≤ frame.length) b b']
  · rw [if_neg fun hboth => hop.slice_ne b hboth.1, if_neg fun hboth => hop.slice_ne b' hboth.1]
  · have hne : ∀ buffer, slice (receive frame buffer) 38 4 ≠ config.ifAddr := by
      intro buffer
      rw [← hconfig.ifAddr]
      exact htarget.slice_ne buffer
    rw [if_neg fun hboth => hne b hboth.2, if_neg fun hboth => hne b' hboth.2]

/-- If the addresses were received and the ports do not matter or were received, the
variable `skip` does not depend on the rest of the buffer. -/
theorem skip_receive_congr (hconfig : config.WellFormed) (hlen : 34 ≤ frame.length)
    (h : 38 ≤ frame.length ∨ RulesOut frame 23 [17] ∨ RulesOut frame 26 config.clientAddr ∨
      PortRuledOut frame 34 config.rport ∨ PortRuledOut frame 36 config.port)
    (b b' : ℕ → UInt8) :
    skip config (receive frame b) = skip config (receive frame b') := by
  have hprotocol := Buffer.receive_congr (by omega : 23 < frame.length) b b'
  have hclient := Buffer.slice_receive_congr (by omega : 26 + 4 ≤ frame.length) b b'
  rw [Bool.eq_iff_iff, skip_eq_true_iff, skip_eq_true_iff, hprotocol, hclient]
  rcases h with hports | hudp | hother | hrport | hport
  · have h34 := Buffer.slice_receive_congr (by omega : 34 + 2 ≤ frame.length) b b'
    have h36 := Buffer.slice_receive_congr (by omega : 36 + 2 ≤ frame.length) b b'
    rw [shortAt_eq_port_iff, shortAt_eq_port_iff, shortAt_eq_port_iff, shortAt_eq_port_iff,
      h34, h36]
  · have hne : receive frame b' 23 ≠ 17 := by
      intro heq
      apply hudp.slice_ne b'
      change [receive frame b' 23] = [17]
      rw [heq]
    simp [hne]
  · have hne : slice (receive frame b') 26 4 ≠ config.clientAddr := by
      rw [← hconfig.clientAddr]
      exact hother.slice_ne b'
    simp [hne]
  · simp [hrport.shortAt_ne b, hrport.shortAt_ne b']
  · simp [hport.shortAt_ne b, hport.shortAt_ne b']

theorem IpDecided.frameAction_eq (h : IpDecided config frame) (hconfig : config.WellFormed)
    (hip : Reads frame 12 [0x08, 0x00]) (b b' : ℕ → UInt8) :
    frameAction config (receive frame b) frame.length =
      frameAction config (receive frame b') frame.length := by
  have htype : 13 < frame.length := length_of_reads hip (k := 1) (by decide)
  rw [frameAction_ip (by omega) (hip.slice b), frameAction_ip (by omega) (hip.slice b')]
  rcases h with hdest | htcp | ⟨hlen, hskip⟩
  · have hne : ∀ buffer, slice (receive frame buffer) 30 4 ≠ config.ifAddr := by
      intro buffer
      rw [← hconfig.ifAddr]
      exact hdest.slice_ne buffer
    rw [if_neg fun hboth => hne b hboth.1, if_neg fun hboth => hne b' hboth.1]
  · have hskip : ∀ buffer, skip config (receive frame buffer) = true := by
      intro buffer
      have hprotocol := htcp.slice buffer
      exact skip_eq_true_iff.mpr (Or.inl (List.cons.inj hprotocol).1)
    rw [if_neg fun hboth => hboth.2 (hskip b), if_neg fun hboth => hboth.2 (hskip b')]
  · rw [skip_receive_congr hconfig hlen hskip b b',
      Buffer.slice_receive_congr (by omega : 30 + 4 ≤ frame.length) b b',
      Buffer.slice_receive_congr (by omega : 14 + (frame.length - 14) ≤ frame.length) b b']

theorem FrameDecided.frameAction_eq (h : FrameDecided config frame) (hconfig : config.WellFormed)
    (hne : frame ≠ []) (b b' : ℕ → UInt8) :
    frameAction config (receive frame b) frame.length =
      frameAction config (receive frame b') frame.length := by
  rcases h with hnil | ⟨harp, hip⟩ | ⟨htype, harp⟩ | ⟨htype, hip⟩
  · exact absurd hnil hne
  · rw [frameAction_eq_none _ (harp.slice_ne b) (hip.slice_ne b),
      frameAction_eq_none _ (harp.slice_ne b') (hip.slice_ne b')]
  · exact harp.frameAction_eq hconfig htype b b'
  · exact hip.frameAction_eq hconfig htype b b'

/-! ### Frames that are not decided

For each of them two contents of the buffer are given: one completes the missing
fields so that the frame is answered or forwarded, the other one does not. -/

theorem not_rulesOut_of_le {offset : ℕ} (value : List UInt8) (h : frame.length ≤ offset) :
    ¬ RulesOut frame offset value := by
  rintro ⟨k, -, hlt, -⟩
  omega

theorem exists_byte_ne (value : Option UInt8) : ∃ c : UInt8, value ≠ some c := by
  by_cases h : value = some 0
  · exact ⟨1, by rw [h]; decide⟩
  · exact ⟨0, h⟩

theorem not_rulesOut_of_reads {offset : ℕ} {value : List UInt8} (h : Reads frame offset value) :
    ¬ RulesOut frame offset value := by
  rintro ⟨k, hk, -, hne⟩
  exact hne (h k hk)

def arpRequest (config : Config) : ℕ → UInt8 :=
  place 12 [0x08, 0x06] (place 20 [0, 1] (place 38 config.ifAddr fun _ => 0))

theorem frameAction_arpRequest (hconfig : config.WellFormed)
    (htype : ¬ RulesOut frame 12 [0x08, 0x06]) (hop : ¬ RulesOut frame 20 [0, 1])
    (htarget : ¬ RulesOut frame 38 config.ifAddr) :
    frameAction config (receive frame (arpRequest config)) frame.length ≠ none := by
  have harp : slice (receive frame (arpRequest config)) 12 2 = [0x08, 0x06] :=
    Buffer.slice_receive_place htype _
  have hrequest : slice (receive frame (arpRequest config)) 20 2 = [0, 1] := by
    rw [arpRequest, Buffer.slice_receive_place_of_disjoint (Or.inr (by decide))]
    exact Buffer.slice_receive_place hop _
  have haddr : slice (receive frame (arpRequest config)) 38 4 = config.ifAddr := by
    rw [arpRequest, Buffer.slice_receive_place_of_disjoint (Or.inr (by decide)),
      Buffer.slice_receive_place_of_disjoint (Or.inr (by decide)), ← hconfig.ifAddr]
    exact Buffer.slice_receive_place htarget _
  rw [frameAction_arp _ harp, if_pos ⟨hrequest, haddr⟩]
  exact Option.some_ne_none _

/-- Without the whole type field the frame may be an ARP request or none of the known
types. -/
theorem exists_ne_of_type (hconfig : config.WellFormed) (hlen : frame.length < 14)
    (htype : ¬ RulesOut frame 12 [0x08, 0x06]) :
    ∃ b b', frameAction config (receive frame b) frame.length ≠
      frameAction config (receive frame b') frame.length := by
  have harp : slice (receive frame fun _ => 1) 12 [(0x08 : UInt8), 0x06].length ≠ [0x08, 0x06] :=
    Buffer.slice_receive_ne (k := 1) (by decide) (by omega) (by decide)
  have hip : slice (receive frame fun _ => 1) 12 [(0x08 : UInt8), 0x00].length ≠ [0x08, 0x00] :=
    Buffer.slice_receive_ne (k := 1) (by decide) (by omega) (by decide)
  refine ⟨arpRequest config, fun _ => 1, ?_⟩
  rw [frameAction_eq_none _ harp hip]
  exact frameAction_arpRequest hconfig htype (not_rulesOut_of_le _ (by omega))
    (not_rulesOut_of_le _ (by omega))

theorem exists_ne_of_arp (hconfig : config.WellFormed) (harp : Reads frame 12 [0x08, 0x06])
    (h : ¬ ArpDecided config frame) :
    ∃ b b', frameAction config (receive frame b) frame.length ≠
      frameAction config (receive frame b') frame.length := by
  unfold ArpDecided at h
  push Not at h
  obtain ⟨hlen, hop, htarget⟩ := h
  obtain ⟨c, hc⟩ := exists_byte_ne config.ifAddr[3]?
  have haddr : slice (receive frame fun _ => c) 38 4 ≠ config.ifAddr := by
    rw [← hconfig.ifAddr]
    exact Buffer.slice_receive_ne (k := 3) (by rw [hconfig.ifAddr]; decide) (by omega) hc
  refine ⟨arpRequest config, fun _ => c, ?_⟩
  rw [frameAction_arp _ (harp.slice fun _ => c), if_neg fun hboth => haddr hboth.2]
  exact frameAction_arpRequest hconfig (not_rulesOut_of_reads harp) hop htarget

/-- Without the whole destination address the frame may be one for the interface that
is forwarded. -/
theorem exists_ne_of_destination (hconfig : config.WellFormed)
    (hip : Reads frame 12 [0x08, 0x00]) (hlen : frame.length < 34)
    (hdest : ¬ RulesOut frame 30 config.ifAddr) (htcp : ¬ Reads frame 23 [6]) :
    ∃ b b', frameAction config (receive frame b) frame.length ≠
      frameAction config (receive frame b') frame.length := by
  have htype : 13 < frame.length := length_of_reads hip (k := 1) (by decide)
  obtain ⟨c, hc⟩ : ∃ c : UInt8, ((256 * c.toNat + c.toNat : ℕ) : ℤ) ≠ config.rport := by
    by_cases h : config.rport = 0
    · exact ⟨1, by rw [h]; decide⟩
    · exact ⟨0, fun heq => h heq.symm⟩
  obtain ⟨d, hd⟩ := exists_byte_ne config.ifAddr[3]?
  have hother : slice (receive frame fun _ => d) 30 4 ≠ config.ifAddr := by
    rw [← hconfig.ifAddr]
    exact Buffer.slice_receive_ne (k := 3) (by rw [hconfig.ifAddr]; decide) (by omega) hd
  let b := place 23 [1] (place 30 config.ifAddr fun _ => c)
  have haddr : slice (receive frame b) 30 4 = config.ifAddr := by
    rw [Buffer.slice_receive_place_of_disjoint (Or.inr (by decide)), ← hconfig.ifAddr]
    exact Buffer.slice_receive_place hdest _
  have hprotocol : receive frame b 23 ≠ 6 := by
    intro heq
    rcases Nat.lt_or_ge 23 frame.length with hlt | hle
    · refine htcp fun k hk => ?_
      obtain rfl : k = 0 := by simpa using hk
      have hget := List.getElem?_eq_getElem hlt
      rw [Buffer.receive_of_some hget] at heq
      rw [hget, heq]
      rfl
    · rw [Buffer.receive_of_le hle] at heq
      change (1 : UInt8) = 6 at heq
      revert heq
      decide
  have hport : (shortAt (receive frame b) 34 : ℤ) ≠ config.rport := by
    have hread : ∀ k, 34 ≤ k → receive frame b k = c := by
      intro k hk
      have hbehind : 23 + [(1 : UInt8)].length ≤ k := by
        rw [List.length_singleton]
        omega
      rw [Buffer.receive_of_le (by omega)]
      exact (Buffer.place_of_le _ hbehind).trans
        (Buffer.place_of_le _ (by rw [hconfig.ifAddr]; omega))
    rw [shortAt, hread 34 le_rfl, hread 35 (by omega)]
    exact hc
  have hskip : ¬ skip config (receive frame b) = true := by
    rw [skip_eq_true_iff]
    tauto
  refine ⟨b, fun _ => d, ?_⟩
  rw [frameAction_ip (by omega) (hip.slice b), frameAction_ip (by omega) (hip.slice _),
    if_pos ⟨haddr, hskip⟩, if_neg fun hboth => hother hboth.1]
  exact Option.some_ne_none _

/-- Without the ports a packet of the client may be one of the tunnel. -/
theorem exists_ne_of_ports (hconfig : config.WellFormed) (hip : Reads frame 12 [0x08, 0x00])
    (hlen : 34 ≤ frame.length) (hdest : ¬ RulesOut frame 30 config.ifAddr)
    (h : ¬ (38 ≤ frame.length ∨ RulesOut frame 23 [17] ∨ RulesOut frame 26 config.clientAddr ∨
      PortRuledOut frame 34 config.rport ∨ PortRuledOut frame 36 config.port)) :
    ∃ b b', frameAction config (receive frame b) frame.length ≠
      frameAction config (receive frame b') frame.length := by
  push Not at h
  obtain ⟨hports, hudp, hclient, hrport, hport⟩ := h
  unfold PortRuledOut at hrport hport
  push Not at hrport hport
  obtain ⟨v, hv, hv34⟩ := hrport
  obtain ⟨w, hw, hw36⟩ := hport
  have hvlen := length_of_portBytes hv
  have hwlen := length_of_portBytes hw
  have haddr : ∀ buffer, slice (receive frame buffer) 30 4 = config.ifAddr := by
    intro buffer
    rw [← hconfig.ifAddr]
    refine ((Buffer.reads_or_rulesOut ?_).resolve_right hdest).slice buffer
    rw [hconfig.ifAddr]
    exact hlen
  have hprotocol : ∀ buffer, receive frame buffer 23 = 17 := fun buffer =>
    (List.cons.inj (((Buffer.reads_or_rulesOut
      (by simp; omega)).resolve_right hudp).slice buffer)).1
  have hfrom : ∀ buffer, slice (receive frame buffer) 26 4 = config.clientAddr := by
    intro buffer
    rw [← hconfig.clientAddr]
    refine ((Buffer.reads_or_rulesOut ?_).resolve_right hclient).slice buffer
    rw [hconfig.clientAddr]
    omega
  -- one buffer completes the ports to those of the tunnel, another one has a different last byte
  obtain ⟨d, hd⟩ := exists_byte_ne w[1]?
  let b := place 34 v (place 36 w fun _ => 0)
  have hskip : skip config (receive frame b) = true := by
    have h34 := Buffer.slice_receive_place hv34 (place 36 w fun _ => 0)
    have h36 : slice (receive frame b) 36 w.length = w := by
      rw [Buffer.slice_receive_place_of_disjoint (Or.inr (by omega))]
      exact Buffer.slice_receive_place hw36 _
    rw [hvlen] at h34
    rw [hwlen] at h36
    rw [skip_eq_true_iff, shortAt_eq_port_iff, shortAt_eq_port_iff]
    exact Or.inr ⟨hprotocol b, hfrom b, by rw [h34, hv], by rw [h36, hw]⟩
  have hforward : ¬ skip config (receive frame fun _ => d) = true := by
    rw [skip_eq_true_iff, shortAt_eq_port_iff, shortAt_eq_port_iff, hprotocol]
    rintro (htcp | ⟨-, -, -, h36⟩)
    · revert htcp
      decide
    · have hne : slice (receive frame fun _ => d) 36 w.length ≠ w :=
        Buffer.slice_receive_ne (k := 1) (by omega) (by omega) hd
      rw [hwlen] at hne
      rw [hw] at h36
      exact hne (Option.some.inj h36).symm
  refine ⟨b, fun _ => d, ?_⟩
  rw [frameAction_ip (by omega) (hip.slice b), frameAction_ip (by omega) (hip.slice _),
    if_neg fun hboth => hboth.2 hskip, if_pos ⟨haddr _, hforward⟩]
  exact (Option.some_ne_none _).symm

theorem exists_ne_of_not_frameDecided (hconfig : config.WellFormed)
    (h : ¬ FrameDecided config frame) :
    ∃ b b', frameAction config (receive frame b) frame.length ≠
      frameAction config (receive frame b') frame.length := by
  unfold FrameDecided at h
  push Not at h
  obtain ⟨-, hother, harp, hip⟩ := h
  rcases Nat.lt_or_ge frame.length 14 with hlt | hge
  · refine exists_ne_of_type hconfig hlt fun hout => hother hout ?_
    -- only the first byte of the type can have been received, and it is the same for both types
    obtain ⟨k, hk, hklt, hne⟩ := hout
    obtain rfl : k = 0 := by omega
    exact ⟨0, by decide, hklt, hne⟩
  · have htype : Reads frame 12 [0x08, 0x06] ∨ RulesOut frame 12 [0x08, 0x06] :=
      Buffer.reads_or_rulesOut hge
    rcases htype with hreads | hout
    · exact exists_ne_of_arp hconfig hreads (harp hreads)
    · have hreads : Reads frame 12 [0x08, 0x00] :=
        (Buffer.reads_or_rulesOut hge).resolve_right (hother hout)
      have hdecided := hip hreads
      unfold IpDecided at hdecided
      push Not at hdecided
      obtain ⟨hdest, htcp, hports⟩ := hdecided
      rcases Nat.lt_or_ge frame.length 34 with hlt | hge'
      · exact exists_ne_of_destination hconfig hreads hlt hdest htcp
      · exact exists_ne_of_ports hconfig hreads hge' hdest (by push Not; exact hports hge')

end Frames

/-! ## Datagrams -/

/-- The received datagram decides the reaction: it is empty, or carries TCP, or has a
whole IP header, and for UDP the two ports as well. -/
def DatagramDecided (datagram : List UInt8) : Prop :=
  datagram = [] ∨ datagram[9]? = some 6 ∨ 20 ≤ datagram.length ∧ datagram[9]? ≠ some 17 ∨
    24 ≤ datagram.length

def State.reaction (s : State) : List Action × Control := (s.actions, s.control)

def State.fakeSock (config : Config) (s : State) : ℤ :=
  ((Descriptor.allocate config.limit s.opened).map Int.ofNat).getD (-1)

/-- The reaction to a datagram of `recsize` bytes in the buffer, in a state with the
given reaction and result of `socket`. -/
def datagramReaction (buffer : ℕ → UInt8) (recsize : ℕ) (sock : ℤ) (actions : List Action)
    (control : Control) : List Action × Control :=
  let inject := Action.inject (slice buffer 0 recsize) (slice buffer 16 4)
  match branch buffer recsize with
  | .exit | .eof => (actions, .ended)
  | .icmp | .other => (inject :: actions, control)
  | .tcp => (actions, control)
  | .udp => (inject :: .openFake sock (shortAt buffer 20) (shortAt buffer 22) :: actions, control)

theorem reaction_datagram (s : State) (bytes : List UInt8) :
    (s.datagram config (.message bytes)).reaction =
      datagramReaction (receive (bytes.take bufLen) s.buffer) (bytes.take bufLen).length
        (s.fakeSock config) s.actions s.control := by
  unfold datagramReaction State.datagram
  dsimp only [Received.recsize, State.recvfrom]
  cases branch (receive (bytes.take bufLen) s.buffer) (bytes.take bufLen).length with
  | exit | eof | icmp | other | tcp => rfl
  | udp =>
      unfold State.openFake State.fakeSock
      cases Descriptor.allocate config.limit s.opened <;> rfl

section Datagrams

variable {datagram : List UInt8}

theorem branch_of_long {buffer : ℕ → UInt8} {recsize : ℕ} (h : 4 < recsize) :
    branch buffer recsize = if buffer 9 = 1 then .icmp else if buffer 9 = 6 then .tcp
      else if buffer 9 = 17 then .udp else .other := by
  rw [branch, if_neg (by omega), if_pos (by omega)]

theorem datagramReaction_congr_of_header (hlen : 20 ≤ datagram.length) (b b' : ℕ → UInt8)
    (hports : receive datagram b' 9 = 17 →
      shortAt (receive datagram b) 20 = shortAt (receive datagram b') 20 ∧
        shortAt (receive datagram b) 22 = shortAt (receive datagram b') 22)
    (sock : ℤ) (actions : List Action) (control : Control) :
    datagramReaction (receive datagram b) datagram.length sock actions control =
      datagramReaction (receive datagram b') datagram.length sock actions control := by
  have hprotocol := Buffer.receive_congr (by omega : 9 < datagram.length) b b'
  have hpacket := Buffer.slice_receive_congr (by omega : 0 + datagram.length ≤ datagram.length) b b'
  have hdest := Buffer.slice_receive_congr (by omega : 16 + 4 ≤ datagram.length) b b'
  unfold datagramReaction
  rw [branch_of_long (by omega), branch_of_long (by omega), hprotocol, hpacket, hdest]
  by_cases hudp : receive datagram b' 9 = 17
  · rw [(hports hudp).1, (hports hudp).2]
  · split_ifs <;> rfl

theorem DatagramDecided.reaction_eq (h : DatagramDecided datagram) (b b' : ℕ → UInt8) (sock : ℤ)
    (actions : List Action) (control : Control) :
    datagramReaction (receive datagram b) datagram.length sock actions control =
      datagramReaction (receive datagram b') datagram.length sock actions control := by
  rcases h with rfl | htcp | ⟨hlen, hudp⟩ | hlen
  · rfl
  · have hlen : 9 < datagram.length := (List.getElem?_eq_some_iff.mp htcp).1
    unfold datagramReaction
    rw [branch_of_long (by omega), branch_of_long (by omega), Buffer.receive_of_some htcp,
      Buffer.receive_of_some htcp]
    rfl
  · refine datagramReaction_congr_of_header hlen b b' (fun heq => absurd ?_ hudp)
      sock actions control
    have hget := List.getElem?_eq_getElem (by omega : 9 < datagram.length)
    rw [Buffer.receive_of_some hget] at heq
    rw [hget, heq]
  · refine datagramReaction_congr_of_header (by omega) b b' (fun _ => ?_) sock actions control
    have hread : ∀ k < 24, receive datagram b k = receive datagram b' k :=
      fun k hk => Buffer.receive_congr (by omega) b b'
    simp only [shortAt, hread 20 (by decide), hread 21 (by decide), hread 22 (by decide),
      hread 23 (by decide), and_self]

theorem datagramReaction_injects {buffer : ℕ → UInt8} {recsize : ℕ} (hlen : 4 < recsize)
    (htcp : buffer 9 ≠ 6) (sock : ℤ) (actions : List Action) (control : Control) :
    (datagramReaction buffer recsize sock actions control).1.head? =
      some (.inject (slice buffer 0 recsize) (slice buffer 16 4)) := by
  unfold datagramReaction
  rw [branch_of_long hlen, if_neg htcp]
  split_ifs <;> rfl

theorem datagramReaction_udp {buffer : ℕ → UInt8} {recsize : ℕ} (hlen : 4 < recsize)
    (hudp : buffer 9 = 17) (sock : ℤ) (actions : List Action) (control : Control) :
    datagramReaction buffer recsize sock actions control =
      (.inject (slice buffer 0 recsize) (slice buffer 16 4) ::
        .openFake sock (shortAt buffer 20) (shortAt buffer 22) :: actions, control) := by
  unfold datagramReaction
  rw [branch_of_long hlen, hudp]
  rfl

/-! ### Datagrams that are not decided -/

/-- A datagram that does not reach the protocol is dropped or sent, as the buffer has
it. -/
theorem reaction_ne_of_protocol (hne : datagram ≠ []) (hlen : datagram.length ≤ 9) (sock : ℤ)
    (actions : List Action) (control : Control) :
    datagramReaction (receive datagram fun _ => 6) datagram.length sock actions control ≠
      datagramReaction (receive datagram fun _ => 1) datagram.length sock actions control := by
  have hpos : 0 < datagram.length := List.length_pos_iff.mpr hne
  have hexit : ∀ c : UInt8, c ≠ 0 →
      ¬ (((datagram.length : ℤ) = 4) ∧ strcmpEq (receive datagram fun _ => c) 0 exitText) := by
    rintro c hc ⟨hfour, hcmp⟩
    have hlen4 : datagram.length = 4 := by omega
    simp only [strcmpEq, exitText, Bool.and_eq_true, decide_eq_true_eq] at hcmp
    have hnul := hcmp.2.2.2.2
    rw [Buffer.receive_of_le (by omega)] at hnul
    exact hc hnul
  have hbranch : ∀ c : UInt8, c ≠ 0 → branch (receive datagram fun _ => c) datagram.length =
      if c = 1 then .icmp else if c = 6 then .tcp else if c = 17 then .udp else .other := by
    intro c hc
    rw [branch, if_neg (hexit c hc), if_pos (by omega), Buffer.receive_of_le hlen]
  unfold datagramReaction
  rw [hbranch 6 (by decide), hbranch 1 (by decide)]
  intro heq
  have hactions := congrArg (fun r => r.1.length) heq
  simp at hactions

theorem reaction_ne_of_destination (hlen : 9 < datagram.length) (hlen' : datagram.length < 20)
    (htcp : datagram[9]? ≠ some 6) (sock : ℤ) (actions : List Action) (control : Control) :
    datagramReaction (receive datagram fun _ => 0) datagram.length sock actions control ≠
      datagramReaction (receive datagram fun _ => 1) datagram.length sock actions control := by
  intro heq
  have hprotocol : ∀ b, receive datagram b 9 ≠ 6 := by
    intro b h6
    have hget := List.getElem?_eq_getElem hlen
    rw [Buffer.receive_of_some hget] at h6
    exact htcp (by rw [hget, h6])
  have hhead := congrArg (fun r => r.1.head?) heq
  rw [datagramReaction_injects (by omega) (hprotocol _),
    datagramReaction_injects (by omega) (hprotocol _), Option.some.injEq,
    Action.inject.injEq] at hhead
  have hbyte := congrArg (fun l => l[3]?) hhead.2
  simp only [slice, List.getElem?_map, List.getElem?_range (by decide : 3 < 4), Option.map_some,
    Buffer.receive_of_le (by omega : datagram.length ≤ 16 + 3)] at hbyte
  revert hbyte
  decide

theorem reaction_ne_of_ports (hlen : 20 ≤ datagram.length) (hlen' : datagram.length < 24)
    (hudp : datagram[9]? = some 17) (sock : ℤ) (actions : List Action) (control : Control) :
    datagramReaction (receive datagram fun _ => 0) datagram.length sock actions control ≠
      datagramReaction (receive datagram fun _ => 1) datagram.length sock actions control := by
  intro heq
  rw [datagramReaction_udp (by omega) (Buffer.receive_of_some hudp _),
    datagramReaction_udp (by omega) (Buffer.receive_of_some hudp _)] at heq
  have hport : shortAt (receive datagram fun _ => 0) 22 =
      shortAt (receive datagram fun _ => 1) 22 := by
    injection heq with hactions
    injection hactions with _ hrest
    injection hrest with hopen
    injection hopen
  have h23 : ∀ c : UInt8, receive datagram (fun _ => c) 23 = c :=
    fun c => Buffer.receive_of_le (by omega) _
  have hbytes := (shortAt_eq_iff _ _ rfl).mp hport
  have hlow : receive datagram (fun _ => 0) 23 = receive datagram (fun _ => 1) 23 :=
    (List.cons.inj (List.cons.inj hbytes).2).1
  rw [h23 0, h23 1] at hlow
  revert hlow
  decide

theorem exists_reaction_ne (h : ¬ DatagramDecided datagram) (sock : ℤ) (actions : List Action)
    (control : Control) :
    ∃ b b', datagramReaction (receive datagram b) datagram.length sock actions control ≠
      datagramReaction (receive datagram b') datagram.length sock actions control := by
  unfold DatagramDecided at h
  push Not at h
  obtain ⟨hne, htcp, hudp, hlen⟩ := h
  rcases Nat.lt_or_ge 9 datagram.length with hprotocol | hshort
  · rcases Nat.lt_or_ge datagram.length 20 with hlt | hge
    · exact ⟨_, _, reaction_ne_of_destination hprotocol hlt htcp sock actions control⟩
    · exact ⟨_, _, reaction_ne_of_ports hge hlen (hudp hge) sock actions control⟩
  · exact ⟨_, _, reaction_ne_of_protocol hne hshort sock actions control⟩

end Datagrams

/-! ## Iterations -/

def SameReaction (f : State → State) : Prop :=
  ∀ s buffer, (f { s with buffer := buffer }).reaction = (f s).reaction

def State.ofBuffer (buffer : ℕ → UInt8) : State :=
  { buffer := buffer, maxfd := 0, opened := ∅, rset := ∅, control := .running, messages := [],
    actions := [] }

theorem reaction_frame (s : State) {bytes : List UInt8} (hne : bytes.take bufLen ≠ []) :
    (s.frame config (.message bytes)).reaction =
      ((frameAction config (receive (bytes.take bufLen) s.buffer)
        (bytes.take bufLen).length).toList ++ s.actions, s.control) := by
  have hpos : 0 < (Received.message bytes).recsize := by
    have hlen := List.length_pos_iff.mpr hne
    rw [Received.recsize]
    omega
  unfold State.frame
  dsimp only
  rw [if_pos hpos]
  rfl

theorem reaction_frame_nil (s : State) {bytes : List UInt8} (hnil : bytes.take bufLen = []) :
    (s.frame config (.message bytes)).reaction = s.reaction := by
  have hzero : ¬ 0 < (Received.message bytes).recsize := by
    rw [Received.recsize, hnil]
    decide
  unfold State.frame
  dsimp only
  rw [if_neg hzero]
  rfl

theorem sameReaction_frame_iff (hconfig : config.WellFormed) (bytes : List UInt8) :
    SameReaction (fun s => s.frame config (.message bytes)) ↔
      FrameDecided config (bytes.take bufLen) := by
  by_cases hnil : bytes.take bufLen = []
  · refine iff_of_true (fun s buffer => ?_) (Or.inl hnil)
    dsimp only
    rw [reaction_frame_nil _ hnil, reaction_frame_nil _ hnil]
    rfl
  · constructor
    · intro h
      by_contra hdecided
      obtain ⟨b, b', hne⟩ := exists_ne_of_not_frameDecided hconfig hdecided
      have heq := h (State.ofBuffer b') b
      dsimp only at heq
      rw [reaction_frame _ hnil, reaction_frame _ hnil] at heq
      have hactions : (frameAction config (receive (bytes.take bufLen) b) _).toList =
          (frameAction config (receive (bytes.take bufLen) b') _).toList :=
        List.append_cancel_right (congrArg Prod.fst heq)
      have hhead := congrArg List.head? hactions
      rw [Option.head?_toList, Option.head?_toList] at hhead
      exact hne hhead
    · intro h s buffer
      dsimp only
      rw [reaction_frame _ hnil, reaction_frame _ hnil,
        h.frameAction_eq hconfig hnil buffer s.buffer]

theorem sameReaction_datagram_iff (bytes : List UInt8) :
    SameReaction (fun s => s.datagram config (.message bytes)) ↔
      DatagramDecided (bytes.take bufLen) := by
  constructor
  · intro h
    by_contra hdecided
    obtain ⟨b, b', hne⟩ := exists_reaction_ne hdecided
      ((State.ofBuffer fun _ => 0).fakeSock config) [] .running
    have heq := h (State.ofBuffer b') b
    dsimp only at heq
    rw [reaction_datagram, reaction_datagram] at heq
    exact hne heq
  · intro h s buffer
    dsimp only
    rw [reaction_datagram, reaction_datagram]
    exact h.reaction_eq _ _ _ _ _

theorem State.reaction_drain (s : State) (received : ℕ → Received) :
    (s.drain config received).reaction = s.reaction := by
  rw [State.reaction, State.actions_drain, State.control_drain, State.reaction]

/-- After a frame that is decided two states that differed in the buffer only still
do so. -/
theorem frame_with_buffer (hconfig : config.WellFormed) {bytes : List UInt8}
    (h : FrameDecided config (bytes.take bufLen)) (s : State) (buffer : ℕ → UInt8) :
    { s with buffer := buffer }.frame config (.message bytes) =
      { s.frame config (.message bytes) with buffer := receive (bytes.take bufLen) buffer } := by
  unfold State.frame
  dsimp only [State.recvfrom]
  split_ifs with hpos
  · have hne : bytes.take bufLen ≠ [] := by
      rw [Received.recsize] at hpos
      exact List.length_pos_iff.mp (by omega)
    have haction : frameAction config (receive (bytes.take bufLen) buffer)
          (Received.message bytes).recsize.toNat =
        frameAction config (receive (bytes.take bufLen) s.buffer)
          (Received.message bytes).recsize.toNat :=
      h.frameAction_eq hconfig hne buffer s.buffer
    rw [haction]
  · rfl

theorem beforeDatagram_with_buffer (hconfig : config.WellFormed) {fds : Finset ℕ}
    {received : ℕ → Received} (hframe : ∀ bytes, received config.sockRawRecv = .message bytes →
      FrameDecided config (bytes.take bufLen)) (s : State) (buffer : ℕ → UInt8) :
    ∃ buffer', { s with buffer := buffer }.beforeDatagram config fds received =
      { s.beforeDatagram config fds received with buffer := buffer' } := by
  unfold State.beforeDatagram
  dsimp only
  change ∃ buffer', (if config.sockRawRecv ∈ s.selected config fds then _ else _) = _
  split_ifs
  · cases hreceived : received config.sockRawRecv with
    | error => exact ⟨buffer, rfl⟩
    | message bytes =>
        exact ⟨_, frame_with_buffer hconfig (hframe bytes hreceived)
          { s with rset := s.selected config fds } buffer⟩
  · exact ⟨buffer, rfl⟩

/-- In an iteration whose frame and datagram are decided the reaction does not depend
on the earlier content of the buffer. -/
theorem step_reaction_eq (hconfig : config.WellFormed) {fds : Finset ℕ}
    {received : ℕ → Received} (hframe : ∀ bytes, received config.sockRawRecv = .message bytes →
      FrameDecided config (bytes.take bufLen))
    (hdatagram : ∀ bytes, received config.sockUdp = .message bytes →
      DatagramDecided (bytes.take bufLen)) (s : State) (buffer : ℕ → UInt8) :
    (step config (.ready fds received) { s with buffer := buffer }).map State.reaction =
      (step config (.ready fds received) s).map State.reaction := by
  have hafter : ({ s with buffer := buffer }.afterDatagram config fds received).reaction =
      (s.afterDatagram config fds received).reaction := by
    obtain ⟨buffer', hbefore⟩ := beforeDatagram_with_buffer hconfig hframe s buffer
    unfold State.afterDatagram
    rw [hbefore]
    dsimp only
    split_ifs
    · cases hreceived : received config.sockUdp with
      | error => rfl
      | message bytes =>
          exact (sameReaction_datagram_iff bytes).mpr (hdatagram bytes hreceived) _ buffer'
    · rfl
  by_cases hcontrol : s.control = .running
  · rw [step_ready hcontrol, step_ready (s := { s with buffer := buffer }) hcontrol]
    change Option.map _ (if s.selected config fds = ∅ then none else _) = _
    split_ifs
    · rfl
    · rw [Option.map_some, Option.map_some, State.reaction_drain, State.reaction_drain, hafter]
  · rw [step_of_not_running hcontrol,
      step_of_not_running (s := { s with buffer := buffer }) hcontrol]

/-- For every frame and every datagram the reaction is the same for all contents of
the buffer if and only if the received bytes decide it, and then it is the same for
whole iterations. -/
theorem reaction_same_iff_decided (hconfig : config.WellFormed) :
    (∀ bytes, SameReaction (fun s => s.frame config (.message bytes)) ↔
      FrameDecided config (bytes.take bufLen)) ∧
    (∀ bytes, SameReaction (fun s => s.datagram config (.message bytes)) ↔
      DatagramDecided (bytes.take bufLen)) ∧
    ∀ fds received, (∀ bytes, received config.sockRawRecv = .message bytes →
        FrameDecided config (bytes.take bufLen)) →
      (∀ bytes, received config.sockUdp = .message bytes → DatagramDecided (bytes.take bufLen)) →
        ∀ s buffer, (step config (.ready fds received) { s with buffer := buffer }).map
          State.reaction = (step config (.ready fds received) s).map State.reaction :=
  ⟨sameReaction_frame_iff hconfig, sameReaction_datagram_iff,
    fun _ _ hframe hdatagram => step_reaction_eq hconfig hframe hdatagram⟩

/-- A packet that reaches behind its ports, and one of its bytes. -/
theorem reaction_same_iff_decided_udp :
    let config := (enter 1024).1
    SameReaction (fun s => s.datagram config (.message udpPacket)) ∧
      ¬ SameReaction (fun s => s.datagram config (.message [0x45])) := by
  intro config
  have hconfig : config.WellFormed := ⟨rfl, rfl⟩
  have hiff := (reaction_same_iff_decided hconfig).2.1
  refine ⟨(hiff _).mpr (Or.inr (Or.inr (Or.inr (by decide)))), fun hsame => ?_⟩
  rcases (hiff _).mp hsame with hnil | htcp | ⟨hlen, -⟩ | hlen
  · revert hnil
    decide
  · revert htcp
    decide
  · revert hlen
    decide
  · revert hlen
    decide

/-- Two processes with different garbage in the buffer receive one byte: the first
sends it on the raw socket, the second drops it. -/
theorem short_datagram_reads_garbage :
    let config := (enter 1024).1
    let s := (enter 1024).2
    let s' := { s with buffer := Buffer.content [openText, openText ++ [0]] fun _ => 6 }
    let received (_ : ℕ) : Received := .message [0x45]
    Start config s ∧ Start config s' ∧
      (step config (.ready {3} received) s).map State.reaction =
        some ([.inject [0x45] [0, 0, 0, 0]], .running) ∧
      (step config (.ready {3} received) s').map State.reaction = some ([], .running) := by
  refine ⟨start_enter (by decide), ?_, rfl, rfl⟩
  exact Start.enter {0, 1, 2} ∅ (fun _ => 6) openText (by decide) (by decide) (by decide)

end Proxy

end Matador
