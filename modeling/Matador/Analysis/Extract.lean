import Matador.Library.FirstOccurrence
import Matador.Library.Words

/-!
# Targets of the path measurements

`analyze` runs through the packets of a capture. It stores the answers of DNS responses
in files and collects the remote end of every other UDP packet and of every TCP packet,
as a triple of protocol, address and port. Addresses and ports of the configuration's
blacklists are left out, and every triple is kept once.

A layer of a packet is modelled by what `analyze` reads of it, and Python's values by
`Value`, because a number is never equal to a text. What `analyze` prints is not part of
the model, and all options of `analysis.ini` are assumed to be there.
-/

namespace Matador

namespace Analysis

/-- The Python values that `analyze` compares. -/
inductive Value where
  | str (text : String)
  | int (number : ℕ)
deriving DecidableEq

structure Address where
  first : UInt8
  second : UInt8
  third : UInt8
  fourth : UInt8
deriving DecidableEq

def Address.text (address : Address) : String :=
  toString address.first.toNat ++ "." ++ toString address.second.toNat ++ "." ++
    toString address.third.toNat ++ "." ++ toString address.fourth.toNat

inductive Protocol where
  | udp
  | tcp
deriving DecidableEq

structure Triple where
  protocol : Protocol
  ip : Address
  port : ℕ
deriving DecidableEq

/-- The DNS layer: `qname` is missing if there is no question, and an answer is missing if
its record has no `rdata`. -/
structure Dns where
  qr : ℕ
  qname : Option String
  ancount : ℕ
  an : List (Option String)

inductive Transport where
  | udp (sport dport : ℕ) (dns : Option Dns)
  | tcp (sport dport : ℕ)
  | other

structure Packet where
  src : Address
  dst : Address
  transport : Transport

/-- `analysis.ini`, with the texts of the options. -/
structure Config where
  method : String
  ipAddress : String
  identifier : String
  ipBlacklist : String
  portBlacklist : String
  username : String
  pkey : String
  parallel : String
  inApplication : String
  portOption : String
  tcpOption : String
  udpOption : String

/-- The parameters of `analyze`, without the name of the capture. -/
structure Call where
  directory : String
  country : String
  hostname : String
  application : String
  counter : String

/-- The exceptions that can leave `analyze`. -/
inductive Raised where
  | attributeError
  | indexError
  | ioError
  | calledProcessError
deriving DecidableEq

def blacklist (text : String) : List Value :=
  (Words.splitCommaBlank text.toList).map fun entry => .str (String.ofList entry)

def stem (config : Config) (call : Call) : String :=
  call.directory ++ call.counter ++ "_" ++ config.identifier ++ "_" ++ call.application ++ "_" ++
    call.country ++ "_" ++ call.hostname

/-- `prot_ip_port`, and what has been appended to the files for DNS, in this order. -/
structure Extraction where
  triples : List Triple := []
  dnsFiles : List (String × String) := []

section Loop

-- `opens name` says whether the file can be opened: a name may hold a slash.
variable (config : Config) (call : Call) (opens : String → Bool)

/-- The lines for the answers `0, …, ancount - 1`, written until one of them is missing. -/
def answerLines : ℕ → List (Option String) → String × Except Raised Unit
  | 0, _ => ("", .ok ())
  | _ + 1, [] => ("", .error .indexError)
  | _ + 1, none :: _ => ("", .error .attributeError)
  | n + 1, some rdata :: rest =>
      (rdata ++ "\n" ++ (answerLines n rest).1, (answerLines n rest).2)

def dnsName (qname : String) : String := stem config call ++ "_DNS_" ++ qname

def storeDns (dns : Dns) (s : Extraction) : Extraction × Except Raised Unit :=
  if dns.qr = 1 then
    match dns.qname with
    | none => (s, .error .attributeError)
    | some qname =>
        if opens (dnsName config call qname) then
          ({ s with dnsFiles :=
              s.dnsFiles ++ [(dnsName config call qname, (answerLines dns.ancount dns.an).1)] },
            (answerLines dns.ancount dns.an).2)
        else (s, .error .ioError)
  else (s, .ok ())

/-- A triple is stored if its address and its port, as the value the branch looks up, are
not in the blacklists. -/
def consider (portValue : ℕ → Value) (triple : Triple) (s : Extraction) : Extraction :=
  if .str triple.ip.text ∉ blacklist config.ipBlacklist ∧
      portValue triple.port ∉ blacklist config.portBlacklist then
    { s with triples := FirstOccurrence.keepNew s.triples triple }
  else s

/-- The framework's own address is no target. -/
def target (protocol : Protocol) (p : Packet) (sport dport : ℕ) : Triple :=
  if p.src.text = config.ipAddress then ⟨protocol, p.dst, dport⟩ else ⟨protocol, p.src, sport⟩

/-- UDP looks up the text of the port, TCP the number. -/
def handle (p : Packet) (s : Extraction) : Extraction × Except Raised Unit :=
  match p.transport with
  | .udp _ _ (some dns) => storeDns config call opens dns s
  | .udp sport dport none =>
      (consider config (fun port => .str (toString port)) (target config .udp p sport dport) s,
        .ok ())
  | .tcp sport dport => (consider config .int (target config .tcp p sport dport) s, .ok ())
  | .other => (s, .ok ())

def extract : List Packet → Extraction → Extraction × Except Raised Unit
  | [], s => (s, .ok ())
  | p :: packets, s =>
      match handle config call opens p s with
      | (s', .ok ()) => extract packets s'
      | (s', .error e) => (s', .error e)

end Loop

/-! ## What is to be extracted -/

/-- The remote end of a packet, unless it belongs to a DNS resolution. -/
def Packet.endpoint (ipAddress : String) (p : Packet) : Option Triple :=
  match p.transport with
  | .udp _ _ (some _) => none
  | .udp sport dport none =>
      some (if p.src.text = ipAddress then ⟨.udp, p.dst, dport⟩ else ⟨.udp, p.src, sport⟩)
  | .tcp sport dport =>
      some (if p.src.text = ipAddress then ⟨.tcp, p.dst, dport⟩ else ⟨.tcp, p.src, sport⟩)
  | .other => none

def Config.ListsIp (config : Config) (triple : Triple) : Prop :=
  triple.ip.text.toList ∈ Words.splitCommaBlank config.ipBlacklist.toList

def Config.ListsPort (config : Config) (triple : Triple) : Prop :=
  (toString triple.port).toList ∈ Words.splitCommaBlank config.portBlacklist.toList

instance (config : Config) (triple : Triple) : Decidable (config.ListsIp triple) :=
  inferInstanceAs (Decidable (_ ∈ _))

instance (config : Config) (triple : Triple) : Decidable (config.ListsPort triple) :=
  inferInstanceAs (Decidable (_ ∈ _))

def remoteEndpoints (config : Config) (packets : List Packet) : List Triple :=
  (packets.filterMap (Packet.endpoint config.ipAddress)).filter fun triple =>
    ¬ config.ListsIp triple ∧ ¬ config.ListsPort triple

def Dns.Storable (config : Config) (call : Call) (opens : String → Bool) (dns : Dns) : Prop :=
  dns.qr = 1 → ∃ qname, dns.qname = some qname ∧ opens (dnsName config call qname) = true ∧
    dns.ancount ≤ dns.an.length ∧ ∀ answer ∈ dns.an.take dns.ancount, answer.isSome = true

/-! ## What the loop collects -/

section Collected

variable {config : Config} {call : Call} {opens : String → Bool}

theorem str_mem_blacklist {text entry : String} :
    .str entry ∈ blacklist text ↔ entry.toList ∈ Words.splitCommaBlank text.toList := by
  unfold blacklist
  rw [List.mem_map]
  constructor
  · rintro ⟨word, hword, heq⟩
    obtain rfl := Value.str.inj heq
    rwa [String.toList_ofList]
  · intro hmem
    exact ⟨entry.toList, hmem, by rw [String.ofList_toList]⟩

/-- A number is in no blacklist. -/
theorem int_notMem_blacklist (text : String) (port : ℕ) : .int port ∉ blacklist text := by
  unfold blacklist
  rw [List.mem_map]
  rintro ⟨word, -, heq⟩
  cases heq

/-- The loop keeps the triple: no TCP port is left out. -/
def Config.Keeps (config : Config) (triple : Triple) : Prop :=
  ¬ config.ListsIp triple ∧ (triple.protocol = .udp → ¬ config.ListsPort triple)

instance (config : Config) (triple : Triple) : Decidable (config.Keeps triple) :=
  inferInstanceAs (Decidable (_ ∧ _))

def collected (config : Config) (packets : List Packet) : List Triple :=
  (packets.filterMap (Packet.endpoint config.ipAddress)).filter fun triple => config.Keeps triple

def addEndpoint (config : Config) (triples : List Triple) (endpoint : Option Triple) :
    List Triple :=
  (endpoint.filter fun triple => config.Keeps triple).elim triples
    (FirstOccurrence.keepNew triples)

theorem answerLines_ok_iff (n : ℕ) (an : List (Option String)) :
    (answerLines n an).2 = .ok () ↔
      n ≤ an.length ∧ ∀ answer ∈ an.take n, answer.isSome = true := by
  induction n generalizing an with
  | zero => simp [answerLines]
  | succ n ih =>
      rcases an with _ | ⟨_ | rdata, rest⟩
      · simp [answerLines]
      · simp [answerLines]
      · simp [answerLines, ih]

theorem storeDns_ok_iff (dns : Dns) (s : Extraction) :
    (storeDns config call opens dns s).2 = .ok () ↔ dns.Storable config call opens := by
  unfold storeDns Dns.Storable
  by_cases hqr : dns.qr = 1
  · rcases hname : dns.qname with _ | qname
    · simp [hqr]
    · by_cases hopen : opens (dnsName config call qname) = true
      · simp [hqr, hopen, answerLines_ok_iff]
      · simp [hqr, hopen]
  · simp [hqr]

theorem storeDns_triples (dns : Dns) (s : Extraction) :
    (storeDns config call opens dns s).1.triples = s.triples := by
  unfold storeDns
  repeat' split
  all_goals rfl

theorem consider_triples {portValue : ℕ → Value} {triple : Triple}
    (hport : portValue triple.port ∈ blacklist config.portBlacklist ↔
      triple.protocol = .udp ∧ config.ListsPort triple) (s : Extraction) :
    (consider config portValue triple s).triples = addEndpoint config s.triples (some triple) := by
  have hkeeps : (.str triple.ip.text ∉ blacklist config.ipBlacklist ∧
      portValue triple.port ∉ blacklist config.portBlacklist) ↔ config.Keeps triple := by
    rw [str_mem_blacklist, hport, not_and]
    exact Iff.rfl
  unfold consider addEndpoint
  by_cases hcond : .str triple.ip.text ∉ blacklist config.ipBlacklist ∧
      portValue triple.port ∉ blacklist config.portBlacklist
  · simp [if_pos hcond, Option.filter_some, hkeeps.mp hcond]
  · simp [if_neg hcond, Option.filter_some, mt hkeeps.mpr hcond]

theorem target_protocol (protocol : Protocol) (p : Packet) (sport dport : ℕ) :
    (target config protocol p sport dport).protocol = protocol := by
  unfold target
  split <;> rfl

theorem handle_triples (p : Packet) (s : Extraction) :
    (handle config call opens p s).1.triples =
      addEndpoint config s.triples (p.endpoint config.ipAddress) := by
  unfold handle Packet.endpoint
  rcases p.transport with ⟨sport, dport, _ | dns⟩ | ⟨sport, dport⟩ | _
  · change (consider config (fun port => .str (toString port)) (target config .udp p sport dport)
      s).triples = addEndpoint config s.triples (some (target config .udp p sport dport))
    refine consider_triples ?_ s
    rw [str_mem_blacklist, target_protocol]
    exact ⟨fun hmem => ⟨rfl, hmem⟩, And.right⟩
  · exact storeDns_triples dns s
  · change (consider config .int (target config .tcp p sport dport) s).triples =
      addEndpoint config s.triples (some (target config .tcp p sport dport))
    refine consider_triples ?_ s
    rw [target_protocol]
    exact ⟨fun hmem => absurd hmem (int_notMem_blacklist _ _), fun hudp => nomatch hudp.1⟩
  · rfl

def Packet.Storable (config : Config) (call : Call) (opens : String → Bool) (p : Packet) : Prop :=
  ∀ sport dport dns, p.transport = .udp sport dport (some dns) → dns.Storable config call opens

theorem handle_ok_iff (p : Packet) (s : Extraction) :
    (handle config call opens p s).2 = .ok () ↔ p.Storable config call opens := by
  unfold handle Packet.Storable
  rcases p.transport with ⟨sport, dport, _ | dns⟩ | ⟨sport, dport⟩ | _
  · simp
  · rw [storeDns_ok_iff]
    constructor
    · rintro h _ _ _ ⟨⟩
      exact h
    · intro h
      exact h _ _ _ rfl
  · simp
  · simp

theorem mem_collected {packets : List Packet} {triple : Triple} :
    triple ∈ collected config packets ↔
      (∃ p ∈ packets, p.endpoint config.ipAddress = some triple) ∧ config.Keeps triple := by
  rw [collected, List.mem_filter, List.mem_filterMap, decide_eq_true_iff]

theorem mem_remoteEndpoints {packets : List Packet} {triple : Triple} :
    triple ∈ remoteEndpoints config packets ↔
      (∃ p ∈ packets, p.endpoint config.ipAddress = some triple) ∧
        ¬ config.ListsIp triple ∧ ¬ config.ListsPort triple := by
  rw [remoteEndpoints, List.mem_filter, List.mem_filterMap, decide_eq_true_iff]

/-- The filter of the loop is the one of the blacklists where no TCP port is listed. -/
theorem keeps_iff {triple : Triple}
    (h : triple.protocol = .tcp → ¬ config.ListsIp triple → ¬ config.ListsPort triple) :
    config.Keeps triple ↔ ¬ config.ListsIp triple ∧ ¬ config.ListsPort triple := by
  refine and_congr_right fun hip => ?_
  cases hprotocol : triple.protocol with
  | udp => exact ⟨fun hlists => hlists rfl, fun hlists _ => hlists⟩
  | tcp => exact ⟨fun _ => h hprotocol hip, fun _ hudp => nomatch hudp⟩

theorem collected_append_singleton (before : List Packet) (p : Packet) :
    collected config (before ++ [p]) = collected config before ++
      ((p.endpoint config.ipAddress).filter fun triple => config.Keeps triple).toList := by
  unfold collected
  rw [List.filterMap_append, List.filter_append]
  rcases hend : p.endpoint config.ipAddress with _ | triple
  · simp [hend]
  · by_cases hkeep : config.Keeps triple <;> simp [hend, Option.filter_some, hkeep]

theorem lists_addEndpoint {triples : List Triple} {before : List Packet}
    (h : FirstOccurrence.Lists (collected config before) triples) (p : Packet) :
    FirstOccurrence.Lists (collected config (before ++ [p]))
      (addEndpoint config triples (p.endpoint config.ipAddress)) := by
  rw [collected_append_singleton, addEndpoint]
  rcases (p.endpoint config.ipAddress).filter fun triple => config.Keeps triple with _ | triple
  · simpa using h
  · exact h.keepNew triple

theorem extract_cons_ok {p : Packet} {packets : List Packet} {s : Extraction}
    (h : (handle config call opens p s).2 = .ok ()) :
    extract config call opens (p :: packets) s =
      extract config call opens packets (handle config call opens p s).1 := by
  rcases hp : handle config call opens p s with ⟨s', _ | _⟩
  · rw [hp] at h
    cases h
  · rw [extract, hp]

theorem extract_cons_error {p : Packet} {packets : List Packet} {s : Extraction}
    (h : (handle config call opens p s).2 ≠ .ok ()) :
    (extract config call opens (p :: packets) s).2 = (handle config call opens p s).2 := by
  rcases hp : handle config call opens p s with ⟨s', _ | _⟩
  · rw [extract, hp]
  · rw [hp] at h
    exact absurd rfl h

/-- The loop invariant: a run that has gone through `packets` before goes on to collect. -/
theorem extract_lists {s : Extraction} {before : List Packet}
    (h : FirstOccurrence.Lists (collected config before) s.triples) (packets : List Packet)
    (hok : ∀ p ∈ packets, p.Storable config call opens) :
    (extract config call opens packets s).2 = .ok () ∧
      FirstOccurrence.Lists (collected config (before ++ packets))
        (extract config call opens packets s).1.triples := by
  induction packets generalizing s before with
  | nil => exact ⟨rfl, by rwa [List.append_nil]⟩
  | cons p packets ih =>
      rw [List.forall_mem_cons] at hok
      have hstep : FirstOccurrence.Lists (collected config (before ++ [p]))
          (handle config call opens p s).1.triples := by
        rw [handle_triples]
        exact lists_addEndpoint h p
      have hrun := ih hstep hok.2
      rw [List.append_assoc, List.singleton_append] at hrun
      rwa [extract_cons_ok ((handle_ok_iff p s).mpr hok.1)]

/-- The loop does not look at the mode of the measurements. -/
theorem extract_parallel (mode : String) (packets : List Packet) (s : Extraction) :
    extract { config with parallel := mode } call opens packets s =
      extract config call opens packets s := by
  induction packets generalizing s with
  | nil => rfl
  | cons p packets ih =>
      have hp : handle { config with parallel := mode } call opens p s =
          handle config call opens p s := rfl
      rw [extract, extract, hp]
      cases handle config call opens p s with
      | mk s' outcome =>
          cases outcome with
          | error e => rfl
          | ok u => exact ih s'

theorem extract_collected {packets : List Packet}
    (hok : ∀ p ∈ packets, p.Storable config call opens) :
    (extract config call opens packets {}).2 = .ok () ∧
      FirstOccurrence.Lists (collected config packets)
        (extract config call opens packets {}).1.triples := by
  have hstart : FirstOccurrence.Lists (collected config []) ({} : Extraction).triples :=
    FirstOccurrence.lists_nil
  simpa using extract_lists hstart packets hok

theorem storable_of_extract_ok (packets : List Packet) (s : Extraction)
    (h : (extract config call opens packets s).2 = .ok ()) :
    ∀ p ∈ packets, p.Storable config call opens := by
  induction packets generalizing s with
  | nil => exact List.forall_mem_nil _
  | cons p packets ih =>
      have hp : (handle config call opens p s).2 = .ok () := by
        by_contra hne
        exact hne ((extract_cons_error hne).symm.trans h)
      rw [extract_cons_ok hp] at h
      exact List.forall_mem_cons.mpr ⟨(handle_ok_iff p s).mp hp, ih _ h⟩

/-- The loop gets through all packets and collects the remote ends if every DNS response can be
stored and no TCP packet has a remote port that the configuration lists. -/
theorem extract_lists_iff (config : Config) (call : Call) (opens : String → Bool)
    (packets : List Packet) :
    (extract config call opens packets {}).2 = .ok () ∧
        FirstOccurrence.Lists (remoteEndpoints config packets)
          (extract config call opens packets {}).1.triples ↔
      (∀ p ∈ packets, p.Storable config call opens) ∧
        ∀ p ∈ packets, ∀ triple, p.endpoint config.ipAddress = some triple →
          triple.protocol = .tcp → ¬ config.ListsIp triple → ¬ config.ListsPort triple := by
  constructor
  · rintro ⟨hok, hlists⟩
    have hstorable := storable_of_extract_ok packets {} hok
    refine ⟨hstorable, fun p hp triple hend htcp hip hport => ?_⟩
    have hkept : triple ∈ collected config packets :=
      mem_collected.mpr ⟨⟨p, hp, hend⟩, hip, fun hudp => nomatch htcp.symm.trans hudp⟩
    have hmem := (extract_collected hstorable).2.mem triple
    exact (mem_remoteEndpoints.mp ((hlists.mem triple).mp (hmem.mpr hkept))).2.2 hport
  · rintro ⟨hstorable, htcp⟩
    have heq : collected config packets = remoteEndpoints config packets := by
      refine List.filter_congr fun triple hmem => ?_
      obtain ⟨p, hp, hend⟩ := List.mem_filterMap.mp hmem
      rw [decide_eq_decide]
      exact keeps_iff (htcp p hp triple hend)
    obtain ⟨hok, hlists⟩ := extract_collected hstorable
    exact ⟨hok, heq ▸ hlists⟩

def sampleConfig (parallel inApplication portBlacklist : String) : Config where
  method := "traceroute"
  ipAddress := "10.0.0.2"
  identifier := "1"
  ipBlacklist := ""
  portBlacklist := portBlacklist
  username := "tum"
  pkey := "key"
  parallel := parallel
  inApplication := inApplication
  portOption := "-p"
  tcpOption := "-T"
  udpOption := "-U"

def sampleCall : Call := ⟨"/results/", "DE", "a.de", "whatsapp", "0001"⟩

def samplePackets : List Packet :=
  [⟨⟨10, 0, 0, 2⟩, ⟨1, 2, 3, 4⟩, .udp 5000 123 none⟩, ⟨⟨5, 6, 7, 8⟩, ⟨10, 0, 0, 2⟩, .tcp 443 5001⟩]

end Collected

end Analysis

end Matador
