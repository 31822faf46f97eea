import Mathlib.Algebra.BigOperators.Group.List.Basic
import Mathlib.Algebra.Ring.Nat
import Mathlib.Tactic.Common
import Matador.Library.Check

/-!
# Reassembly of IP datagrams in lwIP

`ip_reass` keeps the fragments of each incomplete datagram in the order of their offsets, in the
place of their IP headers, and passes a datagram on when its last fragment has been seen and the
queue has no holes. The datagrams are in a linked list, the newest in front. At most
`IP_REASS_MAX_PBUFS` buffers are queued: if a fragment would need more, the oldest of the other
datagrams are given up.

The functions of ip_frag.c are translated one by one. A pointer into the list of the datagrams is
an index, and a null pointer is `none`. A failed `LWIP_ASSERT` or `LWIP_ERROR` is `none`, as it
aborts the process. Whether `memp_malloc` finds memory is an argument. The timer of a datagram is
kept, but it never runs: tun2socks calls `tcp_tmr` and nothing else of lwIP's timers.
-/

namespace Matador

namespace Ip

open Check

def ipReassMaxPbufs : ℕ := 10

def ipReassMaxage : ℕ := 3

def ipHlen : ℕ := 20

/-- What is read of an IP header: the addresses, the identification, the protocol, and the offset
of the fragment in units of eight bytes. -/
structure IpHdr where
  src : UInt32
  dest : UInt32
  id : UInt16
  proto : UInt8
  offset : ℕ
deriving DecidableEq

def IpHdr.Match (a b : IpHdr) : Prop := a.src = b.src ∧ a.dest = b.dest ∧ a.id = b.id

instance (a b : IpHdr) : Decidable (a.Match b) := inferInstanceAs (Decidable (_ ∧ _))

/-- A packet that `ip_input` passes to `ip_reass`: its header with the number `hl` of words in it
and the flag for more fragments, its length without the header, as a 16-bit number, what the
packet contains behind the header, and the number of buffers it is in: a buffer of the pool has
1516 bytes. -/
structure Fragment where
  hdr : IpHdr
  hl : ℕ
  mf : Bool
  len : ℕ
  data : List UInt8
  clen : ℕ
  offset_lt : hdr.offset < 8192
  len_lt : len < 65536
  clen_pos : 0 < clen
  clen_le : clen ≤ 44
  fragmented : hdr.offset ≠ 0 ∨ mf = true
deriving DecidableEq

/-- `struct ip_reass_helper`, with the buffers it is in and their length `tot_len`. -/
structure Helper where
  start : ℕ
  stop : ℕ
  data : List UInt8
  clen : ℕ
  totLen : ℕ
deriving DecidableEq

structure Reassdata where
  p : List Helper
  iphdr : IpHdr
  datagramLen : ℕ
  lastfrag : Bool
  timer : ℕ
deriving DecidableEq

/-- The variables `reassdatagrams` and `ip_reass_pbufcount`, and the datagrams about which an ICMP
message was sent. -/
structure Reass where
  reassdatagrams : List Reassdata
  pbufcount : ℕ
  timeExceeded : List IpHdr
deriving DecidableEq

structure Datagram where
  hdr : IpHdr
  len : ℕ
  data : List UInt8
deriving DecidableEq

def Fragment.start (f : Fragment) : ℕ := f.hdr.offset * 8

def Fragment.stop (f : Fragment) : ℕ := (f.start + f.len) % 65536

/-- The length in the header of a fragment without options, to which its buffers are trimmed. No
one has checked that it is not below the length of the header. -/
def Fragment.totLen (f : Fragment) : ℕ := (f.len + ipHlen) % 65536

def Fragment.helper (f : Fragment) : Helper := ⟨f.start, f.stop, f.data, f.clen, f.totLen⟩

def Reassdata.pbufs (ipr : Reassdata) : ℕ := (ipr.p.map Helper.clen).sum

/-! ### One datagram -/

/-- What becomes of a fragment: it is freed, or it has a place in the queue, and no holes were
found on the way to it. -/
inductive Chained
  | freed
  | chained (before after : List Helper) (valid : Bool)
deriving DecidableEq

def Chained.behind (q : Helper) : Chained → Chained
  | .freed => .freed
  | .chained before after valid => .chained (q :: before) after valid

/-- The loop of `ip_reass_chain_frag_into_datagram_and_validate` over the queue, and the branch
for its end. -/
def chainFrag (iprh : Helper) : Option Helper → Bool → List Helper → Option Chained
  | iprhPrev, valid, [] => do
      assert (∀ prev ∈ iprhPrev, prev.stop ≤ iprh.start)
      some (.chained [] [] (valid && decide (∀ prev ∈ iprhPrev, prev.stop = iprh.start)))
  | iprhPrev, valid, q :: rest =>
      if iprh.start < q.start then
        -- nothing is compared if there is no fragment before it
        if ∃ prev ∈ iprhPrev, iprh.start < prev.stop ∨ q.start < iprh.stop then some .freed
        else some (.chained [] (q :: rest) valid)
      else if iprh.start = q.start then
        some .freed
      else if iprh.start < q.stop then
        some .freed
      else
        (chainFrag iprh (some q)
          (valid && decide (∀ prev ∈ iprhPrev, prev.stop = q.start)) rest).map (Chained.behind q)

def noHoles : Helper → List Helper → Bool
  | _, [] => true
  | prev, q :: rest => decide (prev.stop = q.start) && noHoles q rest

/-- `ip_reass_chain_frag_into_datagram_and_validate`: nothing if the fragment is freed, otherwise
the queue and whether the datagram is complete -/
def chainFragIntoDatagramAndValidate (f : Fragment) (ipr : Reassdata) :
    Option (Option (List Helper × Bool)) := do
  match ← chainFrag f.helper none true ipr.p with
  | .freed => some none
  | .chained before after valid =>
      let p := before ++ f.helper :: after
      if ipr.lastfrag && valid && decide ((p.head?.map Helper.start) = some 0) &&
          noHoles f.helper after then do
        assert (1 < p.length)
        assert ((after.getLast?.getD f.helper).stop = ipr.datagramLen)
        some (some (p, true))
      else
        some (some (p, false))

/-! ### The list of the datagrams -/

def dequeueDatagram (ipr : ℕ) (prev : Option ℕ) (list : List Reassdata) :
    Option (List Reassdata) :=
  if ipr = 0 then some (list.drop 1)
  else prev.map fun prev => list.take (prev + 1) ++ list.drop (ipr + 1)

def freeCompleteDatagram (i : ℕ) (prev : Option ℕ) (s : Reass) : Option (Reass × ℕ) := do
  assert (prev ≠ some i)
  assert (prev.all (fun prev => prev + 1 == i) = true)
  let ipr ← s.reassdatagrams[i]?
  let first ← ipr.p.head?
  assert (ipr.pbufs ≤ 0xffff)
  let list ← dequeueDatagram i prev s.reassdatagrams
  assert (ipr.pbufs ≤ s.pbufcount)
  some
    ({ reassdatagrams := list
       pbufcount := s.pbufcount - ipr.pbufs
       timeExceeded :=
         if first.start = 0 then s.timeExceeded ++ [ipr.iphdr] else s.timeExceeded },
      ipr.pbufs)

/-- What `ip_reass_remove_oldest_datagram` finds in the list: the oldest of the other datagrams
with its timer, the pointer that it takes for the one before it, and how many there are. -/
structure Oldest where
  oldest : Option (ℕ × ℕ)
  prev : Option ℕ
  otherDatagrams : ℕ
deriving DecidableEq

def older (fraghdr : IpHdr) (i : ℕ) (r : Reassdata) (oldest : Option (ℕ × ℕ)) :
    Option (ℕ × ℕ) :=
  if r.iphdr.Match fraghdr then oldest
  else if ∃ o ∈ oldest, o.2 < r.timer then oldest
  else some (i, r.timer)

def findOldest (fraghdr : IpHdr) : ℕ → List Reassdata → Oldest → Oldest
  | _, [], found => found
  | i, r :: next, found =>
      findOldest fraghdr (i + 1) next
        { oldest := older fraghdr i r found.oldest
          -- in the end the last but one of the list, whichever is the oldest
          prev := if next.isEmpty then found.prev else some i
          otherDatagrams :=
            if r.iphdr.Match fraghdr then found.otherDatagrams else found.otherDatagrams + 1 }

/-- The outer loop of `ip_reass_remove_oldest_datagram`, with the buffers freed so far; every
passage but the last one frees a datagram -/
def removeOldestLoop (fraghdr : IpHdr) (pbufsNeeded : ℕ) : ℕ → ℕ → Reass → Option (Reass × ℕ)
  | 0, _, _ => none
  | fuel + 1, pbufsFreed, s =>
      let found := findOldest fraghdr 0 s.reassdatagrams ⟨none, none, 0⟩
      match found.oldest with
      | none => some (s, pbufsFreed)
      | some oldest =>
          match freeCompleteDatagram oldest.1 found.prev s with
          | none => none
          | some (s, pbufsFreedCurrent) =>
              if pbufsFreed + pbufsFreedCurrent < pbufsNeeded ∧ 1 < found.otherDatagrams then
                removeOldestLoop fraghdr pbufsNeeded fuel (pbufsFreed + pbufsFreedCurrent) s
              else
                some (s, pbufsFreed + pbufsFreedCurrent)

def removeOldestDatagram (fraghdr : IpHdr) (pbufsNeeded : ℕ) (s : Reass) : Option (Reass × ℕ) :=
  removeOldestLoop fraghdr pbufsNeeded (s.reassdatagrams.length + 1) 0 s

def Reass.push (fraghdr : IpHdr) (s : Reass) : Reass :=
  { s with reassdatagrams := ⟨[], fraghdr, 0, false, ipReassMaxage⟩ :: s.reassdatagrams }

def enqueueNewDatagram (alloc : Bool × Bool) (fraghdr : IpHdr) (clen : ℕ) (s : Reass) :
    Option (Reass × Bool) :=
  if alloc.1 then
    some (s.push fraghdr, true)
  else
    match removeOldestDatagram fraghdr clen s with
    | none => none
    -- the allocator is asked again
    | some (s, freed) =>
        if clen ≤ freed ∧ alloc.2 then some (s.push fraghdr, true) else some (s, false)

/-! ### A fragment arrives -/

def makeRoom (f : Fragment) (s : Reass) : Option (Reass × Bool) :=
  if ipReassMaxPbufs < s.pbufcount + f.clen then
    match removeOldestDatagram f.hdr f.clen s with
    | none => none
    | some (s, freed) => some (s, freed ≠ 0 ∧ s.pbufcount + f.clen ≤ ipReassMaxPbufs)
  else
    some (s, true)

def Reassdata.withHeader (f : Fragment) (ipr : Reassdata) : Reassdata :=
  if f.hdr.offset = 0 ∧ ipr.iphdr.offset ≠ 0 then { ipr with iphdr := f.hdr } else ipr

def Reassdata.withLast (f : Fragment) (ipr : Reassdata) : Reassdata :=
  if f.mf then ipr else { ipr with lastfrag := true, datagramLen := f.stop }

def Reassdata.datagram (ipr : Reassdata) (p : List Helper) : Datagram where
  hdr := { ipr.iphdr with offset := 0 }
  len := (ipr.datagramLen + ipHlen) % 65536
  data := p.flatMap Helper.data

/-- The rest of `ip_reass`, for a fragment of the datagram with this index -/
def enter (f : Fragment) (i : ℕ) (iprPrev : Option ℕ) (ipr : Reassdata) (s : Reass) :
    Option (Reass × Option Datagram) := do
  match ← chainFragIntoDatagramAndValidate f ipr with
  | none => some ({ s with reassdatagrams := s.reassdatagrams.set i ipr }, none)
  | some (p, false) =>
      some ({ s with
        reassdatagrams := s.reassdatagrams.set i { ipr with p := p }
        pbufcount := s.pbufcount + f.clen }, none)
  | some (p, true) => do
      -- `pbuf_header(r, -IP_HLEN)` for every fragment but the first
      assert (∀ q ∈ p.tail, ipHlen ≤ q.totLen)
      let list ← dequeueDatagram i iprPrev s.reassdatagrams
      some ({ s with
        reassdatagrams := list
        pbufcount := s.pbufcount + f.clen - (p.map Helper.clen).sum }, some (ipr.datagram p))

def ipReass (alloc : Bool × Bool) (f : Fragment) (s : Reass) :
    Option (Reass × Option Datagram) := do
  if f.hl * 4 ≠ ipHlen then
    some (s, none)
  else
    match ← makeRoom f s with
    | (s, false) => some (s, none)
    | (s, true) =>
        let matching := fun ipr : Reassdata => decide (ipr.iphdr.Match f.hdr)
        match s.reassdatagrams.find? matching with
        | some ipr =>
            let i := s.reassdatagrams.findIdx matching
            enter f i (if i = 0 then none else some (i - 1)) ((ipr.withHeader f).withLast f) s
        | none => do
            match ← enqueueNewDatagram alloc f.hdr f.clen s with
            | (s, false) => some (s, none)
            | (s, true) =>
                enter f 0 none (Reassdata.withLast f ⟨[], f.hdr, 0, false, ipReassMaxage⟩) s

end Ip

end Matador
