import Mathlib.Data.List.Basic
import Mathlib.Tactic.Common
import Matador.Ip.Arrival
import Matador.Library.Transition

/-!
# Datagrams in reassembly

The results about every run of the reassembly. The buffers are counted exactly and are never more
than `IP_REASS_MAX_PBUFS`, whatever fragments arrive. The process is aborted in three situations
only: a fragment needs room and its own datagram is the oldest one, or it completes a datagram that
ends elsewhere than its last fragment has said, or it completes one with a fragment that is shorter
than its header.
-/

namespace Matador

namespace Ip

open Check Serial Transition

structure Stack where
  reass : Reass
  passed : List Datagram
deriving DecidableEq

namespace Stack

def init : Stack := ⟨⟨[], 0, []⟩, []⟩

def step : Fragment × (Bool × Bool) → Stack → Option Stack
  | (f, alloc), s => (ipReass alloc f s.reass).map fun r => ⟨r.1, s.passed ++ r.2.toList⟩

variable {s s' : Stack} {f : Fragment} {alloc : Bool × Bool}

/-! ### All fragments -/

theorem inv_init : init.reass.Inv :=
  ⟨List.Pairwise.nil, by simp [init], by simp [init], rfl, Nat.zero_le _⟩

/-- A fragment leaves the state as it should be, and what it does is one of three things: it is
dropped for its header, or after the oldest datagrams were given up, or it enters a datagram. -/
theorem step_cases (h : s.reass.Inv) (hs : step (f, alloc) s = some s') :
    s' = s ∨ ∃ s₁ n, Shrunk s.reass s₁ n ∧ (s' = ⟨s₁, s.passed⟩ ∨
      s₁.pbufcount + f.clen ≤ ipReassMaxPbufs ∧ ∃ front ipr behind r,
        Entry f s₁.reassdatagrams front ipr behind ∧ entered f front ipr behind s₁ = some r ∧
        s' = ⟨r.1, s.passed ++ r.2.toList⟩) := by
  obtain ⟨r, hr, rfl⟩ := Option.map_eq_some_iff.1 hs
  by_cases hhl : f.hl * 4 = ipHlen
  · obtain ⟨hnone, -⟩ | ⟨s₁, n, hshrunk, -, hdrop | ⟨hroom, front, ipr, behind, he, heq⟩⟩ :=
      ipReass_spec alloc h hhl
    · rw [hnone] at hr
      cases hr
    · rw [hdrop] at hr
      cases hr
      exact .inr ⟨s₁, n, hshrunk, .inl (by simp)⟩
    · rw [heq] at hr
      exact .inr ⟨s₁, n, hshrunk, .inr ⟨hroom, front, ipr, behind, r, he, hr, rfl⟩⟩
  · rw [ipReass, if_pos hhl] at hr
    cases hr
    exact .inl (by simp)

theorem step_inv (h : s.reass.Inv) (hs : step (f, alloc) s = some s') : s'.reass.Inv := by
  obtain rfl | ⟨s₁, n, hshrunk, rfl | ⟨hroom, front, ipr, behind, r, he, hr, rfl⟩⟩ :=
    step_cases h hs
  · exact h
  · exact hshrunk.inv
  · exact entered_inv hshrunk.inv he hroom hr

theorem reachable_inv {ok : Fragment × (Bool × Bool) → Stack → Prop}
    (h : Reachable step ok init s) : s.reass.Inv :=
  h.invariant (P := fun s => s.reass.Inv) inv_init fun _ _ _ _ hinv _ hs => step_inv hinv hs

theorem length_le_pbufcount {r : Reass} (h : r.Inv) : r.reassdatagrams.length ≤ r.pbufcount := by
  have hpos : ∀ n ∈ r.reassdatagrams.map Reassdata.pbufs, 1 ≤ n := by
    intro n hn
    obtain ⟨ipr, hipr, rfl⟩ := List.mem_map.1 hn
    exact h.pbufs_pos hipr
  rw [h.count]
  simpa using List.card_nsmul_le_sum _ 1 hpos

/-- Whatever fragments arrive, `ip_reass_pbufcount` is the number of the buffers that are queued,
there are never more than `IP_REASS_MAX_PBUFS` of them, nor datagrams, and no two datagrams in the
list have the same addresses and identification. -/
theorem queue_bounded (h : Reachable step (fun _ _ => True) init s) :
    s.reass.pbufcount = (s.reass.reassdatagrams.map Reassdata.pbufs).sum ∧
      s.reass.pbufcount ≤ ipReassMaxPbufs ∧ s.reass.reassdatagrams.length ≤ ipReassMaxPbufs ∧
      s.reass.reassdatagrams.Pairwise fun a b => ¬ a.iphdr.Match b.iphdr := by
  have hinv := reachable_inv h
  exact ⟨hinv.count, hinv.bound, (length_le_pbufcount hinv).trans hinv.bound, hinv.keys⟩

def message : List UInt8 := (List.range 32).map UInt8.ofNat

/-- The fragments of the payload in a datagram with this identification, over and over; each is in
one buffer, or in nine. -/
def quarter (id : UInt16) (more : Bool) (i : ℕ) : Fragment where
  hdr := ⟨0x0a000001, 0x0a000002, id, 17, i % 4⟩
  hl := 5
  mf := decide (i % 4 * 8 + 8 < 32)
  len := 8
  data := stretch message (i % 4 * 8) (i % 4 * 8 + 8)
  clen := if more then 9 else 1
  offset_lt := by
    dsimp only
    omega
  len_lt := by decide
  clen_pos := by cases more <;> decide
  clen_le := by cases more <;> decide
  fragmented := by
    rw [decide_eq_true_eq]
    dsimp only
    omega

def crowded : Stack where
  reass := ⟨[⟨[(quarter 2 true 0).helper], (quarter 2 true 0).hdr, 0, false, ipReassMaxage⟩,
    ⟨[(quarter 1 false 0).helper], (quarter 1 false 0).hdr, 0, false, ipReassMaxage⟩], 10, []⟩
  passed := []

theorem reachable_crowded : Reachable step (fun _ _ => True) init crowded :=
  (follow_reachableIn [(quarter 1 false 0, (true, true)), (quarter 2 true 0, (true, true))]
    (by decide)).reachable

theorem queue_bounded_crowded : crowded.reass.pbufcount = 10 ∧
    crowded.reass.pbufcount = (crowded.reass.reassdatagrams.map Reassdata.pbufs).sum ∧
      crowded.reass.pbufcount ≤ ipReassMaxPbufs ∧
      crowded.reass.reassdatagrams.length ≤ ipReassMaxPbufs ∧
      crowded.reass.reassdatagrams.Pairwise fun a b => ¬ a.iphdr.Match b.iphdr :=
  ⟨rfl, queue_bounded reachable_crowded⟩

/-- The fragment completes its datagram, but the datagram does not end where its last fragment has
said. -/
def Misfit (f : Fragment) (list : List Reassdata) : Prop :=
  ∃ old ∈ list, old.iphdr.Match f.hdr ∧ ∃ before after, old.p = before ++ after ∧
    Complete f ((old.withHeader f).withLast f) before after ∧
    (after.getLast?.getD f.helper).stop ≠ ((old.withHeader f).withLast f).datagramLen

/-- The fragment completes its datagram, but one behind the first is shorter than an IP header. -/
def Stub (f : Fragment) (list : List Reassdata) : Prop :=
  ∃ old ∈ list, old.iphdr.Match f.hdr ∧ ∃ before after, old.p = before ++ after ∧
    Complete f ((old.withHeader f).withLast f) before after ∧
    ∃ q ∈ (before ++ f.helper :: after).tail, q.totLen < ipHlen

theorem not_complete_new {before after : List Helper}
    (hnil : [] = before ++ after) :
    ¬ Complete f (Reassdata.withLast f ⟨[], f.hdr, 0, false, ipReassMaxage⟩) before after := by
  rintro ⟨hlast, -, -, hzero, -⟩
  obtain ⟨rfl, rfl⟩ := List.append_eq_nil_iff.1 hnil.symm
  have hstart : f.start = 0 := by simpa [Fragment.helper] using hzero
  obtain hoffset | hmf := f.fragmented
  · rw [Fragment.start] at hstart
    omega
  · simp [Reassdata.withLast, hmf] at hlast

/-- The process is aborted only if a fragment needs room while its own datagram is the oldest one
that would have to go, or if it completes a datagram of another length or with a fragment that has
no room for its header; in the first situation it always is. -/
theorem aborts_only (h : Reachable step (fun _ _ => True) init s) :
    (step (f, alloc) s = none →
      (ipReassMaxPbufs < s.reass.pbufcount + f.clen ∧
        InTheWay f.hdr f.clen s.reass.reassdatagrams) ∨
      Misfit f s.reass.reassdatagrams ∨ Stub f s.reass.reassdatagrams) ∧
    (f.hl * 4 = ipHlen → ipReassMaxPbufs < s.reass.pbufcount + f.clen →
      InTheWay f.hdr f.clen s.reass.reassdatagrams → step (f, alloc) s = none) := by
  have hinv := reachable_inv h
  constructor
  · intro hnone
    have hreass : ipReass alloc f s.reass = none := Option.map_eq_none_iff.1 hnone
    by_cases hhl : f.hl * 4 = ipHlen
    · obtain ⟨-, hway⟩ | ⟨s₁, n, hshrunk, -, hdrop | ⟨hroom, front, ipr, behind, he, heq⟩⟩ :=
        ipReass_spec alloc hinv hhl
      · exact .inl hway
      · rw [hdrop] at hreass
        cases hreass
      · rw [heq] at hreass
        obtain ⟨-, hvalidate⟩ | ⟨before, after, hp, -, ⟨-, hvalidate⟩ | ⟨hc, hvalidate⟩⟩ :=
          validate_cases f ipr
        · rw [entered, hvalidate] at hreass
          cases hreass
        · rw [entered, hvalidate] at hreass
          cases hreass
        -- only a fragment that completes its datagram can stop the process here
        · cases he with
          | new hother =>
              rw [withLast_p] at hp
              exact absurd hc (not_complete_new hp)
          | old hlist hown =>
              rename_i old
              have hmem : old ∈ s₁.reassdatagrams := by simp [hlist]
              have hne := (hshrunk.inv.nonempty old hmem).1
              rw [withLast_p, withHeader_p] at hp
              have hin := hshrunk.isPrefix.subset hmem
              have hlen := Complete.length (f := f) hne hp
              by_cases hstop : (after.getLast?.getD f.helper).stop =
                  ((old.withHeader f).withLast f).datagramLen
              · refine .inr (.inr ⟨old, hin, hown, before, after, hp, hc, ?_⟩)
                by_contra hlong
                push Not at hlong
                rw [assert_of hlen, assert_of hstop] at hvalidate
                rw [entered_of_long hvalidate hlong] at hreass
                cases hreass
              · exact .inr (.inl ⟨old, hin, hown, before, after, hp, hc, hstop⟩)
    · rw [ipReass, if_pos hhl] at hreass
      cases hreass
  · intro hhl hfull hway
    obtain ⟨hnone, -⟩ | ⟨s₁, n, -, hgood, -⟩ := ipReass_spec alloc hinv hhl
    · rw [step, hnone]
      rfl
    · exact absurd ⟨hfull, hway⟩ hgood

/-- The next fragment of the older datagram aborts the process. -/
theorem aborts_only_crowded : step (quarter 1 false 1, (true, true)) crowded = none :=
  (aborts_only reachable_crowded).2 rfl (by decide)
    ⟨_ :: [], _, [], rfl, by decide, by simp, by decide⟩

def stub : Fragment where
  hdr := ⟨0x0a000001, 0x0a000002, 1, 17, 1⟩
  hl := 5
  mf := false
  len := 65535
  data := []
  clen := 1
  offset_lt := by decide
  len_lt := by decide
  clen_pos := by decide
  clen_le := by decide
  fragmented := by decide

example :
    (step (quarter 1 false 0, (true, true)) init).bind (step (stub, (true, true))) = none := by
  decide

end Stack

end Ip

end Matador
