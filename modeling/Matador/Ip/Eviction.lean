import Mathlib.Algebra.Order.BigOperators.Group.List
import Mathlib.Algebra.Order.Group.Nat
import Mathlib.Data.List.Induction
import Mathlib.Data.List.Pairwise
import Mathlib.Tactic.Common
import Matador.Ip.Reassembly

/-!
# Giving up the oldest datagram

`ip_reass_remove_oldest_datagram` looks for the oldest of the datagrams that the fragment does not
belong to, which is the last one of them in the list, and takes the last but one of all datagrams
for its predecessor. If the list ends with the datagram of the fragment itself, the two are the
same datagram, and the process is aborted. Otherwise datagrams are taken off the end of the list,
until there is room.
-/

namespace Matador

namespace Ip

open Check

/-- What the list of the datagrams and the count of the buffers always satisfy: no two datagrams
have the same key, none is empty, no timer has run, and the count is exact and within its bound. -/
structure Reass.Inv (s : Reass) : Prop where
  keys : s.reassdatagrams.Pairwise fun a b => ¬ a.iphdr.Match b.iphdr
  nonempty : ∀ ipr ∈ s.reassdatagrams, ipr.p ≠ [] ∧ ∀ q ∈ ipr.p, 0 < q.clen
  timer : ∀ ipr ∈ s.reassdatagrams, ipr.timer = ipReassMaxage
  count : s.pbufcount = (s.reassdatagrams.map Reassdata.pbufs).sum
  bound : s.pbufcount ≤ ipReassMaxPbufs

theorem IpHdr.Match.symm {a b : IpHdr} (h : a.Match b) : b.Match a :=
  ⟨h.1.symm, h.2.1.symm, h.2.2.symm⟩

theorem IpHdr.Match.trans {a b c : IpHdr} (h : a.Match b) (h' : b.Match c) : a.Match c :=
  ⟨h.1.trans h'.1, h.2.1.trans h'.2.1, h.2.2.trans h'.2.2⟩

variable {fraghdr : IpHdr} {s s' : Reass} {list : List Reassdata} {found : Oldest}

/-! ### The search -/

/-- The pointer that is taken for the predecessor is the last but one. -/
theorem findOldest_prev (i : ℕ) : (findOldest fraghdr i list found).prev =
    if 2 ≤ list.length then some (i + (list.length - 2)) else found.prev := by
  induction list generalizing i found with
  | nil => rfl
  | cons r next ih =>
      rw [findOldest, ih]
      cases next with
      | nil => rfl
      | cons r' next' =>
          cases next' with
          | nil => simp
          | cons r'' next'' =>
              simp only [List.length_cons]
              rw [if_pos (by omega), if_pos (by omega)]
              congr 1
              omega

theorem findOldest_otherDatagrams (i : ℕ) : (findOldest fraghdr i list found).otherDatagrams =
    found.otherDatagrams + list.countP fun r => decide (¬ r.iphdr.Match fraghdr) := by
  induction list generalizing i found with
  | nil => rfl
  | cons r next ih =>
      rw [findOldest, ih]
      by_cases h : r.iphdr.Match fraghdr
      · simp [h]
      · simp [h]
        omega

theorem findOldest_oldest_congr {found' : Oldest} (i : ℕ) (h : found.oldest = found'.oldest) :
    (findOldest fraghdr i list found).oldest = (findOldest fraghdr i list found').oldest := by
  induction list generalizing i found found' with
  | nil => exact h
  | cons r next ih => exact ih _ (by rw [h])

theorem findOldest_oldest_append (i : ℕ) (r : Reassdata) :
    (findOldest fraghdr i (list ++ [r]) found).oldest =
      older fraghdr (i + list.length) r (findOldest fraghdr i list found).oldest := by
  induction list generalizing i found with
  | nil => rfl
  | cons q next ih =>
      rw [List.cons_append, findOldest, ih, findOldest, List.length_cons, Nat.add_right_comm,
        Nat.add_assoc i]
      congr 1
      exact findOldest_oldest_congr _ rfl

/-- As no timer runs, the last of the other datagrams is taken for the oldest one. -/
theorem findOldest_oldest (htimer : ∀ r ∈ list, r.timer = ipReassMaxage) {r : Reassdata}
    (hr : r.timer = ipReassMaxage) :
    (findOldest fraghdr 0 (list ++ [r]) ⟨none, none, 0⟩).oldest =
      if r.iphdr.Match fraghdr then (findOldest fraghdr 0 list ⟨none, none, 0⟩).oldest
      else some (list.length, ipReassMaxage) := by
  have hfound : ∀ o ∈ (findOldest fraghdr 0 list ⟨none, none, 0⟩).oldest, o.2 = ipReassMaxage := by
    induction list using List.reverseRecOn with
    | nil => simp [findOldest]
    | append_singleton next q ih =>
        intro o ho
        rw [findOldest_oldest_append, older] at ho
        split_ifs at ho
        · exact ih (fun a ha => htimer a (List.mem_append_left _ ha)) o ho
        · exact ih (fun a ha => htimer a (List.mem_append_left _ ha)) o ho
        · cases ho
          exact htimer q (by simp)
  rw [findOldest_oldest_append, older, Nat.zero_add, hr]
  split_ifs with hmatch hold
  · rfl
  · obtain ⟨o, ho, hlt⟩ := hold
    rw [hfound o ho] at hlt
    exact absurd hlt (Nat.lt_irrefl _)
  · rfl

/-! ### The last datagram -/

def Reass.dropLast (ipr : Reassdata) (list : List Reassdata) (s : Reass) : Reass :=
  { reassdatagrams := list
    pbufcount := s.pbufcount - ipr.pbufs
    timeExceeded :=
      if ipr.p.head?.map Helper.start = some 0 then s.timeExceeded ++ [ipr.iphdr]
      else s.timeExceeded }

variable {ipr : Reassdata}

theorem Reass.Inv.pbufs_pos (h : s.Inv) (hmem : ipr ∈ s.reassdatagrams) : 0 < ipr.pbufs := by
  obtain ⟨hp, hclen⟩ := h.nonempty ipr hmem
  obtain ⟨q, hq⟩ := List.exists_mem_of_ne_nil _ hp
  have hle := List.le_sum_of_mem (List.mem_map_of_mem (f := Helper.clen) hq)
  have hpos := hclen q hq
  rw [Reassdata.pbufs]
  omega

theorem Reass.Inv.count_append (h : s.Inv) (hlist : s.reassdatagrams = list ++ [ipr]) :
    s.pbufcount = (list.map Reassdata.pbufs).sum + ipr.pbufs := by
  rw [h.count, hlist, List.map_append, List.sum_append, List.map_singleton, List.sum_singleton]

theorem Reass.Inv.dropLast (h : s.Inv) (hlist : s.reassdatagrams = list ++ [ipr]) :
    (s.dropLast ipr list).Inv := by
  have hmem : ∀ r ∈ list, r ∈ s.reassdatagrams := by
    intro r hr
    rw [hlist]
    exact List.mem_append_left _ hr
  have hcount := h.count_append hlist
  have hbound := h.bound
  refine ⟨?_, fun r hr => h.nonempty r (hmem r hr), fun r hr => h.timer r (hmem r hr), ?_, ?_⟩
  · have hkeys := h.keys
    rw [hlist, List.pairwise_append] at hkeys
    exact hkeys.1
  · change s.pbufcount - ipr.pbufs = _
    rw [hcount]
    exact Nat.add_sub_cancel _ _
  · change s.pbufcount - ipr.pbufs ≤ _
    omega

theorem dequeueDatagram_last (hlist : s.reassdatagrams = list ++ [ipr]) :
    dequeueDatagram list.length (if list = [] then none else some (list.length - 1))
      s.reassdatagrams = some list := by
  rw [dequeueDatagram, hlist]
  by_cases hnil : list = []
  · simp [hnil]
  · have hpos := List.length_pos_iff.2 hnil
    have hpred : list.length - 1 + 1 = list.length := by omega
    rw [if_neg (by omega), if_neg hnil]
    simp [hpred]

theorem freeCompleteDatagram_last (h : s.Inv) (hlist : s.reassdatagrams = list ++ [ipr]) :
    freeCompleteDatagram list.length (if list = [] then none else some (list.length - 1)) s =
      some (s.dropLast ipr list, ipr.pbufs) := by
  have hmem : ipr ∈ s.reassdatagrams := by simp [hlist]
  have hget : s.reassdatagrams[list.length]? = some ipr := by simp [hlist]
  have hcount := h.count_append hlist
  have hbound := h.bound
  rw [ipReassMaxPbufs] at hbound
  obtain ⟨hp, -⟩ := h.nonempty ipr hmem
  obtain ⟨first, hfirst⟩ : ∃ first, ipr.p.head? = some first := by
    cases hq : ipr.p with
    | nil => exact absurd hq hp
    | cons q rest => exact ⟨q, rfl⟩
  have hbytes : ipr.pbufs ≤ 0xffff := by omega
  have hleft : ipr.pbufs ≤ s.pbufcount := by omega
  rw [freeCompleteDatagram, assert_of ?_, assert_of ?_]
  · simp only [Option.bind_eq_bind, Option.bind_some, hget, hfirst, assert_of hbytes,
      dequeueDatagram_last hlist, assert_of hleft, Reass.dropLast, Option.map_some,
      Option.some.injEq]
  · split_ifs with hnil
    · simp
    · have hpos := List.length_pos_iff.2 hnil
      simp only [Option.all_some, beq_iff_eq]
      omega
  · split_ifs with hnil
    · simp
    · have hpos := List.length_pos_iff.2 hnil
      rw [Ne, Option.some.injEq]
      omega

/-! ### The loop -/

structure Shrunk (s s' : Reass) (freed : ℕ) : Prop where
  inv : s'.Inv
  isPrefix : s'.reassdatagrams <+: s.reassdatagrams
  count : s'.pbufcount + freed = s.pbufcount

theorem Shrunk.refl (h : s.Inv) : Shrunk s s 0 := ⟨h, List.prefix_rfl, rfl⟩

theorem shrunk_dropLast (h : s.Inv) (hlist : s.reassdatagrams = list ++ [ipr]) :
    Shrunk s (s.dropLast ipr list) ipr.pbufs := by
  refine ⟨h.dropLast hlist, ?_, ?_⟩
  · rw [hlist]
    exact List.prefix_append _ _
  · have hcount := h.count_append hlist
    change s.pbufcount - ipr.pbufs + ipr.pbufs = s.pbufcount
    omega

theorem Shrunk.trans {s₁ s₂ s₃ : Reass} {m n : ℕ} (h : Shrunk s₁ s₂ m) (h' : Shrunk s₂ s₃ n) :
    Shrunk s₁ s₃ (m + n) := by
  refine ⟨h'.inv, h'.isPrefix.trans h.isPrefix, ?_⟩
  have hm := h.count
  have hn := h'.count
  omega

theorem removeOldestLoop_other {pbufsNeeded fuel pbufsFreed : ℕ} (h : s.Inv)
    (hlist : s.reassdatagrams = list ++ [ipr]) (hother : ¬ ipr.iphdr.Match fraghdr) :
    removeOldestLoop fraghdr pbufsNeeded (fuel + 1) pbufsFreed s =
      if pbufsFreed + ipr.pbufs < pbufsNeeded ∧
          1 < s.reassdatagrams.countP fun r => decide (¬ r.iphdr.Match fraghdr) then
        removeOldestLoop fraghdr pbufsNeeded fuel (pbufsFreed + ipr.pbufs) (s.dropLast ipr list)
      else
        some (s.dropLast ipr list, pbufsFreed + ipr.pbufs) := by
  have htimer : ∀ r ∈ list, r.timer = ipReassMaxage := fun r hr =>
    h.timer r (by rw [hlist]; exact List.mem_append_left _ hr)
  have hipr : ipr.timer = ipReassMaxage := h.timer ipr (by simp [hlist])
  have hprev : (findOldest fraghdr 0 s.reassdatagrams ⟨none, none, 0⟩).prev =
      if list = [] then none else some (list.length - 1) := by
    rw [findOldest_prev, hlist, List.length_append, List.length_singleton]
    by_cases hnil : list = []
    · simp [hnil]
    · have hpos := List.length_pos_iff.2 hnil
      rw [if_pos (by omega), if_neg hnil]
      congr 1
      omega
  have holdest : (findOldest fraghdr 0 s.reassdatagrams ⟨none, none, 0⟩).oldest =
      some (list.length, ipReassMaxage) := by
    rw [hlist, findOldest_oldest htimer hipr, if_neg hother]
  rw [removeOldestLoop]
  simp only [holdest, hprev, freeCompleteDatagram_last h hlist, findOldest_otherDatagrams,
    Nat.zero_add]

/-- One passage, if the fragment belongs to the last datagram: nothing is freed if it is the only
one, otherwise the process is aborted. -/
theorem removeOldestLoop_own {pbufsNeeded fuel pbufsFreed : ℕ} (h : s.Inv)
    (hlist : s.reassdatagrams = list ++ [ipr]) (hown : ipr.iphdr.Match fraghdr) :
    removeOldestLoop fraghdr pbufsNeeded (fuel + 1) pbufsFreed s =
      if list = [] then some (s, pbufsFreed) else none := by
  have hkeys := h.keys
  rw [hlist, List.pairwise_append] at hkeys
  have hothers : ∀ r ∈ list, ¬ r.iphdr.Match fraghdr := fun r hr hmatch =>
    hkeys.2.2 r hr ipr (List.mem_singleton_self _) (hmatch.trans hown.symm)
  have htimer : ∀ r ∈ list, r.timer = ipReassMaxage := fun r hr =>
    h.timer r (by rw [hlist]; exact List.mem_append_left _ hr)
  have hipr : ipr.timer = ipReassMaxage := h.timer ipr (by simp [hlist])
  have holdest : (findOldest fraghdr 0 s.reassdatagrams ⟨none, none, 0⟩).oldest =
      (findOldest fraghdr 0 list ⟨none, none, 0⟩).oldest := by
    rw [hlist, findOldest_oldest htimer hipr, if_pos hown]
  rw [removeOldestLoop]
  obtain rfl | ⟨front, r, rfl⟩ := List.eq_nil_or_concat list
  · simp only [holdest, findOldest, if_true]
  · -- the datagram that is found is the one that is taken for its predecessor
    rw [List.concat_eq_append] at hlist hothers htimer holdest ⊢
    have hr := hothers r (by simp)
    have hfound : (findOldest fraghdr 0 s.reassdatagrams ⟨none, none, 0⟩).oldest =
        some (front.length, ipReassMaxage) := by
      rw [holdest, findOldest_oldest (fun a ha => htimer a (List.mem_append_left _ ha))
        (htimer r (by simp)), if_neg hr]
    have hprev : (findOldest fraghdr 0 s.reassdatagrams ⟨none, none, 0⟩).prev =
        some front.length := by
      rw [findOldest_prev, hlist]
      simp
    have habort : freeCompleteDatagram front.length (some front.length) s = none := by
      simp [freeCompleteDatagram, assert]
    simp only [hfound, hprev, habort]
    rw [if_neg (by simp)]

/-- The datagram of the fragment is in the way: it has others before it in the list, and those
behind it do not have the buffers that are needed. -/
def InTheWay (fraghdr : IpHdr) (pbufsNeeded : ℕ) (list : List Reassdata) : Prop :=
  ∃ front own behind, list = front ++ own :: behind ∧ own.iphdr.Match fraghdr ∧ front ≠ [] ∧
    (behind.map Reassdata.pbufs).sum < pbufsNeeded

theorem inTheWay_append_other {n : ℕ} (hother : ¬ ipr.iphdr.Match fraghdr) :
    InTheWay fraghdr n (list ++ [ipr]) ↔
      ∃ front own behind, list = front ++ own :: behind ∧ own.iphdr.Match fraghdr ∧
        front ≠ [] ∧ (behind.map Reassdata.pbufs).sum + ipr.pbufs < n := by
  constructor
  · rintro ⟨front, own, behind, hlist, hown, hfront, hsum⟩
    obtain rfl | ⟨behind', r, rfl⟩ := List.eq_nil_or_concat behind
    · obtain ⟨-, hipr⟩ := List.append_inj' hlist rfl
      obtain rfl := List.singleton_inj.1 hipr
      exact absurd hown hother
    · rw [List.concat_eq_append] at hlist hsum
      rw [← List.cons_append, ← List.append_assoc] at hlist
      obtain ⟨rfl, hr⟩ := List.append_inj' hlist rfl
      obtain rfl := List.singleton_inj.1 hr
      rw [List.map_append, List.sum_append, List.map_singleton, List.sum_singleton] at hsum
      exact ⟨front, own, behind', rfl, hown, hfront, hsum⟩
  · rintro ⟨front, own, behind, rfl, hown, hfront, hsum⟩
    refine ⟨front, own, behind ++ [ipr], by simp, hown, hfront, ?_⟩
    rw [List.map_append, List.sum_append, List.map_singleton, List.sum_singleton]
    exact hsum

theorem one_lt_countP (hkeys : (list ++ [ipr]).Pairwise fun a b => ¬ a.iphdr.Match b.iphdr)
    (hother : ¬ ipr.iphdr.Match fraghdr) {front behind : List Reassdata} {own : Reassdata}
    (hlist : list = front ++ own :: behind) (hown : own.iphdr.Match fraghdr)
    (hfront : front ≠ []) :
    1 < (list ++ [ipr]).countP fun r => decide (¬ r.iphdr.Match fraghdr) := by
  obtain ⟨r, hr⟩ := List.exists_mem_of_ne_nil _ hfront
  have hrother : ¬ r.iphdr.Match fraghdr := by
    intro hmatch
    rw [hlist, List.append_assoc, List.pairwise_append] at hkeys
    exact hkeys.2.2 r hr own (by simp) (hmatch.trans hown.symm)
  have hpos : 0 < list.countP fun r => decide (¬ r.iphdr.Match fraghdr) := by
    refine List.countP_pos_iff.2 ⟨r, ?_, by simpa using hrother⟩
    rw [hlist]
    exact List.mem_append_left _ hr
  rw [List.countP_append]
  simp only [List.countP_singleton, decide_eq_true hother, if_true]
  omega

/-- The loop takes datagrams off the end of the list, until enough buffers are free or one is left.
It aborts the process if and only if it comes to the datagram of the fragment before that. -/
theorem removeOldestLoop_spec {pbufsNeeded fuel pbufsFreed : ℕ} (h : s.Inv)
    (hfuel : s.reassdatagrams.length < fuel) (hneed : pbufsFreed < pbufsNeeded) :
    (removeOldestLoop fraghdr pbufsNeeded fuel pbufsFreed s = none ∧
      InTheWay fraghdr (pbufsNeeded - pbufsFreed) s.reassdatagrams) ∨
    ∃ s' n, removeOldestLoop fraghdr pbufsNeeded fuel pbufsFreed s = some (s', pbufsFreed + n) ∧
      Shrunk s s' n ∧ ¬ InTheWay fraghdr (pbufsNeeded - pbufsFreed) s.reassdatagrams := by
  induction fuel generalizing s pbufsFreed with
  | zero => exact absurd hfuel (Nat.not_lt_zero _)
  | succ fuel ih =>
      obtain hlist | ⟨list, ipr, hlist⟩ := List.eq_nil_or_concat s.reassdatagrams
      · refine .inr ⟨s, 0, ?_, Shrunk.refl h, ?_⟩
        · simp [removeOldestLoop, hlist, findOldest]
        · rintro ⟨front, own, behind, heq, -⟩
          rw [hlist] at heq
          simp at heq
      rw [List.concat_eq_append] at hlist
      -- the last of the list is freed, unless it is the datagram of the fragment
      by_cases hown : ipr.iphdr.Match fraghdr
      · rw [removeOldestLoop_own h hlist hown]
        split_ifs with hnil
        · refine .inr ⟨s, 0, rfl, Shrunk.refl h, ?_⟩
          rintro ⟨front, own, behind, heq, -, hfront, -⟩
          rw [hlist, hnil, List.nil_append] at heq
          have hlen := congrArg List.length heq
          have hpos := List.length_pos_iff.2 hfront
          rw [List.length_singleton, List.length_append, List.length_cons] at hlen
          omega
        · refine .inl ⟨rfl, list, ipr, [], hlist, hown, hnil, ?_⟩
          rw [List.map_nil, List.sum_nil]
          omega
      · rw [removeOldestLoop_other h hlist hown]
        split_ifs with hmore
        · have hlen : (s.dropLast ipr list).reassdatagrams.length < fuel := by
            rw [hlist, List.length_append, List.length_singleton] at hfuel
            exact Nat.lt_of_succ_lt_succ hfuel
          have hway : InTheWay fraghdr (pbufsNeeded - (pbufsFreed + ipr.pbufs)) list ↔
              InTheWay fraghdr (pbufsNeeded - pbufsFreed) s.reassdatagrams := by
            rw [hlist, inTheWay_append_other hown, InTheWay]
            have hsub : ∀ n, n < pbufsNeeded - (pbufsFreed + ipr.pbufs) ↔
                n + ipr.pbufs < pbufsNeeded - pbufsFreed := by omega
            simp only [hsub]
          obtain ⟨hnone, hbad⟩ | ⟨s', n, hsome, hshrunk, hgood⟩ :=
            ih (h.dropLast hlist) hlen hmore.1
          · exact .inl ⟨hnone, hway.1 hbad⟩
          · refine .inr ⟨s', ipr.pbufs + n, ?_, (shrunk_dropLast h hlist).trans hshrunk, ?_⟩
            · rw [hsome, Nat.add_assoc]
            · exact fun hbad => hgood (hway.2 hbad)
        · refine .inr ⟨_, _, rfl, shrunk_dropLast h hlist, ?_⟩
          rw [hlist, inTheWay_append_other hown]
          rintro ⟨front, own, behind, heq, hmatch, hfront, hsum⟩
          refine hmore ⟨by omega, ?_⟩
          have hkeys := h.keys
          rw [hlist] at hkeys ⊢
          exact one_lt_countP hkeys hown heq hmatch hfront

theorem removeOldestDatagram_spec (fraghdr : IpHdr) {pbufsNeeded : ℕ} (h : s.Inv)
    (hneed : 0 < pbufsNeeded) :
    (removeOldestDatagram fraghdr pbufsNeeded s = none ∧
      InTheWay fraghdr pbufsNeeded s.reassdatagrams) ∨
    ∃ s' n, removeOldestDatagram fraghdr pbufsNeeded s = some (s', n) ∧ Shrunk s s' n ∧
      ¬ InTheWay fraghdr pbufsNeeded s.reassdatagrams := by
  have hspec := @removeOldestLoop_spec fraghdr s _ _ _ h (Nat.lt_succ_self _) hneed
  simp only [Nat.zero_add, Nat.sub_zero] at hspec
  exact hspec

end Ip

end Matador
