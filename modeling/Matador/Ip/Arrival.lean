import Mathlib.Data.List.Basic
import Mathlib.Tactic.Common
import Matador.Ip.Chain
import Matador.Ip.Eviction

/-!
# A fragment arrives

What `ip_reass` does with one fragment, in one statement: the list of the datagrams may lose some at
its end, and the fragment is dropped, or it belongs to a datagram of the list or to a new one in
front of it, and the queue of this datagram decides the rest. From it follows that the list and the
count of the buffers stay as they should be.
-/

namespace Matador

namespace Ip

open Check

variable {f : Fragment} {s s₁ : Reass} {ipr : Reassdata} {front behind : List Reassdata}

/-- The datagram that a fragment belongs to, with the fragment's header and length, between those
before it in the list and those behind it. -/
inductive Entry (f : Fragment) (list : List Reassdata) :
    List Reassdata → Reassdata → List Reassdata → Prop
  | old {front behind : List Reassdata} {ipr : Reassdata} (hlist : list = front ++ ipr :: behind)
      (hown : ipr.iphdr.Match f.hdr) : Entry f list front ((ipr.withHeader f).withLast f) behind
  | new (hother : ∀ r ∈ list, ¬ r.iphdr.Match f.hdr) :
      Entry f list [] (Reassdata.withLast f ⟨[], f.hdr, 0, false, ipReassMaxage⟩) list

def entered (f : Fragment) (front : List Reassdata) (ipr : Reassdata) (behind : List Reassdata)
    (s : Reass) : Option (Reass × Option Datagram) :=
  (chainFragIntoDatagramAndValidate f ipr).bind fun
    | none => some ({ s with reassdatagrams := front ++ ipr :: behind }, none)
    | some (p, false) =>
        some ({ s with
          reassdatagrams := front ++ { ipr with p := p } :: behind
          pbufcount := s.pbufcount + f.clen }, none)
    | some (p, true) => do
        assert (∀ q ∈ p.tail, ipHlen ≤ q.totLen)
        some ({ s with
          reassdatagrams := front ++ behind
          pbufcount := s.pbufcount + f.clen - (p.map Helper.clen).sum }, some (ipr.datagram p))

theorem enter_eq {old : Reassdata} (front : List Reassdata)
    (hlist : s.reassdatagrams = front ++ old :: behind) :
    enter f front.length (if front.length = 0 then none else some (front.length - 1)) ipr s =
      entered f front ipr behind s := by
  have hset : ∀ r, s.reassdatagrams.set front.length r = front ++ r :: behind := by
    intro r
    rw [hlist]
    simp
  have hdequeue : dequeueDatagram front.length
      (if front.length = 0 then none else some (front.length - 1)) s.reassdatagrams =
        some (front ++ behind) := by
    rw [dequeueDatagram, hlist]
    split_ifs with hzero
    · obtain rfl := List.length_eq_zero_iff.1 hzero
      rfl
    · have hpred : front.length - 1 + 1 = front.length := by omega
      simp [hpred]
  rw [enter, entered]
  cases hc : chainFragIntoDatagramAndValidate f ipr with
  | none => rfl
  | some r =>
      obtain _ | ⟨p, valid⟩ := r
      · simp [hset]
      · cases valid with
        | false => simp [hset]
        | true => simp only [Option.bind_eq_bind, Option.bind_some, hdequeue]

/-- A complete datagram is passed on if all its fragments are longer than their headers. -/
theorem entered_of_long {p : List Helper}
    (hvalidate : chainFragIntoDatagramAndValidate f ipr = some (some (p, true)))
    (hlong : ∀ q ∈ p.tail, ipHlen ≤ q.totLen) :
    entered f front ipr behind s = some ({ s with
      reassdatagrams := front ++ behind
      pbufcount := s.pbufcount + f.clen - (p.map Helper.clen).sum }, some (ipr.datagram p)) := by
  simp only [entered, hvalidate, Option.bind_some, assert_of hlong, Option.bind_eq_bind]

theorem entered_of_complete {p : List Helper} {a b : Prop} [Decidable a] [Decidable b]
    {r : Reass × Option Datagram}
    (hvalidate : chainFragIntoDatagramAndValidate f ipr = do
      assert a
      assert b
      some (some (p, true)))
    (h : entered f front ipr behind s = some r) :
    r = ({ s with
      reassdatagrams := front ++ behind
      pbufcount := s.pbufcount + f.clen - (p.map Helper.clen).sum }, some (ipr.datagram p)) := by
  rw [entered] at h
  obtain ⟨result, hresult, h⟩ := Option.bind_eq_some_iff.1 h
  rw [hvalidate] at hresult
  simp only [Option.bind_eq_bind, assert_bind_eq_some, Option.some.injEq] at hresult
  obtain ⟨-, -, rfl⟩ := hresult
  obtain ⟨-, h⟩ := assert_bind_eq_some.1 h
  exact (Option.some.inj h).symm

theorem find?_split {p : Reassdata → Bool} {list : List Reassdata} (h : list.find? p = some ipr) :
    ∃ front behind, list = front ++ ipr :: behind ∧ p ipr = true ∧
      list.findIdx p = front.length := by
  induction list with
  | nil => cases h
  | cons r rest ih =>
      by_cases hr : p r
      · rw [List.find?_cons_of_pos hr] at h
        cases h
        exact ⟨[], rest, rfl, hr, by simp [List.findIdx_cons, hr]⟩
      · rw [List.find?_cons_of_neg hr] at h
        obtain ⟨front, behind, rfl, hp, hidx⟩ := ih h
        exact ⟨r :: front, behind, rfl, hp, by simp [List.findIdx_cons, hr, hidx]⟩

/-- There is room for a fragment, or it is dropped, unless its datagram is in the way. -/
theorem makeRoom_spec (h : s.Inv) :
    (makeRoom f s = none ∧ ipReassMaxPbufs < s.pbufcount + f.clen ∧
      InTheWay f.hdr f.clen s.reassdatagrams) ∨
    ∃ s₁ n room, makeRoom f s = some (s₁, room) ∧ Shrunk s s₁ n ∧
      (room = true → s₁.pbufcount + f.clen ≤ ipReassMaxPbufs) ∧
      ¬ (ipReassMaxPbufs < s.pbufcount + f.clen ∧ InTheWay f.hdr f.clen s.reassdatagrams) := by
  rw [makeRoom]
  split_ifs with hfull
  · obtain ⟨hnone, hway⟩ | ⟨s₁, n, hsome, hshrunk, hway⟩ :=
      removeOldestDatagram_spec f.hdr h f.clen_pos
    · rw [hnone]
      exact .inl ⟨rfl, hfull, hway⟩
    · rw [hsome]
      exact .inr ⟨s₁, n, _, rfl, hshrunk, fun hroom => (of_decide_eq_true hroom).2,
        fun hbad => hway hbad.2⟩
  · exact .inr ⟨s, 0, true, rfl, Shrunk.refl h, fun _ => by omega, fun hbad => hfull hbad.1⟩

/-- What becomes of a fragment that is not dropped for its header. -/
theorem ipReass_spec (alloc : Bool × Bool) (h : s.Inv) (hhl : f.hl * 4 = ipHlen) :
    (ipReass alloc f s = none ∧ ipReassMaxPbufs < s.pbufcount + f.clen ∧
      InTheWay f.hdr f.clen s.reassdatagrams) ∨
    ∃ s₁ n, Shrunk s s₁ n ∧
      ¬ (ipReassMaxPbufs < s.pbufcount + f.clen ∧ InTheWay f.hdr f.clen s.reassdatagrams) ∧
      (ipReass alloc f s = some (s₁, none) ∨
        s₁.pbufcount + f.clen ≤ ipReassMaxPbufs ∧ ∃ front ipr behind,
          Entry f s₁.reassdatagrams front ipr behind ∧
          ipReass alloc f s = entered f front ipr behind s₁) := by
  rw [ipReass, if_neg (not_not.2 hhl)]
  obtain ⟨hnone, hfull, hway⟩ | ⟨s₁, n, room, hroom, hshrunk, hfits, hway⟩ := makeRoom_spec h
  · rw [hnone]
    exact .inl ⟨rfl, hfull, hway⟩
  rw [hroom, Option.bind_eq_bind, Option.bind_some]
  cases room with
  | false => exact .inr ⟨s₁, n, hshrunk, hway, .inl rfl⟩
  | true =>
      dsimp only
      have hbound := hfits rfl
      cases hfind : s₁.reassdatagrams.find? fun ipr => decide (ipr.iphdr.Match f.hdr) with
      | some ipr =>
          obtain ⟨front, behind, hlist, hown, hidx⟩ := find?_split hfind
          refine .inr ⟨s₁, n, hshrunk, hway, .inr ⟨hbound, front, _, behind,
            .old hlist (of_decide_eq_true hown), ?_⟩⟩
          dsimp only
          rw [hidx, enter_eq _ hlist]
      | none =>
          -- no datagram of the list is in the way of a fragment that belongs to none of them
          have hother : ∀ r ∈ s₁.reassdatagrams, ¬ r.iphdr.Match f.hdr := by
            intro r hr hmatch
            exact absurd (List.find?_eq_none.1 hfind r hr) (by simp [hmatch])
          dsimp only
          rw [enqueueNewDatagram]
          split_ifs with halloc
          · refine .inr ⟨s₁, n, hshrunk, hway, .inr ⟨hbound, [], _, _, .new hother, ?_⟩⟩
            rw [Option.bind_some]
            exact enter_eq [] (s := s₁.push f.hdr) rfl
          · obtain ⟨-, front, own, behind, hlist, hown, -⟩ | ⟨s₂, m, hsome, hshrunk₂, -⟩ :=
              removeOldestDatagram_spec f.hdr hshrunk.inv f.clen_pos
            · exact absurd hown (hother own (by rw [hlist]; simp))
            · have hcount := hshrunk₂.count
              rw [hsome]
              dsimp only
              split_ifs with hagain
              · refine .inr ⟨s₂, n + m, hshrunk.trans hshrunk₂, hway, .inr ⟨by omega, [], _, _,
                  .new fun r hr => hother r (hshrunk₂.isPrefix.subset hr), ?_⟩⟩
                rw [Option.bind_some]
                exact enter_eq [] (s := s₂.push f.hdr) rfl
              · exact .inr ⟨s₂, n + m, hshrunk.trans hshrunk₂, hway, .inl rfl⟩

/-! ### The list and the count -/

theorem withHeader_iphdr_match {r : Reassdata} (h : r.iphdr.Match f.hdr) :
    (r.withHeader f).iphdr.Match f.hdr := by
  rw [Reassdata.withHeader]
  split_ifs
  · exact ⟨rfl, rfl, rfl⟩
  · exact h

@[simp] theorem withLast_iphdr (r : Reassdata) : (r.withLast f).iphdr = r.iphdr := by
  rw [Reassdata.withLast]
  split_ifs <;> rfl

@[simp] theorem withLast_p (r : Reassdata) : (r.withLast f).p = r.p := by
  rw [Reassdata.withLast]
  split_ifs <;> rfl

@[simp] theorem withLast_timer (r : Reassdata) : (r.withLast f).timer = r.timer := by
  rw [Reassdata.withLast]
  split_ifs <;> rfl

@[simp] theorem withHeader_p (r : Reassdata) : (r.withHeader f).p = r.p := by
  rw [Reassdata.withHeader]
  split_ifs <;> rfl

@[simp] theorem withHeader_timer (r : Reassdata) : (r.withHeader f).timer = r.timer := by
  rw [Reassdata.withHeader]
  split_ifs <;> rfl

structure Among (f : Fragment) (s : Reass) (front : List Reassdata) (ipr : Reassdata)
    (behind : List Reassdata) : Prop where
  own : ipr.iphdr.Match f.hdr
  timer : ipr.timer = ipReassMaxage
  clen : ∀ q ∈ ipr.p, 0 < q.clen
  others : ∀ r ∈ front ++ behind, r ∈ s.reassdatagrams ∧ ¬ r.iphdr.Match f.hdr
  keys : (front ++ behind).Pairwise fun a b => ¬ a.iphdr.Match b.iphdr
  count : s.pbufcount = ((front ++ behind).map Reassdata.pbufs).sum + ipr.pbufs

theorem Entry.among (h : s.Inv) (he : Entry f s.reassdatagrams front ipr behind) :
    Among f s front ipr behind := by
  cases he with
  | old hlist hown =>
      rename_i old
      have hmem : old ∈ s.reassdatagrams := by simp [hlist]
      have hkeys := h.keys
      have hcount := h.count
      rw [hlist] at hkeys hcount
      have hmiddle := (List.pairwise_middle fun {a b} hab hba => hab hba.symm).1 hkeys
      rw [List.pairwise_cons] at hmiddle
      refine ⟨?_, ?_, ?_, ?_, hmiddle.2, ?_⟩
      · rw [withLast_iphdr]
        exact withHeader_iphdr_match hown
      · rw [withLast_timer, withHeader_timer]
        exact h.timer old hmem
      · rw [withLast_p, withHeader_p]
        exact (h.nonempty old hmem).2
      · intro r hr
        refine ⟨?_, fun hmatch => hmiddle.1 r hr (hown.trans hmatch.symm)⟩
        rw [hlist]
        obtain hr | hr := List.mem_append.1 hr
        · exact List.mem_append_left _ hr
        · exact List.mem_append_right _ (List.mem_cons_of_mem _ hr)
      · simp only [List.map_append, List.sum_append, List.map_cons, List.sum_cons] at hcount ⊢
        rw [hcount, Reassdata.pbufs, Reassdata.pbufs, withLast_p, withHeader_p]
        omega
  | new hother =>
      refine ⟨?_, ?_, ?_, fun r hr => ⟨hr, hother r hr⟩, h.keys, ?_⟩
      · rw [withLast_iphdr]
        exact ⟨rfl, rfl, rfl⟩
      · rw [withLast_timer]
      · simp
      · rw [Reassdata.pbufs, withLast_p]
        exact h.count

theorem Among.inv {p : List Helper} {n : ℕ} {exceeded : List IpHdr} {ipr' : Reassdata}
    (h : s.Inv) (ha : Among f s front ipr behind) (hiphdr : ipr'.iphdr = ipr.iphdr)
    (htimer : ipr'.timer = ipr.timer) (hp : ipr'.p = p)
    (hne : p ≠ []) (hclen : ∀ q ∈ p, 0 < q.clen)
    (hn : n + ipr.pbufs = s.pbufcount + (p.map Helper.clen).sum) (hbound : n ≤ ipReassMaxPbufs) :
    Reass.Inv ⟨front ++ ipr' :: behind, n, exceeded⟩ := by
  have hmem : ∀ r ∈ front ++ ipr' :: behind, r = ipr' ∨ r ∈ front ++ behind := by
    intro r hr
    simp only [List.mem_append, List.mem_cons] at hr ⊢
    tauto
  refine ⟨?_, ?_, ?_, ?_, hbound⟩
  · refine (List.pairwise_middle fun {a b} hab hba => hab hba.symm).2 ?_
    rw [List.pairwise_cons]
    refine ⟨fun r hr hmatch => (ha.others r hr).2 ?_, ha.keys⟩
    rw [hiphdr] at hmatch
    exact hmatch.symm.trans ha.own
  · intro r hr
    obtain rfl | hr := hmem r hr
    · rw [hp]
      exact ⟨hne, hclen⟩
    · exact h.nonempty r (ha.others r hr).1
  · intro r hr
    obtain rfl | hr := hmem r hr
    · rw [htimer, ha.timer]
    · exact h.timer r (ha.others r hr).1
  · have hcount := ha.count
    simp only [List.map_append, List.sum_append, List.map_cons, List.sum_cons] at hcount ⊢
    rw [Reassdata.pbufs, hp]
    omega

theorem entered_inv {s' : Reass} {out : Option Datagram} (h : s.Inv)
    (he : Entry f s.reassdatagrams front ipr behind)
    (hroom : s.pbufcount + f.clen ≤ ipReassMaxPbufs)
    (hres : entered f front ipr behind s = some (s', out)) : s'.Inv := by
  have ha := he.among h
  obtain ⟨hfreed, hvalidate⟩ | ⟨before, after, hp, -, hvalidate⟩ := validate_cases f ipr
  · rw [entered, hvalidate] at hres
    cases hres
    have hne : ipr.p ≠ [] := by
      intro hnil
      rw [hnil, chainFrag, assert_of (by simp)] at hfreed
      cases hfreed
    exact ha.inv h rfl rfl rfl hne ha.clen rfl h.bound
  · have hclen : ∀ q ∈ before ++ f.helper :: after, 0 < q.clen := by
      intro q hq
      simp only [List.mem_append, List.mem_cons] at hq
      obtain hq | rfl | hq := hq
      · exact ha.clen q (by rw [hp]; exact List.mem_append_left _ hq)
      · exact f.clen_pos
      · exact ha.clen q (by rw [hp]; exact List.mem_append_right _ hq)
    have hsum : ((before ++ f.helper :: after).map Helper.clen).sum = ipr.pbufs + f.clen := by
      rw [Reassdata.pbufs, hp]
      simp only [List.map_append, List.sum_append, List.map_cons, List.sum_cons]
      have hf : f.helper.clen = f.clen := rfl
      omega
    obtain ⟨-, hvalidate⟩ | ⟨-, hvalidate⟩ := hvalidate
    · rw [entered, hvalidate] at hres
      cases hres
      have hn : s.pbufcount + f.clen + ipr.pbufs =
          s.pbufcount + ((before ++ f.helper :: after).map Helper.clen).sum := by omega
      exact ha.inv h rfl rfl rfl (by simp) hclen hn hroom
    · cases entered_of_complete hvalidate hres
      have hcount := ha.count
      refine ⟨ha.keys, fun r hr => h.nonempty r (ha.others r hr).1,
        fun r hr => h.timer r (ha.others r hr).1, ?_, ?_⟩
      · change s.pbufcount + f.clen - _ = ((front ++ behind).map Reassdata.pbufs).sum
        rw [hsum]
        omega
      · change s.pbufcount + f.clen - _ ≤ _
        omega

end Ip

end Matador
