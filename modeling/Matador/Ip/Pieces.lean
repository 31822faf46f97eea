import Mathlib.Data.List.Basic
import Mathlib.Tactic.Common
import Matador.Ip.Datagrams

/-!
# The pieces of one datagram

If the fragments of one datagram are pieces of a payload that was cut once, then what is passed on
of it is the payload with at most one gap. There may be one, as a fragment that is put between
others is not compared with the one before it: it completes the datagram also if bytes before it
are missing.
-/

namespace Matador

namespace Ip

open Check Serial Transition

structure Cut (payload : List UInt8) (cut : ℕ → ℕ → Prop) : Prop where
  bounds : ∀ {a b}, cut a b → a < b ∧ b ≤ payload.length
  disjoint : ∀ {a b a' b'}, cut a b → cut a' b' → a = a' ∧ b = b' ∨ b ≤ a' ∨ b' ≤ a
  length : payload.length + ipHlen < 65536

structure Fragment.Of (payload : List UInt8) (cut : ℕ → ℕ → Prop) (f : Fragment) : Prop where
  cut : cut f.start (f.start + f.len)
  data : f.data = stretch payload f.start (f.start + f.len)
  mf : f.mf = decide (f.start + f.len < payload.length)

/-- What the list has of a datagram of which only pieces arrive. -/
structure Reassdata.Of (payload : List UInt8) (cut : ℕ → ℕ → Prop) (ipr : Reassdata) : Prop where
  pieces : ∀ q ∈ ipr.p, PieceOf payload q ∧ cut q.start q.stop
  sorted : ipr.p.Pairwise fun a b => a.stop ≤ b.start
  last : ipr.lastfrag = true →
    ipr.datagramLen = payload.length ∧ ∃ q ∈ ipr.p, q.stop = payload.length

/-- The payload but for the bytes of a gap, which ends where a piece in the middle begins. -/
def Datagram.WithGap (payload : List UInt8) (cut : ℕ → ℕ → Prop) (d : Datagram) : Prop :=
  d.len = payload.length + ipHlen ∧ ∃ a b, a ≤ b ∧ d.data = payload.take a ++ payload.drop b ∧
    (a < b → 0 < a ∧ ∃ c, cut b c ∧ c < payload.length)

variable {payload : List UInt8} {cut : ℕ → ℕ → Prop} {f : Fragment} {ipr : Reassdata}
  {before after : List Helper}

theorem Fragment.Of.stop (hc : Cut payload cut) (hf : f.Of payload cut) :
    f.stop = f.start + f.len := by
  have hlen := hc.length
  have hle := (hc.bounds hf.cut).2
  rw [ipHlen] at hlen
  rw [Fragment.stop]
  exact Nat.mod_eq_of_lt (by omega)

theorem Fragment.Of.pieceOf (hc : Cut payload cut) (hf : f.Of payload cut) :
    PieceOf payload f.helper ∧ cut f.helper.start f.helper.stop := by
  have hstop := hf.stop hc
  obtain ⟨hlt, hle⟩ := hc.bounds hf.cut
  refine ⟨⟨?_, ?_, ?_, ?_⟩, ?_⟩
  · change f.start < f.stop
    omega
  · change f.stop ≤ _
    omega
  · change f.data = stretch payload f.start f.stop
    rw [hstop, hf.data]
  · have hlen := hc.length
    change ipHlen ≤ (f.len + ipHlen) % 65536
    rw [Nat.mod_eq_of_lt (by omega)]
    exact Nat.le_add_left _ _
  · change cut f.start f.stop
    rw [hstop]
    exact hf.cut

/-- A piece that is there is freed; any other one is put in its place, and the queue stays in
order. -/
theorem chainFrag_piece (hc : Cut payload cut) (hf : f.Of payload cut)
    (hpieces : ∀ q ∈ ipr.p, PieceOf payload q ∧ cut q.start q.stop)
    (hsorted : ipr.p.Pairwise fun a b => a.stop ≤ b.start) :
    (chainFrag f.helper none true ipr.p = some .freed ∧ ∃ q ∈ ipr.p, q.stop = f.stop) ∨
    ∃ before after v, chainFrag f.helper none true ipr.p = some (.chained before after v) ∧
      (before ++ f.helper :: after).Pairwise fun a b => a.stop ≤ b.start := by
  obtain ⟨hpiece, hcut⟩ := hf.pieceOf hc
  by_cases hthere : ∃ q ∈ ipr.p, q.start = f.helper.start
  · refine .inl ⟨chainFrag_of_mem hsorted (fun q hq => (hpieces q hq).1.lt) hthere, ?_⟩
    obtain ⟨q, hq, hstart⟩ := hthere
    obtain ⟨hqpiece, hqcut⟩ := hpieces q hq
    refine ⟨q, hq, ?_⟩
    have hlt := hqpiece.lt
    have hlt' := hpiece.lt
    obtain ⟨-, hstop⟩ | hle | hle := hc.disjoint hqcut hcut
    · exact hstop
    · omega
    · omega
  · have hdisjoint : ∀ q ∈ ipr.p, q.start < q.stop ∧
        (q.stop ≤ f.helper.start ∨ f.helper.stop ≤ q.start) := by
      intro q hq
      obtain ⟨hqpiece, hqcut⟩ := hpieces q hq
      refine ⟨hqpiece.lt, ?_⟩
      obtain ⟨hstart, -⟩ | hle := hc.disjoint hqcut hcut
      · exact absurd ⟨q, hq, hstart⟩ hthere
      · exact hle
    obtain ⟨before, after, v, hchain⟩ := chainFrag_of_disjoint none true hpiece.lt hdisjoint
      (by simp)
    refine .inr ⟨before, after, v, hchain, ?_⟩
    obtain ⟨hp, hbefore, hafter, -⟩ := chainFrag_chained hchain
    rw [hp] at hsorted hdisjoint
    obtain ⟨hsb, hsa, hcross⟩ := List.pairwise_append.1 hsorted
    refine List.pairwise_append.2 ⟨hsb, List.pairwise_cons.2 ⟨?_, hsa⟩, ?_⟩
    · -- those behind begin behind the first of them, which begins behind the fragment
      intro q hq
      obtain ⟨r, rest, rfl⟩ := List.exists_cons_of_ne_nil (List.ne_nil_of_mem hq)
      have hr := hafter r rfl
      obtain ⟨hrlt, hrdis⟩ := hdisjoint r (by simp)
      obtain rfl | hq := List.mem_cons.1 hq
      · omega
      · have hle := (List.pairwise_cons.1 hsa).1 q hq
        omega
    · intro a ha b hb
      obtain rfl | hb := List.mem_cons.1 hb
      · exact (hbefore a ha).2
      · exact hcross a ha b hb

/-- What is known of a datagram when a piece of it is about to enter its queue. -/
structure Reassdata.Awaits (payload : List UInt8) (cut : ℕ → ℕ → Prop) (f : Fragment)
    (ipr : Reassdata) : Prop where
  pieces : ∀ q ∈ ipr.p, PieceOf payload q ∧ cut q.start q.stop
  sorted : ipr.p.Pairwise fun a b => a.stop ≤ b.start
  last : ipr.lastfrag = true → ipr.datagramLen = payload.length ∧
    ((∃ q ∈ ipr.p, q.stop = payload.length) ∨ f.stop = payload.length)

theorem withLast_last (hc : Cut payload cut) (hf : f.Of payload cut)
    (h : ipr.lastfrag = true →
      ipr.datagramLen = payload.length ∧ ∃ q ∈ ipr.p, q.stop = payload.length) :
    (ipr.withLast f).lastfrag = true → (ipr.withLast f).datagramLen = payload.length ∧
      ((∃ q ∈ ipr.p, q.stop = payload.length) ∨ f.stop = payload.length) := by
  rw [Reassdata.withLast]
  split_ifs with hmf
  · intro hlast
    exact ⟨(h hlast).1, .inl (h hlast).2⟩
  · intro _
    have hend : ¬ f.start + f.len < payload.length := by
      have hdecide := hf.mf
      rw [Bool.eq_false_of_not_eq_true hmf] at hdecide
      exact of_decide_eq_false hdecide.symm
    have hstop : f.stop = payload.length := by
      have hle := (hc.bounds hf.cut).2
      rw [hf.stop hc]
      omega
    exact ⟨hstop, .inr hstop⟩

theorem Entry.awaits {hdr : IpHdr} {s : Reass} {front behind : List Reassdata}
    (hc : Cut payload cut) (hf : f.Of payload cut) (hmatch : f.hdr.Match hdr)
    (h : ∀ r ∈ s.reassdatagrams, r.iphdr.Match hdr → r.Of payload cut)
    (he : Entry f s.reassdatagrams front ipr behind) : ipr.Awaits payload cut f := by
  cases he with
  | old hlist hown =>
      rename_i old
      have hold := h old (by simp [hlist]) (hown.trans hmatch)
      refine ⟨?_, ?_, ?_⟩
      · rw [withLast_p, withHeader_p]
        exact hold.pieces
      · rw [withLast_p, withHeader_p]
        exact hold.sorted
      · have hheader : (old.withHeader f).lastfrag = true →
            (old.withHeader f).datagramLen = payload.length ∧
              ∃ q ∈ (old.withHeader f).p, q.stop = payload.length := by
          rw [Reassdata.withHeader]
          split_ifs <;> exact hold.last
        rw [withLast_p]
        exact withLast_last hc hf hheader
  | new hother =>
      refine ⟨by simp, by simp, ?_⟩
      rw [withLast_p]
      exact withLast_last hc hf (by simp)

theorem Reassdata.Awaits.of_freed (h : ipr.Awaits payload cut f)
    (hthere : ∃ q ∈ ipr.p, q.stop = f.stop) : ipr.Of payload cut := by
  refine ⟨h.pieces, h.sorted, fun hlast => ⟨(h.last hlast).1, ?_⟩⟩
  obtain hq | hstop := (h.last hlast).2
  · exact hq
  · rw [← hstop]
    exact hthere

theorem Reassdata.Awaits.pieces_chained (hc : Cut payload cut) (hf : f.Of payload cut)
    (h : ipr.Awaits payload cut f) (hp : ipr.p = before ++ after) :
    ∀ q ∈ before ++ f.helper :: after, PieceOf payload q ∧ cut q.start q.stop := by
  intro q hq
  simp only [List.mem_append, List.mem_cons] at hq
  obtain hq | rfl | hq := hq
  · exact h.pieces q (by rw [hp]; exact List.mem_append_left _ hq)
  · exact hf.pieceOf hc
  · exact h.pieces q (by rw [hp]; exact List.mem_append_right _ hq)

theorem Reassdata.Awaits.last_chained (h : ipr.Awaits payload cut f)
    (hp : ipr.p = before ++ after) (hlast : ipr.lastfrag = true) :
    ∃ q ∈ before ++ f.helper :: after, q.stop = payload.length := by
  obtain ⟨q, hq, hstop⟩ | hstop := (h.last hlast).2
  · rw [hp] at hq
    refine ⟨q, ?_, hstop⟩
    simp only [List.mem_append, List.mem_cons] at hq ⊢
    tauto
  · exact ⟨f.helper, by simp, hstop⟩

theorem Reassdata.Awaits.of_chained (hc : Cut payload cut) (hf : f.Of payload cut)
    (h : ipr.Awaits payload cut f) (hp : ipr.p = before ++ after)
    (hsorted : (before ++ f.helper :: after).Pairwise fun a b => a.stop ≤ b.start) :
    Reassdata.Of payload cut { ipr with p := before ++ f.helper :: after } :=
  ⟨h.pieces_chained hc hf hp, hsorted,
    fun hlast => ⟨(h.last hlast).1, h.last_chained hp hlast⟩⟩

theorem last_stop
    (hpieces : ∀ q ∈ before ++ f.helper :: after, PieceOf payload q ∧ cut q.start q.stop)
    (hsorted : (before ++ f.helper :: after).Pairwise fun a b => a.stop ≤ b.start)
    (hlast : ∃ q ∈ before ++ f.helper :: after, q.stop = payload.length) :
    (after.getLast?.getD f.helper).stop = payload.length := by
  obtain ⟨init, hinit⟩ : ∃ init, before ++ f.helper :: after =
      init ++ [after.getLast?.getD f.helper] := by
    obtain rfl | ⟨rest, z, rfl⟩ := List.eq_nil_or_concat after
    · exact ⟨before, rfl⟩
    · exact ⟨before ++ f.helper :: rest, by simp⟩
  rw [hinit] at hpieces hsorted hlast
  generalize after.getLast?.getD f.helper = z at hpieces hsorted hlast ⊢
  obtain ⟨q, hq, hstop⟩ := hlast
  have hz := (hpieces z (by simp)).1
  have hlt := hz.lt
  have hle := hz.le
  obtain hq | hq := List.mem_append.1 hq
  · have hbefore := (List.pairwise_append.1 hsorted).2.2 q hq z (List.mem_singleton_self _)
    omega
  · obtain rfl := List.mem_singleton.1 hq
    exact hstop

def frontEnd (before : List Helper) : ℕ := (before.getLast?.map Helper.stop).getD 0

theorem Complete.data
    (hpieces : ∀ q ∈ before ++ f.helper :: after, PieceOf payload q ∧ cut q.start q.stop)
    (hend : (after.getLast?.getD f.helper).stop = payload.length)
    (h : Complete f ipr before after) :
    (ipr.datagram (before ++ f.helper :: after)).data =
      payload.take (frontEnd before) ++ payload.drop f.start := by
  change (before ++ f.helper :: after).flatMap Helper.data = _
  have hback := (flatMap_data h.back fun a ha => (hpieces a (List.mem_append_right _ ha)).1).2
  rw [hend, stretch, List.take_of_length_le (by rw [List.length_drop])] at hback
  rw [List.flatMap_append, hback]
  congr 1
  cases before with
  | nil => rfl
  | cons q rest =>
      have hstart : q.start = 0 := by simpa using h.zero
      have hfront := (flatMap_data h.front fun a ha => (hpieces a (List.mem_append_left _ ha)).1).2
      rw [hfront, hstart, stretch, List.drop_zero, Nat.sub_zero, frontEnd, List.getLast?_cons]
      rfl

/-- A gap in a datagram that is taken for complete is behind its first byte, and a piece that is
not the last one begins where it ends. -/
theorem Complete.gap
    (hpieces : ∀ q ∈ before ++ f.helper :: after, PieceOf payload q ∧ cut q.start q.stop)
    (hsorted : (before ++ f.helper :: after).Pairwise fun a b => a.stop ≤ b.start)
    (h : Complete f ipr before after) :
    frontEnd before ≤ f.start ∧
      (frontEnd before < f.start → 0 < frontEnd before ∧ f.stop < payload.length) := by
  obtain rfl | ⟨init, z, rfl⟩ := List.eq_nil_or_concat before
  · have hstart : f.start = 0 := by simpa [Fragment.helper] using h.zero
    exact ⟨Nat.zero_le _, fun hgap => by omega⟩
  · rw [List.concat_eq_append] at hpieces hsorted h ⊢
    have hz : frontEnd (init ++ [z]) = z.stop := by simp [frontEnd]
    have hzlt := (hpieces z (by simp)).1.lt
    have hle : z.stop ≤ f.start :=
      (List.pairwise_append.1 hsorted).2.2 z (by simp) f.helper (List.mem_cons_self ..)
    rw [hz]
    refine ⟨hle, fun hgap => ⟨by omega, ?_⟩⟩
    cases after with
    | nil =>
        have hjoin : z.stop = f.start := h.atEnd rfl z (by simp)
        omega
    | cons r after =>
        have hjoin : f.stop = r.start := (List.isChain_cons_cons.1 h.back).1
        have hr := (hpieces r (by simp)).1
        have hrlt := hr.lt
        have hrle := hr.le
        omega

theorem Complete.withGap (hc : Cut payload cut) (hf : f.Of payload cut)
    (h : ipr.Awaits payload cut f) (hp : ipr.p = before ++ after)
    (hsorted : (before ++ f.helper :: after).Pairwise fun a b => a.stop ≤ b.start)
    (hcomplete : Complete f ipr before after) :
    (ipr.datagram (before ++ f.helper :: after)).WithGap payload cut ∧
      (after.getLast?.getD f.helper).stop = ipr.datagramLen := by
  have hlen := (h.last hcomplete.last).1
  have hpieces := h.pieces_chained hc hf hp
  have hend := last_stop hpieces hsorted (h.last_chained hp hcomplete.last)
  obtain ⟨hle, hgap⟩ := hcomplete.gap hpieces hsorted
  refine ⟨⟨?_, _, _, hle, hcomplete.data hpieces hend, fun hlt => ?_⟩, hend.trans hlen.symm⟩
  · change (ipr.datagramLen + ipHlen) % 65536 = _
    rw [hlen]
    exact Nat.mod_eq_of_lt hc.length
  · obtain ⟨hpos, hstop⟩ := hgap hlt
    exact ⟨hpos, f.stop, (hf.pieceOf hc).2, hstop⟩

namespace Stack

variable {hdr : IpHdr} {alloc : Bool × Bool} {s s' : Stack}

/-- Of one datagram only pieces arrive; the others are arbitrary. -/
def Pieces (hdr : IpHdr) (payload : List UInt8) (cut : ℕ → ℕ → Prop)
    (e : Fragment × (Bool × Bool)) (_ : Stack) : Prop :=
  e.1.hdr.Match hdr → e.1.Of payload cut

structure Own (hdr : IpHdr) (payload : List UInt8) (cut : ℕ → ℕ → Prop) (s : Stack) : Prop where
  queued : ∀ r ∈ s.reass.reassdatagrams, r.iphdr.Match hdr → r.Of payload cut
  passed : ∀ d ∈ s.passed, d.hdr.Match hdr → d.WithGap payload cut

theorem own_init : Own hdr payload cut init := ⟨by simp [init], by simp [init]⟩

theorem own_entered {s₁ : Reass} {front behind : List Reassdata} {r : Reass × Option Datagram}
    (hc : Cut payload cut) (hf : f.Of payload cut) (hmatch : f.hdr.Match hdr)
    (hinv : s₁.Inv) (h : ∀ r ∈ s₁.reassdatagrams, r.iphdr.Match hdr → r.Of payload cut)
    (he : Entry f s₁.reassdatagrams front ipr behind)
    (hr : entered f front ipr behind s₁ = some r) :
    (∀ q ∈ r.1.reassdatagrams, q.iphdr.Match hdr → q.Of payload cut) ∧
      ∀ d ∈ r.2, d.WithGap payload cut := by
  have ha := he.among hinv
  have hawaits := he.awaits hc hf hmatch h
  have hothers : ∀ q ∈ front ++ behind, ¬ q.iphdr.Match hdr := fun q hq hq' =>
    (ha.others q hq).2 (hq'.trans hmatch.symm)
  have hone : ∀ ipr' : Reassdata, ipr'.Of payload cut →
      ∀ q ∈ front ++ ipr' :: behind, q.iphdr.Match hdr → q.Of payload cut := by
    intro ipr' hof q hq hq'
    simp only [List.mem_append, List.mem_cons] at hq
    obtain hq | rfl | hq := hq
    · exact absurd hq' (hothers q (List.mem_append_left _ hq))
    · exact hof
    · exact absurd hq' (hothers q (List.mem_append_right _ hq))
  obtain ⟨hfreed, hvalidate⟩ | ⟨before, after, hp, ⟨v, hchained⟩, hvalidate⟩ :=
    validate_cases f ipr
  · rw [entered, hvalidate] at hr
    cases hr
    obtain ⟨-, hthere⟩ | ⟨_, _, _, hchained, -⟩ :=
      chainFrag_piece hc hf hawaits.pieces hawaits.sorted
    · exact ⟨hone ipr (hawaits.of_freed hthere), by simp⟩
    · rw [hfreed] at hchained
      cases hchained
  · have hsorted : (before ++ f.helper :: after).Pairwise fun a b => a.stop ≤ b.start := by
      obtain ⟨hfreed, -⟩ | ⟨_, _, _, hchained', hsorted⟩ :=
        chainFrag_piece hc hf hawaits.pieces hawaits.sorted
      · rw [hchained] at hfreed
        cases hfreed
      · rw [hchained] at hchained'
        cases hchained'
        exact hsorted
    obtain ⟨-, hvalidate⟩ | ⟨hcomplete, hvalidate⟩ := hvalidate
    · rw [entered, hvalidate] at hr
      cases hr
      exact ⟨hone _ (hawaits.of_chained hc hf hp hsorted), by simp⟩
    · cases entered_of_complete hvalidate hr
      refine ⟨fun q hq hq' => absurd hq' (hothers q hq), ?_⟩
      rintro d ⟨⟩
      exact (hcomplete.withGap hc hf hawaits hp hsorted).1

theorem own_other {s₁ : Reass} {front behind : List Reassdata} {r : Reass × Option Datagram}
    (hmatch : ¬ f.hdr.Match hdr) (hinv : s₁.Inv)
    (h : ∀ r ∈ s₁.reassdatagrams, r.iphdr.Match hdr → r.Of payload cut)
    (he : Entry f s₁.reassdatagrams front ipr behind)
    (hr : entered f front ipr behind s₁ = some r) :
    (∀ q ∈ r.1.reassdatagrams, q.iphdr.Match hdr → q.Of payload cut) ∧
      ∀ d ∈ r.2, ¬ d.hdr.Match hdr := by
  have ha := he.among hinv
  have hforeign : ¬ ipr.iphdr.Match hdr := fun hipr => hmatch (ha.own.symm.trans hipr)
  have hone : ∀ ipr' : Reassdata, ipr'.iphdr = ipr.iphdr →
      ∀ q ∈ front ++ ipr' :: behind, q.iphdr.Match hdr → q.Of payload cut := by
    intro ipr' hiphdr q hq hq'
    simp only [List.mem_append, List.mem_cons] at hq
    obtain hq | rfl | hq := hq
    · exact h q (ha.others q (List.mem_append_left _ hq)).1 hq'
    · rw [hiphdr] at hq'
      exact absurd hq' hforeign
    · exact h q (ha.others q (List.mem_append_right _ hq)).1 hq'
  rw [entered] at hr
  obtain ⟨result, hresult, hr⟩ := Option.bind_eq_some_iff.1 hr
  obtain _ | ⟨p, _ | _⟩ := result
  · cases hr
    exact ⟨hone ipr rfl, by simp⟩
  · cases hr
    exact ⟨hone _ rfl, by simp⟩
  · obtain ⟨-, hr⟩ := assert_bind_eq_some.1 hr
    cases hr
    refine ⟨fun q hq hq' => h q (ha.others q hq).1 hq', ?_⟩
    rintro d ⟨⟩
    exact hforeign

theorem step_own (hc : Cut payload cut) (hinv : s.reass.Inv) (h : Own hdr payload cut s)
    (hf : Pieces hdr payload cut (f, alloc) s) (hs : step (f, alloc) s = some s') :
    Own hdr payload cut s' := by
  obtain rfl | ⟨s₁, n, hshrunk, hrest⟩ := step_cases hinv hs
  · exact h
  have hqueued : ∀ r ∈ s₁.reassdatagrams, r.iphdr.Match hdr → r.Of payload cut :=
    fun r hr => h.queued r (hshrunk.isPrefix.subset hr)
  obtain rfl | ⟨-, front, ipr, behind, r, he, hr, rfl⟩ := hrest
  · exact ⟨hqueued, h.passed⟩
  by_cases hmatch : f.hdr.Match hdr
  · obtain ⟨hlist, hout⟩ := own_entered hc (hf hmatch) hmatch hshrunk.inv hqueued he hr
    refine ⟨hlist, fun d hd hd' => ?_⟩
    obtain hd | hd := List.mem_append.1 hd
    · exact h.passed d hd hd'
    · exact hout d (Option.mem_toList.1 hd)
  · obtain ⟨hlist, hout⟩ := own_other hmatch hshrunk.inv hqueued he hr
    refine ⟨hlist, fun d hd hd' => ?_⟩
    obtain hd | hd := List.mem_append.1 hd
    · exact h.passed d hd hd'
    · exact absurd hd' (hout d (Option.mem_toList.1 hd))

theorem reachable_own (hc : Cut payload cut) (h : Reachable step (Pieces hdr payload cut) init s) :
    Own hdr payload cut s :=
  h.invariant own_init fun _ _ _ hreach hown hok hs =>
    step_own hc (reachable_inv hreach) hown hok hs

/-- If only pieces of a payload that was cut once arrive as fragments of a datagram, in any order,
repeated, and among fragments of any other datagrams, then whatever is passed on as this datagram
says that it has the length of the payload, and is the payload with at most one gap, which begins
behind the first byte and ends before the last piece. -/
theorem passed_with_one_gap (hc : Cut payload cut)
    (h : Reachable step (Pieces hdr payload cut) init s) :
    ∀ d ∈ s.passed, d.hdr.Match hdr → d.len = payload.length + ipHlen ∧
      ∃ a b, a ≤ b ∧ d.data = payload.take a ++ payload.drop b ∧
        (a < b → 0 < a ∧ ∃ c, cut b c ∧ c < payload.length) :=
  (reachable_own hc h).passed

def Quarters (a b : ℕ) : Prop := a % 8 = 0 ∧ b = a + 8 ∧ b ≤ 32

theorem cut_quarters : Cut message Quarters where
  bounds := by
    rintro a b ⟨-, rfl, hle⟩
    exact ⟨by omega, hle⟩
  disjoint := by
    rintro a b a' b' ⟨hmod, rfl, -⟩ ⟨hmod', rfl, -⟩
    omega
  length := by decide

theorem quarter_of (id : UInt16) (more : Bool) (i : ℕ) :
    (quarter id more i).Of message Quarters where
  cut := by
    change i % 4 * 8 % 8 = 0 ∧ i % 4 * 8 + 8 = i % 4 * 8 + 8 ∧ i % 4 * 8 + 8 ≤ 32
    omega
  data := rfl
  mf := rfl

def lacking : Stack where
  reass := ⟨[⟨[(quarter 1 false 0).helper, (quarter 1 false 3).helper], (quarter 1 false 0).hdr, 32,
    true, ipReassMaxage⟩], 2, []⟩
  passed := []

theorem reachable_lacking :
    Reachable step (Pieces (quarter 1 false 0).hdr message Quarters) init lacking := by
  have hfirst : Reachable step (Pieces (quarter 1 false 0).hdr message Quarters) init
      ⟨⟨[⟨[(quarter 1 false 0).helper], (quarter 1 false 0).hdr, 0, false, ipReassMaxage⟩], 1, []⟩,
        []⟩ :=
    (Reachable.refl init).tail (o := (quarter 1 false 0, (true, true)))
      (fun _ => quarter_of 1 false 0) (by decide)
  exact hfirst.tail (o := (quarter 1 false 3, (true, true))) (fun _ => quarter_of 1 false 3)
    (by decide)

theorem passed_with_one_gap_lacking : ∃ s, step (quarter 1 false 2, (true, true)) lacking = some s ∧
    s.passed.length = 1 ∧
    ∀ d ∈ s.passed, d.hdr.Match (quarter 1 false 0).hdr → d.len = message.length + ipHlen ∧
      ∃ a b, a ≤ b ∧ d.data = message.take a ++ message.drop b ∧
        (a < b → 0 < a ∧ ∃ c, Quarters b c ∧ c < message.length) :=
  ⟨_, rfl, by decide, passed_with_one_gap cut_quarters
    (reachable_lacking.tail (o := (quarter 1 false 2, (true, true)))
      (fun _ => quarter_of 1 false 2) rfl)⟩

/-! ### A piece that joins on to those behind it -/

theorem split_unique {p : Helper → Prop} {b a b' a' : List Helper} (heq : b ++ a = b' ++ a')
    (hb : ∀ q ∈ b, p q) (ha : ∀ q ∈ a.head?, ¬ p q) (hb' : ∀ q ∈ b', p q)
    (ha' : ∀ q ∈ a'.head?, ¬ p q) : b = b' ∧ a = a' := by
  induction b generalizing b' with
  | nil =>
      cases b' with
      | nil => exact ⟨rfl, heq⟩
      | cons q rest =>
          rw [List.nil_append] at heq
          exact absurd (hb' q (List.mem_cons_self ..)) (ha q (by simp [heq]))
  | cons q rest ih =>
      cases b' with
      | nil =>
          rw [List.nil_append] at heq
          exact absurd (hb q (List.mem_cons_self ..)) (ha' q (by simp [← heq]))
      | cons q' rest' =>
          rw [List.cons_append, List.cons_append, List.cons.injEq] at heq
          obtain ⟨rfl, heq⟩ := heq
          obtain ⟨rfl, rfl⟩ := ih heq (fun a ha => hb a (List.mem_cons_of_mem _ ha))
            fun a ha => hb' a (List.mem_cons_of_mem _ ha)
          exact ⟨rfl, rfl⟩

theorem ipReass_of_room (alloc : Bool × Bool) {r : Reass} {old : Reassdata} (hinv : r.Inv)
    (hhl : f.hl * 4 = ipHlen) (hroom : r.pbufcount + f.clen ≤ ipReassMaxPbufs)
    (hmem : old ∈ r.reassdatagrams) (hown : old.iphdr.Match f.hdr) :
    ∃ front behind, r.reassdatagrams = front ++ old :: behind ∧
      ipReass alloc f r = entered f front ((old.withHeader f).withLast f) behind r := by
  rw [ipReass, if_neg (not_not.2 hhl), makeRoom, if_neg (Nat.not_lt.2 hroom)]
  simp only [Option.bind_eq_bind, Option.bind_some]
  cases hfind : r.reassdatagrams.find? fun ipr => decide (ipr.iphdr.Match f.hdr) with
  | none => exact absurd (List.find?_eq_none.1 hfind old hmem) (by simp [hown])
  | some ipr =>
      obtain ⟨front, behind, hlist, hipr, hidx⟩ := find?_split hfind
      have ha := (Entry.old hlist (of_decide_eq_true hipr)).among hinv
      obtain rfl : ipr = old := by
        rw [hlist] at hmem
        simp only [List.mem_append, List.mem_cons] at hmem
        obtain hmem | rfl | hmem := hmem
        · exact absurd hown (ha.others old (List.mem_append_left _ hmem)).2
        · rfl
        · exact absurd hown (ha.others old (List.mem_append_right _ hmem)).2
      exact ⟨front, behind, hlist, by dsimp only; rw [hidx, enter_eq _ hlist]⟩

theorem stop_le_frontEnd (hsorted : before.Pairwise fun a b => a.stop ≤ b.start)
    (hlt : ∀ q ∈ before, q.start < q.stop) : ∀ q ∈ before, q.stop ≤ frontEnd before := by
  obtain rfl | ⟨init, z, rfl⟩ := List.eq_nil_or_concat before
  · simp
  · rw [List.concat_eq_append] at hsorted hlt ⊢
    have hz : frontEnd (init ++ [z]) = z.stop := by simp [frontEnd]
    intro q hq
    rw [hz]
    obtain hq | hq := List.mem_append.1 hq
    · have hle := (List.pairwise_append.1 hsorted).2.2 q hq z (by simp)
      have hzlt := hlt z (by simp)
      omega
    · rw [List.mem_singleton.1 hq]

theorem chainFrag_between (hc : Cut payload cut) (hf : f.Of payload cut)
    (hof : ipr.Of payload cut) (hp : ipr.p = before ++ after)
    (hbefore : frontEnd before ≤ f.start) (hafter : ∀ q ∈ after, f.stop ≤ q.start) :
    ∃ v, chainFrag f.helper none true ipr.p = some (.chained before after v) ∧
      (before ++ f.helper :: after).Pairwise fun a b => a.stop ≤ b.start := by
  have hpieces := hof.pieces
  have hsorted := hof.sorted
  rw [hp] at hpieces hsorted
  have hflt : f.start < f.stop := (hf.pieceOf hc).1.lt
  have hend := stop_le_frontEnd (List.pairwise_append.1 hsorted).1 fun q hq =>
    (hpieces q (List.mem_append_left _ hq)).1.lt
  obtain ⟨-, q, hq, hstop⟩ | ⟨before', after', v, hchained, hsorted'⟩ :=
    chainFrag_piece hc hf hof.pieces hof.sorted
  · -- a fragment that ends where the new one does would overlap it
    rw [hp] at hq
    have hqlt := (hpieces q hq).1.lt
    obtain hq | hq := List.mem_append.1 hq
    · have hle := hend q hq
      omega
    · have hle := hafter q hq
      omega
  · obtain ⟨hp', hbefore', hafter', -⟩ := chainFrag_chained hchained
    obtain ⟨rfl, rfl⟩ := split_unique (p := fun q => q.start < f.start) (hp'.symm.trans hp)
      (fun q hq => (hbefore' q hq).1) (fun q hq => Nat.not_lt.2 (Nat.le_of_lt (hafter' q hq)))
      (fun q hq => by
        have hle := hend q hq
        have hqlt := (hpieces q (List.mem_append_left _ hq)).1.lt
        omega)
      (fun q hq => by
        have hle := hafter q (List.mem_of_mem_head? hq)
        omega)
    exact ⟨v, hchained, hsorted'⟩

theorem lastfrag_with (h : ipr.lastfrag = true) :
    ((ipr.withHeader f).withLast f).lastfrag = true := by
  rw [Reassdata.withLast, Reassdata.withHeader]
  split_ifs <;> first | exact h | rfl

/-- Bytes that are missing before a fragment are not noticed. If the last piece is there, the pieces
before the fragment leave no gaps between them from the first byte on, and the fragment joins on to
those behind it, which leave none up to the end, then the datagram is passed on with the length of
the payload, also if it lacks the bytes between the pieces before the fragment and the fragment. -/
theorem gap_is_passed_on (hc : Cut payload cut)
    (h : Reachable step (Pieces hdr payload cut) init s) (hf : f.Of payload cut)
    (hmatch : f.hdr.Match hdr) (hhl : f.hl * 4 = ipHlen)
    (hroom : s.reass.pbufcount + f.clen ≤ ipReassMaxPbufs) (hmem : ipr ∈ s.reass.reassdatagrams)
    (hown : ipr.iphdr.Match hdr) (hlast : ipr.lastfrag = true) (hp : ipr.p = before ++ after)
    (hfirst : before.head?.map Helper.start = some 0) (hfront : before.IsChain Joins)
    (hbefore : frontEnd before ≤ f.start) (hafter : after ≠ [])
    (hback : (f.helper :: after).IsChain Joins) :
    ∃ s' d, step (f, alloc) s = some s' ∧ s'.passed = s.passed ++ [d] ∧ d.hdr.Match hdr ∧
      d.len = payload.length + ipHlen ∧
      d.data = payload.take (frontEnd before) ++ payload.drop f.start := by
  have hinv := reachable_inv h
  have hqueued := (reachable_own hc h).queued
  have hof := hqueued ipr hmem hown
  obtain ⟨front, behind, hlist, heq⟩ :=
    ipReass_of_room alloc hinv hhl hroom hmem (hown.trans hmatch.symm)
  have he : Entry f s.reass.reassdatagrams front ((ipr.withHeader f).withLast f) behind :=
    .old hlist (hown.trans hmatch.symm)
  have hawaits := he.awaits hc hf hmatch hqueued
  have hpq : ((ipr.withHeader f).withLast f).p = before ++ after := by
    rw [withLast_p, withHeader_p, hp]
  obtain ⟨r, rest, rfl⟩ := List.exists_cons_of_ne_nil hafter
  have hjoin : f.stop = r.start := (List.isChain_cons_cons.1 hback).1
  have hsorted := hof.sorted
  rw [hp] at hsorted
  have hbehind : ∀ q ∈ r :: rest, f.stop ≤ q.start := by
    intro q hq
    have hr := (hof.pieces r (by simp [hp])).1.lt
    obtain rfl | hq := List.mem_cons.1 hq
    · omega
    · have hle := (List.pairwise_cons.1 (List.pairwise_append.1 hsorted).2.1).1 q hq
      omega
  obtain ⟨v, hchained, hsorted'⟩ := chainFrag_between hc hf hof hp hbefore hbehind
  have hcomplete : Complete f ((ipr.withHeader f).withLast f) before (r :: rest) := by
    refine ⟨lastfrag_with hlast, hfront, by simp, ?_, hback⟩
    rw [List.head?_append_of_ne_nil before (by rintro rfl; cases hfirst)]
    exact hfirst
  obtain ⟨hgap, hstop⟩ := hcomplete.withGap hc hf hawaits hpq hsorted'
  have hdata := hcomplete.data (hawaits.pieces_chained hc hf hpq)
    (last_stop (hawaits.pieces_chained hc hf hpq) hsorted'
      (hawaits.last_chained hpq hcomplete.last))
  have hlength := Complete.length (f := f) (hinv.nonempty ipr hmem).1 hp
  -- the fragment goes between the two parts, and what is checked there is `hcomplete`
  rw [← withHeader_p (f := f), ← withLast_p (f := f)] at hchained
  obtain ⟨hfreed, -⟩ | ⟨before', after', -, ⟨v', hchained'⟩, hvalidate⟩ :=
    validate_cases f ((ipr.withHeader f).withLast f)
  · rw [hchained] at hfreed
    cases hfreed
  rw [hchained] at hchained'
  cases hchained'
  obtain ⟨hnot, -⟩ | ⟨-, hvalidate⟩ := hvalidate
  · exact absurd hcomplete hnot
  rw [assert_of hlength, assert_of hstop] at hvalidate
  have hstep : ∃ reass, entered f front ((ipr.withHeader f).withLast f) behind s.reass =
      some (reass, some (((ipr.withHeader f).withLast f).datagram
        (before ++ f.helper :: r :: rest))) := by
    have hheader : ∀ q ∈ (before ++ f.helper :: r :: rest).tail, ipHlen ≤ q.totLen := fun q hq =>
      (hawaits.pieces_chained hc hf hpq q (List.mem_of_mem_tail hq)).1.totLen
    exact ⟨_, entered_of_long hvalidate hheader⟩
  obtain ⟨reass, hreass⟩ := hstep
  refine ⟨⟨reass, s.passed ++ [_]⟩, _, ?_, rfl, (he.among hinv).own.trans hmatch, hgap.1, hdata⟩
  rw [step, heq, hreass]
  rfl

/-- The third fragment completes the datagram without the second one. -/
theorem gap_is_passed_on_lacking : ∃ s d, step (quarter 1 false 2, (true, true)) lacking = some s ∧
    s.passed = lacking.passed ++ [d] ∧ d.hdr.Match (quarter 1 false 0).hdr ∧
    d.len = message.length + ipHlen ∧ d.data = message.take 8 ++ message.drop 16 :=
  gap_is_passed_on cut_quarters reachable_lacking (quarter_of 1 false 2) (by decide) rfl (by decide)
    (List.mem_cons_self ..) (by decide) rfl
    (show [(quarter 1 false 0).helper, (quarter 1 false 3).helper] =
      [(quarter 1 false 0).helper] ++ [(quarter 1 false 3).helper] from rfl)
    rfl (List.isChain_singleton _) (by decide) (List.cons_ne_nil _ _)
    (List.isChain_pair.2 rfl)

end Stack

end Ip

end Matador
