import Mathlib.Data.List.Chain
import Mathlib.Data.List.Pairwise
import Mathlib.Tactic.Common
import Matador.Ip.Reassembly
import Matador.Library.Serial

/-!
# The queue of one datagram

What `ip_reass_chain_frag_into_datagram_and_validate` does with the queue. A fragment that is not
freed is put between those that end before it and those that begin behind it. Whether the datagram
is complete is decided from the fragments before it and from those behind it; whether the fragment
itself joins on to the one before it is looked at only if it is the last one.
-/

namespace Matador

namespace Ip

open Check Serial

def Joins (a b : Helper) : Prop := a.stop = b.start

instance (a b : Helper) : Decidable (Joins a b) := inferInstanceAs (Decidable (_ = _))

variable {iprh : Helper} {iprhPrev : Option Helper} {valid v : Bool}
  {p before after : List Helper}

theorem noHoles_iff : noHoles iprh p = true ↔ (iprh :: p).IsChain Joins := by
  induction p generalizing iprh with
  | nil => simp [noHoles]
  | cons q rest ih =>
      rw [noHoles, Bool.and_eq_true, decide_eq_true_eq, ih, List.isChain_cons_cons]
      rfl

theorem chainFrag_ne_none (hprev : ∀ prev ∈ iprhPrev, prev.stop ≤ iprh.start) :
    chainFrag iprh iprhPrev valid p ≠ none := by
  induction p generalizing iprhPrev valid with
  | nil =>
      rw [chainFrag, assert_of hprev]
      simp
  | cons q rest ih =>
      rw [chainFrag]
      split_ifs with hlt hbetween heq hover
      · simp
      · simp
      · simp
      · simp
      · rw [Ne, Option.map_eq_none_iff]
        refine ih ?_
        rintro prev ⟨⟩
        omega

/-- Where a fragment is put: behind those that begin and end before it, and before the rest, the
first of which begins behind it. Holes are looked for among the fragments before it, and between
the last of them and the fragment only if nothing follows. -/
theorem chainFrag_chained (h : chainFrag iprh iprhPrev valid p = some (.chained before after v)) :
    p = before ++ after ∧ (∀ q ∈ before, q.start < iprh.start ∧ q.stop ≤ iprh.start) ∧
      (∀ q ∈ after.head?, iprh.start < q.start) ∧
      (v = true ↔ valid = true ∧ (iprhPrev.toList ++ before).IsChain Joins ∧
        (after = [] → ∀ q ∈ (iprhPrev.toList ++ before).getLast?, Joins q iprh)) := by
  induction p generalizing iprhPrev valid before with
  | nil =>
      simp only [chainFrag, Option.bind_eq_bind, assert_bind_eq_some, Option.some.injEq,
        Chained.chained.injEq] at h
      obtain ⟨-, rfl, rfl, rfl⟩ := h
      cases iprhPrev <;> simp [Joins]
  | cons q rest ih =>
      rw [chainFrag] at h
      split_ifs at h with hlt hbetween heq hover
      · cases h
      · simp only [Option.some.injEq, Chained.chained.injEq] at h
        obtain ⟨rfl, rfl, rfl⟩ := h
        cases iprhPrev <;> simp [hlt]
      · cases h
      · cases h
      · obtain ⟨r, hr, hbehind⟩ := Option.map_eq_some_iff.1 h
        cases r with
        | freed => cases hbehind
        | chained before' after' v' =>
            simp only [Chained.behind, Chained.chained.injEq] at hbehind
            obtain ⟨rfl, rfl, rfl⟩ := hbehind
            obtain ⟨rfl, hbefore, hafter, hv⟩ := ih hr
            refine ⟨rfl, ?_, hafter, ?_⟩
            · intro a ha
              obtain rfl | ha := List.mem_cons.1 ha
              · omega
              · exact hbefore a ha
            · rw [hv]
              cases iprhPrev with
              | none => simp
              | some prev => simp [Joins, and_assoc]

theorem chainFrag_of_disjoint (iprhPrev : Option Helper) (valid : Bool)
    (hnew : iprh.start < iprh.stop)
    (hp : ∀ q ∈ p, q.start < q.stop ∧ (q.stop ≤ iprh.start ∨ iprh.stop ≤ q.start))
    (hprev : ∀ prev ∈ iprhPrev, prev.stop ≤ iprh.start) :
    ∃ before after v, chainFrag iprh iprhPrev valid p = some (.chained before after v) := by
  induction p generalizing iprhPrev valid with
  | nil =>
      rw [chainFrag, assert_of hprev]
      exact ⟨_, _, _, rfl⟩
  | cons q rest ih =>
      have hq := hp q (List.mem_cons_self ..)
      rw [chainFrag]
      split_ifs with hlt hbetween heq hover
      · obtain ⟨prev, hmem, hoverlap⟩ := hbetween
        have hle := hprev prev hmem
        omega
      · exact ⟨_, _, _, rfl⟩
      · omega
      · omega
      · obtain ⟨before, after, v, hrest⟩ := ih (some q)
          (valid && decide (∀ prev ∈ iprhPrev, prev.stop = q.start))
          (fun a ha => hp a (List.mem_cons_of_mem _ ha)) (by
            rintro prev ⟨⟩
            omega)
        exact ⟨q :: before, after, v, by rw [hrest]; rfl⟩

theorem chainFrag_of_mem (hsorted : p.Pairwise fun a b => a.stop ≤ b.start)
    (hp : ∀ q ∈ p, q.start < q.stop) (hmem : ∃ q ∈ p, q.start = iprh.start) :
    chainFrag iprh iprhPrev valid p = some .freed := by
  induction p generalizing iprhPrev valid with
  | nil =>
      obtain ⟨q, hq, -⟩ := hmem
      cases hq
  | cons q rest ih =>
      rw [List.pairwise_cons] at hsorted
      have hq := hp q (List.mem_cons_self ..)
      obtain ⟨r, hr, hstart⟩ := hmem
      rw [chainFrag]
      obtain rfl | hr := List.mem_cons.1 hr
      · rw [if_neg (by omega), if_pos hstart.symm]
      · have hle := hsorted.1 r hr
        rw [if_neg (by omega), if_neg (by omega), if_neg (by omega),
          ih hsorted.2 (fun a ha => hp a (List.mem_cons_of_mem _ ha)) ⟨r, hr, hstart⟩]
        rfl

/-! ### When a datagram is taken for complete -/

/-- What is checked of a datagram with a fragment between those before it and those behind it. -/
structure Complete (f : Fragment) (ipr : Reassdata) (before after : List Helper) : Prop where
  last : ipr.lastfrag = true
  front : before.IsChain Joins
  atEnd : after = [] → ∀ q ∈ before.getLast?, Joins q f.helper
  zero : (before ++ f.helper :: after).head?.map Helper.start = some 0
  back : (f.helper :: after).IsChain Joins

variable {f : Fragment} {ipr : Reassdata}

/-- A fragment is freed, or it is put into the queue and the datagram is not complete, or it is
complete, which is checked against its length. -/
theorem validate_cases (f : Fragment) (ipr : Reassdata) :
    chainFrag f.helper none true ipr.p = some .freed ∧
      chainFragIntoDatagramAndValidate f ipr = some none ∨
    ∃ before after, ipr.p = before ++ after ∧
      (∃ v, chainFrag f.helper none true ipr.p = some (.chained before after v)) ∧
      (¬ Complete f ipr before after ∧ chainFragIntoDatagramAndValidate f ipr =
          some (some (before ++ f.helper :: after, false)) ∨
        Complete f ipr before after ∧ chainFragIntoDatagramAndValidate f ipr = do
          assert (1 < (before ++ f.helper :: after).length)
          assert ((after.getLast?.getD f.helper).stop = ipr.datagramLen)
          some (some (before ++ f.helper :: after, true))) := by
  cases hchain : chainFrag f.helper none true ipr.p with
  | none => exact absurd hchain (chainFrag_ne_none (by simp))
  | some r =>
      cases r with
      | freed => exact .inl ⟨rfl, by rw [chainFragIntoDatagramAndValidate, hchain]; rfl⟩
      | chained before after v =>
          obtain ⟨hp, -, -, hv⟩ := chainFrag_chained hchain
          refine .inr ⟨before, after, hp, ⟨v, rfl⟩, ?_⟩
          have hcomplete : (ipr.lastfrag && v &&
              decide ((before ++ f.helper :: after).head?.map Helper.start = some 0) &&
              noHoles f.helper after) = true ↔ Complete f ipr before after := by
            rw [Bool.and_eq_true, Bool.and_eq_true, Bool.and_eq_true, decide_eq_true_eq, hv,
              noHoles_iff]
            constructor
            · rintro ⟨⟨⟨hlast, -, hfront, hend⟩, hzero⟩, hback⟩
              exact ⟨hlast, hfront, hend, hzero, hback⟩
            · rintro ⟨hlast, hfront, hend, hzero, hback⟩
              exact ⟨⟨⟨hlast, rfl, hfront, hend⟩, hzero⟩, hback⟩
          rw [chainFragIntoDatagramAndValidate, hchain, Option.bind_eq_bind, Option.bind_some]
          dsimp only
          split_ifs with hc
          · exact .inr ⟨hcomplete.1 hc, rfl⟩
          · exact .inl ⟨fun h => hc (hcomplete.2 h), rfl⟩

theorem Complete.length (hipr : ipr.p ≠ []) (hp : ipr.p = before ++ after) :
    1 < (before ++ f.helper :: after).length := by
  have hpos := List.length_pos_iff.2 hipr
  rw [hp, List.length_append] at hpos
  rw [List.length_append, List.length_cons]
  omega

/-! ### The bytes of the fragments -/

structure PieceOf (payload : List UInt8) (q : Helper) : Prop where
  lt : q.start < q.stop
  le : q.stop ≤ payload.length
  data : q.data = stretch payload q.start q.stop
  totLen : ipHlen ≤ q.totLen

theorem flatMap_data {payload : List UInt8} {q : Helper} {rest : List Helper}
    (hchain : (q :: rest).IsChain Joins) (hp : ∀ a ∈ q :: rest, PieceOf payload a) :
    q.start < (rest.getLast?.getD q).stop ∧
      (q :: rest).flatMap Helper.data =
        stretch payload q.start (rest.getLast?.getD q).stop := by
  induction rest generalizing q with
  | nil =>
      have hq := hp q (List.mem_cons_self ..)
      exact ⟨hq.lt, by simp [hq.data]⟩
  | cons r rest ih =>
      have hq := hp q (List.mem_cons_self ..)
      obtain ⟨hjoin, hrest⟩ := List.isChain_cons_cons.1 hchain
      obtain ⟨hlt, hdata⟩ := ih hrest fun a ha => hp a (List.mem_cons_of_mem _ ha)
      rw [Joins] at hjoin
      have hlast : ((r :: rest).getLast?.getD q) = rest.getLast?.getD r := by
        simp [List.getLast?_cons]
      rw [hlast, List.flatMap_cons, hdata, hq.data, ← hjoin]
      have hq' := hq.lt
      exact ⟨by omega, stretch_append payload (by omega) (by omega)⟩

end Ip

end Matador
