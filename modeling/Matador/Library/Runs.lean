import Mathlib.Data.List.SplitBy
import Matador.Library.FirstOccurrence

/-!
# Runs of equal keys

A list is cut into its maximal runs of elements with equal keys. If the list is sorted by
the key, two runs never have the same one. Then a run is everything that the list has under
its key, and the keys of the runs are the keys of the list in order of first occurrence.
-/

namespace Runs

variable {α κ : Type*}

/-- The maximal runs of elements with equal keys. -/
def runs [DecidableEq κ] (key : α → κ) (l : List α) : List (List α) :=
  l.splitBy fun a b => key a = key b

/-- Runs with one key each, and no two with the same. -/
structure Apart (key : α → κ) (gs : List (List α)) : Prop where
  nonempty : [] ∉ gs
  constant : ∀ g ∈ gs, ∀ a ∈ g, ∀ b ∈ g, key a = key b
  distinct : gs.Pairwise fun g g' => ∀ a ∈ g, ∀ b ∈ g', key a ≠ key b

variable {key : α → κ} {l : List α}

theorem key_eq_of_mem_runs [DecidableEq κ] {g : List α} (hg : g ∈ runs key l) {a b : α} (ha : a ∈ g)
    (hb : b ∈ g) : key a = key b := by
  have hchain : g.IsChain fun a b => key a = key b :=
    (List.isChain_of_mem_splitBy hg).imp fun _ _ h => of_decide_eq_true h
  have : Trans (fun a b : α => key a = key b) (fun a b => key a = key b)
      (fun a b => key a = key b) := ⟨Eq.trans⟩
  have : Std.Symm fun a b : α => key a = key b := ⟨fun _ _ => Eq.symm⟩
  exact List.Pairwise.forall_of_forall (R := fun a b => key a = key b) (fun _ _ => rfl)
    hchain.pairwise ha hb

/-- In a sorted list, neighbouring runs are the only ones that could have the same key. -/
theorem distinct_of_sorted {r : κ → κ → Prop} (hr : ∀ x y, r x y → r y x → x = y)
    {gs : List (List α)} (hconstant : ∀ g ∈ gs, ∀ a ∈ g, ∀ b ∈ g, key a = key b)
    (hchain : gs.IsChain fun g g' => ∃ hg hg', key (g.getLast hg) ≠ key (g'.head hg'))
    (hsorted : gs.flatten.Pairwise fun a b => r (key a) (key b)) :
    gs.Pairwise fun g g' => ∀ a ∈ g, ∀ b ∈ g', key a ≠ key b := by
  induction gs with
  | nil => exact List.Pairwise.nil
  | cons g gs ih =>
      rw [List.flatten_cons, List.pairwise_append] at hsorted
      rw [List.forall_mem_cons] at hconstant
      refine List.pairwise_cons.mpr ⟨?_, ih hconstant.2 hchain.tail hsorted.2.1⟩
      intro g' hg' a ha b hb heq
      cases gs with
      | nil => cases hg'
      | cons g₂ gs =>
          obtain ⟨⟨hne, hne₂, hborder⟩, -⟩ := List.isChain_cons_cons.mp hchain
          have hlast : key a = key (g.getLast hne) :=
            hconstant.1 a ha _ (List.getLast_mem hne)
          obtain ⟨c, rest, rfl⟩ := List.exists_cons_of_ne_nil hne₂
          rw [List.head_cons] at hborder
          -- The key of `b` is on both sides of the key of `c`, unless `b` is `c`.
          have hac := hsorted.2.2 a ha c (by simp)
          have hflat : b ∈ c :: (rest ++ gs.flatten) := by
            have := List.mem_flatten_of_mem hg' hb
            simpa using this
          rcases List.mem_cons.mp hflat with rfl | hrest
          · exact hborder (hlast ▸ heq)
          · have hcb : r (key c) (key b) := by
              have hpair := hsorted.2.1
              rw [List.flatten_cons, List.cons_append, List.pairwise_cons] at hpair
              exact hpair.1 b hrest
            exact hborder (hlast ▸ hr _ _ hac (heq ▸ hcb))

theorem apart_runs [DecidableEq κ] {r : κ → κ → Prop} (hr : ∀ x y, r x y → r y x → x = y)
    (hsorted : l.Pairwise fun a b => r (key a) (key b)) : Apart key (runs key l) where
  nonempty := List.nil_notMem_splitBy _ l
  constant _ hg _ ha _ hb := key_eq_of_mem_runs hg ha hb
  distinct := by
    refine distinct_of_sorted hr (fun _ hg _ ha _ hb => key_eq_of_mem_runs hg ha hb) ?_ ?_
    · refine (List.isChain_getLast_head_splitBy _ l).imp ?_
      rintro g g' ⟨hg, hg', hborder⟩
      exact ⟨hg, hg', of_decide_eq_false hborder⟩
    · rw [runs, List.flatten_splitBy]
      exact hsorted

namespace Apart

variable {gs : List (List α)}

theorem of_cons {g : List α} (h : Apart key (g :: gs)) : Apart key gs where
  nonempty hnil := h.nonempty (List.mem_cons_of_mem g hnil)
  constant g' hg' := h.constant g' (List.mem_cons_of_mem g hg')
  distinct := h.distinct.of_cons

theorem filter_eq [DecidableEq κ] (h : Apart key gs) {g : List α} (hg : g ∈ gs) {a : α}
    (ha : a ∈ g) :
    gs.flatten.filter (fun b => key b = key a) = g := by
  obtain ⟨front, back, rfl⟩ := List.append_of_mem hg
  obtain ⟨-, hback, hfront⟩ := List.pairwise_append.mp h.distinct
  have hself : g.filter (fun b => key b = key a) = g :=
    List.filter_eq_self.mpr fun b hb => decide_eq_true (h.constant g hg b hb a ha)
  have hbefore : front.flatten.filter (fun b => key b = key a) = [] := by
    refine List.filter_eq_nil_iff.mpr fun b hb => ?_
    obtain ⟨g', hg', hb⟩ := List.mem_flatten.mp hb
    rw [decide_eq_true_iff]
    exact hfront g' hg' g List.mem_cons_self b hb a ha
  have hbehind : back.flatten.filter (fun b => key b = key a) = [] := by
    refine List.filter_eq_nil_iff.mpr fun b hb => ?_
    obtain ⟨g', hg', hb⟩ := List.mem_flatten.mp hb
    rw [decide_eq_true_iff]
    exact fun heq => (List.pairwise_cons.mp hback).1 g' hg' a ha b hb heq.symm
  rw [List.flatten_append, List.flatten_cons, List.filter_append, List.filter_append, hself,
    hbefore, hbehind, List.nil_append, List.append_nil]

/-- The keys of the runs are those of the list, in order of first occurrence. -/
theorem lists_keys [DecidableEq κ] (h : Apart key gs) :
    ∃ keys, gs.map (fun g => g.head?.map key) = keys.map some ∧
      FirstOccurrence.Lists (gs.flatten.map key) keys := by
  induction gs with
  | nil => exact ⟨[], rfl, FirstOccurrence.lists_nil⟩
  | cons g gs ih =>
      obtain ⟨keys, hkeys, hlists⟩ := ih h.of_cons
      have hne : g ≠ [] := fun hnil => h.nonempty (hnil ▸ List.mem_cons_self)
      obtain ⟨a, rest, rfl⟩ := List.exists_cons_of_ne_nil hne
      refine ⟨key a :: keys, by rw [List.map_cons, List.map_cons, hkeys]; rfl, ?_⟩
      rw [List.flatten_cons, List.map_append]
      refine hlists.block (by simp) ?_ ?_
      · simp only [List.mem_map, forall_exists_index, and_imp]
        rintro _ b hb rfl
        exact h.constant _ List.mem_cons_self b hb a List.mem_cons_self
      · simp only [List.mem_map, List.mem_flatten, not_exists, not_and, forall_exists_index,
          and_imp]
        intro b g' hg' hb heq
        exact (List.pairwise_cons.mp h.distinct).1 g' hg' a List.mem_cons_self b hb heq.symm

end Apart

end Runs
