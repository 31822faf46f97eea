import Mathlib.Data.List.Basic
import Mathlib.Data.List.Nodup

/-!
# Lists in order of first occurrence

A loop that looks at one element after another and appends those it has not seen
before ends with a list of all elements, each of them once, in the order in which
they occurred first.
-/

namespace FirstOccurrence

variable {α : Type*} [DecidableEq α]

def keepNew (l : List α) (a : α) : List α := if a ∈ l then l else l ++ [a]

theorem mem_keepNew {l : List α} {a b : α} : b ∈ keepNew l a ↔ b ∈ l ∨ b = a := by
  unfold keepNew
  split
  case isTrue hmem =>
      exact ⟨Or.inl, fun h => h.elim id fun heq => heq ▸ hmem⟩
  case isFalse => rw [List.mem_append, List.mem_singleton]

/-- The elements of `xs`, each once and in order of first occurrence. -/
structure Lists (xs l : List α) : Prop where
  mem : ∀ a, a ∈ l ↔ a ∈ xs
  nodup : l.Nodup
  order : l.Pairwise fun a b => xs.idxOf a < xs.idxOf b

theorem lists_nil : Lists ([] : List α) [] :=
  ⟨fun _ => Iff.rfl, List.nodup_nil, List.Pairwise.nil⟩

/-- One more element: positions of elements that occurred before stay the same. -/
theorem Lists.keepNew {xs l : List α} (h : Lists xs l) (a : α) :
    Lists (xs ++ [a]) (keepNew l a) := by
  have hidx : ∀ b ∈ l, (xs ++ [a]).idxOf b = xs.idxOf b :=
    fun b hb => List.idxOf_append_of_mem ((h.mem b).mp hb)
  have horder : l.Pairwise fun b c => (xs ++ [a]).idxOf b < (xs ++ [a]).idxOf c := by
    refine h.order.imp_of_mem fun {b c} hb hc hlt => ?_
    rw [hidx b hb, hidx c hc]
    exact hlt
  have hmem : ∀ b, b ∈ FirstOccurrence.keepNew l a ↔ b ∈ xs ++ [a] := by
    intro b
    rw [mem_keepNew, h.mem b, List.mem_append, List.mem_singleton]
  by_cases ha : a ∈ l
  · refine ⟨hmem, ?_, ?_⟩ <;> rw [FirstOccurrence.keepNew, if_pos ha]
    · exact h.nodup
    · exact horder
  · have hnew : a ∉ xs := fun hxs => ha ((h.mem a).mpr hxs)
    refine ⟨hmem, ?_, ?_⟩ <;> rw [FirstOccurrence.keepNew, if_neg ha]
    · exact List.nodup_append.mpr ⟨h.nodup, List.nodup_singleton a,
        fun b hb c hc heq => ha (List.mem_singleton.mp hc ▸ heq ▸ hb)⟩
    · rw [List.pairwise_append]
      refine ⟨horder, List.pairwise_singleton _ a, fun b hb c hc => ?_⟩
      obtain rfl := List.mem_singleton.mp hc
      rw [hidx b hb, List.idxOf_append_of_notMem hnew]
      exact Nat.lt_add_right _ (List.idxOf_lt_length_iff.mpr ((h.mem b).mp hb))

/-- A block of equal elements in front of a list that does not have them. -/
theorem Lists.block {xs ys l : List α} {a : α} (h : Lists ys l) (hne : xs ≠ [])
    (hxs : ∀ b ∈ xs, b = a) (ha : a ∉ ys) : Lists (xs ++ ys) (a :: l) := by
  have hmem : a ∈ xs := by
    obtain ⟨b, hb⟩ := List.exists_mem_of_ne_nil xs hne
    exact hxs b hb ▸ hb
  have hidx : ∀ b ∈ l, (xs ++ ys).idxOf b = xs.length + ys.idxOf b := by
    intro b hb
    have hb' : b ∈ ys := (h.mem b).mp hb
    rw [List.idxOf_append_of_notMem fun hxsb => ha (hxs b hxsb ▸ hb')]
  refine ⟨fun b => ?_, List.nodup_cons.mpr ⟨fun hal => ha ((h.mem a).mp hal), h.nodup⟩, ?_⟩
  · rw [List.mem_cons, List.mem_append, h.mem b]
    exact or_congr_left ⟨fun heq => heq ▸ hmem, hxs b⟩
  · refine List.pairwise_cons.mpr ⟨fun b hb => ?_, ?_⟩
    · rw [hidx b hb, List.idxOf_append_of_mem hmem]
      exact Nat.lt_add_right _ (List.idxOf_lt_length_iff.mpr hmem)
    · refine h.order.imp_of_mem fun {b c} hb hc hlt => ?_
      rw [hidx b hb, hidx c hc]
      exact Nat.add_lt_add_left hlt _

end FirstOccurrence
