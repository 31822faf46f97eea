import Mathlib.Data.Finset.Card
import Mathlib.Data.Finset.Range
import Mathlib.Order.Interval.Finset.Nat

/-!
# Tables of descriptors

A process names its open files by descriptors, and a new one always gets the
lowest number that is free. `lowestFree opened` is that number; everything below
it is open, so it lies above every initial segment of open descriptors, and it is
at most the number of open descriptors. `allocate limit opened` is the result of a
system call that opens a descriptor under a limit.
-/

namespace Descriptor

def lowestFree (opened : Finset ℕ) : ℕ :=
  ((List.range (opened.card + 1)).find? fun fd => fd ∉ opened).getD 0

theorem exists_free (opened : Finset ℕ) : ∃ fd ∈ List.range (opened.card + 1), fd ∉ opened := by
  by_contra hall
  simp only [List.mem_range, not_exists, not_and, not_not] at hall
  have hsub : Finset.range (opened.card + 1) ⊆ opened :=
    fun fd hfd => hall fd (Finset.mem_range.mp hfd)
  have hcard := Finset.card_le_card hsub
  rw [Finset.card_range] at hcard
  omega

theorem find?_lowestFree (opened : Finset ℕ) :
    (List.range (opened.card + 1)).find? (fun fd => fd ∉ opened) = some (lowestFree opened) := by
  obtain ⟨fd, hfd, hfree⟩ := exists_free opened
  have hsome : ((List.range (opened.card + 1)).find? fun fd => fd ∉ opened).isSome :=
    List.find?_isSome.mpr ⟨fd, hfd, by simpa using hfree⟩
  obtain ⟨k, hk⟩ := Option.isSome_iff_exists.mp hsome
  rw [lowestFree, hk, Option.getD_some]

theorem lowestFree_notMem (opened : Finset ℕ) : lowestFree opened ∉ opened := by
  simpa using List.find?_some (find?_lowestFree opened)

theorem mem_of_lt_lowestFree {opened : Finset ℕ} {fd : ℕ} (h : fd < lowestFree opened) :
    fd ∈ opened := by
  have hbefore := (List.find?_range_eq_some.mp (find?_lowestFree opened)).2.2 fd h
  simpa using hbefore

/-- A descriptor below which everything is open is below the lowest free one. -/
theorem lt_lowestFree {opened : Finset ℕ} {fd : ℕ} (h : ∀ k ≤ fd, k ∈ opened) :
    fd < lowestFree opened := by
  by_contra hle
  exact lowestFree_notMem opened (h _ (Nat.le_of_not_lt hle))

theorem mem_insert_of_le {opened : Finset ℕ} {fd : ℕ} (h : fd ≤ lowestFree opened) :
    fd ∈ insert (lowestFree opened) opened := by
  rcases h.eq_or_lt with rfl | hlt
  · exact Finset.mem_insert_self _ _
  · exact Finset.mem_insert_of_mem (mem_of_lt_lowestFree hlt)

/-- Open a descriptor: the lowest free one, or none when the limit is reached. -/
def allocate (limit : ℕ) (opened : Finset ℕ) : Option ℕ :=
  if lowestFree opened < limit then some (lowestFree opened) else none

theorem allocate_eq_some {limit fd : ℕ} {opened : Finset ℕ} :
    allocate limit opened = some fd ↔ lowestFree opened = fd ∧ fd < limit := by
  unfold allocate
  split_ifs with hlimit
  · constructor
    · rintro ⟨⟩
      exact ⟨rfl, hlimit⟩
    · rintro ⟨rfl, -⟩
      rfl
  · constructor
    · intro h
      cases h
    · rintro ⟨rfl, hlt⟩
      exact absurd hlt hlimit

end Descriptor
