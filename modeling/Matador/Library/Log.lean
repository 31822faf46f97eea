import Mathlib.Data.List.Forall2
import Mathlib.Tactic.Common
import Mathlib.Tactic.TypeStar

/-!
# The most recent entry of a log

A log is a list with the newest entry in front. `MostRecent P log since c` says
that `c` is the newest entry with the property `P` and that `since` are the
entries added after it. A relation that holds between every entry and the older
ones tells two entries of the log apart by their positions.
-/

namespace Log

variable {α : Type*}

/-- `c` is the newest entry of the log with the property `P`, and `since` are the
entries added after it. -/
def MostRecent (P : α → Prop) (log since : List α) (c : α) : Prop :=
  (∃ older, log = since ++ c :: older) ∧ P c ∧ ∀ d ∈ since, ¬ P d

theorem mostRecent_head {P : α → Prop} {c : α} (log : List α) (h : P c) :
    MostRecent P (c :: log) [] c :=
  ⟨⟨log, rfl⟩, h, by simp⟩

theorem MostRecent.cons {P : α → Prop} {log since : List α} {c d : α}
    (h : MostRecent P log since c) (hd : ¬ P d) : MostRecent P (d :: log) (d :: since) c := by
  obtain ⟨⟨older, rfl⟩, hc, hsince⟩ := h
  refine ⟨⟨older, rfl⟩, hc, ?_⟩
  intro e he
  rcases List.mem_cons.mp he with rfl | he
  · exact hd
  · exact hsince e he

/-- The newest entry with a property is the newest one with a stronger property
that it has. -/
theorem MostRecent.strengthen {P Q : α → Prop} {log since : List α} {c : α}
    (h : MostRecent P log since c) (hQP : ∀ d, Q d → P d) (hc : Q c) :
    MostRecent Q log since c :=
  ⟨h.1, hc, fun d hd hQ => h.2.2 d hd (hQP d hQ)⟩

theorem exists_mostRecent {P : α → Prop} {log : List α} (h : ∃ c ∈ log, P c) :
    ∃ since c, MostRecent P log since c := by
  induction log with
  | nil => simp at h
  | cons d log ih =>
      by_cases hd : P d
      · exact ⟨[], d, mostRecent_head log hd⟩
      · obtain ⟨c, hc, hP⟩ := h
        have hmem : c ∈ log := (List.mem_cons.mp hc).resolve_left (by rintro rfl; exact hd hP)
        obtain ⟨since, c', hrecent⟩ := ih ⟨c, hmem, hP⟩
        exact ⟨d :: since, c', hrecent.cons hd⟩

/-- Two entries that a relation of the log does not separate are one entry. -/
theorem index_eq_of_pairwise {R : α → α → Prop} {log : List α} (h : log.Pairwise R) {k l : ℕ}
    {c d : α} (hk : log[k]? = some c) (hl : log[l]? = some d) (hcd : ¬ R c d) (hdc : ¬ R d c) :
    k = l := by
  rw [List.pairwise_iff_getElem] at h
  obtain ⟨hklt, rfl⟩ := List.getElem?_eq_some_iff.mp hk
  obtain ⟨hllt, rfl⟩ := List.getElem?_eq_some_iff.mp hl
  rcases Nat.lt_trichotomy k l with hlt | heq | hlt
  · exact absurd (h k l hklt hllt hlt) hcd
  · exact heq
  · exact absurd (h l k hllt hklt hlt) hdc

theorem pairwise_of_forall₂ {β : Type*} {R : α → α → Prop} {P : α → β → Prop}
    {S : β → β → Prop} {log : List α} {l : List β} (h : log.Pairwise R)
    (hl : List.Forall₂ P log l) (hS : ∀ {b a x y}, R b a → P b x → P a y → S x y) :
    l.Pairwise S := by
  rw [List.pairwise_iff_getElem] at h ⊢
  intro k m hk hm hkm
  have hlen := hl.length_eq
  have hk' : k < log.length := hlen ▸ hk
  have hm' : m < log.length := hlen ▸ hm
  exact hS (h k m hk' hm' hkm) (hl.get hk' hk) (hl.get hm' hm)

end Log
