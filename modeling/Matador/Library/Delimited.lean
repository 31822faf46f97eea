import Mathlib.Data.List.Basic

/-!
# Names made of delimited fields

A file name that is glued together from several fields can be taken apart again
if the delimiter occurs in none of the fields. `fieldsThen c fields rest` is the
text in which every field is followed by the delimiter `c`, and after the fields
comes an arbitrary rest; two such texts with the same number of fields are equal
only if the fields and the rests are. A number that is padded with zeros is a
field of its own: it can be read back and has digits only.
-/

namespace Delimited

variable {α : Type*}

/-- The fields, each followed by the delimiter `c`, and then the rest. -/
def fieldsThen (c : α) : List (List α) → List α → List α
  | [], rest => rest
  | field :: fields, rest => field ++ c :: fieldsThen c fields rest

/-- The text up to the first delimiter is determined. -/
theorem append_cons_inj {c : α} {x y r t : List α} (hx : c ∉ x) (hy : c ∉ y)
    (h : x ++ c :: r = y ++ c :: t) : x = y ∧ r = t := by
  induction x generalizing y with
  | nil =>
      cases y with
      | nil => exact ⟨rfl, (List.cons.inj h).2⟩
      | cons b y => exact absurd ((List.cons.inj h).1 ▸ List.mem_cons_self) hy
  | cons a x ih =>
      cases y with
      | nil => exact absurd ((List.cons.inj h).1 ▸ List.mem_cons_self) hx
      | cons b y =>
          obtain ⟨rfl, htail⟩ := List.cons.inj h
          obtain ⟨rfl, hrest⟩ := ih (fun hc => hx (List.mem_cons_of_mem _ hc))
            (fun hc => hy (List.mem_cons_of_mem _ hc)) htail
          exact ⟨rfl, hrest⟩

theorem fieldsThen_inj {c : α} {fields others : List (List α)} {r t : List α}
    (hfields : ∀ field ∈ fields, c ∉ field) (hothers : ∀ field ∈ others, c ∉ field)
    (hlen : fields.length = others.length)
    (h : fieldsThen c fields r = fieldsThen c others t) : fields = others ∧ r = t := by
  induction fields generalizing others with
  | nil =>
      obtain rfl := List.length_eq_zero_iff.mp hlen.symm
      exact ⟨rfl, h⟩
  | cons field fields ih =>
      cases others with
      | nil => cases hlen
      | cons other others =>
          rw [List.forall_mem_cons] at hfields hothers
          obtain ⟨rfl, hrest⟩ := append_cons_inj hfields.1 hothers.1 h
          obtain ⟨rfl, hr⟩ := ih hfields.2 hothers.2 (Nat.succ.inj hlen) hrest
          exact ⟨rfl, hr⟩

/-! ## Padded numbers -/

/-- A number can be read back whatever zeros stand before it. -/
theorem padded_inj {n m k l : ℕ}
    (h : List.replicate n '0' ++ Nat.toDigits 10 k = List.replicate m '0' ++ Nat.toDigits 10 l) :
    k = l := by
  have hread : ∀ n k, Nat.ofDigitChars 10 (List.replicate n '0' ++ Nat.toDigits 10 k) 0 = k := by
    intro n k
    rw [Nat.ofDigitChars_append, Nat.ofDigitChars_replicate_zero, Nat.mul_zero,
      Nat.ofDigitChars_ten_toDigits]
  rw [← hread n k, h, hread m l]

theorem notMem_padded {c : Char} (hc : c.isDigit = false) (n k : ℕ) :
    c ∉ List.replicate n '0' ++ Nat.toDigits 10 k := by
  rw [List.mem_append]
  rintro (hzero | hdigit)
  · rw [(List.mem_replicate.mp hzero).2] at hc
    cases hc
  · rw [Nat.isDigit_of_mem_toDigits (by decide) (by decide) hdigit] at hc
    cases hc

def zfill (width : ℕ) (s : String) : String :=
  String.ofList (List.replicate (width - s.toList.length) '0' ++ s.toList)

theorem toList_zfill_repr (width k : ℕ) :
    (zfill width (toString k)).toList =
      List.replicate (width - (Nat.toDigits 10 k).length) '0' ++ Nat.toDigits 10 k := by
  simp [zfill, Nat.toString_eq_repr]

theorem zfill_repr_inj {width k l : ℕ}
    (h : (zfill width (toString k)).toList = (zfill width (toString l)).toList) : k = l := by
  rw [toList_zfill_repr, toList_zfill_repr] at h
  exact padded_inj h

theorem notMem_zfill_repr {c : Char} (hc : c.isDigit = false) (width k : ℕ) :
    c ∉ (zfill width (toString k)).toList := by
  rw [toList_zfill_repr]
  exact notMem_padded hc _ k

theorem toList_toString (k : ℕ) :
    (toString k).toList = List.replicate 0 '0' ++ Nat.toDigits 10 k := by
  simp [Nat.toString_eq_repr]

theorem notMem_toString {c : Char} (hc : c.isDigit = false) (k : ℕ) :
    c ∉ (toString k).toList := by
  rw [toList_toString]
  exact notMem_padded hc 0 k

end Delimited
