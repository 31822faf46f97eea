import Mathlib.Data.List.TakeDrop
import Mathlib.Data.Nat.Cast.Order.Ring
import Mathlib.Tactic.Common

/-!
# Sequence numbers

Positions of a stream are natural numbers, and what is sent of a position is its value
modulo `2 ^ 32`. Two sequence numbers are compared by their difference as a signed number,
which is the difference of the positions as long as these are less than `2 ^ 31` apart. A
stretch of a stream is what lies between two positions.
-/

namespace Serial

/-- The difference of two sequence numbers as a signed number. -/
def diff (a b : UInt32) : ℤ := (a - b).toBitVec.toInt

theorem toNat_sub_ofNat (p q : ℕ) :
    (UInt32.ofNat p - UInt32.ofNat q).toNat = (2 ^ 32 - q % 2 ^ 32 + p % 2 ^ 32) % 2 ^ 32 := by
  rw [UInt32.toNat_sub, UInt32.toNat_ofNat', UInt32.toNat_ofNat']

/-- The distance between two positions, read off their sequence numbers. -/
theorem toNat_sub_of_le {p q : ℕ} (h : q ≤ p) (h' : p < q + 2 ^ 32) :
    (UInt32.ofNat p - UInt32.ofNat q).toNat = p - q := by
  rw [toNat_sub_ofNat]
  omega

/-- Positions less than `2 ^ 31` apart are compared by their sequence numbers. -/
theorem diff_ofNat {p q : ℕ} (h : p < q + 2 ^ 31) (h' : q ≤ p + 2 ^ 31) :
    diff (UInt32.ofNat p) (UInt32.ofNat q) = (p : ℤ) - q := by
  rw [diff, BitVec.toInt_eq_toNat_cond]
  change (if 2 * (UInt32.ofNat p - UInt32.ofNat q).toNat < 2 ^ 32
    then ((UInt32.ofNat p - UInt32.ofNat q).toNat : ℤ)
    else (UInt32.ofNat p - UInt32.ofNat q).toNat - ((2 ^ 32 : ℕ) : ℤ)) = _
  rw [toNat_sub_ofNat]
  split_ifs <;> omega

/-- Positions less than `2 ^ 32` apart with one sequence number are the same. -/
theorem ofNat_inj {p q : ℕ} (h : p < q + 2 ^ 32) (h' : q < p + 2 ^ 32) :
    UInt32.ofNat p = UInt32.ofNat q ↔ p = q := by
  constructor
  · intro heq
    have hmod := congrArg UInt32.toNat heq
    rw [UInt32.toNat_ofNat', UInt32.toNat_ofNat'] at hmod
    omega
  · exact congrArg UInt32.ofNat

theorem ofNat_sub_one {p : ℕ} (h : 0 < p) : UInt32.ofNat p - 1 = UInt32.ofNat (p - 1) := by
  have hone : (1 : UInt32) = UInt32.ofNat 1 := rfl
  rw [hone]
  apply UInt32.toNat_inj.1
  rw [toNat_sub_ofNat, UInt32.toNat_ofNat']
  omega

section

variable {α : Type*}

def stretch (l : List α) (a b : ℕ) : List α := (l.drop a).take (b - a)

@[simp] theorem stretch_self (l : List α) (a : ℕ) : stretch l a a = [] := by
  simp [stretch]

theorem stretch_append (l : List α) {a b c : ℕ} (hab : a ≤ b) (hbc : b ≤ c) :
    stretch l a b ++ stretch l b c = stretch l a c := by
  have hsplit : c - a = b - a + (c - b) := by omega
  have hb : a + (b - a) = b := by omega
  rw [stretch, stretch, stretch, hsplit, List.take_add, List.drop_drop, hb]

theorem take_append_stretch (l : List α) {a b : ℕ} (hab : a ≤ b) :
    l.take a ++ stretch l a b = l.take b := by
  have h := stretch_append l (Nat.zero_le a) hab
  simpa [stretch] using h

end

end Serial
