import Mathlib.Data.List.Basic
import Mathlib.Tactic.Common

/-!
# Numbers of two bytes in network order

A number of 16 bits is written with its high byte first. Reading a number behind the
end of the bytes gives zeros.
-/

namespace Bytes

/-- The value of two bytes in network order. -/
def wordAt (bytes : List UInt8) (offset : ℕ) : ℕ :=
  256 * (bytes.getD offset 0).toNat + (bytes.getD (offset + 1) 0).toNat

def word (n : ℕ) : List UInt8 := [UInt8.ofNat (n / 256), UInt8.ofNat (n % 256)]

theorem wordAt_take {bytes : List UInt8} {offset count : ℕ} (h : offset + 2 ≤ count) :
    wordAt (bytes.take count) offset = wordAt bytes offset := by
  simp only [wordAt, List.getD_eq_getElem?_getD,
    List.getElem?_take_of_lt (by omega : offset < count),
    List.getElem?_take_of_lt (by omega : offset + 1 < count)]

theorem word_value {n : ℕ} (h : n < 65536) :
    256 * (UInt8.ofNat (n / 256)).toNat + (UInt8.ofNat (n % 256)).toNat = n := by
  rw [UInt8.toNat_ofNat', UInt8.toNat_ofNat']
  omega

end Bytes
