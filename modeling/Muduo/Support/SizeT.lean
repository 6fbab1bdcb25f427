import Mathlib.Algebra.Group.Nat.Defs
import Mathlib.Data.Nat.Basic

/-!
# `size_t` arithmetic

A `size_t` is a natural number below `2 ^ 64`; sums and differences are taken
modulo `2 ^ 64`. The equations give the exact result when nothing wraps, and the result
of one wrap.
-/
namespace Muduo.Support

/-- Number of values of a 64-bit `size_t`. -/
def sizeModulus : Nat := 2 ^ 64

def sizeAdd (a b : Nat) : Nat := (a + b) % sizeModulus

def sizeSub (a b : Nat) : Nat := (a + (sizeModulus - b)) % sizeModulus

theorem sizeAdd_eq {a b : Nat} (h : a + b < sizeModulus) : sizeAdd a b = a + b :=
  Nat.mod_eq_of_lt h

theorem sizeSub_eq {a b : Nat} (hle : b ≤ a) (ha : a < sizeModulus) : sizeSub a b = a - b := by
  have hsum : a + (sizeModulus - b) = sizeModulus + (a - b) := by omega
  rw [sizeSub, hsum, Nat.add_mod_left, Nat.mod_eq_of_lt (by omega)]

theorem sizeAdd_lt (a b : Nat) : sizeAdd a b < sizeModulus := Nat.mod_lt _ (by decide)

theorem sizeAdd_wrapped {a b : Nat} (ha : a < sizeModulus) (hb : b < sizeModulus)
    (beyond : sizeModulus ≤ a + b) : sizeAdd a b = a + b - sizeModulus := by
  rw [sizeAdd, Nat.mod_eq_sub_mod beyond, Nat.mod_eq_of_lt (by omega)]

theorem sizeSub_wrapped {a b : Nat} (less : a < b) (hb : b ≤ sizeModulus) :
    sizeSub a b = a + (sizeModulus - b) :=
  Nat.mod_eq_of_lt (by omega)

end Muduo.Support
