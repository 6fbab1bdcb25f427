import Mathlib.Init

/-!
# Bit masks

Setting or clearing one mask, seen through the same mask or through a disjoint one.
-/
namespace Muduo.Support

variable {w : Nat} (e k m : BitVec w)

theorem or_and_self : (e ||| m) &&& m = m := by
  ext i
  simp only [BitVec.getElem_or, BitVec.getElem_and]
  cases m[i] <;> simp

theorem and_not_and_self : (e &&& ~~~m) &&& m = 0 := by
  ext i
  simp only [BitVec.getElem_and, BitVec.getElem_not]
  cases m[i] <;> simp

variable {k m}

theorem or_and_disjoint (disjoint : k &&& m = 0) : (e ||| k) &&& m = e &&& m := by
  rw [BitVec.and_or_distrib_right, disjoint]
  simp

theorem and_not_and_disjoint (disjoint : k &&& m = 0) : (e &&& ~~~k) &&& m = e &&& m := by
  have absorbed : ~~~k &&& m = m := by
    ext i
    have bit := congrArg (fun v : BitVec w => v[i]) disjoint
    simp only [BitVec.getElem_and] at bit
    simp only [BitVec.getElem_and, BitVec.getElem_not]
    revert bit
    cases k[i] <;> cases m[i] <;> simp
  rw [BitVec.and_assoc, absorbed]

end Muduo.Support
