import Mathlib.Data.List.Basic

/-!
# Flat memory as a list of cells

A block of storage is a list; `xs.extract first last` reads the cells
`[first, last)`, `overwrite` stores a run of cells at a position and `resize`
changes the number of cells, keeping the ones that remain. The lemmas say what
a later read sees of an earlier store: exactly the stored run inside it, the old
cells outside it.
-/
namespace Muduo.Support

variable {α : Type*}

/-- Store `ys` at position `pos`; the caller keeps `pos + ys.length` in range. -/
def overwrite (xs : List α) (pos : Nat) (ys : List α) : List α :=
  xs.take pos ++ ys ++ xs.drop (pos + ys.length)

/-- Keep the first `n` cells, or fill up with `fill` to reach `n` cells. -/
def resize (xs : List α) (n : Nat) (fill : α) : List α :=
  xs.take n ++ List.replicate (n - xs.length) fill

theorem getElem?_extract (xs : List α) (first last i : Nat) :
    (xs.extract first last)[i]? = if first + i < last then xs[first + i]? else none := by
  rw [List.extract_eq_take_drop, List.getElem?_take, List.getElem?_drop]
  by_cases h : first + i < last
  · rw [if_pos h, if_pos (by omega)]
  · rw [if_neg h, if_neg (by omega)]

theorem length_extract (xs : List α) (first last : Nat) (hl : last ≤ xs.length) :
    (xs.extract first last).length = last - first := by
  simp only [List.extract_eq_take_drop, List.length_take, List.length_drop]
  omega

@[simp] theorem extract_self (xs : List α) (i : Nat) : xs.extract i i = [] := by
  simp [List.extract_eq_take_drop]

/-- Two reads that meet make one read. -/
theorem extract_append_extract (xs : List α) (first mid last : Nat)
    (h₁ : first ≤ mid) (h₂ : mid ≤ last) (hl : last ≤ xs.length) :
    xs.extract first mid ++ xs.extract mid last = xs.extract first last := by
  apply List.ext_getElem?
  intro i
  have hm := length_extract xs first mid (by omega)
  by_cases h : i < mid - first
  · rw [List.getElem?_append_left (by omega), getElem?_extract, getElem?_extract,
      if_pos (by omega), if_pos (by omega)]
  · rw [List.getElem?_append_right (by omega), hm, getElem?_extract, getElem?_extract]
    rw [show mid + (i - (mid - first)) = first + i by omega]

theorem take_extract (xs : List α) (first last k : Nat) (hk : first + k ≤ last) :
    (xs.extract first last).take k = xs.extract first (first + k) := by
  simp only [List.extract_eq_take_drop, List.take_take]
  congr 1
  omega

theorem drop_extract (xs : List α) (first last k : Nat) :
    (xs.extract first last).drop k = xs.extract (first + k) last := by
  simp only [List.extract_eq_take_drop, List.drop_take, List.drop_drop]
  congr 1
  omega

theorem length_overwrite (xs : List α) (pos : Nat) (ys : List α)
    (h : pos + ys.length ≤ xs.length) : (overwrite xs pos ys).length = xs.length := by
  simp only [overwrite, List.length_append, List.length_take, List.length_drop]
  omega

theorem getElem?_overwrite (xs : List α) (pos : Nat) (ys : List α) (i : Nat)
    (h : pos + ys.length ≤ xs.length) :
    (overwrite xs pos ys)[i]? =
      if pos ≤ i ∧ i < pos + ys.length then ys[i - pos]? else xs[i]? := by
  have ht : (xs.take pos).length = pos := by simp; omega
  simp only [overwrite, List.append_assoc]
  by_cases h₁ : i < pos
  · rw [List.getElem?_append_left (by omega), List.getElem?_take, if_pos h₁, if_neg (by omega)]
  · rw [List.getElem?_append_right (by omega), ht]
    by_cases h₂ : i < pos + ys.length
    · rw [List.getElem?_append_left (by omega), if_pos (by omega)]
    · rw [List.getElem?_append_right (by omega), List.getElem?_drop, if_neg (by omega)]
      congr 1
      omega

/-- A read of exactly the stored run returns it. -/
theorem extract_overwrite_same (xs : List α) (pos : Nat) (ys : List α)
    (h : pos + ys.length ≤ xs.length) :
    (overwrite xs pos ys).extract pos (pos + ys.length) = ys := by
  apply List.ext_getElem?
  intro i
  rw [getElem?_extract]
  by_cases hi : pos + i < pos + ys.length
  · rw [if_pos hi, getElem?_overwrite xs pos ys _ h, if_pos ⟨by omega, hi⟩]
    congr 1
    omega
  · rw [if_neg hi, List.getElem?_eq_none (by omega)]

/-- A read that misses the stored run sees the old cells. -/
theorem extract_overwrite_disjoint (xs : List α) (pos : Nat) (ys : List α)
    (first last : Nat) (h : pos + ys.length ≤ xs.length)
    (hd : last ≤ pos ∨ pos + ys.length ≤ first) :
    (overwrite xs pos ys).extract first last = xs.extract first last := by
  apply List.ext_getElem?
  intro i
  rw [getElem?_extract, getElem?_extract]
  split
  · rw [getElem?_overwrite xs pos ys _ h, if_neg (by omega)]
  · rfl

theorem length_resize (xs : List α) (n : Nat) (fill : α) : (resize xs n fill).length = n := by
  simp only [resize, List.length_append, List.length_take, List.length_replicate]
  omega

/-- Growing or shrinking beyond a read does not change what it sees. -/
theorem extract_resize (xs : List α) (n : Nat) (fill : α) (first last : Nat)
    (hl : last ≤ xs.length) (hn : last ≤ n) :
    (resize xs n fill).extract first last = xs.extract first last := by
  apply List.ext_getElem?
  intro i
  rw [getElem?_extract, getElem?_extract]
  split
  · rw [resize, List.getElem?_append_left (by simp; omega), List.getElem?_take, if_pos (by omega)]
  · rfl

end Muduo.Support
