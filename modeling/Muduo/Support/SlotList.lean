import Mathlib.Data.List.Nodup
import Mathlib.Data.List.Perm.Basic

/-!
# Removal from a slot list

An unordered list whose members know their position drops a member by moving the
last one into its slot.
-/
namespace Muduo.Support

variable {α β : Type*}

/-- Put the last element into `slot` and drop the last place. -/
def swapRemove (xs : List α) (slot : Nat) : List α :=
  match xs.getLast? with
  | none => []
  | some last => (xs.set slot last).dropLast

theorem swapRemove_map (f : α → β) (xs : List α) (slot : Nat) :
    (swapRemove xs slot).map f = swapRemove (xs.map f) slot := by
  unfold swapRemove
  rw [List.getLast?_map]
  cases xs.getLast? with
  | none => rfl
  | some last => simp [List.map_dropLast, List.map_set]

/-- Removing the last place moves nothing. -/
theorem swapRemove_last (xs : List α) (slot : Nat) (isLast : slot + 1 = xs.length) :
    swapRemove xs slot = xs.dropLast := by
  unfold swapRemove
  cases last : xs.getLast? with
  | none => simp [List.getLast?_eq_none_iff.mp last]
  | some x =>
    have unchanged : xs.set slot x = xs := by
      apply List.ext_getElem?
      intro i
      rw [List.getElem?_set]
      rw [List.getLast?_eq_getElem?] at last
      split
      · next same =>
        subst same
        rw [if_pos (by omega), ← last]
        congr 1
        omega
      · rfl
    simp only [unchanged]

theorem getElem?_swapRemove (xs : List α) (slot i : Nat) (inRange : slot < xs.length) :
    (swapRemove xs slot)[i]? =
      if i + 1 < xs.length then (if i = slot then xs.getLast? else xs[i]?) else none := by
  unfold swapRemove
  cases last : xs.getLast? with
  | none => simp [List.getLast?_eq_none_iff.mp last]
  | some x =>
    simp only [List.getElem?_dropLast, List.length_set, List.getElem?_set]
    by_cases h : i + 1 < xs.length
    · rw [if_pos (by omega), if_pos h]
      by_cases same : slot = i
      · rw [if_pos same, if_pos same.symm, if_pos (by omega)]
      · rw [if_neg same, if_neg (Ne.symm same)]
    · rw [if_neg (by omega), if_neg h]

theorem getLast?_set_last (xs : List α) (slot : Nat) {last : α}
    (isLast : xs.getLast? = some last) : (xs.set slot last).getLast? = some last := by
  rw [List.getLast?_eq_getElem?] at isLast ⊢
  rw [List.length_set, List.getElem?_set]
  split
  · next same =>
    have inRange : slot < xs.length := by
      obtain ⟨bound, _⟩ := List.getElem?_eq_some_iff.mp isLast
      omega
    exact if_pos inRange
  · exact isLast

/-- The removed slot's element leaves, all others stay. -/
theorem swapRemove_perm (xs : List α) (slot : Nat) (x : α) (present : xs[slot]? = some x) :
    (x :: swapRemove xs slot).Perm xs := by
  obtain ⟨inRange, rfl⟩ := List.getElem?_eq_some_iff.mp present
  obtain ⟨last, isLast⟩ : ∃ last, xs.getLast? = some last := by
    cases found : xs.getLast? with
    | none => simp [List.getLast?_eq_none_iff.mp found] at inRange
    | some last => exact ⟨last, rfl⟩
  have shape : swapRemove xs slot = (xs.set slot last).dropLast := by simp [swapRemove, isLast]
  have whole : (xs.set slot last).dropLast ++ [last] = xs.set slot last :=
    List.dropLast_append_getLast? last (getLast?_set_last xs slot isLast)
  have moved : (last :: swapRemove xs slot).Perm (last :: xs.eraseIdx slot) := by
    rw [shape]
    refine (List.perm_append_singleton last _).symm.trans ?_
    rw [whole]
    exact List.set_perm_cons_eraseIdx inRange last
  exact ((List.perm_cons last).mp moved).cons _ |>.trans (List.getElem_cons_eraseIdx_perm inRange)

end Muduo.Support
