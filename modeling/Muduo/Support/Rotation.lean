import Mathlib.Data.Int.CardIntervalMod
import Mathlib.Data.List.Nodup

/-!
# Taking turns

A rotation goes through a list of items in order and starts again at its end. `turns items k`
lists its first `k` choices; its cursor stands at `k % items.length`.
-/
namespace Muduo.Support

variable {α : Type*} {items : List α} {x y : α} {i k : Nat}

/-- The first `k` choices. -/
def turns (items : List α) (k : Nat) : List α :=
  (List.range k).filterMap fun i => items[i % items.length]?

theorem turns_succ (items : List α) (k : Nat) :
    turns items (k + 1) = turns items k ++ items[k % items.length]?.toList := by
  rw [turns, List.range_succ, List.filterMap_append]
  cases h : items[k % items.length]? <;> simp [turns, h]

/-- The cursor after a choice. -/
theorem turn_succ (nonempty : 0 < items.length) (k : Nat) :
    (k + 1) % items.length =
      if k % items.length + 1 < items.length then k % items.length + 1 else 0 := by
  have below := Nat.mod_lt k nonempty
  rw [← Nat.mod_add_mod]
  split
  · next inside => exact Nat.mod_eq_of_lt inside
  · next last =>
    have full : k % items.length + 1 = items.length := by omega
    rw [full, Nat.mod_self]

theorem mem_of_mem_turns (member : x ∈ turns items k) : x ∈ items := by
  obtain ⟨_, _, chosen⟩ := List.mem_filterMap.mp member
  exact List.mem_of_getElem? chosen

theorem length_turns (nonempty : 0 < items.length) (k : Nat) : (turns items k).length = k := by
  induction k with
  | zero => rfl
  | succ k ih => simp [turns_succ, ih, List.getElem?_eq_getElem (Nat.mod_lt k nonempty)]

theorem getElem?_turns (nonempty : 0 < items.length) (early : i < k) :
    (turns items k)[i]? = items[i % items.length]? := by
  induction k with
  | zero => omega
  | succ k ih =>
    have length := length_turns nonempty k
    rw [turns_succ]
    rcases Nat.lt_succ_iff_lt_or_eq.mp early with before | rfl
    · rw [List.getElem?_append_left (by omega), ih before]
    · rw [List.getElem?_append_right (by omega), length, Nat.sub_self]
      simp [List.getElem?_eq_getElem (Nat.mod_lt i nonempty)]

variable [DecidableEq α]

/-- How often an item was chosen. -/
theorem count_turns (nodup : items.Nodup) (present : items[i]? = some x) (k : Nat) :
    (turns items k).count x =
      k / items.length + if i < k % items.length then 1 else 0 := by
  obtain ⟨inside, at_i⟩ := List.getElem?_eq_some_iff.mp present
  have nonempty : 0 < items.length := by omega
  have counted : (turns items k).count x = Nat.count (· ≡ i [MOD items.length]) k := by
    induction k with
    | zero => rfl
    | succ k ih =>
      have below := Nat.mod_lt k nonempty
      have chosen : items[k % items.length] = x ↔ k ≡ i [MOD items.length] := by
        rw [← at_i, nodup.getElem_inj_iff, Nat.ModEq, Nat.mod_eq_of_lt inside]
      rw [turns_succ, List.count_append, ih, Nat.count_succ, List.getElem?_eq_getElem below]
      simp [List.count_singleton, chosen]
  rw [counted, Nat.count_modEq_card _ nonempty, Nat.mod_eq_of_lt inside]

/-- No item is more than one choice ahead of another. -/
theorem turns_fair (nodup : items.Nodup) (first : x ∈ items) (second : y ∈ items) (k : Nat) :
    (turns items k).count x ≤ (turns items k).count y + 1 := by
  obtain ⟨i, at_i⟩ := List.mem_iff_getElem?.mp first
  obtain ⟨j, at_j⟩ := List.mem_iff_getElem?.mp second
  rw [count_turns nodup at_i, count_turns nodup at_j]
  split <;> split <;> omega

end Muduo.Support
