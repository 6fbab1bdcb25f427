import Mathlib.Data.List.Basic

/-!
# Precedence in a line

`Precedes p q xs` says that no element with `q` stands in front of one with `p`. A line
changes at its end, by the loss of elements, and where a part of it is replaced; the
rules say what each change asks for.
-/
namespace Muduo.Support

variable {α β : Type*} {p q : α → Prop} {xs ys before part after : List α}

/-- No element with `q` stands in front of one with `p`. -/
def Precedes (p q : α → Prop) (xs : List α) : Prop := xs.Pairwise fun x y => ¬ (q x ∧ p y)

theorem precedes_append : Precedes p q (xs ++ ys) ↔
    Precedes p q xs ∧ Precedes p q ys ∧ ((∃ x ∈ xs, q x) → ∀ y ∈ ys, ¬ p y) := by
  simp only [Precedes, List.pairwise_append, not_and]
  refine and_congr_right fun _ => and_congr_right fun _ => ⟨?_, ?_⟩
  · rintro apart ⟨x, first, holds⟩ y last
    exact apart x first y last holds
  · exact fun apart x first y last holds => apart ⟨x, first, holds⟩ y last

theorem precedes_of_absent (absent : ∀ x ∈ xs, ¬ q x) : Precedes p q xs :=
  List.pairwise_of_forall_mem_list fun x member _ _ both => absent x member both.1

/-- A line of equal elements. -/
theorem precedes_of_same {x : α} (different : ¬ (q x ∧ p x)) (same : ∀ y ∈ xs, y = x) :
    Precedes p q xs := by
  refine List.pairwise_of_forall_mem_list fun y first z last both => different ?_
  rwa [same y first, same z last] at both

theorem precedes_filterMap {f : β → Option α} {bs : List β} :
    Precedes p q (bs.filterMap f) ↔
      Precedes (fun b => ∃ x, f b = some x ∧ p x) (fun b => ∃ x, f b = some x ∧ q x) bs := by
  rw [Precedes, Precedes, List.pairwise_filterMap]
  refine List.Pairwise.iff fun b c => ⟨?_, ?_⟩
  · rintro apart ⟨⟨x, first, second⟩, y, last, holds⟩
    exact apart x first y last ⟨second, holds⟩
  · exact fun apart x first y last both => apart ⟨⟨x, first, both.1⟩, y, last, both.2⟩

/-- The line has a front without `q` and a back without `p`. -/
theorem Precedes.split (precedes : Precedes p q xs) (different : ∀ x, ¬ (q x ∧ p x)) :
    ∃ front back, xs = front ++ back ∧ (∀ x ∈ front, ¬ q x) ∧ ∀ x ∈ back, ¬ p x := by
  induction xs with
  | nil => exact ⟨[], [], rfl, by simp, by simp⟩
  | cons x xs ih =>
    obtain ⟨behind, rest⟩ := List.pairwise_cons.mp precedes
    by_cases second : q x
    · refine ⟨[], x :: xs, rfl, by simp, fun y member first => ?_⟩
      rcases List.mem_cons.mp member with rfl | later
      · exact different y ⟨second, first⟩
      · exact behind y later ⟨second, first⟩
    · obtain ⟨front, back, rfl, none, apart⟩ := ih rest
      exact ⟨x :: front, back, rfl, by simpa using ⟨second, none⟩, apart⟩

/-- Elements without `p` join at the end. -/
theorem Precedes.enqueue (precedes : Precedes p q xs) (absent : ∀ y ∈ ys, ¬ p y) :
    Precedes p q (xs ++ ys) := by
  refine precedes_append.mpr ⟨precedes, ?_, fun _ => absent⟩
  exact List.pairwise_of_forall_mem_list fun _ _ y member both => absent y member both.2

/-- A part is replaced by one that brings no new kind of element before or behind others. -/
theorem Precedes.replace (precedes : Precedes p q (before ++ part ++ after))
    (own : Precedes p q ys)
    (first : (∃ y ∈ ys, p y) → (∃ x ∈ part, p x) ∨ ∀ x ∈ before, ¬ q x)
    (last : (∃ y ∈ ys, q y) → (∃ x ∈ part, q x) ∨ ∀ z ∈ after, ¬ p z) :
    Precedes p q (before ++ ys ++ after) := by
  simp only [precedes_append, List.mem_append] at precedes ⊢
  obtain ⟨⟨front, _, inner⟩, back, outer⟩ := precedes
  refine ⟨⟨front, own, fun early y member holds => ?_⟩, back, ?_⟩
  · rcases first ⟨y, member, holds⟩ with ⟨x, old, same⟩ | absent
    · exact inner early x old same
    · obtain ⟨x, old, second⟩ := early
      exact absent x old second
  · rintro ⟨x, early | early, second⟩
    · exact outer ⟨x, Or.inl early, second⟩
    · rcases last ⟨x, early, second⟩ with ⟨y, old, same⟩ | absent
      · exact outer ⟨y, Or.inr old, same⟩
      · exact absent

end Muduo.Support
