import Mathlib.Data.List.Induction
import Mathlib.Data.List.Perm.Basic

/-!
# Delivery in pieces

Data promised under a key is paid out piece by piece; what is still outstanding
waits in a list, in any order, until it is paid or forgiven. `Carries` says that a
stream contains pieces in their order, with other data between them.
-/
namespace Muduo.Support

variable {κ α : Type}

/-- Every promise is paid so far, with its remainder outstanding, or settled. -/
structure Balanced (due : κ → List α → Prop) (paid : κ → List α)
    (outstanding : List (κ × List α)) (forgiven : κ → Prop) : Prop where
  single : (outstanding.map Prod.fst).Nodup
  owed : ∀ k rest, (k, rest) ∈ outstanding → ∀ d, due k d → paid k ++ rest = d
  settled : ∀ k d, due k d → k ∉ outstanding.map Prod.fst → paid k = d ∨ forgiven k

namespace Balanced

variable {due due' : κ → List α → Prop} {paid paid' : κ → List α}
  {outstanding outstanding' : List (κ × List α)} {forgiven forgiven' : κ → Prop}
  {key : κ} {part rest : List α}

theorem empty (none : ∀ k d, ¬ due k d) : Balanced due paid [] forgiven :=
  ⟨by simp, by simp, fun k d promised => absurd promised (none k d)⟩

theorem perm (balanced : Balanced due paid outstanding forgiven)
    (same : outstanding.Perm outstanding') : Balanced due paid outstanding' forgiven where
  single := (same.map Prod.fst).nodup_iff.mp balanced.single
  owed k rest member := balanced.owed k rest (same.mem_iff.mpr member)
  settled k d promised absent :=
    balanced.settled k d promised fun member => absent ((same.map Prod.fst).mem_iff.mp member)

/-- No new promise, no new payment. -/
theorem mono (balanced : Balanced due paid outstanding forgiven)
    (fewer : ∀ k d, due' k d → due k d) (same : ∀ k, paid' k = paid k)
    (more : ∀ k, forgiven k → forgiven' k) : Balanced due' paid' outstanding forgiven' := by
  refine ⟨balanced.single, fun k rest member d promised => ?_, fun k d promised absent => ?_⟩
  · rw [same]
    exact balanced.owed k rest member d (fewer k d promised)
  · rw [same]
    exact (balanced.settled k d (fewer k d promised) absent).imp_right (more k)

/-- A promise under a new key is outstanding as a whole. -/
theorem enter (balanced : Balanced due paid outstanding forgiven)
    (fresh : key ∉ outstanding.map Prod.fst) (unpaid : paid key = [])
    (promise : ∀ k d, due' k d → due k d ∧ k ≠ key ∨ k = key ∧ d = rest) :
    Balanced due' paid ((key, rest) :: outstanding) forgiven where
  single := List.nodup_cons.mpr ⟨fresh, balanced.single⟩
  owed k remaining member d promised := by
    rcases promise k d promised with ⟨old, other⟩ | ⟨rfl, rfl⟩
    · rcases List.mem_cons.mp member with new | member
      · cases new
        exact absurd rfl other
      · exact balanced.owed k remaining member d old
    · rcases List.mem_cons.mp member with new | member
      · cases new
        rw [unpaid, List.nil_append]
      · exact absurd (List.mem_map.mpr ⟨_, member, rfl⟩) fresh
  settled k d promised absent := by
    rw [List.map_cons, List.mem_cons, not_or] at absent
    rcases promise k d promised with ⟨old, _⟩ | ⟨same, _⟩
    · exact balanced.settled k d old absent.2
    · exact absurd same absent.1

/-- A part is paid, the remainder stays outstanding. -/
theorem pay (balanced : Balanced due paid ((key, part ++ rest) :: outstanding) forgiven)
    (own : paid' key = paid key ++ part) (others : ∀ k, k ≠ key → paid' k = paid k) :
    Balanced due paid' ((key, rest) :: outstanding) forgiven where
  single := balanced.single
  owed k remaining member d promised := by
    by_cases same : k = key
    · subst same
      have fresh := (List.nodup_cons.mp balanced.single).1
      rcases List.mem_cons.mp member with new | member
      · cases new
        rw [own, List.append_assoc]
        exact balanced.owed k _ List.mem_cons_self d promised
      · exact absurd (List.mem_map.mpr ⟨_, member, rfl⟩) fresh
    · rcases List.mem_cons.mp member with new | member
      · cases new
        exact absurd rfl same
      · rw [others k same]
        exact balanced.owed k remaining (List.mem_cons_of_mem _ member) d promised
  settled k d promised absent := by
    have other : k ≠ key := fun same => absent (by simp [same])
    rw [others k other]
    exact balanced.settled k d promised absent

/-- Nothing remains to be paid. -/
theorem close (balanced : Balanced due paid ((key, []) :: outstanding) forgiven) :
    Balanced due paid outstanding forgiven where
  single := (List.nodup_cons.mp balanced.single).2
  owed k rest member := balanced.owed k rest (List.mem_cons_of_mem _ member)
  settled k d promised absent := by
    by_cases same : k = key
    · subst same
      have whole := balanced.owed k [] List.mem_cons_self d promised
      rw [List.append_nil] at whole
      exact Or.inl whole
    · exact balanced.settled k d promised (by simpa [same] using absent)

/-- What is outstanding is given up. -/
theorem forgive (balanced : Balanced due paid ((key, rest) :: outstanding) forgiven)
    (allowed : forgiven key) : Balanced due paid outstanding forgiven where
  single := (List.nodup_cons.mp balanced.single).2
  owed k remaining member := balanced.owed k remaining (List.mem_cons_of_mem _ member)
  settled k d promised absent := by
    by_cases same : k = key
    · exact Or.inr (same ▸ allowed)
    · exact balanced.settled k d promised (by simpa [same] using absent)

end Balanced

/-- The stream is the pieces in their order, each behind a gap. -/
inductive Carries : List (List α) → List α → Prop
  | nil : Carries [] []
  | snoc {pieces : List (List α)} {stream gap piece : List α} : Carries pieces stream →
      Carries (pieces ++ [piece]) (stream ++ gap ++ piece)

/-- Pieces in two groups are in two parts of the stream. -/
theorem Carries.split {first second : List (List α)} {stream : List α}
    (carries : Carries (first ++ second) stream) :
    ∃ front back, stream = front ++ back ∧ Carries first front ∧ Carries second back := by
  induction second using List.reverseRecOn generalizing stream with
  | nil => exact ⟨stream, [], (List.append_nil _).symm, by simpa using carries, .nil⟩
  | append_singleton second piece ih =>
    rw [← List.append_assoc] at carries
    generalize shape : first ++ second ++ [piece] = pieces at carries
    cases carries with
    | nil => simp at shape
    | @snoc pieces stream gap piece' carries =>
      obtain ⟨rfl, same⟩ := List.append_inj' shape rfl
      obtain ⟨front, back, rfl, whole, rest⟩ := ih carries
      cases same
      exact ⟨front, back ++ gap ++ piece, by simp, whole, rest.snoc⟩

end Muduo.Support
