import Mathlib.Algebra.GroupWithZero.Nat
import Muduo.Support.Transition

/-!
# Potentials

A number that belongs to each state bounds what runs cost, and how long they can go on.
-/
namespace Muduo.Support

variable {σ ι : Type*} {step : σ → ι → σ → Prop} {s s' : σ} {is : List ι}

/-- The potential method: what the steps of a run cost was charged, or stored before. -/
theorem Run.amortised {potential : σ → Nat} {cost charge : ι → Nat} (run : Run step s is s')
    (pays : ∀ s i s', step s i s' → potential s' + cost i ≤ potential s + charge i) :
    potential s' + (is.map cost).sum ≤ potential s + (is.map charge).sum := by
  induction run with
  | nil => exact Nat.le_refl _
  | cons taken _ ih =>
    have first := pays _ _ _ taken
    simp only [List.map_cons, List.sum_cons]
    omega

/-- Whichever steps are taken from `s`, some state of `goal` is reached: there is a next step
until then, and not without end. -/
inductive Inevitable (step : σ → ι → σ → Prop) (goal : σ → Prop) : σ → Prop
  | here {s : σ} : goal s → Inevitable step goal s
  | later {s : σ} : (∃ i s', step s i s') → (∀ i s', step s i s' → Inevitable step goal s') →
      Inevitable step goal s

/-- A measure that every step lowers leads to where no step is left, and an invariant tells
that there is a step until then. -/
theorem inevitable_of_decreasing {goal inv : σ → Prop} (measure : σ → Nat)
    (decreases : ∀ s i s', inv s → step s i s' → inv s' ∧ measure s' < measure s)
    (progress : ∀ s, inv s → goal s ∨ ∃ i s', step s i s') (s : σ) (start : inv s) :
    Inevitable step goal s := by
  induction measured : measure s using Nat.strongRecOn generalizing s with
  | ind n ih =>
    subst measured
    rcases progress s start with reached | next
    · exact .here reached
    · refine .later next fun i s' taken => ?_
      obtain ⟨kept, lower⟩ := decreases s i s' start taken
      exact ih _ lower s' kept rfl

end Muduo.Support
