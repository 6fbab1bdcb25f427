import Mathlib

/-!
# Hoare triples of a state transformer that may fail

A triple of `EStateM` speaks about both ways to end: returning with a value and a
state, failing with an error and the state at that point. `triple_ok` and
`triple_error` give the postcondition that a run has met.
-/
namespace Muduo.Support
open scoped Std.Do

variable {ε σ α : Type} {m : EStateM ε σ α} {P : σ → Prop} {Q : α → σ → Prop} {E : ε → σ → Prop}

/-- The postcondition of a run that returned. -/
theorem triple_ok (spec : ⦃fun s => ⌜P s⌝⦄ m ⦃post⟨fun a s => ⌜Q a s⌝, fun e s => ⌜E e s⌝⟩⦄)
    {s s' : σ} {a : α} (pre : P s) (ran : m.run s = .ok a s') : Q a s' := by
  have ends := spec s pre
  simp only [Std.Do.WP.wp, Std.Do.PredTrans.apply, ran] at ends
  exact ends

/-- The postcondition of a run that failed. -/
theorem triple_error (spec : ⦃fun s => ⌜P s⌝⦄ m ⦃post⟨fun a s => ⌜Q a s⌝, fun e s => ⌜E e s⌝⟩⦄)
    {s s' : σ} {e : ε} (pre : P s) (ran : m.run s = .error e s') : E e s' := by
  have ends := spec s pre
  simp only [Std.Do.WP.wp, Std.Do.PredTrans.apply, ran] at ends
  exact ends

/-- A triple from all runs. -/
theorem triple_of_run (ok : ∀ s s' a, P s → m.run s = .ok a s' → Q a s')
    (error : ∀ s s' e, P s → m.run s = .error e s' → E e s') :
    ⦃fun s => ⌜P s⌝⦄ m ⦃post⟨fun a s => ⌜Q a s⌝, fun e s => ⌜E e s⌝⟩⦄ := by
  intro s pre
  simp only [Std.Do.WP.wp, Std.Do.PredTrans.apply]
  split
  · next a s' ran => exact ok s s' a pre ran
  · next e s' ran => exact error s s' e pre ran

end Muduo.Support
