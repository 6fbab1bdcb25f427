import Muduo.Support.Transition

/-!
# FIFO queues with put-back

The contents of a queue are a list, oldest element first. Elements join at the
end, leave at the front, and may be put back in front. `result` is what an
operation hands to its caller; a dequeue splits the contents, so nothing is
dropped that was not handed out.
-/
namespace Muduo.Support

variable {α : Type*}

inductive QueueOp (α : Type*) where
  | enqueue (ys : List α)
  | putBack (ys : List α)
  | dequeue (k : Nat)
  | clear
  | keep
  | replace (zs : List α)
  deriving DecidableEq, Repr

/-- Contents after the operation. -/
def QueueOp.apply : QueueOp α → List α → List α
  | .enqueue ys, xs => xs ++ ys
  | .putBack ys, xs => ys ++ xs
  | .dequeue k, xs => xs.drop k
  | .clear, _ => []
  | .keep, xs => xs
  | .replace zs, _ => zs

/-- Elements the operation hands out. -/
def QueueOp.result : QueueOp α → List α → List α
  | .dequeue k, xs => xs.take k
  | .clear, xs => xs
  | .replace _, xs => xs
  | _, _ => []

/-- Contents after a list of operations. -/
def QueueOp.applyAll (ops : List (QueueOp α)) (xs : List α) : List α :=
  ops.foldl (fun contents op => op.apply contents) xs

/-- An `a` is queued, with no `b` in front of it. -/
def QueuedBefore (a b : α) (xs : List α) : Prop :=
  ∃ front back, xs = front ++ a :: back ∧ b ∉ front

section Order

variable {a b x : α} {xs : List α}

theorem QueuedBefore.enqueue (before : QueuedBefore a b xs) (ys : List α) :
    QueuedBefore a b (xs ++ ys) := by
  obtain ⟨front, back, rfl, absent⟩ := before
  exact ⟨front, back ++ ys, by simp, absent⟩

theorem queuedBefore_last (absent : b ∉ xs) : QueuedBefore a b (xs ++ [a]) :=
  ⟨xs, [], rfl, absent⟩

/-- The front element is the `a`, or no `b`. -/
theorem QueuedBefore.dequeue (before : QueuedBefore a b (x :: xs)) :
    x = a ∨ x ≠ b ∧ QueuedBefore a b xs := by
  obtain ⟨front, back, split, absent⟩ := before
  cases front with
  | nil => exact Or.inl (List.cons.inj split).1
  | cons y front =>
    obtain ⟨rfl, rfl⟩ := List.cons.inj split
    exact Or.inr ⟨fun same => absent (by simp [same]), front, back, rfl,
      fun member => absent (List.mem_cons_of_mem _ member)⟩

end Order

/-- A run whose steps act as queue operations ends with the contents those
operations compute; `inv` carries what the steps need to act so. -/
theorem Run.queue {σ ι : Type*} {step : σ → ι → σ → Prop} (inv : σ → Prop) (value : σ → List α)
    (op : ι → QueueOp α) {s s' : σ} {is : List ι} (run : Run step s is s') (start : inv s)
    (preserved : ∀ s i s', inv s → step s i s' → inv s')
    (acts : ∀ s i s', inv s → step s i s' → value s' = (op i).apply (value s)) :
    value s' = QueueOp.applyAll (is.map op) (value s) := by
  induction run with
  | nil => rfl
  | cons taken _ ih =>
    rw [ih (preserved _ _ _ start taken), acts _ _ _ start taken]
    rfl

end Muduo.Support
