import Muduo.Support.Transition

/-!
# Queues served in batches

Elements wait until a batch takes all of them at once; the batch is served from
the front. Together the served elements, the rest of the batch and the waiting
elements are all that ever joined, in their order.
-/
namespace Muduo.Support

structure BatchQueue (α : Type*) where
  served : List α
  batch : List α
  waiting : List α
  deriving DecidableEq, Repr

namespace BatchQueue

variable {α : Type*}

/-- Everything that joined, in order. -/
def all (q : BatchQueue α) : List α := q.served ++ q.batch ++ q.waiting

/-- What is served when the batch ends. -/
def due (q : BatchQueue α) : List α := q.served ++ q.batch

/-- The moves of such a queue, with the elements that join. -/
inductive Move : BatchQueue α → List α → BatchQueue α → Prop
  | join {q : BatchQueue α} {x : α} : Move q [x] { q with waiting := q.waiting ++ [x] }
  | take {served waiting : List α} : Move ⟨served, [], waiting⟩ [] ⟨served, waiting, []⟩
  | serve {served rest waiting : List α} {x : α} :
      Move ⟨served, x :: rest, waiting⟩ [] ⟨served ++ [x], rest, waiting⟩
  | stay {q : BatchQueue α} : Move q [] q

variable {q q' : BatchQueue α} {joined : List α}

theorem Move.all (move : Move q joined q') : q'.all = q.all ++ joined := by
  cases move <;> simp [BatchQueue.all]

/-- Until the next batch is taken, what is due stays, and what joins waits. -/
theorem Move.due (move : Move q joined q') (open_ : q.batch = [] → q'.batch = []) :
    q'.due = q.due ∧ q'.waiting = q.waiting ++ joined := by
  cases move with
  | join => exact ⟨rfl, rfl⟩
  | take =>
    have none := open_ rfl
    dsimp only at none
    subst none
    exact ⟨rfl, rfl⟩
  | serve => simp [BatchQueue.due]
  | stay => exact ⟨rfl, (List.append_nil _).symm⟩

end BatchQueue

end Muduo.Support
