import Muduo.Support.BatchQueue
import Muduo.Guarantees.Wakeup

/-!
# The law of the task queue

The loop thread serves `pending_functors_` in batches. Every step of the machine is
a move of such a queue, so the functors pushed so far are those run, those left of
the batch and those pending, in this order.
-/
namespace Muduo.Guarantees
open Muduo.Support Muduo.Source

variable {φ : Type} {capacity : Nat} {s s' : LoopState φ}

/-- What `doPendingFunctors` has still to run. -/
def batchOf : LoopPc φ → List φ
  | .running rest | .inFunctor _ rest => rest
  | .outside | .testQuit | .polling | .dispatching _ | .handling _ | .startPending | .swapping
  | .finishing => []

/-- The machine's queue as a queue served in batches. -/
def queueOf (s : LoopState φ) : BatchQueue φ := ⟨s.ran, batchOf s.pc, s.pending⟩

/-- What an action pushes. -/
def pushedBy : LoopAction φ → List φ
  | .push functor | .otherPush _ functor => [functor]
  | _ => []

/-- The step begins between the swap and the end of the batch. -/
def InBatch (s : LoopState φ) (_ : LoopAction φ) : Prop :=
  match s.pc with
  | .running _ | .inFunctor _ _ => True
  | .outside | .testQuit | .polling | .dispatching _ | .handling _ | .startPending | .swapping
  | .finishing => False

instance (s : LoopState φ) (action : LoopAction φ) : Decidable (InBatch s action) := by
  delta InBatch
  induction s.pc using LoopPc.casesOn <;> infer_instance

/-- Every step moves the queue; only a swap takes a batch. -/
theorem queue_step {action : LoopAction φ} (effect : LoopState.Effect capacity s action s') :
    BatchQueue.Move (queueOf s) (pushedBy action) (queueOf s') ∧
      s'.history = s.history ++ pushedBy action ∧ (InBatch s action → batchOf s.pc = [] →
        batchOf s'.pc = []) := by
  cases effect with
  | push functor | otherPush thread functor => exact ⟨.join, rfl, fun _ => id⟩
  | swap _ pc =>
    have queue : queueOf s = ⟨s.ran, [], s.pending⟩ := by simp [queueOf, pc, batchOf]
    rw [queue]
    exact ⟨.take, (List.append_nil _).symm, fun inBatch => by simp [pc, InBatch] at inBatch⟩
  | runFunctor functor rest _ pc =>
    have queue : queueOf s = ⟨s.ran, functor :: rest, s.pending⟩ := by
      simp [queueOf, pc, batchOf]
    rw [queue]
    exact ⟨.serve, (List.append_nil _).symm, fun _ none => by simp [pc, batchOf] at none⟩
  | enter _ pc | leave _ pc | poll _ pc | pollReturns _ _ pc | dispatched _ pc
  | handleRead _ _ pc | callback _ _ pc | setCalling _ pc | batchDone _ pc | clearCalling _ pc
  | callbackReturns _ _ pc =>
    have queue : queueOf s = ⟨s.ran, [], s.pending⟩ := by simp [queueOf, pc, batchOf]
    rw [queue]
    exact ⟨.stay, (List.append_nil _).symm, fun _ _ => rfl⟩
  | functorReturns functor rest _ pc =>
    have queue : queueOf s = ⟨s.ran, rest, s.pending⟩ := by simp [queueOf, pc, batchOf]
    rw [queue]
    exact ⟨.stay, (List.append_nil _).symm, fun _ none => by simpa [pc, batchOf] using none⟩
  | testCalling | wakeup | requestQuit | otherQuit | otherWakeup =>
    exact ⟨.stay, (List.append_nil _).symm, fun _ => id⟩

/-- The functors pushed are those run, the rest of the batch and the pending ones. -/
def Accounted (s : LoopState φ) : Prop := s.history = (queueOf s).all

theorem Accounted.step (accounted : Accounted s) {action : LoopAction φ}
    (effect : LoopState.Effect capacity s action s') : Accounted s' := by
  obtain ⟨move, history, _⟩ := queue_step effect
  rw [Accounted, history, accounted, move.all]

theorem accounted_of_run {actions : List (LoopAction φ)}
    (run : Run (Graph (LoopState.step capacity)) .initial actions s) : Accounted s :=
  run.invariant rfl fun _ _ _ accounted ran => accounted.step (LoopState.effect_of_step ran)

/-- From its swap to its end a batch is the functors that were pending at the swap;
those pushed meanwhile are pending after it. -/
theorem batch_of_run {actions : List (LoopAction φ)}
    (run : Run (Guarded InBatch (Graph (LoopState.step capacity))) s actions s') :
    s'.ran ++ batchOf s'.pc = s.ran ++ batchOf s.pc ∧
      ∃ later, s'.history = s.history ++ later ∧ s'.pending = s.pending ++ later := by
  induction run with
  | nil => exact ⟨rfl, [], (List.append_nil _).symm, (List.append_nil _).symm⟩
  | @cons s s₁ _ action _ taken _ ih =>
    obtain ⟨move, history, open_⟩ := queue_step (LoopState.effect_of_step taken.2)
    obtain ⟨due, waiting⟩ := move.due (open_ taken.1)
    have waiting : s₁.pending = s.pending ++ pushedBy action := waiting
    obtain ⟨same, later, grown, pending⟩ := ih
    refine ⟨same.trans due, pushedBy action ++ later, ?_, ?_⟩
    · rw [grown, history, List.append_assoc]
    · rw [pending, waiting, List.append_assoc]

/-- For every interleaving: the functors pushed are those run, the rest of the batch and
the pending ones. A batch runs the functors that were pending at its swap and no other. -/
theorem task_queue_law (capacity : Nat) (actions : List (LoopAction φ)) (s : LoopState φ)
    (run : Run (Graph (LoopState.step capacity)) .initial actions s) :
    s.history = s.ran ++ batchOf s.pc ++ s.pending ∧
      ∀ s₁ batch s₂, s.pc = .swapping → s.step capacity .advance = .ok s₁ →
        Run (Guarded InBatch (Graph (LoopState.step capacity))) s₁ batch s₂ →
        s₂.ran ++ batchOf s₂.pc = s.ran ++ s.pending ∧
          ∃ later, s₂.history = s.history ++ later ∧ s₂.pending = later := by
  refine ⟨accounted_of_run run, fun s₁ batch s₂ swapping swap inBatch => ?_⟩
  have idle : s.call = none := by
    by_contra busy
    have user := (woken_of_run run).callers busy
    simp [LoopState.inUserCode, swapping] at user
  have swapped : s₁ = { s with pending := [], pc := .running s.pending } := by
    simp only [LoopState.step, idle, LoopState.continueLoop, swapping] at swap
    rw [idle]
    exact (Except.ok.inj swap).symm
  subst swapped
  exact batch_of_run inBatch

/-- One functor is pushed before the swap of the batch, another one during the batch. -/
def pushedAround : List (LoopAction Nat) :=
  [.enter, .advance, .otherPush 7 3, .pollReturns [], .advance, .advance]

def afterSwap : List (LoopAction Nat) := [.advance, .otherPush 8 4, .finish, .advance]

theorem task_queue_law_pushed_around :
    ∃ s s₁ s₂ : LoopState Nat, Run (Graph (LoopState.step 1)) .initial pushedAround s ∧
      s.step 1 .advance = .ok s₁ ∧
      Run (Guarded InBatch (Graph (LoopState.step 1))) s₁ afterSwap s₂ ∧
      (s.history = s.ran ++ batchOf s.pc ++ s.pending ∧
        s₂.ran ++ batchOf s₂.pc = s.ran ++ s.pending) ∧
      s₂.ran = [3] ∧ s₂.pending = [4] := by
  obtain ⟨s, run, swapping, s₁, swap, s₂, batch, ran, pending⟩ :
      ∃ s : LoopState Nat, Run (Graph (LoopState.step 1)) .initial pushedAround s ∧
        s.pc = .swapping ∧ ∃ s₁, s.step 1 .advance = .ok s₁ ∧ ∃ s₂,
          Run (Guarded InBatch (Graph (LoopState.step 1))) s₁ afterSwap s₂ ∧
            s₂.ran = [3] ∧ s₂.pending = [4] :=
    ⟨_, run_of_exec rfl, rfl, _, rfl, _, run_of_checked Fault.notEnabled rfl, rfl, rfl⟩
  have law := task_queue_law 1 _ s run
  exact ⟨s, s₁, s₂, run, swap, batch, ⟨law.1, (law.2 s₁ _ s₂ swapping swap batch).1⟩, ran, pending⟩

end Muduo.Guarantees
