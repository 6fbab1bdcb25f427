import Mathlib.Data.Finset.Option
import Muduo.Guarantees.TaskQueue

/-!
# Functors that a quit leaves behind

`loop` tests `quit_` after `doPendingFunctors` and does not look at the queue any
more. A quit that comes after the swap of an iteration ends the loop before the
functors that were pushed since the swap have run; one that comes before the swap
is served together with everything queued so far.
-/
namespace Muduo.Guarantees
open Muduo.Support Muduo.Source

/-- The loop's machine with the calls of `queueInLoop`, numbered by their pushes. -/
structure Calls (φ : Type) where
  loop : LoopState φ
  /-- the pushes of other threads whose call has not returned -/
  flying : ThreadId → Option Nat
  /-- the push of the loop thread whose call has not returned -/
  own : Option Nat
  returned : Finset Nat
  /-- calls that had returned before a `quit()` of the current `loop()` -/
  owed : Finset Nat

namespace Calls

variable {φ : Type}

def initial : Calls φ := ⟨.initial, fun _ => none, none, ∅, ∅⟩

/-- The calls that begin, return or are owed by an action that leads to `loop`. -/
def record (s : Calls φ) (action : LoopAction φ) (loop : LoopState φ) : Calls φ :=
  match action with
  | .enter => { s with loop := loop, owed := ∅ }
  | .push _ => { s with loop := loop, own := some s.loop.history.length }
  | .advance =>
    if s.loop.call ≠ none ∧ loop.call = none then
      { s with loop := loop, own := none, returned := s.returned ∪ s.own.toFinset }
    else { s with loop := loop }
  | .otherPush thread _ =>
    { s with
      loop := loop, flying := Function.update s.flying thread (some s.loop.history.length) }
  | .otherWakeup thread =>
    { s with
      loop := loop
      flying := Function.update s.flying thread none
      returned := s.returned ∪ (s.flying thread).toFinset }
  | .requestQuit | .otherQuit _ =>
    { s with
      loop := loop
      owed := match s.loop.pc with
        | .outside => s.owed
        | _ => s.owed ∪ s.returned }
  | .pollReturns _ | .finish => { s with loop := loop }

def step (capacity : Nat) (s : Calls φ) (action : LoopAction φ) : Except Fault (Calls φ) :=
  match s.loop.step capacity action with
  | .ok loop => .ok (s.record action loop)
  | .error e => .error e

variable {capacity : Nat} {s s' : Calls φ} {action : LoopAction φ}

theorem step_ok (ran : s.step capacity action = .ok s') :
    ∃ loop, LoopState.Effect capacity s.loop action loop ∧ s' = s.record action loop := by
  unfold step at ran
  split at ran
  · next loop moved => exact ⟨loop, LoopState.effect_of_step moved, (Except.ok.inj ran).symm⟩
  · cases ran

@[simp] theorem record_loop (loop : LoopState φ) : (s.record action loop).loop = loop := by
  cases action <;> first | rfl | (simp only [record]; split <;> rfl)

end Calls

variable {φ : Type} {capacity : Nat} {s s' : Calls φ} {action : LoopAction φ}

/-- When `loop()` has returned, every functor whose `queueInLoop` had returned before a
`quit()` of that `loop()` has run; `ran` is the beginning of all pushes. -/
def AllRun (s : Calls φ) : Prop := s.loop.pc = .outside → ∀ n ∈ s.owed, n < s.loop.ran.length

/-- The loop thread will test `quit_` before it swaps the queue again. -/
def PastSwap : LoopPc φ → Prop
  | .testQuit | .running _ | .inFunctor _ _ | .finishing => True
  | .outside | .polling | .dispatching _ | .handling _ | .startPending | .swapping => False

instance (pc : LoopPc φ) : Decidable (PastSwap pc) := by
  delta PastSwap
  induction pc using LoopPc.casesOn <;> infer_instance

/-- No swap before the next test of `quit_`, or the loop has been left. -/
def NoSwapAhead (pc : LoopPc φ) : Prop := PastSwap pc ∨ pc = .outside

/-- Pushes that have run or will run in the current batch. -/
def served (s : LoopState φ) : Nat := (queueOf s).due.length

/-- A quit comes before the swap of its iteration, or when no returned call waits. -/
def QuitsInTime (s : Calls φ) : LoopAction φ → Prop
  | .requestQuit | .otherQuit _ =>
    PastSwap s.loop.pc → ∀ n ∈ s.returned, n < served s.loop
  | _ => True

instance (s : Calls φ) (action : LoopAction φ) : Decidable (QuitsInTime s action) := by
  delta QuitsInTime
  induction action using LoopAction.casesOn <;> infer_instance

/-- The numbers are numbers of pushes, and what is owed past the swap is in the batch. -/
structure InTime (s : Calls φ) : Prop where
  accounted : Accounted s.loop
  flying : ∀ thread n, s.flying thread = some n → n < s.loop.history.length
  own : ∀ n, s.own = some n → n < s.loop.history.length
  returned : ∀ n ∈ s.returned, n < s.loop.history.length
  owed : ∀ n ∈ s.owed, n < s.loop.history.length
  batched : NoSwapAhead s.loop.pc → ∀ n ∈ s.owed, n < served s.loop

theorem initial_inTime : InTime (.initial : Calls φ) where
  accounted := rfl
  flying _ _ flying := by cases flying
  own _ own := by cases own
  returned := by simp [Calls.initial]
  owed := by simp [Calls.initial]
  batched := by simp [Calls.initial]

theorem InTime.allRun (inTime : InTime s) : AllRun s := by
  intro left n owed
  have batched := inTime.batched (Or.inr left) n owed
  simpa [served, queueOf, left, batchOf, BatchQueue.due] using batched

/-- What was served stays served; a swap serves all pushes. -/
theorem served_step {s s' : LoopState φ} (accounted : Accounted s)
    (effect : LoopState.Effect capacity s action s') (ahead : NoSwapAhead s'.pc) :
    action = .enter ∨ s.history.length ≤ served s' ∨
      NoSwapAhead s.pc ∧ served s ≤ served s' := by
  cases effect with
  | enter => exact Or.inl rfl
  | swap _ pc =>
    refine Or.inr (Or.inl (le_of_eq ?_))
    have history : s.history = s.ran ++ batchOf s.pc ++ s.pending := accounted
    rw [history, pc]
    simp [served, BatchQueue.due, queueOf, batchOf]
  | runFunctor functor rest _ pc =>
    refine Or.inr (Or.inr ⟨by simp [NoSwapAhead, PastSwap, pc], ?_⟩)
    simp [served, BatchQueue.due, queueOf, batchOf, pc]
  | leave _ pc | batchDone _ pc | clearCalling _ pc | functorReturns _ _ _ pc =>
    refine Or.inr (Or.inr ⟨by simp [NoSwapAhead, PastSwap, pc], ?_⟩)
    simp [served, BatchQueue.due, queueOf, batchOf, pc]
  | poll | pollReturns | dispatched | handleRead | callback | setCalling | callbackReturns =>
    rcases ahead with past | left
    · exact past.elim
    · cases left
  | push | testCalling | wakeup | requestQuit | otherPush | otherQuit | otherWakeup =>
    exact Or.inr (Or.inr ⟨ahead, le_rfl⟩)

theorem history_le {s s' : LoopState φ} (effect : LoopState.Effect capacity s action s') :
    s.history.length ≤ s'.history.length := by
  obtain ⟨_, history, _⟩ := queue_step effect
  rw [history, List.length_append]
  exact Nat.le_add_right ..

/-- The numbers that are owed stay within what is served. -/
theorem InTime.batched_step (inTime : InTime s) {loop : LoopState φ}
    (effect : LoopState.Effect capacity s.loop action loop) (entered : action ≠ .enter)
    (ahead : NoSwapAhead loop.pc) : ∀ n ∈ s.owed, n < served loop := by
  intro n member
  rcases served_step inTime.accounted effect ahead with enter | all | ⟨before, more⟩
  · exact absurd enter entered
  · exact lt_of_lt_of_le (inTime.owed n member) all
  · exact lt_of_lt_of_le (inTime.batched before n member) more

/-- A quit owes what has returned. -/
theorem InTime.quit {loop : LoopState φ} (kept : InTime { s with loop := loop })
    (pc : loop.pc = s.loop.pc) (same : served loop = served s.loop)
    (guard : PastSwap s.loop.pc → ∀ n ∈ s.returned, n < served s.loop) :
    InTime (s.record .requestQuit loop) := by
  simp only [Calls.record]
  split
  · exact kept
  · next inside =>
    refine { kept with owed := fun n member => ?_, batched := fun ahead n member => ?_ }
    · rcases Finset.mem_union.mp member with old | new
      · exact kept.owed n old
      · exact kept.returned n new
    · rcases Finset.mem_union.mp member with old | new
      · exact kept.batched ahead n old
      · rw [same]
        rcases ahead with past | left
        · exact guard (pc ▸ past) n new
        · exact absurd (pc.symm.trans left) inside

theorem InTime.step (inTime : InTime s) (guard : QuitsInTime s action)
    (ran : s.step capacity action = .ok s') : InTime s' := by
  obtain ⟨loop, effect, rfl⟩ := Calls.step_ok ran
  have accounted := inTime.accounted.step effect
  have grown := history_le effect
  -- a step that begins and ends no call
  have kept (entered : action ≠ .enter) : InTime { s with loop := loop } :=
    { accounted := accounted
      flying := fun thread n flying => lt_of_lt_of_le (inTime.flying thread n flying) grown
      own := fun n own => lt_of_lt_of_le (inTime.own n own) grown
      returned := fun n member => lt_of_lt_of_le (inTime.returned n member) grown
      owed := fun n member => lt_of_lt_of_le (inTime.owed n member) grown
      batched := inTime.batched_step effect entered }
  cases action with
  | enter =>
    cases effect with
    | enter => exact ⟨accounted, inTime.flying, inTime.own, inTime.returned, by simp [Calls.record],
        by simp [Calls.record]⟩
  | advance =>
    have kept := kept (by simp)
    simp only [Calls.record]
    split
    · refine { kept with own := by simp, returned := fun n member => ?_ }
      rcases Finset.mem_union.mp member with old | new
      · exact kept.returned n old
      · exact kept.own n (Option.mem_toFinset.mp new)
    · exact kept
  | push functor =>
    have kept := kept (by simp)
    have more : s.loop.history.length < loop.history.length := by
      cases effect
      simp [LoopState.queue]
    refine { kept with own := fun n own => ?_ }
    cases own
    exact more
  | otherPush thread functor =>
    have kept := kept (by simp)
    have more : s.loop.history.length < loop.history.length := by
      cases effect
      simp [LoopState.queue]
    refine { kept with flying := fun other n flying => ?_ }
    simp only [Calls.record, Function.update_apply] at flying
    split at flying
    · cases flying
      exact more
    · exact kept.flying other n flying
  | otherWakeup thread =>
    have kept := kept (by simp)
    refine { kept with flying := fun other n flying => ?_, returned := fun n member => ?_ }
    · simp only [Calls.record, Function.update_apply] at flying
      split at flying
      · cases flying
      · exact kept.flying other n flying
    · rcases Finset.mem_union.mp member with old | new
      · exact kept.returned n old
      · exact kept.flying thread n (Option.mem_toFinset.mp new)
  | requestQuit =>
    cases effect with
    | requestQuit => exact (kept (by simp)).quit rfl rfl guard
  | otherQuit thread =>
    cases effect with
    | otherQuit => exact (kept (by simp)).quit rfl rfl guard
  | pollReturns | finish => exact kept (by simp)

/-- A returned call will not be served before `loop()` returns. -/
def Lost (s : Calls φ) : Prop :=
  (s.loop.pc = .outside ∨ PastSwap s.loop.pc ∧ s.loop.quit = true) ∧
    ∃ n ∈ s.owed, served s.loop ≤ n

theorem Lost.step (lost : Lost s) (inside : action ≠ .enter)
    (ran : s.step capacity action = .ok s') : Lost s' := by
  obtain ⟨loop, effect, rfl⟩ := Calls.step_ok ran
  obtain ⟨ahead, n, owed, waits⟩ := lost
  have still : n ∈ (s.record action loop).owed := by
    cases action with
    | enter => exact absurd rfl inside
    | advance => simp only [Calls.record]; split <;> exact owed
    | requestQuit | otherQuit =>
      simp only [Calls.record]
      split
      · exact owed
      · exact Finset.mem_union_left _ owed
    | _ => exact owed
  have after : (loop.pc = .outside ∨ PastSwap loop.pc ∧ loop.quit = true) ∧
      served loop ≤ served s.loop := by
    cases effect with
    | enter => exact absurd rfl inside
    | poll _ pc quit => simp [pc, quit] at ahead
    | pollReturns _ _ pc | dispatched _ pc | handleRead _ _ pc | callback _ _ pc
    | setCalling _ pc | swap _ pc | callbackReturns _ _ pc => simp [pc, PastSwap] at ahead
    | leave _ pc => exact ⟨Or.inl rfl, by simp [served, BatchQueue.due, queueOf, batchOf]⟩
    | runFunctor functor rest _ pc =>
      refine ⟨Or.inr ⟨trivial, by simpa [pc] using ahead.elim (by simp [pc]) And.right⟩, ?_⟩
      simp [served, BatchQueue.due, queueOf, batchOf, pc]
    | batchDone _ pc | clearCalling _ pc | functorReturns _ _ _ pc =>
      refine ⟨Or.inr ⟨trivial, by simpa [pc] using ahead.elim (by simp [pc]) And.right⟩, ?_⟩
      simp [served, BatchQueue.due, queueOf, batchOf, pc]
    | requestQuit | otherQuit => exact ⟨ahead.imp_right fun past => ⟨past.1, rfl⟩, le_rfl⟩
    | push | testCalling | wakeup | otherPush | otherWakeup => exact ⟨ahead, le_rfl⟩
  exact ⟨by rw [Calls.record_loop]; exact after.1, n, still, by
    rw [Calls.record_loop]; exact le_trans after.2 waits⟩

theorem Lost.not_allRun (lost : Lost s) (left : s.loop.pc = .outside) : ¬ AllRun s := by
  intro allRun
  obtain ⟨_, n, owed, waits⟩ := lost
  have ran := allRun left n owed
  have same : served s.loop = s.loop.ran.length := by
    simp [served, BatchQueue.due, queueOf, left, batchOf]
  omega

/-- A quit past the swap loses each returned call that still waits. -/
theorem lost_of_late (late : ¬ QuitsInTime s action) (ran : s.step capacity action = .ok s') :
    Lost s' := by
  obtain ⟨loop, effect, rfl⟩ := Calls.step_ok ran
  cases action with
  | requestQuit | otherQuit thread =>
    simp only [QuitsInTime, not_forall, not_lt] at late
    obtain ⟨past, n, returned, waits⟩ := late
    have owed : ∀ pc, s.loop.pc = pc → PastSwap pc → n ∈ (match s.loop.pc with
        | .outside => s.owed
        | _ => s.owed ∪ s.returned) := by
      intro pc own past
      rw [own]
      cases pc <;> first | exact past.elim | exact Finset.mem_union_right _ returned
    cases effect
    exact ⟨Or.inr ⟨past, rfl⟩, n, owed _ rfl past, waits⟩
  | _ => exact absurd trivial late

/-- The steps of one call of `loop()`. -/
def SameLoop (_ : Calls φ) (action : LoopAction φ) : Prop :=
  match action with
  | .enter => False
  | _ => True

theorem lost_of_run {actions : List (LoopAction φ)} (lost : Lost s)
    (run : Run (Guarded SameLoop (Graph (Calls.step capacity))) s actions s') : Lost s' :=
  run.invariant lost fun _ action _ lost taken => lost.step (fun enter => by
    have inside := taken.1
    rw [enter] at inside
    exact inside) taken.2

theorem inTime_of_run {actions : List (LoopAction φ)}
    (run : Run (Guarded QuitsInTime (Graph (Calls.step capacity))) .initial actions s) : InTime s :=
  run.invariant initial_inTime fun _ _ _ inTime taken => inTime.step taken.1 taken.2

/-- For every interleaving: while every quit comes in time, a returned `loop()` has run
all functors that were accepted before. A quit that does not come in time loses one,
whenever that `loop()` returns. -/
theorem loop_shutdown_exact (capacity : Nat) (actions : List (LoopAction φ)) (s : Calls φ)
    (run : Run (Guarded QuitsInTime (Graph (Calls.step capacity))) .initial actions s) :
    AllRun s ∧ ∀ action s₁ later s₂, ¬ QuitsInTime s action → s.step capacity action = .ok s₁ →
      Run (Guarded SameLoop (Graph (Calls.step capacity))) s₁ later s₂ →
      s₂.loop.pc = .outside → ¬ AllRun s₂ := by
  refine ⟨(inTime_of_run run).allRun, fun action s₁ later s₂ late ran continued left => ?_⟩
  exact (lost_of_run (lost_of_late late ran) continued).not_allRun left

/-- A functor is queued and the loop told to quit while it polls. -/
def quitWhilePolling : List (LoopAction Nat) :=
  [.enter, .advance, .otherPush 7 3, .otherWakeup 7, .otherQuit 7, .pollReturns [],
    .advance, .advance, .advance, .advance, .finish, .advance, .advance, .advance]

theorem loop_shutdown_exact_polling :
    ∃ s : Calls Nat,
      Run (Guarded QuitsInTime (Graph (Calls.step 2))) .initial quitWhilePolling s ∧
        s.loop.pc = .outside ∧ s.owed = {0} ∧ AllRun s := by
  obtain ⟨s, run, left, owed⟩ : ∃ s : Calls Nat,
      Run (Guarded QuitsInTime (Graph (Calls.step 2))) .initial quitWhilePolling s ∧
        s.loop.pc = .outside ∧ s.owed = {0} :=
    ⟨_, run_of_checked Fault.notEnabled rfl, rfl, rfl⟩
  exact ⟨s, run, left, owed, (loop_shutdown_exact 2 _ s run).1⟩

/-- The same thread queues a functor and quits the loop after the swap: the end of
`~TcpServer` and of its thread pool. -/
def quitAfterSwap : List (LoopAction Nat) :=
  [.enter, .advance, .pollReturns [], .advance, .advance, .advance, .otherPush 7 3,
    .otherWakeup 7, .otherQuit 7, .advance, .advance, .advance]

/-- `loop()` returns and the functor has not run. -/
theorem quit_after_swap_drops :
    ∃ s : Calls Nat, Run (Graph (Calls.step 2)) .initial quitAfterSwap s ∧ ¬ AllRun s := by
  obtain ⟨s, run, left, owed, ran⟩ : ∃ s : Calls Nat,
      Run (Graph (Calls.step 2)) .initial quitAfterSwap s ∧
        s.loop.pc = .outside ∧ s.owed = {0} ∧ s.loop.ran = [] :=
    ⟨_, run_of_exec rfl, rfl, rfl, rfl⟩
  refine ⟨s, run, fun allRun => ?_⟩
  have first := allRun left 0 (by simp [owed])
  simp [ran] at first

end Muduo.Guarantees
