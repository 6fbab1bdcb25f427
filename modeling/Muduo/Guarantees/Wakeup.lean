import Muduo.Source.EventLoop

/-!
# Wakeups are not lost

From the swap of `doPendingFunctors` until `poll` returns, a functor in
`pending_functors_` has a byte in the pipe, a thread that is about to write one,
or the loop thread itself about to write one.
-/
namespace Muduo.Guarantees
open Muduo.Support Muduo.Source

variable {φ : Type} {capacity : Nat} {s s' : LoopState φ}

/-- The loop thread will look at the pipe before it looks at the queue. -/
def BeforePollReturn : LoopPc φ → Prop
  | .outside | .testQuit | .polling | .running _ | .inFunctor _ _ | .finishing => True
  | .dispatching _ | .handling _ | .startPending | .swapping => False

/-- The flag `calling_pending_functors_` is set, by where the loop thread stands. -/
def CallsFunctors : LoopPc φ → Prop
  | .swapping | .running _ | .inFunctor _ _ | .finishing => True
  | .outside | .testQuit | .polling | .dispatching _ | .handling _ | .startPending => False

structure Woken (s : LoopState φ) : Prop where
  callers : s.call ≠ none → s.inUserCode = true
  writers : s.call = some .atWakeup → s.calling = true
  flag : s.calling = true ↔ CallsFunctors s.pc
  woken : BeforePollReturn s.pc → s.pending ≠ [] → 0 < s.bytes ∨ s.pushed.Nonempty ∨ s.call ≠ none

theorem initial_woken : Woken (.initial : LoopState φ) where
  callers := by simp [LoopState.initial]
  writers := by simp [LoopState.initial]
  flag := by simp [LoopState.initial, CallsFunctors]
  woken := by simp [LoopState.initial]

/-- A step of the loop thread between its own calls. -/
theorem Woken.of_idle (idle : s.call = none) (flag : s.calling = true ↔ CallsFunctors s.pc)
    (woken : BeforePollReturn s.pc → s.pending ≠ [] → 0 < s.bytes ∨ s.pushed.Nonempty) :
    Woken s where
  callers := by simp [idle]
  writers := by simp [idle]
  flag := flag
  woken before waiting := (woken before waiting).imp_right Or.inl

/-- A queue that was covered before a step of the loop thread is covered by others. -/
theorem Woken.covered (inv : Woken s) (idle : s.call = none) (before : BeforePollReturn s.pc)
    (waiting : s.pending ≠ []) : 0 < s.bytes ∨ s.pushed.Nonempty := by
  rcases inv.woken before waiting with byte | other | own
  · exact Or.inl byte
  · exact Or.inr other
  · exact absurd idle own

theorem Woken.step (inv : Woken s) {action : LoopAction φ}
    (effect : LoopState.Effect capacity s action s') : Woken s' := by
  have flag := inv.flag
  cases effect with
  | enter idle pc | leave idle pc _ | poll idle pc _ | batchDone idle pc
  | runFunctor _ _ idle pc | functorReturns _ _ idle pc =>
    refine .of_idle idle (by simpa [CallsFunctors, pc] using flag) fun _ waiting => ?_
    exact inv.covered idle (by simp [pc, BeforePollReturn]) waiting
  | pollReturns _ idle pc _ | dispatched idle pc | handleRead _ idle pc _ | callback _ idle pc
  | callbackReturns _ idle pc =>
    exact .of_idle idle (by simpa [CallsFunctors, pc] using flag) fun before => before.elim
  | swap idle pc =>
    exact .of_idle idle (by simpa [CallsFunctors, pc] using flag) fun _ waiting =>
      absurd rfl waiting
  | clearCalling idle pc =>
    exact .of_idle idle (by simp [CallsFunctors]) fun _ waiting =>
      inv.covered idle (by simp [pc, BeforePollReturn]) waiting
  | setCalling idle pc =>
    exact .of_idle idle (by simp [CallsFunctors]) fun before => before.elim
  | push functor idle user =>
    exact ⟨fun _ => user, by simp, flag, fun _ _ => Or.inr (Or.inr (by simp))⟩
  | testCalling call =>
    have user := inv.callers (by simp [call])
    by_cases calling : s.calling = true
    · rw [if_pos calling]
      exact ⟨fun _ => user, fun _ => calling, flag, fun _ _ => Or.inr (Or.inr (by simp))⟩
    · rw [if_neg calling]
      -- in an event callback `poll` comes after the next look at the queue
      refine .of_idle rfl flag fun before => ?_
      have callback : ¬ CallsFunctors s.pc := fun functors => calling (flag.mpr functors)
      unfold LoopState.inUserCode at user
      split at user
      · next events pc => simp [pc, BeforePollReturn] at before
      · next functor rest pc => simp [pc, CallsFunctors] at callback
      · cases user
  | wakeup call _ =>
    have user := inv.callers (by simp [call])
    exact .of_idle rfl flag fun _ _ => Or.inl (Nat.succ_pos _)
  | requestQuit idle user =>
    exact ⟨inv.callers, inv.writers, flag, inv.woken⟩
  | otherPush thread functor _ =>
    exact ⟨inv.callers, inv.writers, flag, fun _ _ =>
      Or.inr (Or.inl ⟨thread, Finset.mem_insert_self _ _⟩)⟩
  | otherQuit thread _ => exact ⟨inv.callers, inv.writers, flag, inv.woken⟩
  | otherWakeup thread _ _ =>
    exact ⟨inv.callers, inv.writers, flag, fun _ _ => Or.inl (Nat.succ_pos _)⟩

theorem woken_of_run {actions : List (LoopAction φ)}
    (run : Run (Graph (LoopState.step capacity)) .initial actions s) : Woken s :=
  run.invariant initial_woken fun _ _ _ inv ran => inv.step (LoopState.effect_of_step ran)

/-- In every reachable state in which the loop thread is inside `poll` and a functor
is waiting, the pipe holds a byte or a thread has pushed and not yet written. -/
theorem no_lost_wakeup (capacity : Nat) (actions : List (LoopAction φ)) (s : LoopState φ)
    (run : Run (Graph (LoopState.step capacity)) .initial actions s) (polling : s.pc = .polling)
    (waiting : s.pending ≠ []) : 0 < s.bytes ∨ ∃ thread, thread ∈ s.pushed := by
  have inv := woken_of_run run
  have idle : s.call = none := by
    by_contra busy
    have user := inv.callers busy
    simp [LoopState.inUserCode, polling] at user
  exact inv.covered idle (by simp [polling, BeforePollReturn]) waiting

/-- Another thread queues a functor while the loop thread is inside `poll`. -/
theorem no_lost_wakeup_pushed : ∃ s : LoopState Nat,
    Run (Graph (LoopState.step 1)) .initial [.enter, .advance, .otherPush 7 3] s ∧
      s.pc = .polling ∧ s.pending = [3] ∧ (0 < s.bytes ∨ ∃ thread, thread ∈ s.pushed) := by
  obtain ⟨s, run, polling, waiting⟩ : ∃ s : LoopState Nat,
      Run (Graph (LoopState.step 1)) .initial [.enter, .advance, .otherPush 7 3] s ∧
        s.pc = .polling ∧ s.pending = [3] :=
    ⟨_, run_of_exec rfl, rfl, rfl⟩
  exact ⟨s, run, polling, waiting, no_lost_wakeup 1 _ s run polling (by simp [waiting])⟩

end Muduo.Guarantees
