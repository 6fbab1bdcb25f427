import Muduo.Guarantees.Wakeup

/-!
# The wakeup pipe can block its own reader

Only the loop thread reads the pipe, and `wakeup` blocks on a full one. The loop
thread writes to it when a functor calls `queueInLoop`. It is safe while the bytes
that are in the pipe or on their way, its own included, never exceed the capacity
during such a call; beyond that the other threads can fill the pipe under it.
-/
namespace Muduo.Guarantees
open Muduo.Support Muduo.Source

variable {φ : Type} {capacity : Nat} {s s' : LoopState φ}

/-- A functor is inside `queueInLoop`, so the loop thread is about to write. -/
def InCall (s : LoopState φ) : Prop := s.call ≠ none ∧ s.calling = true

instance (s : LoopState φ) : Decidable (InCall s) := by unfold InCall; infer_instance

/-- Other threads that are about to write. -/
def inFlight (s : LoopState φ) : Nat := (s.pushed ∪ s.quitting).card

/-- Bytes in the pipe or on their way. -/
def outstanding (s : LoopState φ) : Nat := s.bytes + inFlight s + if InCall s then 1 else 0

/-- The loop thread stands at a write that blocks, and nobody else reads the pipe. -/
def Deadlocked (capacity : Nat) (s : LoopState φ) : Prop :=
  s.call = some .atWakeup ∧ s.bytes = capacity

/-- A call that will write during a functor's `queueInLoop` begins only while its
byte has room. -/
def RoomForWakeup (capacity : Nat) (s : LoopState φ) : LoopAction φ → Prop
  | .push _ => s.calling = true → outstanding s < capacity
  | .otherPush _ _ | .otherQuit _ => InCall s → outstanding s < capacity
  | _ => True

instance (capacity : Nat) (s : LoopState φ) (action : LoopAction φ) :
    Decidable (RoomForWakeup capacity s action) := by
  delta RoomForWakeup
  induction action using LoopAction.casesOn <;> infer_instance

theorem outstanding_inCall (inCall : InCall s) : outstanding s = s.bytes + inFlight s + 1 := by
  rw [outstanding, if_pos inCall]

theorem outstanding_idle (idle : ¬ InCall s) : outstanding s = s.bytes + inFlight s := by
  rw [outstanding, if_neg idle, Nat.add_zero]

theorem not_inCall (idle : s.call = none) : ¬ InCall s := fun inCall => inCall.1 idle

theorem inFlight_insert_pushed {thread : ThreadId} (idle : thread ∉ s.pushed ∪ s.quitting) :
    (insert thread s.pushed ∪ s.quitting).card = inFlight s + 1 := by
  rw [Finset.insert_union, Finset.card_insert_of_notMem idle, inFlight]

theorem inFlight_insert_quitting {thread : ThreadId} (idle : thread ∉ s.pushed ∪ s.quitting) :
    (s.pushed ∪ insert thread s.quitting).card = inFlight s + 1 := by
  rw [Finset.union_insert, Finset.card_insert_of_notMem idle, inFlight]

theorem inFlight_erase {thread : ThreadId} (flying : thread ∈ s.pushed ∪ s.quitting) :
    (s.pushed.erase thread ∪ s.quitting.erase thread).card + 1 = inFlight s := by
  have same : s.pushed.erase thread ∪ s.quitting.erase thread =
      (s.pushed ∪ s.quitting).erase thread := by
    ext other
    simp only [Finset.mem_union, Finset.mem_erase]
    tauto
  rw [same, Finset.card_erase_add_one flying, inFlight]

/-- The pipe never overflows, and a functor's call leaves room for every byte. -/
structure Bounded (capacity : Nat) (s : LoopState φ) : Prop where
  woken : Woken s
  bytes : s.bytes ≤ capacity
  room : InCall s → outstanding s ≤ capacity

theorem initial_bounded : Bounded capacity (.initial : LoopState φ) :=
  ⟨initial_woken, Nat.zero_le _, fun inCall => absurd rfl inCall.1⟩

section Steps

variable {action : LoopAction φ}

theorem bytes_step (bytes : s.bytes ≤ capacity) (effect : LoopState.Effect capacity s action s') :
    s'.bytes ≤ capacity := by
  cases effect with
  | wakeup _ room | otherWakeup _ _ room => exact room
  | handleRead _ _ _ _ => exact le_trans (Nat.sub_le _ _) bytes
  | _ => exact bytes

/-- Outside a functor's call nothing is asked of the pipe. -/
theorem room_of_idle (idle : s'.call = none) : InCall s' → outstanding s' ≤ capacity :=
  fun inCall => absurd idle inCall.1

/-- Within a call, `n` new bytes need room for `n`. -/
theorem room_of_moved {n : Nat} (before : InCall s' → InCall s)
    (moved : s'.bytes + inFlight s' = s.bytes + inFlight s + n)
    (room : InCall s → outstanding s + n ≤ capacity) : InCall s' → outstanding s' ≤ capacity := by
  intro inCall
  have fits := room (before inCall)
  rw [outstanding_inCall (before inCall)] at fits
  rw [outstanding_inCall inCall, moved]
  omega

theorem Bounded.step (inv : Bounded capacity s) (room : RoomForWakeup capacity s action)
    (effect : LoopState.Effect capacity s action s') : Bounded capacity s' := by
  refine ⟨inv.woken.step effect, bytes_step inv.bytes effect, ?_⟩
  cases effect with
  | enter idle | leave idle | poll idle | pollReturns _ idle | dispatched idle
  | handleRead _ idle | callback _ idle | setCalling idle | swap idle | runFunctor _ _ idle
  | batchDone idle | clearCalling idle | requestQuit idle | callbackReturns _ idle
  | functorReturns _ _ idle => exact room_of_idle idle
  | wakeup call _ => exact room_of_idle rfl
  | push functor idle user =>
    intro inCall
    have fits := room inCall.2
    rw [outstanding_idle (not_inCall idle)] at fits
    rw [outstanding_inCall inCall]
    exact fits
  | testCalling call =>
    exact room_of_moved (s := s) (n := 0) (fun inCall => ⟨by simp [call], inCall.2⟩) rfl inv.room
  | otherPush thread functor idle =>
    refine room_of_moved (s := s) (n := 1) id ?_ room
    rw [inFlight]
    simp only [LoopState.queue, inFlight_insert_pushed idle]
    omega
  | otherQuit thread idle =>
    refine room_of_moved (s := s) (n := 1) id ?_ room
    rw [inFlight]
    simp only [inFlight_insert_quitting idle]
    omega
  | otherWakeup thread flying _ =>
    have lands := inFlight_erase flying
    refine room_of_moved (s := s) (n := 0) id ?_ inv.room
    rw [inFlight]
    simp only
    omega

end Steps

theorem Bounded.not_deadlocked (inv : Bounded capacity s) : ¬ Deadlocked capacity s := by
  rintro ⟨atWakeup, full⟩
  have inCall : InCall s := ⟨by simp [atWakeup], inv.woken.writers atWakeup⟩
  have fits := inv.room inCall
  rw [outstanding_inCall inCall] at fits
  omega

theorem bounded_of_run {actions : List (LoopAction φ)}
    (run : Run (Guarded (RoomForWakeup capacity) (Graph (LoopState.step capacity)))
      .initial actions s) : Bounded capacity s :=
  run.invariant initial_bounded fun _ _ _ inv taken =>
    inv.step taken.1 (LoopState.effect_of_step taken.2)

/-- Other threads on their way fill the pipe under a loop thread that must write. -/
theorem fill_pipe (room : Nat) (s : LoopState φ) (atWakeup : s.call = some .atWakeup)
    (bytes : s.bytes + room = capacity) (enough : room ≤ inFlight s) :
    ∃ s', Reachable (Graph (LoopState.step capacity)) s s' ∧ Deadlocked capacity s' := by
  induction room generalizing s with
  | zero => exact ⟨s, ⟨[], .nil s⟩, atWakeup, by omega⟩
  | succ room ih =>
    have some : (s.pushed ∪ s.quitting).Nonempty := by
      rw [← Finset.card_pos]
      exact lt_of_lt_of_le (Nat.succ_pos room) enough
    obtain ⟨thread, flying⟩ := some
    have lands := inFlight_erase flying
    obtain ⟨s', ⟨actions, run⟩, stuck⟩ := ih { s with
      bytes := s.bytes + 1
      pushed := s.pushed.erase thread
      quitting := s.quitting.erase thread } atWakeup (by simp only; omega) (by
        rw [inFlight]
        simp only
        omega)
    refine ⟨s', ⟨.otherWakeup thread :: actions, .cons ?_ run⟩, stuck⟩
    have fits : s.bytes < capacity := by omega
    simp only [Support.Graph, LoopState.step, if_pos flying, LoopState.write, if_pos fits]

/-- Once more bytes are due than the pipe holds, the call can deadlock. -/
theorem deadlock_of_overflow (bytes : s.bytes ≤ capacity) (inCall : InCall s)
    (excess : capacity < outstanding s) :
    ∃ s', Reachable (Graph (LoopState.step capacity)) s s' ∧ Deadlocked capacity s' := by
  rw [outstanding_inCall inCall] at excess
  have free : s.bytes + (capacity - s.bytes) = capacity := by omega
  have due : capacity - s.bytes ≤ inFlight s := by omega
  obtain ⟨call, present⟩ := Option.ne_none_iff_exists'.mp inCall.1
  cases call with
  | atWakeup => exact fill_pipe (capacity - s.bytes) s present free due
  | pushed =>
    obtain ⟨s', ⟨actions, run⟩, stuck⟩ :=
      fill_pipe (capacity - s.bytes) { s with call := some .atWakeup } rfl free due
    refine ⟨s', ⟨.advance :: actions, .cons ?_ run⟩, stuck⟩
    simp [Support.Graph, LoopState.step, present, LoopState.continueCall, inCall.2]

/-- A step that begins a write without room for it overflows the call. -/
theorem overflow_of_step {action : LoopAction φ} (tight : ¬ RoomForWakeup capacity s action)
    (ran : s.step capacity action = .ok s') : InCall s' ∧ capacity < outstanding s' := by
  have effect := LoopState.effect_of_step ran
  cases effect with
  | push functor idle user =>
    obtain ⟨calling, full⟩ := Classical.not_imp.mp tight
    rw [outstanding_idle (not_inCall idle)] at full
    have inCall : InCall { s.queue functor with call := some .pushed } := ⟨by simp, calling⟩
    refine ⟨inCall, ?_⟩
    rw [outstanding_inCall inCall, inFlight]
    rw [inFlight] at full
    simp only [LoopState.queue]
    omega
  | otherPush thread functor idle =>
    obtain ⟨inCall, full⟩ := Classical.not_imp.mp tight
    have after : InCall { s.queue functor with pushed := insert thread s.pushed } := inCall
    refine ⟨after, ?_⟩
    rw [outstanding_inCall inCall] at full
    rw [outstanding_inCall after, inFlight]
    simp only [LoopState.queue, inFlight_insert_pushed idle]
    omega
  | otherQuit thread idle =>
    obtain ⟨inCall, full⟩ := Classical.not_imp.mp tight
    have after : InCall { s with quit := true, quitting := insert thread s.quitting } := inCall
    refine ⟨after, ?_⟩
    rw [outstanding_inCall inCall] at full
    rw [outstanding_inCall after, inFlight]
    simp only [inFlight_insert_quitting idle]
    omega
  | _ => exact absurd trivial tight

/-- A run whose writes all begin with room for them never deadlocks; and the first
write begun without room makes a deadlock reachable. -/
theorem wakeup_deadlock_exact (capacity : Nat) (actions : List (LoopAction φ)) (s : LoopState φ)
    (run : Run (Guarded (RoomForWakeup capacity) (Graph (LoopState.step capacity)))
      .initial actions s) :
    ¬ Deadlocked capacity s ∧
    ∀ action s', s.step capacity action = .ok s' → ¬ RoomForWakeup capacity s action →
      ∃ stuck, Reachable (Graph (LoopState.step capacity)) s' stuck ∧
        Deadlocked capacity stuck := by
  have inv := bounded_of_run run
  refine ⟨inv.not_deadlocked, fun action s' ran tight => ?_⟩
  have effect := LoopState.effect_of_step ran
  obtain ⟨inCall, excess⟩ := overflow_of_step tight ran
  exact deadlock_of_overflow (bytes_step inv.bytes effect) inCall excess

/-- Enter the loop and run functor 0, queued by thread 7. -/
def runQueued : List (LoopAction Nat) :=
  [.otherPush 7 0, .otherWakeup 7, .enter, .advance, .pollReturns [.wakeup], .advance, .advance,
    .advance, .advance, .advance]

/-- A pipe of two bytes takes the one byte of a functor that queues one functor. -/
theorem wakeup_deadlock_exact_one_call :
    ∃ s, Run (Guarded (RoomForWakeup 2) (Graph (LoopState.step 2))) .initial
        (runQueued ++ [.push 1, .advance]) s ∧
      s.call = some .atWakeup ∧ ¬ Deadlocked 2 s := by
  obtain ⟨s, run, atWakeup⟩ : ∃ s, Run (Guarded (RoomForWakeup 2) (Graph (LoopState.step 2)))
      .initial (runQueued ++ [.push 1, .advance]) s ∧ s.call = some .atWakeup :=
    ⟨_, run_of_checked Fault.notEnabled rfl, rfl⟩
  exact ⟨s, run, atWakeup, (wakeup_deadlock_exact 2 _ s run).1⟩

/-- In a pipe of one byte the second `queueInLoop` of a functor blocks for ever. -/
theorem second_call_deadlocks :
    ∃ s, Run (Graph (LoopState.step 1)) .initial
        (runQueued ++ [.push 1, .advance, .advance, .push 2, .advance]) s ∧ Deadlocked 1 s :=
  ⟨_, run_of_exec rfl, rfl, rfl⟩

end Muduo.Guarantees
