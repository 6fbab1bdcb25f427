import Muduo.Source.EventLoopThread

/-!
# Quit requests of the owner

The address of the loop is published before `loop` stores `quit_ = false`. A quit
that the destructor stores in between is overwritten: the loop polls for ever and
`join` waits for it. A quit stored after `loop` has been entered stays, and the
thread begins one more poll at most.
-/
namespace Muduo.Guarantees
open Muduo.Support Muduo.Source

variable {φ : Type} {capacity : Nat} {s s' : LoopThread φ} {action : ThreadAction φ}

/-- In every continuation the thread begins at most one further poll. -/
def Heeded (capacity : Nat) (s : LoopThread φ) : Prop :=
  ∀ actions s', Run (Graph (LoopThread.step capacity)) s actions s' → s'.polls ≤ s.polls + 1

/-- For any number there is a continuation with that many further polls. -/
def PollsOn (capacity : Nat) (s : LoopThread φ) : Prop :=
  ∀ n, ∃ actions s', Run (Graph (LoopThread.step capacity)) s actions s' ∧ s'.polls = s.polls + n

/-- What is known before the thread enters `loop`. -/
structure Started (s : LoopThread φ) : Prop where
  resting : s.thread ≠ .looping → s.thread ≠ .returned →
    s.loop.pc = .outside ∧ s.loop.call = none ∧ s.inPoll = false
  waiting : s.owner = .waiting → s.thread ≠ .notStarted
  holding : s.owner = .holding → s.thread ≠ .notStarted ∧ s.thread ≠ .constructing

theorem initial_started : Started (.initial : LoopThread φ) where
  resting _ _ := ⟨rfl, rfl, rfl⟩
  waiting held := nomatch held
  holding held := nomatch held

/-- Before `loop` is entered only other threads act on the loop. -/
theorem resting_of_other {loop : LoopState φ} {action : LoopAction φ} (permits : s.Permits action)
    (early : s.thread ≠ .looping) (no_enter : action ≠ .enter)
    (effect : LoopState.Effect capacity s.loop action loop) :
    s.follow action loop = { s with loop := loop } ∧ loop.pc = s.loop.pc ∧
      loop.call = s.loop.call := by
  cases effect with
  | otherPush | otherQuit | otherWakeup => exact ⟨rfl, rfl, rfl⟩
  | enter => exact absurd rfl no_enter
  | pollReturns => exact absurd permits.1 early
  | _ => exact absurd permits early

@[simp] theorem follow_owner (action : LoopAction φ) (loop : LoopState φ) :
    (s.follow action loop).owner = s.owner := by
  cases action <;> rfl

@[simp] theorem follow_loop (action : LoopAction φ) (loop : LoopState φ) :
    (s.follow action loop).loop = loop := by
  cases action <;> rfl

@[simp] theorem follow_polls (action : LoopAction φ) (loop : LoopState φ) :
    (s.follow action loop).polls = s.polls := by
  cases action <;> rfl

/-- Only entering `loop` moves the thread. -/
theorem follow_thread {action : LoopAction φ} (no_enter : action ≠ .enter) (loop : LoopState φ) :
    (s.follow action loop).thread = s.thread := by
  cases action with
  | enter => exact absurd rfl no_enter
  | _ => rfl

theorem Started.step (inv : Started s) (moves : LoopThread.Moves capacity s action s') :
    Started s' := by
  cases moves with
  | startLoop idle notStarted =>
    refine ⟨fun _ _ => inv.resting ?_ ?_, fun _ => by simp, fun held => (nomatch held)⟩ <;>
      simp [notStarted]
  | publish constructing =>
    have rest := inv.resting (by simp [constructing]) (by simp [constructing])
    exact ⟨fun _ _ => ⟨rfl, rfl, rest.2.2⟩, fun _ => by simp, fun _ => by simp⟩
  | obtain waiting published =>
    exact ⟨inv.resting, fun held => (nomatch held), fun _ => ⟨inv.waiting waiting, published⟩⟩
  | @loop action loop permits effect =>
    by_cases enter : action = .enter
    · subst enter
      exact ⟨fun early => absurd rfl early, fun _ => by simp [LoopThread.follow],
        fun _ => by simp [LoopThread.follow]⟩
    · have same : (s.follow action loop).thread = s.thread := follow_thread enter loop
      refine ⟨fun early late => ?_, ?_, ?_⟩
      · rw [same] at early late
        obtain ⟨kept, pc, call⟩ := resting_of_other permits early enter effect
        rw [kept]
        obtain ⟨outside, idle, noPoll⟩ := inv.resting early late
        exact ⟨pc.trans outside, call.trans idle, noPoll⟩
      · rw [same, follow_owner]
        exact inv.waiting
      · rw [same, follow_owner]
        exact inv.holding
  | beginPoll looping =>
    exact ⟨fun early => absurd looping early, inv.waiting, inv.holding⟩
  | threadReturns looping =>
    exact ⟨fun _ early => absurd rfl early, fun _ => by simp, fun _ => by simp⟩
  | quitNothing idle =>
    exact ⟨inv.resting, fun held => (nomatch held), fun held => (nomatch held)⟩
  | quit holding alive effect =>
    refine ⟨fun early late => ?_, fun held => (nomatch held), fun held => (nomatch held)⟩
    cases effect
    exact inv.resting early late
  | wakeup quitting alive effect =>
    refine ⟨fun early late => ?_, fun held => (nomatch held), fun held => (nomatch held)⟩
    cases effect
    exact inv.resting early late
  | join =>
    exact ⟨inv.resting, fun held => (nomatch held), fun held => (nomatch held)⟩

theorem started_of_run {actions : List (ThreadAction φ)}
    (run : Run (Graph (LoopThread.step capacity)) .initial actions s) : Started s :=
  run.invariant initial_started fun _ _ _ inv taken => inv.step (LoopThread.moves_of_step taken)

/-- A poll that the thread has decided on and not begun. -/
def due (s : LoopThread φ) : Nat :=
  match s.loop.pc, s.inPoll with
  | .polling, false => 1
  | _, _ => 0

theorem due_le_one (s : LoopThread φ) : due s ≤ 1 := by
  unfold due
  split <;> omega

theorem due_of_elsewhere (elsewhere : s.loop.pc ≠ .polling) : due s = 0 := by
  unfold due
  split
  · next polling _ => exact absurd polling elsewhere
  · rfl

/-- A quit that was stored after `loop` had been entered, with at most `limit` polls begun. -/
structure Stopping (limit : Nat) (s : LoopThread φ) : Prop where
  entered : s.thread = .looping ∨ s.thread = .returned
  quit : s.loop.quit = true
  bound : s.polls + due s ≤ limit

/-- With `quit_` set the loop decides on no poll. -/
theorem quit_kept {loop : LoopState φ} {action : LoopAction φ} (quit : s.loop.quit = true)
    (no_enter : action ≠ .enter) (effect : LoopState.Effect capacity s.loop action loop) :
    loop.quit = true ∧ due (s.follow action loop) ≤ due s := by
  cases effect with
  | enter => exact absurd rfl no_enter
  | poll _ _ kept => rw [kept] at quit; cases quit
  | push | testCalling | wakeup | otherPush | otherWakeup => exact ⟨quit, le_refl _⟩
  | requestQuit | otherQuit => exact ⟨rfl, le_refl _⟩
  | leave | pollReturns | dispatched | handleRead | callback | setCalling | swap | runFunctor
  | batchDone | clearCalling | callbackReturns | functorReturns =>
    refine ⟨quit, ?_⟩
    rw [due_of_elsewhere (by simp [LoopThread.follow])]
    exact Nat.zero_le _

theorem Stopping.step {limit : Nat} (inv : Stopping limit s)
    (moves : LoopThread.Moves capacity s action s') : Stopping limit s' := by
  obtain ⟨entered, quit, bound⟩ := inv
  cases moves with
  | startLoop _ notStarted => simp [notStarted] at entered
  | publish constructing => simp [constructing] at entered
  | obtain | quitNothing | join => exact ⟨entered, quit, bound⟩
  | @loop action loop permits effect =>
    have no_enter : action ≠ .enter := by
      rintro rfl
      have published : s.thread = .published := permits
      simp [published] at entered
    obtain ⟨kept, fewer⟩ := quit_kept quit no_enter effect
    exact ⟨by rwa [follow_thread no_enter], by rwa [follow_loop], by
      rw [follow_polls]
      omega⟩
  | beginPoll looping polling outside =>
    have decided : due s = 1 := by rw [due, polling, outside]
    have begun : due { s with inPoll := true, polls := s.polls + 1 } = 0 := by
      simp only [due, polling]
    exact ⟨entered, quit, by rw [begun]; simp only; omega⟩
  | threadReturns => exact ⟨.inr rfl, quit, bound⟩
  | quit _ _ effect =>
    cases effect
    exact ⟨entered, rfl, bound⟩
  | wakeup _ _ effect =>
    cases effect
    exact ⟨entered, quit, bound⟩

theorem heeded_of_stopping (stopping : Stopping (s.polls + 1) s) : Heeded capacity s := by
  intro actions s' run
  have kept := run.invariant stopping fun _ _ _ inv taken => inv.step (LoopThread.moves_of_step taken)
  exact le_trans (Nat.le_add_right _ _) kept.bound

/-- The thread inside `loop`, with `quit_` clear and no call of its own in progress. -/
structure Turning (pc : LoopPc φ) (polls : Nat) (s : LoopThread φ) : Prop where
  thread : s.thread = .looping
  call : s.loop.call = none
  quit : s.loop.quit = false
  inPoll : s.inPoll = false
  pc : s.loop.pc = pc
  polls : s.polls = polls

section Rounds

variable {polls : Nat} {pc : LoopPc φ}

theorem Turning.advance (turning : Turning pc polls s) {loop : LoopState φ}
    (moved : s.loop.continueLoop = .ok loop) (call : loop.call = none) (quit : loop.quit = false) :
    s.step capacity (.loop .advance) = .ok { s with loop := loop } ∧
      Turning loop.pc polls { s with loop := loop } := by
  have permits : s.Permits .advance := turning.thread
  have advanced : s.loop.step capacity .advance = .ok loop := by
    rw [LoopState.step, turning.call]
    exact moved
  refine ⟨?_, ⟨turning.thread, call, quit, turning.inPoll, rfl, turning.polls⟩⟩
  simp only [LoopThread.step, if_pos permits, advanced]
  rfl

theorem Turning.finish {functor : φ} {rest : List φ}
    (turning : Turning (.inFunctor functor rest) polls s) :
    s.step capacity (.loop .finish) =
        .ok { s with loop := { s.loop with pc := .running rest } } ∧
      Turning (.running rest) polls { s with loop := { s.loop with pc := .running rest } } := by
  have permits : s.Permits .finish := turning.thread
  have finished : s.loop.step capacity .finish = .ok { s.loop with pc := .running rest } := by
    simp only [LoopState.step, turning.pc, turning.call]
  refine ⟨?_, ⟨turning.thread, turning.call, turning.quit, turning.inPoll, rfl, turning.polls⟩⟩
  simp only [LoopThread.step, if_pos permits, finished]
  rfl

/-- Some continuation takes the thread to a place, with that many polls begun. -/
def Reaches (capacity : Nat) (s : LoopThread φ) (pc : LoopPc φ) (polls : Nat) : Prop :=
  ∃ actions s', Run (Graph (LoopThread.step capacity)) s actions s' ∧ Turning pc polls s'

theorem Turning.reaches (turning : Turning pc polls s) : Reaches capacity s pc polls :=
  ⟨[], s, .nil s, turning⟩

theorem reaches_cons {s₁ : LoopThread φ} (taken : s.step capacity action = .ok s₁)
    (later : Reaches capacity s₁ pc polls) : Reaches capacity s pc polls := by
  obtain ⟨actions, s', run, turning⟩ := later
  exact ⟨action :: actions, s', .cons taken run, turning⟩

theorem reaches_trans {mid : LoopPc φ} {before : Nat} (first : Reaches capacity s mid before)
    (later : ∀ s₁, Turning mid before s₁ → Reaches capacity s₁ pc polls) :
    Reaches capacity s pc polls := by
  obtain ⟨actions, s₁, run, turning⟩ := first
  obtain ⟨actions', s', run', turning'⟩ := later s₁ turning
  exact ⟨actions ++ actions', s', run.append run', turning'⟩

/-- A batch of functors runs to its end. -/
theorem Turning.batch (rest : List φ) (turning : Turning (.running rest) polls s) :
    Reaches capacity s (.running []) polls := by
  induction rest generalizing s with
  | nil => exact turning.reaches
  | cons functor rest ih =>
    have moved : s.loop.continueLoop =
        .ok { s.loop with pc := .inFunctor functor rest, ran := s.loop.ran ++ [functor] } := by
      rw [LoopState.continueLoop, turning.pc]
    obtain ⟨began, inside⟩ := turning.advance moved turning.call turning.quit
    obtain ⟨ended, back⟩ := inside.finish
    exact reaches_cons began (reaches_cons ended (ih back))

/-- `doPendingFunctors`, back to the test of `quit_`. -/
theorem Turning.pending (turning : Turning .startPending polls s) :
    Reaches capacity s .testQuit polls := by
  have called : s.loop.continueLoop = .ok { s.loop with calling := true, pc := .swapping } := by
    rw [LoopState.continueLoop, turning.pc]
  obtain ⟨first, swapping⟩ := turning.advance called turning.call turning.quit
  have swapped : ({ s.loop with calling := true, pc := .swapping } : LoopState φ).continueLoop =
      .ok { s.loop with calling := true, pending := [], pc := .running s.loop.pending } := rfl
  obtain ⟨second, running⟩ := swapping.advance swapped turning.call turning.quit
  refine reaches_cons first (reaches_cons second (reaches_trans (running.batch _) ?_))
  intro s₁ done
  have finished : s₁.loop.continueLoop = .ok { s₁.loop with pc := .finishing } := by
    rw [LoopState.continueLoop, done.pc]
  obtain ⟨third, finishing⟩ := done.advance finished done.call done.quit
  have cleared : ({ s₁.loop with pc := .finishing } : LoopState φ).continueLoop =
      .ok { s₁.loop with calling := false, pc := .testQuit } := rfl
  obtain ⟨fourth, tested⟩ := finishing.advance cleared done.call done.quit
  exact reaches_cons third (reaches_cons fourth tested.reaches)

theorem begins_poll (decided : Turning .polling polls s) :
    s.step capacity .beginPoll = .ok { s with inPoll := true, polls := s.polls + 1 } := by
  simp only [LoopThread.step, decided.thread, decided.pc, decided.inPoll]

/-- A poll may report nothing. -/
theorem poll_returns (decided : Turning .polling polls s) :
    ({ s with inPoll := true, polls := s.polls + 1 } : LoopThread φ).step capacity
        (.loop (.pollReturns [])) =
      .ok { s with
        loop := { s.loop with pc := .dispatching [] }, inPoll := false, polls := s.polls + 1 } := by
  have permits : ({ s with inPoll := true, polls := s.polls + 1 } : LoopThread φ).Permits
      (.pollReturns []) := ⟨decided.thread, rfl⟩
  have reportable : s.loop.Reportable [] := ⟨by simp, by simp⟩
  have returned : s.loop.step capacity (.pollReturns []) =
      .ok { s.loop with pc := .dispatching [] } := by
    simp only [LoopState.step, decided.pc, decided.call, if_pos reportable]
  simp only [LoopThread.step, if_pos permits, returned]
  rfl

/-- One turn of `while (!quit_)`, with a poll that reports nothing. -/
theorem Turning.round (turning : Turning .testQuit polls s) :
    Reaches capacity s .testQuit (polls + 1) := by
  have tested : s.loop.continueLoop = .ok { s.loop with pc := .polling } := by
    simp only [LoopState.continueLoop, turning.pc, turning.quit, Bool.false_eq_true, if_false]
  obtain ⟨first, decided⟩ := turning.advance tested turning.call turning.quit
  refine reaches_cons first (reaches_cons (begins_poll decided) (reaches_cons
    (poll_returns decided) ?_))
  have returned : Turning (.dispatching []) (polls + 1)
      { s with
        loop := { s.loop with pc := .dispatching [] }, inPoll := false, polls := s.polls + 1 } :=
    ⟨turning.thread, turning.call, turning.quit, rfl, rfl, congrArg (· + 1) turning.polls⟩
  have dispatched : ({ s.loop with pc := .dispatching [] } : LoopState φ).continueLoop =
      .ok { s.loop with pc := .startPending } := rfl
  obtain ⟨fourth, pending⟩ := returned.advance dispatched turning.call turning.quit
  exact reaches_cons fourth pending.pending

theorem Turning.rounds (n : Nat) (turning : Turning .testQuit polls s) :
    Reaches capacity s .testQuit (polls + n) := by
  induction n generalizing s polls with
  | zero => exact turning.reaches
  | succ n ih =>
    refine reaches_trans turning.round fun s₁ again => ?_
    rw [show polls + (n + 1) = polls + 1 + n by omega]
    exact ih again

/-- `loop` overwrites a quit that was stored before it. -/
theorem pollsOn_of_published (published : s.thread = .published) (outside : s.loop.pc = .outside)
    (idle : s.loop.call = none) (noPoll : s.inPoll = false) : PollsOn capacity s := by
  intro n
  have permits : s.Permits .enter := published
  have entered : s.loop.step capacity .enter =
      .ok { s.loop with quit := false, pc := .testQuit } := by
    simp only [LoopState.step, outside, idle]
  have taken : s.step capacity (.loop .enter) =
      .ok { s with thread := .looping, loop := { s.loop with quit := false, pc := .testQuit } } := by
    simp only [LoopThread.step, if_pos permits, entered]
    rfl
  have turning : Turning .testQuit s.polls
      { s with thread := .looping, loop := { s.loop with quit := false, pc := .testQuit } } :=
    ⟨rfl, idle, rfl, noPoll, rfl, rfl⟩
  obtain ⟨actions, s', run, done⟩ := reaches_cons taken (turning.rounds n)
  exact ⟨actions, s', run, done.polls⟩

end Rounds

theorem not_heeded_of_pollsOn (pollsOn : PollsOn capacity s) : ¬ Heeded capacity s := by
  intro heeded
  obtain ⟨actions, s', run, polls⟩ := pollsOn 2
  have bound := heeded actions s' run
  omega

/-- In every state in which the owner holds the loop, its quit is heeded exactly when
the thread has entered `loop`; one stored before lets the thread poll any number of
times. -/
theorem quit_request_exact (capacity : Nat) (actions : List (ThreadAction φ)) (s s₁ : LoopThread φ)
    (run : Run (Graph (LoopThread.step capacity)) .initial actions s) (holding : s.owner = .holding)
    (stored : s.step capacity .quit = .ok s₁) :
    (Heeded capacity s₁ ↔ s.thread = .looping) ∧ (s.thread ≠ .looping → PollsOn capacity s₁) := by
  have inv := started_of_run run
  have moves := LoopThread.moves_of_step stored
  cases moves with
  | quitNothing idle => rw [idle] at holding; cases holding
  | @quit loop _ alive effect =>
    cases effect with
    | otherQuit thread free =>
      have early (before : s.thread ≠ .looping) : PollsOn capacity
          { s with
            loop := { s.loop with
              quit := true, quitting := insert LoopThread.ownerId s.loop.quitting }
            owner := .quitting } := by
        obtain ⟨notStarted, constructed⟩ := inv.holding holding
        have published : s.thread = .published := by
          cases thread : s.thread with
          | published => rfl
          | notStarted => exact absurd thread notStarted
          | constructing => exact absurd thread constructed
          | looping => exact absurd thread before
          | returned => exact absurd thread alive
        obtain ⟨outside, idle, noPoll⟩ := inv.resting before alive
        exact pollsOn_of_published published outside idle noPoll
      refine ⟨⟨fun heeded => ?_, fun entered => heeded_of_stopping ⟨.inl entered, rfl, ?_⟩⟩, early⟩
      · by_contra before
        exact not_heeded_of_pollsOn (early before) heeded
      · exact Nat.add_le_add_left (due_le_one _) _

/-- The owner gets the loop before the thread enters it. -/
def obtained : List (ThreadAction Nat) := [.startLoop, .publish, .obtain]

/-- The owner quits a loop that has begun to poll. -/
theorem quit_request_exact_polling :
    ∃ s s₁ : LoopThread Nat, Run (Graph (LoopThread.step 16)) .initial
        (obtained ++ [.loop .enter, .loop .advance, .beginPoll]) s ∧
      s.step 16 .quit = .ok s₁ ∧ Heeded 16 s₁ := by
  have run : Run (Graph (LoopThread.step 16)) .initial
      (obtained ++ [.loop .enter, .loop .advance, .beginPoll]) _ := run_of_exec rfl
  exact ⟨_, _, run, rfl, (quit_request_exact 16 _ _ _ run rfl rfl).1.mpr rfl⟩

/-- What follows on a quit before `loop`: the owner wakes the loop and joins, the
loop clears `quit_`, reads the byte and polls again. -/
def overwritten : List (ThreadAction Nat) :=
  [.wakeup, .loop .enter, .loop .advance, .beginPoll, .loop (.pollReturns [.wakeup]),
    .loop .advance, .loop .advance, .loop .advance, .loop .advance, .loop .advance,
    .loop .advance, .loop .advance, .beginPoll]

theorem early_quit_overwritten :
    ∃ s s₁ s₂ : LoopThread Nat, Run (Graph (LoopThread.step 16)) .initial obtained s ∧
      s.step 16 .quit = .ok s₁ ∧ s₁.loop.quit = true ∧
      Run (Graph (LoopThread.step 16)) s₁ overwritten s₂ ∧ s₂.owner = .joining ∧
      s₂.loop.quit = false ∧ s₂.loop.bytes = 0 ∧ s₂.polls = s₁.polls + 2 ∧ ¬ Heeded 16 s₁ := by
  have first : Run (Graph (LoopThread.step 16)) .initial obtained _ := run_of_exec rfl
  refine ⟨_, _, _, first, rfl, rfl, run_of_exec rfl, rfl, rfl, rfl, rfl, fun heeded => ?_⟩
  exact nomatch (quit_request_exact 16 _ _ _ first rfl rfl).1.mp heeded

end Muduo.Guarantees
