import Muduo.Source.EventLoop

/-!
# EventLoopThread (muduo/net/eventloop_thread.cc)

The thread constructs an `EventLoop` on its stack, publishes its address and runs
`loop`. The owner waits for the address in `startLoop`; its destructor stores
`quit_`, wakes the loop and joins. The loop moves as `LoopState` does, and `poll`
begins in a step of its own after the test of `quit_`. Once the thread has
returned the object is gone, and a later access is out of range.
-/
namespace Muduo.Source
open Muduo.Support

/-- Where the thread stands in `threadFun`. -/
inductive ThreadPc where
  | notStarted
  | constructing
  | published
  | looping
  | returned
  deriving DecidableEq, Repr

/-- Where the owner stands, from `startLoop` to the end of the destructor. -/
inductive OwnerPc where
  | idle
  | waiting
  | holding
  | quitting
  | joining
  | done
  deriving DecidableEq, Repr

structure LoopThread (φ : Type) where
  thread : ThreadPc
  owner : OwnerPc
  loop : LoopState φ
  /-- the thread is inside `poll` -/
  inPoll : Bool
  /-- calls of `poll` begun so far -/
  polls : Nat

inductive ThreadAction (φ : Type) where
  | startLoop
  /-- `EventLoop loop; promise_.set_value(&loop)` -/
  | publish
  /-- `future.get()` returns -/
  | obtain
  /-- a statement of the loop thread or of a thread that has the pointer -/
  | loop (action : LoopAction φ)
  | beginPoll
  /-- `threadFun` returns and destroys the loop -/
  | threadReturns
  /-- the destructor, up to the store of `quit_` -/
  | quit
  | wakeup
  | join
  deriving DecidableEq, Repr

namespace LoopThread

variable {φ : Type}

/-- The owner among the threads of the loop's machine. -/
def ownerId : ThreadId := 0

def initial : LoopThread φ := ⟨.notStarted, .idle, .initial, false, 0⟩

/-- Who may take a statement of the loop's machine: the thread inside `loop`, or
another thread once the pointer is out. -/
def Permits (s : LoopThread φ) : LoopAction φ → Prop
  | .enter => s.thread = .published
  | .advance | .push _ | .requestQuit | .finish => s.thread = .looping
  | .pollReturns _ => s.thread = .looping ∧ s.inPoll = true
  | .otherPush thread _ | .otherQuit thread | .otherWakeup thread =>
    thread ≠ ownerId ∧ s.owner ≠ .idle ∧ s.owner ≠ .waiting ∧ s.thread ≠ .returned

instance (s : LoopThread φ) (action : LoopAction φ) : Decidable (s.Permits action) := by
  delta Permits
  induction action using LoopAction.casesOn <;> infer_instance

/-- What a statement of the loop changes besides the loop. -/
def follow (s : LoopThread φ) (action : LoopAction φ) (loop : LoopState φ) : LoopThread φ :=
  match action with
  | .enter => { s with thread := .looping, loop := loop }
  | .pollReturns _ => { s with inPoll := false, loop := loop }
  | _ => { s with loop := loop }

/-- An access of the loop by the destructor, which leads the owner on. -/
def access (capacity : Nat) (s : LoopThread φ) (action : LoopAction φ) (next : OwnerPc) :
    Except Fault (LoopThread φ) :=
  if s.thread = .returned then .error .outOfRange
  else
    match s.loop.step capacity action with
    | .ok loop => .ok { s with loop := loop, owner := next }
    | .error e => .error e

def step (capacity : Nat) (s : LoopThread φ) : ThreadAction φ → Except Fault (LoopThread φ)
  | .startLoop =>
    if s.owner = .idle ∧ s.thread = .notStarted then
      .ok { s with owner := .waiting, thread := .constructing }
    else .error .notEnabled
  | .publish =>
    if s.thread = .constructing then .ok { s with thread := .published, loop := .initial }
    else .error .notEnabled
  | .obtain =>
    if s.owner = .waiting ∧ s.thread ≠ .constructing then .ok { s with owner := .holding }
    else .error .notEnabled
  | .loop action =>
    if s.Permits action then
      match s.loop.step capacity action with
      | .ok loop => .ok (s.follow action loop)
      | .error e => .error e
    else .error .notEnabled
  | .beginPoll =>
    match s.thread, s.loop.pc, s.inPoll with
    | .looping, .polling, false => .ok { s with inPoll := true, polls := s.polls + 1 }
    | _, _, _ => .error .notEnabled
  | .threadReturns =>
    match s.thread, s.loop.pc with
    | .looping, .outside => .ok { s with thread := .returned }
    | _, _ => .error .notEnabled
  | .quit =>
    match s.owner with
    | .idle => .ok { s with owner := .done }
    | .holding => s.access capacity (.otherQuit ownerId) .quitting
    | _ => .error .notEnabled
  | .wakeup =>
    if s.owner = .quitting then s.access capacity (.otherWakeup ownerId) .joining
    else .error .notEnabled
  | .join =>
    if s.owner = .joining ∧ s.thread = .returned then .ok { s with owner := .done }
    else .error .notEnabled

variable {capacity : Nat} {s s' : LoopThread φ}

/-- What a step can do, with what it needs. -/
inductive Moves (capacity : Nat) (s : LoopThread φ) : ThreadAction φ → LoopThread φ → Prop
  | startLoop : s.owner = .idle → s.thread = .notStarted →
      Moves capacity s .startLoop { s with owner := .waiting, thread := .constructing }
  | publish : s.thread = .constructing →
      Moves capacity s .publish { s with thread := .published, loop := .initial }
  | obtain : s.owner = .waiting → s.thread ≠ .constructing →
      Moves capacity s .obtain { s with owner := .holding }
  | loop {action : LoopAction φ} {loop : LoopState φ} : s.Permits action →
      LoopState.Effect capacity s.loop action loop →
      Moves capacity s (.loop action) (s.follow action loop)
  | beginPoll : s.thread = .looping → s.loop.pc = .polling → s.inPoll = false →
      Moves capacity s .beginPoll { s with inPoll := true, polls := s.polls + 1 }
  | threadReturns : s.thread = .looping → s.loop.pc = .outside →
      Moves capacity s .threadReturns { s with thread := .returned }
  | quitNothing : s.owner = .idle → Moves capacity s .quit { s with owner := .done }
  | quit {loop : LoopState φ} : s.owner = .holding → s.thread ≠ .returned →
      LoopState.Effect capacity s.loop (.otherQuit ownerId) loop →
      Moves capacity s .quit { s with loop := loop, owner := .quitting }
  | wakeup {loop : LoopState φ} : s.owner = .quitting → s.thread ≠ .returned →
      LoopState.Effect capacity s.loop (.otherWakeup ownerId) loop →
      Moves capacity s .wakeup { s with loop := loop, owner := .joining }
  | join : s.owner = .joining → s.thread = .returned →
      Moves capacity s .join { s with owner := .done }

theorem access_ok {action : LoopAction φ} {next : OwnerPc}
    (ran : s.access capacity action next = .ok s') :
    s.thread ≠ .returned ∧ ∃ loop, LoopState.Effect capacity s.loop action loop ∧
      s' = { s with loop := loop, owner := next } := by
  simp only [access, check_ok] at ran
  obtain ⟨alive, ran⟩ := ran
  split at ran
  · next loop moved => exact ⟨alive, loop, LoopState.effect_of_step moved, (Except.ok.inj ran).symm⟩
  · cases ran

theorem moves_of_step {action : ThreadAction φ} (ran : s.step capacity action = .ok s') :
    Moves capacity s action s' := by
  cases action with
  | startLoop =>
    simp only [step] at ran
    split at ran <;> cases ran
    next enabled => exact .startLoop enabled.1 enabled.2
  | publish =>
    simp only [step] at ran
    split at ran <;> cases ran
    next constructing => exact .publish constructing
  | obtain =>
    simp only [step] at ran
    split at ran <;> cases ran
    next enabled => exact .obtain enabled.1 enabled.2
  | loop action =>
    simp only [step] at ran
    split at ran
    · next permits =>
      split at ran <;> cases ran
      next moved => exact .loop permits (LoopState.effect_of_step moved)
    · cases ran
  | beginPoll =>
    simp only [step] at ran
    split at ran <;> cases ran
    next looping polling outside => exact .beginPoll looping polling outside
  | threadReturns =>
    simp only [step] at ran
    split at ran <;> cases ran
    next looping left => exact .threadReturns looping left
  | quit =>
    simp only [step] at ran
    split at ran
    · next idle => cases ran; exact .quitNothing idle
    · next holding =>
      obtain ⟨alive, loop, effect, rfl⟩ := access_ok ran
      exact .quit holding alive effect
    · cases ran
  | wakeup =>
    simp only [step] at ran
    split at ran
    · next quitting =>
      obtain ⟨alive, loop, effect, rfl⟩ := access_ok ran
      exact .wakeup quitting alive effect
    · cases ran
  | join =>
    simp only [step] at ran
    split at ran <;> cases ran
    next enabled => exact .join enabled.1 enabled.2

end LoopThread

end Muduo.Source
