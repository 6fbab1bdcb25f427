import Mathlib.Data.Finset.Card
import Muduo.Support.Transition
import Muduo.Source.Fault

/-!
# EventLoop (muduo/net/eventloop.cc)

The loop thread and any number of other threads share `pending_functors_`, the
flags and the wakeup pipe, which holds at most `capacity` unread bytes. Every
access of a shared object is a step of its own: the push under the lock, the test
of `calling_pending_functors_`, the byte written by `wakeup`, the byte read by
`handleRead`, the swap. `history` and `ran` record the functors pushed and run.
-/
namespace Muduo.Source
open Muduo.Support

abbrev ThreadId := Nat

/-- A channel in the batch: the wakeup channel, or one with user callbacks. -/
inductive LoopEvent where
  | wakeup | user
  deriving DecidableEq, Repr

/-- Where the loop thread stands in `loop` and `doPendingFunctors`. -/
inductive LoopPc (φ : Type) where
  | outside
  | testQuit
  | polling
  | dispatching (events : List LoopEvent)
  | handling (events : List LoopEvent)
  | startPending
  | swapping
  | running (rest : List φ)
  | inFunctor (functor : φ) (rest : List φ)
  | finishing
  deriving DecidableEq, Repr

/-- Where the loop thread stands in a `queueInLoop` of its own. -/
inductive CallPc where
  | pushed | atWakeup
  deriving DecidableEq, Repr

structure LoopState (φ : Type) where
  bytes : Nat
  pending : List φ
  calling : Bool
  quit : Bool
  pc : LoopPc φ
  call : Option CallPc
  /-- other threads between the push and the wakeup of `queueInLoop` -/
  pushed : Finset ThreadId
  /-- other threads between the store and the wakeup of `quit` -/
  quitting : Finset ThreadId
  history : List φ
  ran : List φ

inductive LoopAction (φ : Type) where
  | enter
  | advance
  | pollReturns (events : List LoopEvent)
  | push (functor : φ)
  | requestQuit
  | finish
  | otherPush (thread : ThreadId) (functor : φ)
  | otherQuit (thread : ThreadId)
  | otherWakeup (thread : ThreadId)
  deriving DecidableEq, Repr

namespace LoopState

variable {φ : Type}

def initial : LoopState φ := ⟨0, [], false, false, .outside, none, ∅, ∅, [], []⟩

/-- The loop thread runs an event callback or a functor. -/
def inUserCode (s : LoopState φ) : Bool :=
  match s.pc with
  | .handling _ | .inFunctor _ _ => true
  | _ => false

/-- The push of `queueInLoop`. -/
def queue (s : LoopState φ) (functor : φ) : LoopState φ :=
  { s with pending := s.pending ++ [functor], history := s.history ++ [functor] }

/-- `wakeup` writes one byte, and blocks while the pipe is full. -/
def write (capacity : Nat) (s : LoopState φ) : Except Fault (LoopState φ) :=
  if s.bytes < capacity then .ok { s with bytes := s.bytes + 1 } else .error .notEnabled

/-- The rest of the loop thread's `queueInLoop`: it writes only inside the functors. -/
def continueCall (capacity : Nat) (s : LoopState φ) : CallPc → Except Fault (LoopState φ)
  | .pushed => .ok { s with call := if s.calling then some .atWakeup else none }
  | .atWakeup => { s with call := none }.write capacity

/-- The next statement of `loop`, `handleRead` or `doPendingFunctors`. -/
def continueLoop (s : LoopState φ) : Except Fault (LoopState φ) :=
  match s.pc with
  | .testQuit => .ok { s with pc := if s.quit then .outside else .polling }
  | .dispatching [] => .ok { s with pc := .startPending }
  | .dispatching (.wakeup :: events) =>
    if 0 < s.bytes then .ok { s with bytes := s.bytes - 1, pc := .dispatching events }
    else .error .notEnabled
  | .dispatching (.user :: events) => .ok { s with pc := .handling events }
  | .startPending => .ok { s with calling := true, pc := .swapping }
  | .swapping => .ok { s with pending := [], pc := .running s.pending }
  | .running (functor :: rest) =>
    .ok { s with pc := .inFunctor functor rest, ran := s.ran ++ [functor] }
  | .running [] => .ok { s with pc := .finishing }
  | .finishing => .ok { s with calling := false, pc := .testQuit }
  | .outside | .polling | .handling _ | .inFunctor _ _ => .error .notEnabled

/-- `poll` reports the wakeup channel at most once, and only with a byte to read. -/
def Reportable (s : LoopState φ) (events : List LoopEvent) : Prop :=
  events.count .wakeup ≤ 1 ∧ (.wakeup ∈ events → 0 < s.bytes)

instance (s : LoopState φ) (events : List LoopEvent) : Decidable (s.Reportable events) := by
  unfold Reportable; infer_instance

def step (capacity : Nat) (s : LoopState φ) : LoopAction φ → Except Fault (LoopState φ)
  | .enter =>
    match s.pc, s.call with
    | .outside, none => .ok { s with quit := false, pc := .testQuit }
    | _, _ => .error .notEnabled
  | .advance =>
    match s.call with
    | some call => s.continueCall capacity call
    | none => s.continueLoop
  | .pollReturns events =>
    match s.pc, s.call with
    | .polling, none =>
      if s.Reportable events then .ok { s with pc := .dispatching events }
      else .error .notEnabled
    | _, _ => .error .notEnabled
  | .push functor =>
    if s.inUserCode ∧ s.call = none then .ok { s.queue functor with call := some .pushed }
    else .error .notEnabled
  | .requestQuit =>
    if s.inUserCode ∧ s.call = none then .ok { s with quit := true } else .error .notEnabled
  | .finish =>
    match s.pc, s.call with
    | .handling events, none => .ok { s with pc := .dispatching events }
    | .inFunctor _ rest, none => .ok { s with pc := .running rest }
    | _, _ => .error .notEnabled
  | .otherPush thread functor =>
    if thread ∈ s.pushed ∪ s.quitting then .error .notEnabled
    else .ok { s.queue functor with pushed := insert thread s.pushed }
  | .otherQuit thread =>
    if thread ∈ s.pushed ∪ s.quitting then .error .notEnabled
    else .ok { s with quit := true, quitting := insert thread s.quitting }
  | .otherWakeup thread =>
    if thread ∈ s.pushed ∪ s.quitting then
      { s with pushed := s.pushed.erase thread, quitting := s.quitting.erase thread }.write capacity
    else .error .notEnabled

variable {capacity : Nat} {s s' : LoopState φ}

/-- What a step of the machine can do, with what it needs. -/
inductive Effect (capacity : Nat) (s : LoopState φ) : LoopAction φ → LoopState φ → Prop
  | enter : s.call = none → s.pc = .outside →
      Effect capacity s .enter { s with quit := false, pc := .testQuit }
  | leave : s.call = none → s.pc = .testQuit → s.quit = true →
      Effect capacity s .advance { s with pc := .outside }
  | poll : s.call = none → s.pc = .testQuit → s.quit = false →
      Effect capacity s .advance { s with pc := .polling }
  | pollReturns (events : List LoopEvent) : s.call = none → s.pc = .polling →
      s.Reportable events → Effect capacity s (.pollReturns events) { s with pc := .dispatching events }
  | dispatched : s.call = none → s.pc = .dispatching [] →
      Effect capacity s .advance { s with pc := .startPending }
  | handleRead (events : List LoopEvent) : s.call = none → s.pc = .dispatching (.wakeup :: events) →
      0 < s.bytes → Effect capacity s .advance { s with bytes := s.bytes - 1, pc := .dispatching events }
  | callback (events : List LoopEvent) : s.call = none → s.pc = .dispatching (.user :: events) →
      Effect capacity s .advance { s with pc := .handling events }
  | setCalling : s.call = none → s.pc = .startPending →
      Effect capacity s .advance { s with calling := true, pc := .swapping }
  | swap : s.call = none → s.pc = .swapping →
      Effect capacity s .advance { s with pending := [], pc := .running s.pending }
  | runFunctor (functor : φ) (rest : List φ) : s.call = none → s.pc = .running (functor :: rest) →
      Effect capacity s .advance { s with pc := .inFunctor functor rest, ran := s.ran ++ [functor] }
  | batchDone : s.call = none → s.pc = .running [] →
      Effect capacity s .advance { s with pc := .finishing }
  | clearCalling : s.call = none → s.pc = .finishing →
      Effect capacity s .advance { s with calling := false, pc := .testQuit }
  | push (functor : φ) : s.call = none → s.inUserCode = true →
      Effect capacity s (.push functor) { s.queue functor with call := some .pushed }
  | testCalling : s.call = some .pushed →
      Effect capacity s .advance { s with call := if s.calling then some .atWakeup else none }
  | wakeup : s.call = some .atWakeup → s.bytes < capacity →
      Effect capacity s .advance { s with bytes := s.bytes + 1, call := none }
  | requestQuit : s.call = none → s.inUserCode = true → Effect capacity s .requestQuit { s with quit := true }
  | callbackReturns (events : List LoopEvent) : s.call = none → s.pc = .handling events →
      Effect capacity s .finish { s with pc := .dispatching events }
  | functorReturns (functor : φ) (rest : List φ) : s.call = none → s.pc = .inFunctor functor rest →
      Effect capacity s .finish { s with pc := .running rest }
  | otherPush (thread : ThreadId) (functor : φ) : thread ∉ s.pushed ∪ s.quitting →
      Effect capacity s (.otherPush thread functor) { s.queue functor with pushed := insert thread s.pushed }
  | otherQuit (thread : ThreadId) : thread ∉ s.pushed ∪ s.quitting →
      Effect capacity s (.otherQuit thread) { s with quit := true, quitting := insert thread s.quitting }
  | otherWakeup (thread : ThreadId) : thread ∈ s.pushed ∪ s.quitting → s.bytes < capacity →
      Effect capacity s (.otherWakeup thread) { s with
        bytes := s.bytes + 1
        pushed := s.pushed.erase thread
        quitting := s.quitting.erase thread }

theorem write_ok {t : LoopState φ} (ran : t.write capacity = .ok s') :
    t.bytes < capacity ∧ s' = { t with bytes := t.bytes + 1 } := by
  unfold write at ran
  split at ran
  · next room => exact ⟨room, (Except.ok.inj ran).symm⟩
  · cases ran

theorem continueLoop_effect (idle : s.call = none) (ran : s.continueLoop = .ok s') :
    Effect capacity s .advance s' := by
  unfold continueLoop at ran
  split at ran
  · next pc =>
    by_cases quit : s.quit = true
    · rw [if_pos quit] at ran
      cases ran
      exact .leave idle pc quit
    · rw [if_neg quit] at ran
      cases ran
      exact .poll idle pc (Bool.eq_false_iff.mpr quit)
  · next pc => cases ran; exact .dispatched idle pc
  · next events pc =>
    split at ran
    · next ready => cases ran; exact .handleRead events idle pc ready
    · cases ran
  · next events pc => cases ran; exact .callback events idle pc
  · next pc => cases ran; exact .setCalling idle pc
  · next pc => cases ran; exact .swap idle pc
  · next functor rest pc => cases ran; exact .runFunctor functor rest idle pc
  · next pc => cases ran; exact .batchDone idle pc
  · next pc => cases ran; exact .clearCalling idle pc
  all_goals cases ran

theorem effect_of_step {action : LoopAction φ} (ran : s.step capacity action = .ok s') :
    Effect capacity s action s' := by
  cases action with
  | enter =>
    simp only [step] at ran
    split at ran
    · next pc idle => cases ran; exact .enter idle pc
    · cases ran
  | advance =>
    simp only [step] at ran
    cases call : s.call with
    | none =>
      rw [call] at ran
      exact continueLoop_effect call ran
    | some own =>
      rw [call] at ran
      cases own with
      | pushed => cases ran; exact .testCalling call
      | atWakeup =>
        obtain ⟨room, rfl⟩ := write_ok ran
        exact .wakeup call room
  | pollReturns events =>
    simp only [step] at ran
    split at ran
    · next pc idle =>
      split at ran
      · next reportable => cases ran; exact .pollReturns events idle pc reportable
      · cases ran
    · cases ran
  | push functor =>
    simp only [step] at ran
    split at ran
    · next enabled => cases ran; exact .push functor enabled.2 enabled.1
    · cases ran
  | requestQuit =>
    simp only [step] at ran
    split at ran
    · next enabled => cases ran; exact .requestQuit enabled.2 enabled.1
    · cases ran
  | finish =>
    simp only [step] at ran
    split at ran
    · next events pc idle => cases ran; exact .callbackReturns events idle pc
    · next functor rest pc idle => cases ran; exact .functorReturns functor rest idle pc
    · cases ran
  | otherPush thread functor =>
    simp only [step, check_ok] at ran
    obtain ⟨idle, ran⟩ := ran
    cases ran
    exact .otherPush thread functor idle
  | otherQuit thread =>
    simp only [step, check_ok] at ran
    obtain ⟨idle, ran⟩ := ran
    cases ran
    exact .otherQuit thread idle
  | otherWakeup thread =>
    simp only [step] at ran
    split at ran
    · next inFlight =>
      obtain ⟨room, rfl⟩ := write_ok ran
      exact .otherWakeup thread inFlight room
    · cases ran

end LoopState

end Muduo.Source
