import Muduo.Source.ReactorProgress

/-!
# The wakeup pipe of a reactor (muduo/net/eventloop.cc)

After its push `queueInLoop` writes a byte: on other threads always, on the loop's own
thread while `calling_pending_functors_` is set. The write blocks while the pipe is full.
Only the loop thread reads, one byte for each callback of `wakeup_channel_`, and it
would block on an empty pipe.
-/
namespace Muduo.Source
open Muduo.Support

/-- `wakeup_fds` and `wakeup_channel_`, one of the channels that belong to no connection. -/
structure Pipe (settings : Settings) where
  capacity : Nat
  wakeup : ChannelId
  listed : wakeup ∈ settings.aux

structure Piped (σ : Type) where
  world : World σ
  /-- unread bytes -/
  bytes : Nat
  /-- bytes that the loop thread is about to write -/
  own : Nat
  /-- other threads between their push and their write -/
  waking : Nat

inductive PipedAction (answer : Type) where
  | act (action : Action answer)
  /-- the loop thread returns from its `wakeup` -/
  | wakeup
  /-- another thread does -/
  | otherWakeup

/-- The action is one of the loop's own thread. -/
def Action.onLoop {answer : Type} : Action answer → Bool
  | .loop _ | .poll _ | .destroy _ => true
  | _ => false

namespace Pipe

variable {σ : Type} {settings : Settings}

/-- The callbacks of the wakeup channel that a frame has still to make. -/
def frameReads (pipe : Pipe settings) : Frame → Nat
  | .handleEvent id callbacks => if id = pipe.wakeup then callbacks.count .read else 0
  | _ => 0

/-- The byte that a frame reads with its next step. -/
def reading (pipe : Pipe settings) : Frame → Nat
  | .handleEvent id (.read :: _) => if id = pipe.wakeup then 1 else 0
  | _ => 0

theorem reading_le (pipe : Pipe settings) (frame : Frame) :
    pipe.reading frame ≤ pipe.frameReads frame := by
  unfold reading
  split
  · simp only [frameReads]
    split <;> simp
  · exact Nat.zero_le _

/-- The byte that an action reads. -/
def reads {answer : Type} (pipe : Pipe settings) (w : World σ) : Action answer → Nat
  | .loop _ =>
    match w.stack with
    | frame :: _ => pipe.reading frame
    | [] => 0
  | _ => 0

/-- The pipe is reported while a byte is in it, once for a poll. -/
def Reports {answer : Type} (pipe : Pipe settings) (bytes : Nat) (w : World σ) :
    Action answer → Prop
  | .poll _ => w.active.count pipe.wakeup ≤ min 1 bytes
  | _ => True

instance {answer : Type} (pipe : Pipe settings) (bytes : Nat) (w : World σ)
    (action : Action answer) : Decidable (pipe.Reports bytes w action) := by
  delta Reports
  induction action using Action.casesOn <;> infer_instance

/-- The reads to come of what `poll` has reported. -/
def readsDue (pipe : Pipe settings) (w : World σ) : Nat :=
  w.active.count pipe.wakeup + (w.stack.map pipe.frameReads).sum

theorem reads_le {answer : Type} (pipe : Pipe settings) (w : World σ) (action : Action answer) :
    pipe.reads w action ≤ pipe.readsDue w := by
  unfold reads readsDue
  split
  · split
    · next frame _ stack =>
      have own := pipe.reading_le frame
      rw [stack, List.map_cons, List.sum_cons]
      omega
    · exact Nat.zero_le _
  · exact Nat.zero_le _

end Pipe

namespace Piped

variable {σ : Type} {settings : Settings}

def start (settings : Settings) (poller : σ) : Piped σ := ⟨.start settings poller, 0, 0, 0⟩

/-- The functors that a step has queued. -/
def pushed (w w' : World σ) : Nat := w'.pending.length - w.pending.length

/-- The state after an action of the loop: who has queued a functor owes a byte. -/
def after {answer : Type} (pipe : Pipe settings) (s : Piped σ) (action : Action answer)
    (w : World σ) : Piped σ where
  world := w
  bytes := s.bytes - pipe.reads s.world action
  own := s.own + if action.onLoop ∧ s.world.phase.inFunctors then pushed s.world w else 0
  waking := s.waking + if action.onLoop then 0 else pushed s.world w

def step (pipe : Pipe settings) (impl : Polling σ) (s : Piped σ) :
    PipedAction impl.Answer → Except Fault (Piped σ)
  | .act action =>
    if action.onLoop ∧ s.own ≠ 0 then .error .notEnabled
    else
      match s.world.step settings impl action with
      | .error e => .error e
      | .ok w =>
        if pipe.Reports s.bytes w action ∧ pipe.reads s.world action ≤ s.bytes then
          .ok (s.after pipe action w)
        else .error .notEnabled
  | .wakeup =>
    if s.own ≠ 0 ∧ s.bytes < pipe.capacity then
      .ok { s with bytes := s.bytes + 1, own := s.own - 1 }
    else .error .notEnabled
  | .otherWakeup =>
    if s.waking ≠ 0 ∧ s.bytes < pipe.capacity then
      .ok { s with bytes := s.bytes + 1, waking := s.waking - 1 }
    else .error .notEnabled

variable {impl : Polling σ} {pipe : Pipe settings} {s s' : Piped σ}

/-- The outcomes of an action. -/
inductive Step (pipe : Pipe settings) (impl : Polling σ) (s : Piped σ) :
    PipedAction impl.Answer → Piped σ → Prop
  | act {action : Action impl.Answer} {w : World σ} : s.world.Step settings impl action w →
      pipe.Reports s.bytes w action → pipe.reads s.world action ≤ s.bytes →
      Step pipe impl s (.act action) (s.after pipe action w)
  | wakeup : s.own ≠ 0 → Step pipe impl s .wakeup { s with bytes := s.bytes + 1, own := s.own - 1 }
  | otherWakeup : s.waking ≠ 0 →
      Step pipe impl s .otherWakeup { s with bytes := s.bytes + 1, waking := s.waking - 1 }

theorem step_ok {action : PipedAction impl.Answer} (ran : s.step pipe impl action = .ok s') :
    Step pipe impl s action s' := by
  cases action with
  | act action =>
    simp only [step, check_ok] at ran
    obtain ⟨_, ran⟩ := ran
    split at ran
    · cases ran
    · next w stepped =>
      split at ran <;> cases ran
      next fits => exact .act (World.step_ok stepped) fits.1 fits.2
  | wakeup =>
    simp only [step] at ran
    split at ran <;> cases ran
    next owes => exact .wakeup owes.1
  | otherWakeup =>
    simp only [step] at ran
    split at ran <;> cases ran
    next owes => exact .otherWakeup owes.1

end Piped

namespace World

variable {σ : Type} {settings : Settings} {impl : Polling σ} {pipe : Pipe settings} {w w' : World σ}

/-- A frame queues one functor at most. -/
theorem Advance.pushed {onLoop : Bool} {frame : Frame} {input : Input} {frames : List Frame}
    (advance : Advance settings impl onLoop w frame input w' frames) :
    Piped.pushed w w' ≤ 1 := by
  have none (same : w'.pending = w.pending) : Piped.pushed w w' ≤ 1 := by
    simp [Piped.pushed, same]
  have one (task : Task) (grown : w'.pending = w.pending ++ [task]) : Piped.pushed w w' ≤ 1 := by
    simp [Piped.pushed, grown]
  cases advance with
  | post => exact one _ rfl
  | closeHere _ removed =>
    obtain ⟨_, rfl⟩ := removeConnectionInLoop_ok.mp removed
    exact one _ rfl
  | watch _ ran | connectDestroyedRest ran | handleCloseStore ran | connectEstablishedStore ran
  | connectDestroyedStore ran => exact none ((operate_pending ran).trans rfl)
  | sendInLoopStart sent =>
    obtain ⟨answer, _, ran⟩ := sent
    cases ran
    simp only [Piped.pushed]
    split <;> simp
  | sendInLoopRest ran =>
    obtain ⟨conn, _, ⟨_, rfl⟩ | ⟨_, operated⟩⟩ := sendInLoopRest_ok ran
    · exact none rfl
    · exact none ((operate_pending operated).trans rfl)
  | handleRead ran =>
    obtain ⟨n, conn, _, ⟨_, rfl, _⟩ | ⟨_, rfl, _⟩ | ⟨_, rfl, _⟩⟩ := handleRead_ok ran <;>
      exact none rfl
  | handleWrite _ _ ran =>
    obtain ⟨start, _, ⟨_, rfl, _⟩ | ⟨_, _, w₁, operated, rfl⟩⟩ := handleWrite_ok ran
    · exact none rfl
    · have same : w₁.pending = w.pending := (operate_pending operated).trans rfl
      simp only [Piped.pushed, same]
      split <;> simp
  | _ => exact none rfl

/-- So does a step of a loop. -/
theorem Step.pushed {action : Action impl.Answer} (step : Step settings impl w action w') :
    Piped.pushed w w' ≤ 1 := by
  cases step with
  | loop _ advance | other _ advance =>
    have one := advance.pushed
    exact one
  | connectElsewhere | removeElsewhere | destroyElsewhere =>
    simp [Piped.pushed, queue, construct]
  | swap => simp [Piped.pushed]
  | _ => simp [Piped.pushed]

/-- A frame's callbacks of the wakeup channel come one after the other. -/
theorem Follows.reads {onLoop : Bool} {frame : Frame} {frames : List Frame}
    (follows : Follows onLoop frame frames) :
    (frames.map pipe.frameReads).sum + pipe.reading frame ≤ pipe.frameReads frame := by
  have next (id : ChannelId) (event : EventCallback) (callbacks : List EventCallback) :
      pipe.frameReads (.handleEvent id callbacks) +
          pipe.reading (.handleEvent id (event :: callbacks)) ≤
        pipe.frameReads (.handleEvent id (event :: callbacks)) := by
    by_cases own : id = pipe.wakeup
    · cases event <;> simp [Pipe.frameReads, Pipe.reading, own]
    · cases event <;> simp [Pipe.frameReads, Pipe.reading, own]
  cases follows with
  | yes tested => cases frame <;> cases tested <;> exact Nat.le_refl 0
  | no tested none => cases frame <;> cases tested <;> cases none <;> exact Nat.le_refl 0
  | stop =>
    rw [List.map_nil, List.sum_nil, Nat.zero_add]
    exact pipe.reading_le frame
  | @call frame enters => cases frame <;> first | exact Nat.le_refl 0 | cases enters
  | send | shutdown | forceClose => cases onLoop <;> exact Nat.le_refl 0
  | @dispatchAux id event callbacks =>
    have left := next id event callbacks
    simpa [Pipe.frameReads] using left
  | @dispatch c event callbacks =>
    have left := next c event callbacks
    cases event <;> simpa [callback, Pipe.frameReads] using left
  | _ => exact Nat.le_refl 0

theorem count_read_handleEvent (ch : Channel) : ch.handleEvent.count .read ≤ 1 := by
  simp only [Channel.handleEvent, Channel.callbacks, List.count_append]
  split_ifs <;> simp

/-- What is reported is read, a byte for a callback. -/
theorem Step.readsDue {action : Action impl.Answer} (step : Step settings impl w action w')
    (unpolled : ∀ reported, action ≠ .poll reported) :
    pipe.readsDue w' + pipe.reads w action ≤ pipe.readsDue w := by
  cases step with
  | @loop frame rest frames input v stack advance =>
    have made : (frames.map pipe.frameReads).sum + pipe.reading frame ≤ pipe.frameReads frame :=
      advance.follows.reads
    have phase := advance.control.phase
    show v.active.count pipe.wakeup + ((frames ++ rest).map pipe.frameReads).sum + _ ≤ _
    simp only [Pipe.readsDue, Pipe.reads, World.active, stack, phase, List.map_append,
      List.map_cons, List.sum_append, List.sum_cons]
    omega
  | other _ advance =>
    have stack := advance.control.stack
    have phase := advance.control.phase
    simp only [Pipe.readsDue, Pipe.reads, World.active, stack, phase]
    omega
  | @dispatch id active stack phase =>
    have once := count_read_handleEvent (w.heap id)
    have listed : (id :: active).count pipe.wakeup =
        active.count pipe.wakeup + if id = pipe.wakeup then 1 else 0 := by
      simp [List.count_cons]
    simp only [Pipe.readsDue, Pipe.reads, World.active, stack, phase, List.map_cons, List.map_nil,
      List.sum_cons, List.sum_nil, Pipe.frameReads, listed]
    split <;> omega
  | swap stack phase | again stack phase =>
    simp [Pipe.readsDue, Pipe.reads, World.active, stack, phase]
  | @start task batch stack phase =>
    have silent : pipe.frameReads task.frame = 0 := by cases task <;> rfl
    simp [Pipe.readsDue, Pipe.reads, World.active, stack, phase, silent]
  | poll => exact absurd rfl (unpolled _)
  | destroy _ stack =>
    simp [Pipe.readsDue, Pipe.reads, World.active, stack, Pipe.frameReads]
  | _ => exact Nat.le_refl _

end World

namespace Piped

variable {σ : Type} {settings : Settings} {impl : Polling σ} {pipe : Pipe settings} {s s' : Piped σ}

/-- Each read that is to come finds its byte. -/
def Fed (pipe : Pipe settings) (s : Piped σ) : Prop := pipe.readsDue s.world ≤ s.bytes

theorem start_fed (pipe : Pipe settings) (poller : σ) : (start settings poller).Fed pipe :=
  Nat.le_refl 0

theorem Fed.step (fed : s.Fed pipe) {action : PipedAction impl.Answer}
    (step : s.Step pipe impl action s') : s'.Fed pipe := by
  unfold Fed at fed ⊢
  cases step with
  | @act action w taken reports enough =>
    show pipe.readsDue w ≤ s.bytes - pipe.reads s.world action
    by_cases polls : ∃ reported, action = .poll reported
    · obtain ⟨reported, rfl⟩ := polls
      cases taken with
      | @poll _ heap poller active stack =>
        have once : active.count pipe.wakeup ≤ min 1 s.bytes := reports
        simp only [Pipe.readsDue, Pipe.reads, World.active, stack, List.map_nil, List.sum_nil]
        omega
    · have due : pipe.readsDue w + pipe.reads s.world action ≤ pipe.readsDue s.world :=
        taken.readsDue fun reported same => polls ⟨reported, same⟩
      omega
  | wakeup | otherWakeup => exact Nat.le_succ_of_le fed

end Piped

end Muduo.Source
