import Muduo.Source.ReactorPipe

/-!
# The loop always comes back to its poll

No function of the library calls or queues itself again without end. What the threads do is
bounded by the calls that the users make and by the channels that the kernel reports; and
while the users' code makes no new call, every order of the threads' steps leads the loop
to `poll`. It needs room in the wakeup pipe: with a full one the loop's own `wakeup` blocks.
-/
namespace Muduo.Guarantees
open Muduo.Support Muduo.Source Muduo.Source.World

/-- Each step of a running function is paid by a call or by a report of the kernel, of
which some is left for the work that is still to be done. -/
theorem bounded_work (kind : PollerKind) (settings : Settings)
    (actions : List (Action kind.polling.Answer)) (w : World kind.State)
    (run : Run (Graph (step settings kind.polling)) (start settings kind.new) actions w) :
    w.work + (actions.map Action.cost).sum ≤ (actions.map (Action.charge kind.reported)).sum := by
  have paid : w.work + (actions.map Action.cost).sum ≤ (start settings kind.new).work +
      (actions.map (Action.charge kind.reported)).sum :=
    run.amortised fun _ _ _ taken => (step_ok taken).work kind.active_length
  have idle : (start settings kind.new).work = 0 := rfl
  rwa [idle, Nat.zero_add] at paid

theorem bounded_work_opening :
    ∃ w, Run (Graph (step PollerKind.exampleSettings KqueueSystem.polling))
        (start PollerKind.exampleSettings .new) (PollerKind.opening none 5) w ∧
      w.stack = [.user, .user] ∧ w.work + 6 ≤ 9 := by
  have ends : endsIn (fun _ _ => True) (step PollerKind.exampleSettings KqueueSystem.polling)
      Fault.notEnabled (start PollerKind.exampleSettings .new) (PollerKind.opening none 5)
      (fun w => decide (w.stack = [.user, .user])) = true := by
    decide +kernel
  obtain ⟨w, run, stack⟩ := run_of_endsIn _ _ ends
  exact ⟨w, run.unguarded, of_decide_eq_true stack, bounded_work .kqueue _ _ w run.unguarded⟩

/-- A running function goes on; the users' code returns, or goes on without a call. -/
def Proceeds {answer : Type} : PipedAction answer → Prop
  | .act (.loop input) => input.charge = 0
  | .act (.other _) | .wakeup | .otherWakeup => True
  | .act _ => False

/-- A step that proceeds leads to a state, or ends in a fault. -/
def Proceeding {σ : Type} {settings : Settings} (pipe : Pipe settings) (impl : Polling σ)
    (before : Except Fault (Piped σ)) (action : PipedAction impl.Answer)
    (after : Except Fault (Piped σ)) : Prop :=
  ∃ s, before = .ok s ∧ Proceeds action ∧ s.step pipe impl action = after ∧
    after ≠ .error .notEnabled

/-- The loop is about to poll, or the program has failed. -/
def Returned {σ : Type} : Except Fault (Piped σ) → Prop
  | .ok s => s.world.AtPoll ∧ s.own = 0
  | .error _ => True

/-- The pipe has room for the bytes that are owed, and for one more with each step that
the running functions have left. -/
def Room {σ : Type} {settings : Settings} (pipe : Pipe settings) (s : Piped σ) : Prop :=
  s.bytes + s.own + s.waking + s.world.work ≤ pipe.capacity

instance {σ : Type} {settings : Settings} (pipe : Pipe settings) (s : Piped σ) :
    Decidable (Room pipe s) := Nat.decLe _ _

/-- The steps that are left, and the bytes that they may owe. -/
def left {σ : Type} : Except Fault (Piped σ) → Nat
  | .ok s => 2 * s.world.work + s.own + s.waking + 1
  | .error _ => 0

/-- What lasts until the loop polls. -/
def Going {σ : Type} {settings : Settings} (pipe : Pipe settings) : Except Fault (Piped σ) → Prop
  | .ok s => s.Fed pipe ∧ Room pipe s
  | .error _ => True

section Progress

variable {kind : PollerKind} {settings : Settings} {pipe : Pipe settings}

/-- A step of a function uses up work, and owes one byte at most. -/
theorem proceeds_act (pipe : Pipe settings) {s : Piped kind.State}
    {action : Action kind.polling.Answer} {w : World kind.State} (proceeds : Proceeds (.act action))
    (taken : s.world.Step settings kind.polling action w) :
    w.work + 1 ≤ s.world.work ∧
      (s.after pipe action w).own + (s.after pipe action w).waking ≤ s.own + s.waking + 1 := by
  have paid := taken.work kind.active_length
  have one := taken.pushed
  constructor
  · cases action with
    | loop input =>
      have free : input.charge = 0 := proceeds
      simp only [Action.cost, Action.charge, free] at paid
      omega
    | other => exact paid
    | _ => cases proceeds
  · by_cases own : action.onLoop = true
    · simp only [Piped.after, own, true_and, if_true, Nat.add_zero]
      split <;> omega
    · simp only [Piped.after, own, Bool.false_eq_true, false_and, if_false, Nat.add_zero]
      omega

theorem going_step {before after : Except Fault (Piped kind.State)}
    {action : PipedAction kind.polling.Answer} (going : Going pipe before)
    (proceeding : Proceeding pipe kind.polling before action after) :
    Going pipe after ∧ left after < left before := by
  obtain ⟨s, rfl, proceeds, stepped, _⟩ := proceeding
  cases after with
  | error => exact ⟨trivial, Nat.succ_pos _⟩
  | ok s' =>
    obtain ⟨fed, room⟩ := going
    have step := Piped.step_ok stepped
    have fed' := fed.step step
    unfold Room at room
    cases step with
    | @act action w taken _ enough =>
      obtain ⟨work, owed⟩ := proceeds_act pipe proceeds taken
      have world : (s.after pipe action w).world = w := rfl
      have bytes : (s.after pipe action w).bytes ≤ s.bytes := Nat.sub_le ..
      refine ⟨⟨fed', ?_⟩, ?_⟩
      · unfold Room
        rw [world]
        omega
      · simp only [left, world]
        omega
    | wakeup owes | otherWakeup owes =>
      refine ⟨⟨fed', ?_⟩, ?_⟩
      · simp only [Room]
        omega
      · simp only [left]
        omega

/-- The loop thread writes the byte that it owes, or takes its next step. -/
theorem going_on {s : Piped kind.State} (fed : s.Fed pipe) (room : Room pipe s)
    (away : ¬ (s.world.AtPoll ∧ s.own = 0)) :
    ∃ action, Proceeds action ∧ s.step pipe kind.polling action ≠ .error .notEnabled := by
  unfold Room at room
  by_cases owes : s.own = 0
  · have goes : ∃ input, input.charge = 0 ∧
        s.world.step settings kind.polling (.loop input) ≠ .error .notEnabled :=
      World.step_possible kind.operate_possible fun waits => away ⟨waits, owes⟩
    obtain ⟨input, free, possible⟩ := goes
    refine ⟨.act (.loop input), free, ?_⟩
    have enough : pipe.reads s.world (.loop input : Action kind.polling.Answer) ≤ s.bytes :=
      le_trans (pipe.reads_le s.world _) fed
    simp only [Piped.step, owes, ne_eq, not_true_eq_false, and_false, if_false]
    split
    · next failed =>
      intro same
      cases same
      exact possible failed
    · rw [if_pos ⟨trivial, enough⟩]
      simp
  · refine ⟨.wakeup, trivial, ?_⟩
    simp only [Piped.step]
    rw [if_pos ⟨owes, by omega⟩]
    simp

end Progress

/-- From every state of any run, for any answers of `readv` and `write` and any
interleaving: while the users make no new call, the loop comes back to its poll, if the
pipe has room for the work that is left. -/
theorem poll_inevitable (kind : PollerKind) (settings : Settings) (pipe : Pipe settings)
    (actions : List (PipedAction kind.polling.Answer)) (s : Piped kind.State)
    (run : Run (Graph (Piped.step pipe kind.polling)) (.start settings kind.new) actions s)
    (room : Room pipe s) : Inevitable (Proceeding pipe kind.polling) Returned (.ok s) := by
  have fed : s.Fed pipe := run.invariant (Piped.start_fed pipe kind.new) fun _ _ _ fed taken =>
    fed.step (Piped.step_ok taken)
  refine inevitable_of_decreasing left (fun _ _ _ => going_step) (fun outcome going => ?_) _
    ⟨fed, room⟩
  cases outcome with
  | error => exact .inl trivial
  | ok s =>
    by_cases waits : s.world.AtPoll ∧ s.own = 0
    · exact .inl waits
    · obtain ⟨action, proceeds, possible⟩ := going_on going.1 going.2 waits
      exact .inr ⟨action, _, s, rfl, proceeds, rfl, possible⟩

/-- One server on the loop, and the wakeup channel beside its connections. -/
def wakeupSettings : Settings := ⟨fun id => (id : Int), [1], true, false⟩

def sixteenBytes : Pipe wakeupSettings := ⟨16, 1, List.mem_singleton.mpr rfl⟩

/-- The loop watches the wakeup channel, reads the byte of a functor that another thread
has queued, and runs this functor, which queues one more. -/
def queuedAgain : List (PipedAction KqueueSystem.polling.Answer) :=
  [.act (.call .queueInLoop), .act (.other 0), .otherWakeup, .act (.poll none),
    .act (.loop .none), .act (.loop .none), .act (.loop (.loopCall (.watch 1))),
    .act (.call .queueInLoop), .act (.other 0), .otherWakeup, .act (.loop .return),
    .act (.loop .none), .act (.poll (some [(1, .read)])), .act (.loop .none), .act (.loop .none),
    .act (.loop .return), .act (.loop .none), .act (.loop .none), .act (.loop .none),
    .act (.loop (.call .queueInLoop)), .act (.loop .none)]

theorem poll_inevitable_queued_again :
    ∃ s, Run (Graph (Piped.step sixteenBytes KqueueSystem.polling))
        (.start wakeupSettings .new) queuedAgain s ∧
      ((s.own = 1 ∧ s.bytes = 1) ∧ Room sixteenBytes s) ∧
      Inevitable (Proceeding sixteenBytes KqueueSystem.polling) Returned (.ok s) := by
  have ends : endsIn (fun _ _ => True) (Piped.step sixteenBytes KqueueSystem.polling)
      Fault.notEnabled (.start wakeupSettings .new) queuedAgain
      (fun s => decide ((s.own = 1 ∧ s.bytes = 1) ∧ Room sixteenBytes s)) = true := by
    decide +kernel
  obtain ⟨s, run, test⟩ := run_of_endsIn _ _ ends
  have owes := of_decide_eq_true test
  exact ⟨s, run.unguarded, owes, poll_inevitable .kqueue _ _ _ s run.unguarded owes.2⟩

end Muduo.Guarantees
