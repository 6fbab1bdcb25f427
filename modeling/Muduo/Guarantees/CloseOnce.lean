import Muduo.Source.ReactorClosing

/-!
# A connection closes at most once

The calls of `forceClose` test `state_` before they close; the inputs that close
a connection, a read of 0 and a hangup, do not. The batch they arrive in was
collected before any of its callbacks ran, so a closing input may find its
connection closed already, and the assertion of `handleClose` fails. Nothing else
makes it fail.
-/
namespace Muduo.Guarantees
open Muduo.Support Muduo.Source Muduo.Source.World

variable {σ : Type} {settings : Settings} {impl : Polling σ} {w w' : World σ}

/-- Other threads do not call into connections; they may queue functors. -/
def OnLoop {answer : Type} (_ : World σ) : Action answer → Prop
  | .call call => call = .queueInLoop
  | _ => True

instance {answer : Type} (w : World σ) (action : Action answer) : Decidable (OnLoop w action) := by
  delta OnLoop
  induction action using Source.Action.casesOn <;> infer_instance

/-- The step does not hand a hangup or an end of input to a connection that is
`kDisconnected`. -/
def NotClosedAgain (settings : Settings) {answer : Type} (w : World σ) (action : Action answer) :
    Prop :=
  match action, w.stack.head? with
  | .loop _, some (.handleEvent c (.close :: _)) => c ∈ settings.aux ∨ w.state c ≠ .kDisconnected
  | .loop (.readv (.bytes [])), some (.handleRead c) => w.state c ≠ .kDisconnected
  | _, _ => True

instance {answer : Type} (w : World σ) (action : Action answer) :
    Decidable (NotClosedAgain settings w action) := by
  unfold NotClosedAgain
  split <;> infer_instance

/-- `handleClose` is entered on an open connection only and its assertion holds; the close
and the down callback have run once at most. -/
structure ClosesOnce (settings : Settings) (impl : Polling σ) (w : World σ) : Prop where
  entered : ∀ c, w.stack.head? = some (.handleClose c) → w.Open c
  asserted : ∀ c, w.stack.head? = some (.handleClose c) ∨
    w.stack.head? = some (.handleCloseSecond c) → ∃ w', w.step settings impl (.loop .none) = .ok w'
  closed : ∀ c, w.trace.count (.closeCallback c) ≤ 1
  down : ∀ c, w.trace.count (.down c) ≤ 1

/-- The functors of the user are all that other threads queue. -/
def Quiet (w : World σ) : Prop := ∀ frame ∈ w.others, frame = .post .user

theorem quiet_step {action : Action impl.Answer} (quiet : Quiet w) (own : OnLoop w action)
    (step : Step settings impl w action w') : Quiet w' := by
  cases step with
  | loop stack advance => exact fun frame member => quiet frame (advance.control.others ▸ member)
  | @other frame before after frames w' others advance =>
    have kept : ∀ other, other ∈ before ∨ other ∈ after → other = .post .user := by
      intro other member
      exact quiet other (by rcases member with member | member <;> simp [others, member])
    have running : frame = .post .user := quiet frame (by simp [others])
    subst running
    cases advance with
    | yes tested | no tested => cases tested
    | post => simpa [Quiet] using fun other member => kept other member
  | call entered =>
    cases own
    cases entered
    intro frame member
    rcases List.mem_append.mp member with member | member
    · exact quiet frame member
    · exact List.mem_singleton.mp member
  | _ => exact quiet

/-- On the loop thread the store of `forceClose` follows its test at once. -/
theorem noLateStore_of_quiet (orderly : w.Orderly) (quiet : Quiet w) {answer : Type}
    (action : Action answer) : w.NoLateStore action := by
  refine noLateStore_iff.mpr fun c runs => ?_
  cases action with
  | loop =>
    have open_ : w.Open c := orderly.knows _ (List.mem_of_mem_head? runs)
    rcases open_ with open_ | open_ <;> simp [open_]
  | other => cases quiet _ (List.mem_of_getElem? runs)
  | _ => cases runs

/-- A frame on its way through the assertion of `handleClose` passes it. -/
def Passes (w : World σ) : Frame → Prop
  | .handleClose c => w.Open c
  | .handleCloseSecond c => w.state c = .kDisconnecting
  | _ => True

theorem passes_of_waits {frame : Frame} (waits : frame.waits = true) : Passes w frame := by
  cases frame <;> trivial

theorem passes_of_foreign {frame : Frame} (calling : frame.foreign = true) : Passes w frame := by
  cases frame <;> trivial

/-- `handleRead` sees the end of the input when `readv` has stored nothing. -/
theorem handleRead_zero {conn conn' : TcpConnection} {answer : ReadvAnswer}
    (read : conn.handleRead answer = .ok (0, conn')) : answer = .bytes [] := by
  have count := TcpConnection.handleRead_count read
  cases answer with
  | error errno => cases count
  | bytes data =>
    have empty : data.length = 0 := Int.ofNat.inj count.symm
    rw [List.length_eq_zero_iff.mp empty]

theorem open_of_ne {c : ConnId} (begun : w.state c ≠ .kConnecting)
    (unclosed : w.state c ≠ .kDisconnected) : w.Open c := by
  cases state : w.state c <;> simp_all [Open]

theorem passes_runInLoop (onLoop : Bool) (task : Task) : Passes w (runInLoop onLoop task) := by
  cases onLoop <;> cases task <;> trivial

/-- What follows a frame passes the assertion, unless the step closes again. -/
theorem passes_advance {answer : Type} {onLoop : Bool} {frame : Frame} {rest : List Frame}
    {input : Input} {frames : List Frame}
    (advance : Advance settings impl onLoop w frame input w' frames)
    (stack : w.stack = frame :: rest) (begun : w.FrameBegun settings frame)
    (before : Passes w frame)
    (unclosed : NotClosedAgain settings w (.loop input : Action answer)) :
    ∀ other ∈ frames, Passes w' other := by
  cases advance with
  | yes tested same => cases frame <;> cases tested <;> simp_all [Passes, Open]
  | no tested different none =>
    cases frame <;> cases tested <;> cases none <;> simp_all [Passes, Open]
  | call entered =>
    have resumed : Passes w .user := trivial
    simp [passes_of_foreign (enter_foreign entered).1, resumed]
  | accept | shutdown | forceCloseStore => simp [passes_runInLoop]
  | @dispatch c event callbacks own =>
    cases event with
    | close =>
      simp only [NotClosedAgain, stack, List.head?_cons] at unclosed
      have open_ := open_of_ne (begun.resolve_left own) (unclosed.resolve_left own)
      simpa [callback, Passes] using open_
    | error | read | write => simp [callback, Passes]
  | sendInLoopStart sent =>
    obtain ⟨answer, _, ran⟩ := sent
    cases ran
    split
    · simp
    · split <;> simp [Passes]
  | handleWrite _ _ ran =>
    obtain ⟨start, _, ⟨_, _, rfl⟩ | ⟨_, rfl, _⟩⟩ := handleWrite_ok ran <;> simp [Passes]
  | handleRead ran =>
    have same := handleRead_state ran
    obtain ⟨n, conn, read, ⟨_, _, rfl⟩ | ⟨zero, _, rfl⟩ | ⟨_, _, rfl⟩⟩ := handleRead_ok ran
    · simp [Passes]
    · subst zero
      cases handleRead_zero read
      simp only [NotClosedAgain, stack, List.head?_cons] at unclosed
      have open_ := open_of_ne begun unclosed
      simpa [Passes, Open, same] using open_
    · simp
  | _ => simp [Passes]

theorem passes_step (orderly : w.Orderly) {mentions : σ → ChannelId → Prop}
    (established : w.Established settings mentions) (passes : ∀ frame ∈ w.stack, Passes w frame)
    {action : Action impl.Answer} (unclosed : NotClosedAgain settings w action)
    (step : Step settings impl w action w') : ∀ frame ∈ w'.stack, Passes w' frame := by
  cases step with
  | @loop frame rest frames _ _ stack advance =>
    have running : frame ∈ w.stack := by simp [stack]
    have follow := passes_advance advance stack (established.stack frame running)
      (passes frame running) unclosed
    intro other member
    rcases List.mem_append.mp member with member | member
    · exact follow other member
    · exact passes_of_waits (orderly.waiting other (by simp [stack, member]))
  | @other frame before after frames w' others advance =>
    have running : frame ∈ w.others := by simp [others]
    have moved := advance.foreign_state (orderly.calling frame running) (orderly.heard frame running)
    intro other member
    have old := passes other (advance.control.stack ▸ member)
    cases other with
    | handleClose c =>
      rcases moved c with same | ⟨_, same⟩
      · rcases old with old | old
        · exact Or.inl (same.trans old)
        · exact Or.inr (same.trans old)
      · exact Or.inr same
    | handleCloseSecond c =>
      rcases moved c with same | ⟨_, same⟩
      · exact same.trans old
      · exact same
    | _ => trivial
  | dispatch => simp [Passes]
  | @start task => cases task <;> simp [Passes, Task.frame]
  | destroy => simp [Passes]
  | swap | again | poll | call | connectElsewhere | removeElsewhere | destroyElsewhere | destruct =>
    exact passes

/-- What holds along a run on the loop thread that closes no connection again. -/
structure Closing (settings : Settings) (mentions : σ → ChannelId → Prop) (w : World σ) :
    Prop where
  orderly : w.Orderly
  quiet : Quiet w
  counted : w.Counted
  established : w.Established settings mentions
  passes : ∀ frame ∈ w.stack, Passes w frame

theorem closing_of_run {mentions : σ → ChannelId → Prop} (lawful : impl.Lawful mentions) {poller : σ}
    (empty : ∀ id, ¬ mentions poller id) {actions : List (Action impl.Answer)}
    (run : Run (Guarded (NotClosedAgain settings) (Guarded OnLoop (Graph (step settings impl))))
      (start settings poller) actions w) : Closing settings mentions w := by
  refine run.invariant ⟨start_orderly settings poller, by simp [Quiet, start],
    start_counted settings poller, start_established settings empty, by simp [start]⟩ ?_
  intro w action w' closing taken
  obtain ⟨unclosed, own, ran⟩ := taken
  have taken := step_ok ran
  have onTime := noLateStore_of_quiet closing.orderly closing.quiet action
  exact ⟨taken.orderly closing.orderly, quiet_step closing.quiet own taken,
    counted_step closing.orderly closing.counted onTime taken,
    closing.established.step lawful closing.orderly taken,
    passes_step closing.orderly closing.established closing.passes unclosed taken⟩

theorem Closing.closesOnce {mentions : σ → ChannelId → Prop}
    (closing : Closing settings mentions w) : ClosesOnce settings impl w where
  entered c top := closing.passes _ (List.mem_of_mem_head? top)
  asserted c top := by
    obtain ⟨frame, rest, stack⟩ : ∃ frame rest, w.stack = frame :: rest := by
      cases stack : w.stack with
      | nil => simp [stack] at top
      | cons frame rest => exact ⟨frame, rest, rfl⟩
    rw [stack, List.head?_cons, Option.some.injEq, Option.some.injEq] at top
    rcases top with rfl | rfl
    · exact step_of_test stack rfl (Or.inr ⟨_, rfl⟩)
    · have passes := closing.passes (.handleCloseSecond c) (by simp [stack])
      exact step_of_test stack rfl (Or.inl passes)
  closed c := by
    have counted := closing.counted.closes c
    have downs := closing.counted.downs c
    have count : w.trace.count (.closeCallback c) = w.closes c :=
      (List.count_filter rfl).symm
    split at downs <;> omega
  down c := by
    have downs := closing.counted.downs c
    have count : w.trace.count (.down c) = w.downs c := (List.count_filter rfl).symm
    split at downs <;> omega

/-- `handleClose` on a connection that is `kDisconnected`: both tests fail. -/
theorem handleClose_fails {c : ConnId} {rest : List Frame} (stack : w.stack = .handleClose c :: rest)
    (closed : w.state c = .kDisconnected) :
    ∃ w', w.step settings impl (.loop .none) = .ok w' ∧
      w'.step settings impl (.loop .none) = .error (.assertFailed .handleClose) := by
  refine ⟨{ w with stack := .handleCloseSecond c :: rest }, ?_, ?_⟩
  · simp [step, stack, advance, Frame.test, closed]
  · have closed' : World.state { w with stack := .handleCloseSecond c :: rest } c =
        .kDisconnected := closed
    simp [step, advance, Frame.test, closed']

/-- A step that closes again leads the loop thread into the failing assertion. -/
theorem closedAgain_fails {action : Action impl.Answer}
    (again : ¬ NotClosedAgain settings w action) (step : Step settings impl w action w') :
    ∃ c rest, w'.stack = .handleClose c :: rest ∧ w'.state c = .kDisconnected := by
  unfold NotClosedAgain at again
  split at again
  · next input c callbacks head =>
    simp only [not_or, not_not] at again
    obtain ⟨own, closed⟩ := again
    obtain ⟨_, _, _, _, advance, rfl⟩ := step.advanced head
    cases advance with
    | yes tested | no tested => cases tested
    | dispatchAux aux => exact absurd aux own
    | dispatch => exact ⟨c, _, rfl, closed⟩
  · next c head =>
    have closed : w.state c = .kDisconnected := not_not.mp again
    obtain ⟨_, _, _, _, advance, rfl⟩ := step.advanced head
    cases advance with
    | handleRead ran =>
      have same := handleRead_state ran
      obtain ⟨n, conn, read, outcome⟩ := handleRead_ok ran
      have zero : n = 0 := TcpConnection.handleRead_count read
      rcases outcome with ⟨positive, _⟩ | ⟨_, rfl, rfl⟩ | ⟨negative, _⟩
      · omega
      · exact ⟨c, _, rfl, (congrFun same c).trans closed⟩
      · omega
  · exact absurd trivial again

/-- Over either poller, with calls made on the loop thread: while no hangup and no end
of input reaches a connection that is `kDisconnected`, connections close once. The first
such input brings the loop thread to the failing assertion in two more steps. -/
theorem close_once_exact (kind : PollerKind) (settings : Settings)
    (actions : List (Action kind.polling.Answer)) (w : World kind.State)
    (run : Run (Guarded (NotClosedAgain settings)
        (Guarded OnLoop (Graph (step settings kind.polling))))
      (start settings kind.new) actions w) :
    ClosesOnce settings kind.polling w ∧
      ∀ action w', OnLoop w action → ¬ NotClosedAgain settings w action →
        w.step settings kind.polling action = .ok w' →
        ∃ w'', w'.step settings kind.polling (.loop .none) = .ok w'' ∧
          w''.step settings kind.polling (.loop .none) =
            .error (.assertFailed .handleClose) := by
  have closing := closing_of_run kind.lawful kind.new_mentions run
  refine ⟨closing.closesOnce, fun action w' _ again ran => ?_⟩
  obtain ⟨c, rest, stack, closed⟩ := closedAgain_fails again (step_ok ran)
  exact handleClose_fails stack closed

/-- A connection has unsent output; one batch reports it writable, then readable. -/
def listedTwice : List (Action KqueueSystem.polling.Answer) :=
  PollerKind.opening none 5 ++
    [.loop (.call (.send 5 ⟨[97], Message.byte_le⟩)), .loop .none, .loop .none,
      .loop (.write .wouldBlock), .loop .none, .loop .return, .loop .return, .loop .none,
      .poll (some [(5, .write), (5, .read)]), .loop .none, .loop .none]

/-- The first of the two dispatches reads 0 and closes the connection. -/
def closedByFirst : List (Action KqueueSystem.polling.Answer) :=
  listedTwice ++
    [.loop (.readv (.bytes [])), .loop .none, .loop .none, .loop .return, .loop .none]

theorem close_once_exact_closed_by_first :
    ∃ w, Run (Guarded (NotClosedAgain PollerKind.exampleSettings)
        (Guarded OnLoop (Graph (step PollerKind.exampleSettings KqueueSystem.polling))))
        (start PollerKind.exampleSettings .new) closedByFirst w ∧
      (.closeCallback 5 ∈ w.trace ∧ .down 5 ∈ w.trace) ∧
      ClosesOnce PollerKind.exampleSettings KqueueSystem.polling w := by
  have ends : endsIn (fun w action =>
        NotClosedAgain PollerKind.exampleSettings w action ∧ OnLoop w action)
      (step PollerKind.exampleSettings KqueueSystem.polling) Fault.notEnabled
      (start PollerKind.exampleSettings .new) closedByFirst
      (fun w => decide (.closeCallback 5 ∈ w.trace ∧ .down 5 ∈ w.trace)) = true := by
    decide +kernel
  obtain ⟨w, run, closed⟩ := run_of_endsIn _ _ ends
  have run : Run (Guarded (NotClosedAgain PollerKind.exampleSettings)
      (Guarded OnLoop (Graph (step PollerKind.exampleSettings KqueueSystem.polling)))) _ _ w :=
    run.mono fun _ _ _ taken => ⟨taken.1.1, taken.1.2, taken.2⟩
  exact ⟨w, run, of_decide_eq_true closed, (close_once_exact .kqueue _ _ w run).1⟩

/-- The loop thread stands at the second test of a `handleClose` that will fail. -/
def failsNext (c : ConnId) (w : World KqueueSystem) : Bool :=
  w.stack.head? == some (.handleCloseSecond c) && w.state c == .kDisconnected &&
    match w.step PollerKind.exampleSettings KqueueSystem.polling (.loop .none) with
    | .error e => e == .assertFailed .handleClose
    | .ok _ => false

/-- The channel is in the batch twice, and both entries say readable: the second read of
0 closes the closed connection, and the assertion fails. -/
theorem listed_twice_closes_twice :
    ∃ w, Run (Guarded OnLoop (Graph (step PollerKind.exampleSettings KqueueSystem.polling)))
        (start PollerKind.exampleSettings .new)
        (closedByFirst ++ [.loop .none, .loop .none, .loop .none, .loop (.readv (.bytes [])),
          .loop .none]) w ∧ failsNext 5 w = true :=
  run_of_endsIn Fault.notEnabled (failsNext 5) (by decide +kernel)

end Muduo.Guarantees
