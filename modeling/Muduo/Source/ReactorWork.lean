import Muduo.Source.ReactorExecution
import Muduo.Source.ReactorPollers
import Muduo.Support.Potential

/-!
# The work that a loop has before it

Each frame, functor and reported channel stands for a number of steps. A step of a running
function uses up one of them at least; only new calls and reports of the kernel bring more.
-/
namespace Muduo.Source
open Muduo.Support

/-- The steps of a functor, with the step that starts it. -/
def Task.work : Task → Nat
  | .sendInLoop .. => 6
  | .shutdownInLoop _ => 2
  | .forceClose _ => 13
  | .writeComplete _ => 3
  | .connectEstablished _ => 4
  | .connectDestroyed _ => 5
  | .user => 2

/-- The steps of a frame and of what it leads to, if the user's code only returns. -/
def Frame.work : Frame → Nat
  | .user => 1
  | .send .. => 8
  | .sendInLoop .. => 5
  | .sendInLoopStart .. => 4
  | .sendInLoopRest .. => 1
  | .shutdown _ => 4
  | .shutdownInLoop _ => 1
  | .forceClose _ => 17
  | .forceCloseSecond _ => 16
  | .forceCloseStore _ => 15
  | .closeTask _ => 12
  | .closeTaskSecond _ => 11
  | .handleClose _ => 10
  | .handleCloseSecond _ => 9
  | .handleCloseStore _ => 8
  | .handleCloseRest _ => 6
  | .connectEstablished _ => 3
  | .connectEstablishedStore _ => 2
  | .connectDestroyed _ => 4
  | .connectDestroyedStore _ => 3
  | .connectDestroyedRest _ => 1
  | .handleRead _ => 11
  | .handleWrite _ => 6
  | .handleWriteState _ => 2
  | .handleEvent _ callbacks => 1 + 12 * callbacks.length
  | .writeComplete _ => 2
  | .post task => task.work + 1

@[simp] theorem Task.work_frame (task : Task) : task.frame.work + 1 = task.work := by
  cases task <;> rfl

/-- The frame that a call brings. -/
def Call.work : Call → Nat
  | .send .. => 8
  | .shutdown _ => 4
  | .forceClose _ => 17
  | .queueInLoop => 3

/-- A call of the user's code is a step that its own frame does not account for. -/
def Input.charge : Input → Nat
  | .call made => made.work + 1
  | .loopCall (.newConnection _) => 4
  | .loopCall _ => 1
  | _ => 0

/-- The steps that an action asks for; `size` is the number of channels that an answer reports. -/
def Action.charge {answer : Type} (size : answer → Nat) : Action answer → Nat
  | .loop input => input.charge
  | .poll reported => 50 * size reported + 2
  | .call made => made.work
  | .destroy _ | .connectElsewhere _ => 4
  | .removeElsewhere _ | .destroyElsewhere _ => 5
  | .other _ | .destruct _ => 0

/-- A step of a running function, on the loop's thread or on another one. -/
def Action.cost {answer : Type} : Action answer → Nat
  | .loop _ | .other _ => 1
  | _ => 0

/-- Up to four callbacks for each channel, and the way through the functors to the poll. -/
def Phase.work : Phase → Nat
  | .polling => 0
  | .dispatching active => 50 * active.length + 2
  | .functors _ => 1

/-- A write-complete task is queued when nothing of the message remains. -/
theorem TcpConnection.rest_of_complete {conn : TcpConnection} {ch : Channel} {data : Bytes}
    {answer : WriteAnswer} (complete : (conn.sendInLoopStart ch data answer).complete = true) :
    (conn.sendInLoopStart ch data answer).rest = [] := by
  cases answer with
  | accepted k =>
    simp only [sendInLoopStart, Bool.and_eq_true, decide_eq_true_eq] at complete
    simp only [sendInLoopStart, nWrote, complete.1.1, if_true, WriteAnswer.count]
    exact List.drop_eq_nil_of_le complete.1.2
  | wouldBlock | failed => cases complete

/-- How many channels an answer of the kernel can make active. -/
def PollerKind.reported : (kind : PollerKind) → kind.polling.Answer → Nat
  | .kqueue => fun (answer : Option (List (Int × Filter))) => (answer.getD []).length
  | .poll => fun (answer : PollPoller.PollAnswer) =>
    match answer with
    | .error => 0
    | .events numEvents _ => numEvents

theorem KqueueSystem.poll_length {heap heap' : ChannelHeap} {s s' : KqueueSystem}
    {answer : KqueueSystem.PollAnswer} {active : List ChannelId}
    (polled : KqueueSystem.poll heap s answer = .ok (heap', s', active)) :
    active.length = (answer.getD []).length := by
  unfold KqueueSystem.poll at polled
  split at polled
  · cases polled
    rfl
  · cases polled
    rfl
  · next records _ =>
    split at polled <;> cases polled
    simp [fill_active]

/-- The loop of `fillActiveChannels` counts `num_events` down. -/
theorem PollPoller.fill_length {channels : FdMap ChannelId} {heap heap' : ChannelHeap}
    {pollFds : List Pollfd} {numEvents : Nat} {active : List ChannelId}
    (filled : fill channels heap pollFds numEvents = .ok (heap', active)) :
    active.length ≤ numEvents := by
  induction pollFds generalizing heap numEvents heap' active with
  | nil =>
    cases filled
    exact Nat.zero_le _
  | cons pfd rest ih =>
    cases numEvents with
    | zero =>
      cases filled
      exact Nat.zero_le _
    | succ numEvents =>
      simp only [fill] at filled
      split at filled
      · exact ih filled
      · split at filled
        · cases filled
        · split at filled
          · cases filled
          · split at filled <;> cases filled
            next filled => exact Nat.succ_le_succ (ih filled)

theorem PollerKind.active_length (kind : PollerKind) {heap heap' : ChannelHeap}
    {s s' : kind.State} {answer : kind.polling.Answer} {active : List ChannelId}
    (polled : kind.polling.poll heap s answer = .ok (heap', s', active)) :
    active.length ≤ kind.reported answer := by
  cases kind with
  | kqueue =>
    have reports := KqueueSystem.poll_length polled
    cases answer with
    | none => exact le_of_eq reports
    | some ready => exact le_trans (le_of_eq reports) (List.length_filterMap_le _ _)
  | poll =>
    cases answer with
    | error =>
      cases polled
      exact le_refl 0
    | events numEvents revents =>
      simp only [polling, PollPoller.polling, PollPoller.poll] at polled
      split at polled <;> cases polled
      next filled => exact PollPoller.fill_length filled

namespace World

variable {σ : Type} {settings : Settings} {impl : Polling σ} {w w' : World σ}

def work (w : World σ) : Nat :=
  (w.stack.map Frame.work).sum + (w.others.map Frame.work).sum + (w.tasks.map Task.work).sum +
    w.phase.work

theorem enter_work {call : Call} {frame : Frame} (entered : w.enter call = .ok frame) :
    frame.work = call.work := by
  cases call with
  | queueInLoop =>
    cases entered
    rfl
  | send | shutdown | forceClose =>
    simp only [enter] at entered
    split at entered <;> cases entered
    rfl

theorem sum_frames (frame : Frame) (frames : List Frame) :
    ((frame :: frames).map Frame.work).sum = frame.work + (frames.map Frame.work).sum := rfl

theorem sum_none : (([] : List Frame).map Frame.work).sum = 0 := rfl

theorem sum_queued (tasks : List Task) (task : Task) :
    ((tasks ++ [task]).map Task.work).sum = (tasks.map Task.work).sum + task.work := by
  simp only [List.map_append, List.sum_append, List.map_cons, List.map_nil, List.sum_cons,
    List.sum_nil, Nat.add_zero]

/-- A step of a frame is paid by the frame. -/
theorem Advance.work {onLoop : Bool} {frame : Frame} {input : Input} {frames : List Frame}
    (advance : Advance settings impl onLoop w frame input w' frames) :
    (frames.map Frame.work).sum + (w'.pending.map Task.work).sum + 1 ≤
      frame.work + (w.pending.map Task.work).sum + input.charge := by
  cases advance with
  | yes tested =>
    cases frame <;> cases tested <;>
      simp only [sum_frames, sum_none, Frame.work, Input.charge] <;> omega
  | no tested _ none =>
    cases frame <;> cases tested <;> cases none <;>
      simp only [sum_frames, sum_none, Frame.work, Input.charge] <;> omega
  | call entered =>
    rw [sum_frames, enter_work entered]
    simp only [sum_frames, sum_none, Frame.work, Input.charge]
    omega
  | @adjust _ call =>
    have charged : 1 ≤ (Input.loopCall call).charge := by
      cases call <;> simp only [Input.charge] <;> omega
    simp only [sum_frames, sum_none, setConn]
    omega
  | construct =>
    simp only [sum_frames, sum_none, Frame.work, Input.charge, World.construct]
    omega
  | watch _ operated =>
    simp only [sum_frames, sum_none, Frame.work, Input.charge, operate_pending operated]
    omega
  | «return» | reject | shutdownLate | shutdownDeferred | handleWriteIdle =>
    simp only [sum_none, Frame.work, Input.charge]
    omega
  | dispatched =>
    simp only [sum_none, Frame.work, Input.charge, List.length_nil]
    omega
  | accept | shutdown | forceCloseStore =>
    cases onLoop <;> simp only [sum_frames, sum_none, Frame.work, Input.charge, runInLoop,
      Bool.false_eq_true, if_false, if_true, Task.frame, Task.work, note, setState, setConn] <;> omega
  | post =>
    simp only [sum_none, Frame.work, Input.charge, queue, sum_queued]
    omega
  | shutdownWrite =>
    simp only [sum_none, Frame.work, Input.charge, note, setSocket]
    omega
  | handleCloseStore down | connectDestroyedStore down =>
    have pending : w'.pending = w.pending := (operate_pending down).trans rfl
    simp only [sum_frames, sum_none, Frame.work, Input.charge, pending]
    omega
  | connectEstablishedStore enabled =>
    have pending : w'.pending = w.pending := (operate_pending enabled).trans rfl
    simp only [sum_frames, sum_none, Frame.work, Input.charge, pending]
    omega
  | connectDestroyedRest removed =>
    simp only [sum_none, Frame.work, Input.charge, operate_pending removed]
    omega
  | closeHere _ removed =>
    obtain ⟨_, rfl⟩ := removeConnectionInLoop_ok.mp removed
    simp only [sum_none, Frame.work, Input.charge, queue, note, sum_queued, Task.work]
    omega
  | closeElsewhere =>
    simp only [sum_none, Frame.work, Input.charge, note]
    omega
  | @sendInLoopStart own id message _ _ _ sent =>
    obtain ⟨answer, _, ran⟩ := sent
    obtain ⟨rfl, rfl⟩ := Prod.mk.inj ran
    cases complete : ((w.conns own).sendInLoopStart (w.heap own) message.bytes answer).complete with
    | true =>
      have none := TcpConnection.rest_of_complete complete
      simp only [none, if_true, sum_none, sum_queued, Frame.work, Task.work]
      omega
    | false =>
      simp only [Bool.false_eq_true, if_false, List.append_nil]
      split_ifs <;> simp only [sum_frames, sum_none, Frame.work] <;> omega
  | @sendInLoopRest own id rest _ appended =>
    obtain ⟨conn, _, ⟨_, rfl⟩ | ⟨_, operated⟩⟩ := sendInLoopRest_ok appended
    · simp only [sum_none, Frame.work, Input.charge, note, setConn]
      omega
    · have pending : w'.pending = w.pending := (operate_pending operated).trans rfl
      simp only [sum_none, Frame.work, Input.charge, pending]
      omega
  | handleRead read =>
    obtain ⟨_, conn, _, ⟨_, rfl, rfl⟩ | ⟨_, rfl, rfl⟩ | ⟨_, rfl, rfl⟩⟩ := handleRead_ok read <;>
      simp only [sum_frames, sum_none, Frame.work, Input.charge, note, setConn] <;> omega
  | handleWrite _ _ wrote =>
    obtain ⟨start, _, ⟨_, rfl, rfl⟩ | ⟨_, rfl, w₁, operated, rfl⟩⟩ := handleWrite_ok wrote
    · simp only [sum_none, Frame.work, Input.charge, World.wrote, note, setConn, setSocket]
      omega
    · have pending : w₁.pending = w.pending := (operate_pending operated).trans rfl
      cases start.conn.writeCompleteCallback <;>
        simp only [sum_frames, sum_none, Frame.work, Input.charge, pending, Bool.false_eq_true,
          if_false, if_true, List.append_nil, sum_queued, Task.work] <;>
        omega
  | dispatchAux =>
    simp only [sum_frames, sum_none, Frame.work, Input.charge, List.length_cons]
    omega
  | @dispatch _ event =>
    cases event <;>
      simp only [callback, List.cons_append, List.nil_append, sum_frames, sum_none, Frame.work,
        Input.charge, List.length_cons] <;>
      omega
  | writeComplete =>
    simp only [sum_frames, sum_none, Frame.work, Input.charge]
    omega

theorem handleEvent_length (ch : Channel) : ch.handleEvent.length ≤ 4 := by
  simp only [Channel.handleEvent, Channel.callbacks, List.length_append]
  split_ifs <;> simp

/-- The work of the functors, if the phase stays. -/
theorem work_tasks (phase : w'.phase = w.phase) :
    (w'.tasks.map Task.work).sum + (w.pending.map Task.work).sum =
      (w.tasks.map Task.work).sum + (w'.pending.map Task.work).sum := by
  simp only [tasks, phase, List.map_append, List.sum_append]
  omega

/-- A step is paid by what it was charged, or by the work that it does. -/
theorem Step.work {action : Action impl.Answer} {size : impl.Answer → Nat}
    (reports : ∀ {heap heap' : ChannelHeap} {s s' : σ} {answer : impl.Answer}
      {active : List ChannelId}, impl.poll heap s answer = .ok (heap', s', active) →
      active.length ≤ size answer)
    (step : Step settings impl w action w') :
    w'.work + action.cost ≤ w.work + action.charge size := by
  cases step with
  | @loop frame rest frames input v stack advance =>
    have paid := advance.work
    have control := advance.control
    have tasks := work_tasks control.phase
    have after : World.work { v with stack := frames ++ rest } =
        ((frames ++ rest).map Frame.work).sum + (v.others.map Frame.work).sum +
          (v.tasks.map Task.work).sum + v.phase.work := rfl
    rw [after, World.work, stack, control.others, control.phase]
    simp only [List.map_append, List.sum_append, List.map_cons, List.sum_cons, Action.cost,
      Action.charge]
    omega
  | @other frame before after frames v others advance =>
    have paid := advance.work
    have control := advance.control
    have tasks := work_tasks control.phase
    have result : World.work { v with others := before ++ frames ++ after } =
        (v.stack.map Frame.work).sum + ((before ++ frames ++ after).map Frame.work).sum +
          (v.tasks.map Task.work).sum + v.phase.work := rfl
    rw [result, World.work, others, control.stack, control.phase]
    simp only [List.map_append, List.sum_append, List.map_cons, List.sum_cons, Action.cost,
      Action.charge, Input.charge] at paid ⊢
    omega
  | @dispatch id active stack phase =>
    have few := handleEvent_length (w.heap id)
    simp only [World.work, World.tasks, stack, phase, Phase.work, Frame.work, List.map_cons,
      List.map_nil, List.sum_cons, List.sum_nil, List.length_cons, Action.cost, Action.charge,
      List.nil_append]
    omega
  | swap stack phase =>
    simp only [World.work, World.tasks, stack, phase, Phase.work, List.map_nil, List.sum_nil,
      List.length_nil, List.nil_append, List.append_nil, Action.cost, Action.charge, Input.charge]
    omega
  | @start task batch stack phase =>
    have paid := task.work_frame
    simp only [World.work, World.tasks, stack, phase, Phase.work, List.map_append, List.map_cons,
      List.map_nil, List.sum_append, List.sum_cons, List.sum_nil, Action.cost, Action.charge]
    omega
  | again stack phase =>
    simp only [World.work, World.tasks, stack, phase, Phase.work, List.nil_append, Action.cost,
      Action.charge, Input.charge]
    omega
  | @poll reported _ _ active stack phase _ polled =>
    have few := reports polled
    simp only [World.work, World.tasks, stack, phase, Phase.work, Action.cost, Action.charge]
    omega
  | destroy _ stack =>
    simp only [World.work, World.tasks, stack, Frame.work, List.map_cons, List.sum_cons,
      Action.cost, Action.charge]
    omega
  | call entered =>
    simp only [World.work, World.tasks, List.map_append, List.sum_append, List.map_cons,
      List.map_nil, List.sum_cons, List.sum_nil, enter_work entered, Action.cost, Action.charge]
    omega
  | connectElsewhere | removeElsewhere | destroyElsewhere =>
    simp only [World.work, World.tasks, World.queue, World.construct, List.map_append,
      List.sum_append, List.map_cons, List.map_nil, List.sum_cons, List.sum_nil, Task.work,
      Action.cost, Action.charge]
    omega
  | destruct => exact le_refl _

end World

end Muduo.Source
