import Muduo.Source.Reactor

/-!
# Steps of a reactor

The loop thread takes the next step of its innermost frame, or of
`EventLoop::loop` when no frame is left; a poll returns; another thread begins a
call or takes its next step. The server's own loop may be another one: then its
calls arrive here through the queue. A connection is destructed once nothing
holds it any more.
-/
namespace Muduo.Source
open Muduo.Support

/-- The connection that a functor holds a strong reference to. -/
def Task.holds : Task → Option ConnId
  | .sendInLoop c _ _ | .shutdownInLoop c | .forceClose c | .connectEstablished c
  | .connectDestroyed c => some c
  | .writeComplete _ | .user => none

/-- The connection that a frame runs a function of, or is about to post one for. -/
def Frame.conn : Frame → Option ConnId
  | .user => none
  | .send c _ | .sendInLoop c _ _ | .sendInLoopStart c _ _ | .sendInLoopRest c _ _
  | .shutdown c | .shutdownInLoop c | .forceClose c | .forceCloseSecond c | .forceCloseStore c
  | .closeTask c | .closeTaskSecond c | .handleClose c | .handleCloseSecond c
  | .handleCloseStore c | .handleCloseRest c | .connectEstablished c | .connectEstablishedStore c
  | .connectDestroyed c | .connectDestroyedStore c | .connectDestroyedRest c
  | .handleRead c | .handleWrite c | .handleWriteState c | .handleEvent c _
  | .writeComplete c => some c
  | .post task => task.holds

/-- `answer` stands for what the kernel may answer to a poll. -/
inductive Action (answer : Type) where
  | loop (input : Input)
  | poll (reported : answer)
  /-- `~TcpServer`, for one connection, on this loop outside of any callback -/
  | destroy (c : ConnId)
  /-- another thread begins a call -/
  | call (call : Call)
  /-- the thread with this position in `others` goes on -/
  | other (position : Nat)
  /-- the server's own loop: `newConnection`, `removeConnectionInLoop`, `~TcpServer` -/
  | connectElsewhere (c : ConnId)
  | removeElsewhere (c : ConnId)
  | destroyElsewhere (c : ConnId)
  /-- the last reference is gone -/
  | destruct (c : ConnId)

namespace World

variable {σ : Type}

/-- The functors still to run: of the batch, then queued. -/
def tasks (w : World σ) : List Task :=
  (match w.phase with
    | .functors batch => batch
    | .polling | .dispatching _ => []) ++ w.pending

/-- The channels still to dispatch. -/
def active (w : World σ) : List ChannelId :=
  match w.phase with
  | .dispatching active => active
  | .polling | .functors _ => []

/-- Neither the server, nor a functor, nor a running call holds the connection. -/
def Unreferenced (w : World σ) (c : ConnId) : Prop :=
  c ∉ w.table ∧ c ∉ w.removing ∧ (∀ task ∈ w.tasks, task.holds ≠ some c) ∧
    (∀ frame ∈ w.stack, frame.conn ≠ some c) ∧ ∀ frame ∈ w.others, frame.conn ≠ some c

instance (w : World σ) (c : ConnId) : Decidable (w.Unreferenced c) := by
  unfold Unreferenced; infer_instance

/-- `EventLoop::loop` between two callbacks. -/
def continueLoop (w : World σ) (input : Input) : Except Fault (World σ) :=
  match w.phase, input with
  | .dispatching (id :: active), .none =>
    .ok { w with
      phase := .dispatching active
      stack := [.handleEvent id (w.heap id).handleEvent] }
  | .dispatching [], .none => .ok { w with phase := .functors w.pending, pending := [] }
  | .functors (task :: batch), .none =>
    .ok { w with phase := .functors batch, stack := [task.frame] }
  | .functors [], .none => .ok { w with phase := .polling }
  | _, _ => .error .notEnabled

variable (settings : Settings) (impl : Polling σ)

def step (w : World σ) : Action impl.Answer → Except Fault (World σ)
  | .loop input =>
    match w.stack with
    | [] => w.continueLoop input
    | frame :: rest =>
      match w.advance settings impl true frame input with
      | .ok (w, frames) => .ok { w with stack := frames ++ rest }
      | .error e => .error e
  | .poll reported =>
    if w.stack = [] ∧ w.phase = .polling ∧ impl.reports w.poller reported then
      match impl.poll w.heap w.poller reported with
      | .ok (heap, poller, active) =>
        .ok { w with heap := heap, poller := poller, phase := .dispatching active }
      | .error e => .error e
    else .error .notEnabled
  | .destroy c =>
    if settings.serverHere ∧ w.stack = [.user] ∧ c ∈ w.table then
      .ok { w with table := w.table.erase c, stack := [.connectDestroyed c, .user] }
    else .error .notEnabled
  | .call call =>
    match w.enter call with
    | .ok frame => .ok { w with others := w.others ++ [frame] }
    | .error e => .error e
  | .other position =>
    match w.others[position]? with
    | none => .error .notEnabled
    | some frame =>
      match w.advance settings impl false frame .none with
      | .ok (w, frames) =>
        .ok { w with others := w.others.take position ++ frames ++ w.others.drop (position + 1) }
      | .error e => .error e
  | .connectElsewhere c =>
    if ¬ settings.serverHere ∧ w.Fresh settings c then
      .ok ((w.construct c).queue (.connectEstablished c))
    else .error .notEnabled
  | .removeElsewhere c =>
    if c ∈ w.removing then
      { w with removing := w.removing.erase c }.removeConnectionInLoop c
    else .error .notEnabled
  | .destroyElsewhere c =>
    if ¬ settings.serverHere ∧ c ∈ w.table then
      .ok ({ w with table := w.table.erase c }.queue (.connectDestroyed c))
    else .error .notEnabled
  | .destruct c =>
    if w.Live c ∧ w.Unreferenced c then
      if w.state c = .kDisconnected then
        .ok { w with
          destructed := w.destructed ++ [c]
          poller := impl.closed w.poller (settings.fdOf c) }
      else .error (.assertFailed .tcpConnectionDtor)
    else .error .notEnabled

end World

end Muduo.Source
