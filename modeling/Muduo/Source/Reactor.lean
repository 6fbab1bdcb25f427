import Muduo.Support.Transition
import Muduo.Source.Poller
import Muduo.Source.TcpConnection

/-!
# A reactor: one loop, its connections and the threads that call them

The loop thread runs `EventLoop::loop` over a poller; callbacks of the user may
call back into any connection, so the thread's position is a stack of frames.
Each load, store or compare-and-swap of `state_` is a step of its own, and other
threads take such steps in between. A frame names a point of a function: the
function's name for its entry, with `Second` for the second operand of a test,
`Store` for the branch that writes `state_`, `Rest` for what follows a callback.
-/
namespace Muduo.Source
open Muduo.Support

/-- A connection is named by the address of the channel it owns. -/
abbrev ConnId := ChannelId

/-- Each call of `send` that finds the connection open gets a number. -/
abbrev SendId := Nat

/-- The functors that the library queues, and those of the user. -/
inductive Task where
  | sendInLoop (c : ConnId) (id : SendId) (message : Message)
  | shutdownInLoop (c : ConnId)
  | forceClose (c : ConnId)
  | writeComplete (c : ConnId)
  | connectEstablished (c : ConnId)
  | connectDestroyed (c : ConnId)
  | user
  deriving DecidableEq, Repr

inductive Frame where
  | user
  | send (c : ConnId) (message : Message)
  | sendInLoop (c : ConnId) (id : SendId) (message : Message)
  | sendInLoopStart (c : ConnId) (id : SendId) (message : Message)
  | sendInLoopRest (c : ConnId) (id : SendId) (rest : Message)
  | shutdown (c : ConnId)
  | shutdownInLoop (c : ConnId)
  | forceClose (c : ConnId)
  | forceCloseSecond (c : ConnId)
  | forceCloseStore (c : ConnId)
  | closeTask (c : ConnId)
  | closeTaskSecond (c : ConnId)
  | handleClose (c : ConnId)
  | handleCloseSecond (c : ConnId)
  | handleCloseStore (c : ConnId)
  | handleCloseRest (c : ConnId)
  | connectEstablished (c : ConnId)
  | connectEstablishedStore (c : ConnId)
  | connectDestroyed (c : ConnId)
  | connectDestroyedStore (c : ConnId)
  | connectDestroyedRest (c : ConnId)
  | handleRead (c : ConnId)
  | handleWrite (c : ConnId)
  | handleWriteState (c : ConnId)
  | handleEvent (id : ChannelId) (callbacks : List EventCallback)
  | writeComplete (c : ConnId)
  | post (task : Task)
  deriving DecidableEq, Repr

/-- What the loop thread executes for a functor. -/
def Task.frame : Task → Frame
  | .sendInLoop c id message => .sendInLoop c id message
  | .shutdownInLoop c => .shutdownInLoop c
  | .forceClose c => .closeTask c
  | .writeComplete c => .writeComplete c
  | .connectEstablished c => .connectEstablished c
  | .connectDestroyed c => .connectDestroyed c
  | .user => .user

/-- `EventLoop::runInLoop`: at once on the loop thread, else through the queue. -/
def runInLoop (onLoop : Bool) (task : Task) : Frame := if onLoop then task.frame else .post task

/-- A load of `state_` compared with one value, and how the function goes on. -/
structure StateTest where
  conn : ConnId
  expected : StateE
  yes : List Frame
  no : Except Fault (List Frame)

/-- The comparisons of `state_` that do nothing else. -/
def Frame.test : Frame → Option StateTest
  | .sendInLoop c id message =>
    some ⟨c, .kDisconnected, [], .ok [.sendInLoopStart c id message]⟩
  | .forceClose c => some ⟨c, .kConnected, [.forceCloseStore c], .ok [.forceCloseSecond c]⟩
  | .forceCloseSecond c => some ⟨c, .kDisconnecting, [.forceCloseStore c], .ok []⟩
  | .closeTask c => some ⟨c, .kConnected, [.handleClose c], .ok [.closeTaskSecond c]⟩
  | .closeTaskSecond c => some ⟨c, .kDisconnecting, [.handleClose c], .ok []⟩
  | .handleClose c => some ⟨c, .kConnected, [.handleCloseStore c], .ok [.handleCloseSecond c]⟩
  | .handleCloseSecond c =>
    some ⟨c, .kDisconnecting, [.handleCloseStore c], .error (.assertFailed .handleClose)⟩
  | .connectEstablished c =>
    some ⟨c, .kConnecting, [.connectEstablishedStore c],
      .error (.assertFailed .connectEstablished)⟩
  | .connectDestroyed c =>
    some ⟨c, .kConnected, [.connectDestroyedStore c], .ok [.connectDestroyedRest c]⟩
  | .handleWriteState c => some ⟨c, .kDisconnecting, [.shutdownInLoop c], .ok []⟩
  | _ => none

/-- What an observer sees of a connection. -/
inductive Event where
  /-- `connectionCallback_` on a new, or on a closed connection -/
  | up (c : ConnId)
  | down (c : ConnId)
  | closeCallback (c : ConnId)
  | messageCallback (c : ConnId)
  /-- a `send` that found `kConnected` -/
  | accepted (c : ConnId) (id : SendId) (message : Message)
  /-- a `::write` on behalf of a send, or of `handleWrite` -/
  | write (c : ConnId) (sender : Option SendId) (requested taken : Bytes)
  | append (c : ConnId) (id : SendId) (data : Bytes)
  | shutdownWrite (c : ConnId)
  deriving DecidableEq, Repr

/-- Where `EventLoop::loop` stands when the stack is empty. -/
inductive Phase where
  | polling
  | dispatching (active : List ChannelId)
  | functors (batch : List Task)
  deriving DecidableEq, Repr

/-- `calling_pending_functors_`. -/
def Phase.inFunctors : Phase → Bool
  | .functors _ => true
  | .polling | .dispatching _ => false

/-- What a reactor needs of a poller: the operations, the answers that the kernel
may give, `poll`, and the kernel's reaction to a closed descriptor. -/
structure Polling (σ : Type) extends PollerImpl σ where
  Answer : Type
  reports : σ → Answer → Bool
  poll : ChannelHeap → σ → Answer → Except Fault (ChannelHeap × σ × List ChannelId)
  closed : σ → Int → σ

structure Settings where
  /-- the descriptor that each channel gets -/
  fdOf : ChannelId → Int
  /-- channels of other components: wakeup, acceptor -/
  aux : List ChannelId
  /-- the server's loop is this one -/
  serverHere : Bool
  writeCompleteCallback : Bool

structure World (σ : Type) where
  conns : ConnId → TcpConnection
  sockets : ConnId → SocketStream
  heap : ChannelHeap
  poller : σ
  phase : Phase
  /-- `pending_functors_` -/
  pending : List Task
  /-- the loop thread, innermost frame first -/
  stack : List Frame
  /-- calls in progress on other threads -/
  others : List Frame
  /-- constructed connections -/
  accepted : List ConnId
  /-- `connections_` of the server -/
  table : List ConnId
  /-- removals posted to the server's own loop -/
  removing : List ConnId
  destructed : List ConnId
  nextSend : SendId
  trace : List Event

/-- What user code calls on any thread; `queueInLoop` is for functors of its own. -/
inductive Call where
  | send (c : ConnId) (message : Message)
  | shutdown (c : ConnId)
  | forceClose (c : ConnId)
  | queueInLoop
  deriving DecidableEq, Repr

/-- What runs on the loop thread only. -/
inductive LoopCall where
  | setHighWaterMarkCallback (c : ConnId) (mark : Nat)
  /-- an operation on the buffer that `messageCallback_` was given -/
  | input (c : ConnId) (op : Buffer.Op)
  | newConnection (c : ConnId)
  /-- `enableReading` of another component's channel -/
  | watch (id : ChannelId)
  deriving DecidableEq, Repr

/-- What decides the next step of the loop thread besides its own state. -/
inductive Input where
  | none
  | readv (answer : ReadvAnswer)
  | write (answer : WriteAnswer)
  | call (call : Call)
  | loopCall (call : LoopCall)
  | return
  deriving DecidableEq, Repr

namespace World

variable {σ : Type}

def start (settings : Settings) (poller : σ) : World σ where
  conns _ := .new settings.writeCompleteCallback
  sockets _ := ⟨[], false⟩
  heap id := .new (settings.fdOf id)
  poller := poller
  phase := .polling
  pending := []
  stack := []
  others := []
  accepted := []
  table := []
  removing := []
  destructed := []
  nextSend := 0
  trace := []

def state (w : World σ) (c : ConnId) : StateE := (w.conns c).state

def setConn (w : World σ) (c : ConnId) (conn : TcpConnection) : World σ :=
  { w with conns := Function.update w.conns c conn }

def setState (w : World σ) (c : ConnId) (s : StateE) : World σ :=
  w.setConn c { w.conns c with state := s }

def setSocket (w : World σ) (c : ConnId) (socket : SocketStream) : World σ :=
  { w with sockets := Function.update w.sockets c socket }

def note (w : World σ) (event : Event) : World σ := { w with trace := w.trace ++ [event] }

/-- The push of `queueInLoop`. -/
def queue (w : World σ) (task : Task) : World σ := { w with pending := w.pending ++ [task] }

def operate (impl : Polling σ) (w : World σ) (id : ChannelId) (op : ChannelOp) :
    Except Fault (World σ) :=
  match impl.operate w.heap w.poller id op with
  | .ok (heap, poller) => .ok { w with heap := heap, poller := poller }
  | .error e => .error e

/-- A constructed connection whose destructor has not run. -/
def Live (w : World σ) (c : ConnId) : Prop := c ∈ w.accepted ∧ c ∉ w.destructed

instance (w : World σ) (c : ConnId) : Decidable (w.Live c) := instDecidableAnd

/-- The kernel gives out a descriptor that no open socket has. -/
def Fresh (settings : Settings) (w : World σ) (c : ConnId) : Prop :=
  c ∉ settings.aux ∧ c ∉ w.accepted ∧
    (∀ id ∈ settings.aux, settings.fdOf id ≠ settings.fdOf c) ∧
    ∀ id ∈ w.accepted, id ∉ w.destructed → settings.fdOf id ≠ settings.fdOf c

instance (settings : Settings) (w : World σ) (c : ConnId) : Decidable (w.Fresh settings c) := by
  unfold Fresh; infer_instance

/-- `TcpServer::newConnection` up to the call of `runInLoop`. -/
def construct (w : World σ) (c : ConnId) : World σ :=
  { w with accepted := w.accepted ++ [c], table := w.table ++ [c] }

/-- `removeConnectionInLoop`: the entry is erased and `connectDestroyed` queued. -/
def removeConnectionInLoop (w : World σ) (c : ConnId) : Except Fault (World σ) :=
  if c ∈ w.table then .ok ({ w with table := w.table.erase c }.queue (.connectDestroyed c))
  else .error (.assertFailed .removeConnection)

end World

/-- `data + n`, at most as long as `data`. -/
def Message.drop (message : Message) (n : Nat) : Message :=
  ⟨message.bytes.drop n, by
    rw [List.length_drop]
    exact le_trans (Nat.sub_le ..) message.size_le⟩

namespace World

variable {σ : Type} (settings : Settings) (impl : Polling σ)

/-- The frame of a call; its connection has not been destructed. -/
def enter (w : World σ) : Call → Except Fault Frame
  | .send c message => if w.Live c then .ok (.send c message) else .error .notEnabled
  | .shutdown c => if w.Live c then .ok (.shutdown c) else .error .notEnabled
  | .forceClose c => if w.Live c then .ok (.forceClose c) else .error .notEnabled
  | .queueInLoop => .ok (.post .user)

def loopCall (w : World σ) : LoopCall → Except Fault (World σ × List Frame)
  | .setHighWaterMarkCallback c mark =>
    if w.Live c then
      .ok (w.setConn c { w.conns c with highWaterMark := mark, highWaterMarkCallback := true }, [])
    else .error .notEnabled
  | .input c op =>
    if w.Live c ∧ op.Valid (w.conns c).inputBuffer then
      match (Buffer.exec op).run (w.conns c).inputBuffer with
      | .ok _ buffer => .ok (w.setConn c { w.conns c with inputBuffer := buffer }, [])
      | .error e _ => .error e
    else .error .notEnabled
  | .newConnection c =>
    if settings.serverHere ∧ w.Fresh settings c then .ok (w.construct c, [.connectEstablished c])
    else .error .notEnabled
  | .watch id =>
    if id ∈ settings.aux then
      match w.operate impl id (.update .enRead) with
      | .ok w => .ok (w, [])
      | .error e => .error e
    else .error .notEnabled

/-- `sendInLoop` between its test of `state_` and the high-water callback; without
a `::write` nothing is written, whatever the answer. -/
def sendInLoopStart (w : World σ) (c : ConnId) (id : SendId) (message : Message)
    (answer : WriteAnswer) : World σ × List Frame :=
  let conn := w.conns c
  let direct := conn.writesDirectly (w.heap c)
  let start := conn.sendInLoopStart (w.heap c) message.bytes answer
  let rest := .sendInLoopRest c id (message.drop (conn.nWrote (w.heap c) answer))
  ({ w.setSocket c { w.sockets c with sent := (w.sockets c).sent ++ start.written } with
      pending := w.pending ++ (if start.complete then [.writeComplete c] else [])
      trace := w.trace ++
        (if direct then [.write c (some id) message.bytes start.written] else []) },
    if start.rest = [] then []
    else if start.highWater.isSome then [.user, rest]
    else [rest])

/-- The rest of `sendInLoop`: the remainder joins `output_buffer_`. -/
def sendInLoopRest (w : World σ) (c : ConnId) (id : SendId) (rest : Message) :
    Except Fault (World σ) :=
  match (w.conns c).sendInLoopRest rest.bytes with
  | .error e => .error e
  | .ok conn =>
    let w := (w.setConn c conn).note (.append c id rest.bytes)
    if (w.heap c).isWriting then .ok w else w.operate impl c (.update .enWrite)

/-- `handleWrite` on a writing channel, up to its test of `state_`. -/
def handleWrite (w : World σ) (c : ConnId) (answer : WriteAnswer) :
    Except Fault (World σ × List Frame) :=
  match (w.conns c).handleWriteStart answer with
  | .error e => .error e
  | .ok start =>
    let wrote := ((w.setConn c start.conn).setSocket c
      { w.sockets c with sent := (w.sockets c).sent ++ start.written }).note
      (.write c none (w.conns c).outputBuffer.value start.written)
    if start.drained then
      match wrote.operate impl c (.update .disWrite) with
      | .error e => .error e
      | .ok w =>
        .ok (if start.conn.writeCompleteCallback then w.queue (.writeComplete c) else w,
          [.handleWriteState c])
    else .ok (wrote, [])

/-- `handleRead` up to the callback that its count asks for. -/
def handleRead (w : World σ) (c : ConnId) (answer : ReadvAnswer) :
    Except Fault (World σ × List Frame) :=
  match (w.conns c).handleRead answer with
  | .error e => .error e
  | .ok (n, conn) =>
    let w := w.setConn c conn
    if 0 < n then .ok (w.note (.messageCallback c), [.user])
    else if n = 0 then .ok (w, [.handleClose c])
    else .ok (w, [])

/-- `disableAll` and the down callback, after the store of `kDisconnected`. -/
def goDown (w : World σ) (c : ConnId) : Except Fault (World σ) :=
  ((w.setState c .kDisconnected).note (.down c)).operate impl c (.update .disAll)

/-- The callbacks that a connection's constructor sets on its channel. -/
def callback (c : ConnId) : EventCallback → List Frame
  | .close => [.handleClose c]
  | .error => []
  | .read => [.handleRead c]
  | .write => [.handleWrite c]

/-- One step of a frame: the world after it and the frames that take its place. -/
def advance (onLoop : Bool) (w : World σ) (frame : Frame) (input : Input) :
    Except Fault (World σ × List Frame) :=
  match frame.test with
  | some test =>
    if input ≠ .none then .error .notEnabled
    else if w.state test.conn = test.expected then .ok (w, test.yes)
    else
      match test.no with
      | .ok frames => .ok (w, frames)
      | .error e => .error e
  | none =>
    match frame, input with
    -- user code goes on below the frames of its call
    | .user, .call call =>
      match w.enter call with
      | .ok frame => .ok (w, [frame, .user])
      | .error e => .error e
    | .user, .loopCall call =>
      match w.loopCall settings impl call with
      | .ok (w, frames) => .ok (w, frames ++ [.user])
      | .error e => .error e
    | .user, .return => .ok (w, [])
    | .send c message, .none =>
      if w.state c = .kConnected then
        .ok ({ w with nextSend := w.nextSend + 1 }.note (.accepted c w.nextSend message),
          [runInLoop onLoop (.sendInLoop c w.nextSend message)])
      else .ok (w, [])
    | .shutdown c, .none =>
      if w.state c = .kConnected then
        .ok (w.setState c .kDisconnecting, [runInLoop onLoop (.shutdownInLoop c)])
      else .ok (w, [])
    | .forceCloseStore c, .none =>
      .ok (w.setState c .kDisconnecting, [runInLoop onLoop (.forceClose c)])
    | .post task, .none => .ok (w.queue task, [])
    | .shutdownInLoop c, .none =>
      if (w.heap c).isWriting then .ok (w, [])
      else
        .ok ((w.setSocket c { w.sockets c with writeShut := true }).note (.shutdownWrite c), [])
    | .handleCloseStore c, .none =>
      match w.goDown impl c with
      | .ok w => .ok (w, [.user, .handleCloseRest c])
      | .error e => .error e
    | .handleCloseRest c, .none =>
      if settings.serverHere then
        match (w.note (.closeCallback c)).removeConnectionInLoop c with
        | .ok w => .ok (w, [])
        | .error e => .error e
      else .ok ({ w.note (.closeCallback c) with removing := w.removing ++ [c] }, [])
    | .connectEstablishedStore c, .none =>
      match ((w.setState c .kConnected).note (.up c)).operate impl c (.update .enRead) with
      | .ok w => .ok (w, [.user])
      | .error e => .error e
    | .connectDestroyedStore c, .none =>
      match w.goDown impl c with
      | .ok w => .ok (w, [.user, .connectDestroyedRest c])
      | .error e => .error e
    | .connectDestroyedRest c, .none =>
      match w.operate impl c .remove with
      | .ok w => .ok (w, [])
      | .error e => .error e
    | .sendInLoopStart c id message, .write answer =>
      if (w.conns c).writesDirectly (w.heap c) ∧ answer.Valid message.bytes then
        .ok (w.sendInLoopStart c id message answer)
      else .error .notEnabled
    | .sendInLoopStart c id message, .none =>
      if (w.conns c).writesDirectly (w.heap c) then .error .notEnabled
      else .ok (w.sendInLoopStart c id message .wouldBlock)
    | .sendInLoopRest c id rest, .none =>
      match w.sendInLoopRest impl c id rest with
      | .ok w => .ok (w, [])
      | .error e => .error e
    | .handleRead c, .readv answer =>
      if Buffer.Op.Valid (w.conns c).inputBuffer (.readFd answer) then w.handleRead c answer
      else .error .notEnabled
    | .handleWrite c, .none =>
      if (w.heap c).isWriting then .error .notEnabled else .ok (w, [])
    | .handleWrite c, .write answer =>
      if (w.heap c).isWriting ∧ answer.Valid (w.conns c).outputBuffer.value then
        w.handleWrite impl c answer
      else .error .notEnabled
    | .handleEvent _ [], .none => .ok (w, [])
    | .handleEvent id (event :: callbacks), .none =>
      if id ∈ settings.aux then .ok (w, [.user, .handleEvent id callbacks])
      else .ok (w, callback id event ++ [.handleEvent id callbacks])
    -- the functor holds a plain pointer
    | .writeComplete c, .none =>
      if c ∈ w.destructed then .error .outOfRange else .ok (w, [.user])
    | _, _ => .error .notEnabled

end World

end Muduo.Source
