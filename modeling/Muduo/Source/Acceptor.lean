import Muduo.Source.ReactorPollers
import Muduo.Source.Socket
import Muduo.Source.TcpServer

/-!
# Acceptor (muduo/net/acceptor.cc) on the loop of its server

The clients fill the queue of the listening socket and may reset a connection that waits
there; its place is then gone, or stays and `::accept` reports it. The loop thread polls,
dispatches the accept channel and hands an accepted socket to `TcpServer::newConnection`.
Other channels of the loop and other descriptors of the process belong to other components,
which act in between. No connection is removed here, and an assertion of the poller that
another channel makes fail ends the run.
-/
namespace Muduo.Source
open Muduo.Support

/-- A completed connection in the queue of the listening socket. -/
structure Pending where
  client : Nat
  /-- the client has reset it, and its place in the queue is kept -/
  aborted : Bool
  deriving DecidableEq, Repr

inductive AcceptErrno where
  | eagain | econnaborted | emfile
  deriving DecidableEq, Repr

/-- What `::accept` answers: a descriptor, or `-1` with an `errno`. -/
inductive AcceptAnswer where
  | socket (fd : Int)
  | error (errno : AcceptErrno)
  deriving DecidableEq, Repr

/-- `Socket::accept`; `none` where it logs and calls `abort()`. -/
def Socket.accept : AcceptAnswer → Option Socket
  | .socket sock => some ⟨sock⟩
  | .error _ => none

/-- The channels of the loop, and the limit of the process on open descriptors, which are
`int`s. -/
structure Listening where
  fdOf : ChannelId → Int
  acceptChannel : ChannelId
  limit : Nat
  limit_lt : limit < 2 ^ 31

/-- Where the loop thread stands. -/
inductive AcceptPhase where
  /-- before the loop, or after the dispatch: functors run, then `poll` -/
  | functors
  | dispatching (active : List ChannelId)
  /-- in `handleRead`, before `accept` -/
  | handleRead (active : List ChannelId)
  /-- in `newConnCallback_` with `conn_sock` -/
  | newConnection (sock : Socket) (active : List ChannelId)
  | aborted
  deriving DecidableEq, Repr

structure AcceptLoop (σ : Type) where
  queue : List Pending
  /-- open descriptors of other components -/
  others : List Int
  /-- sockets of `accept`, in `conn_sock` or in a connection -/
  sockets : List Socket
  heap : ChannelHeap
  poller : σ
  phase : AcceptPhase
  listenning : Bool
  server : TcpServer σ

inductive AcceptAction (answer : Type) where
  /-- a client -/
  | connect (client : Nat)
  | reset (slot : Nat) (keepsPlace : Bool)
  /-- another component -/
  | openOther (fd : Int)
  | closeOther (fd : Int)
  | operate (id : ChannelId) (op : ChannelOp)
  /-- the loop thread -/
  | listen
  | poll (answer : answer)
  | dispatch
  | accept (answer : AcceptAnswer)
  | newConnection (conn : ServerConn)

namespace AcceptLoop

variable {σ : Type}

/-- A server that has not been started. -/
def start (listening : Listening) (deployment : Deployment) (name : String) (poller : σ)
    (others : List Int) : AcceptLoop σ where
  queue := []
  others := others
  sockets := []
  heap id := Channel.new (listening.fdOf id)
  poller := poller
  phase := .functors
  listenning := false
  server := .start deployment name poller

/-- Open descriptors, the listening socket among them. -/
def openCount (s : AcceptLoop σ) : Nat := 1 + s.others.length + s.sockets.length

def InUse (listening : Listening) (s : AcceptLoop σ) (fd : Int) : Prop :=
  fd = listening.fdOf listening.acceptChannel ∨ fd ∈ s.others ∨ ⟨fd⟩ ∈ s.sockets

instance (listening : Listening) (s : AcceptLoop σ) (fd : Int) : Decidable (s.InUse listening fd) := by
  unfold InUse; infer_instance

/-- The front of the queue is a connection that its client has not reset. -/
def Waiting (s : AcceptLoop σ) : Prop := s.queue.head?.map Pending.aborted = some false

instance (s : AcceptLoop σ) : Decidable s.Waiting := by unfold Waiting; infer_instance

/-- When `::accept` on the non-blocking listening socket gives an answer. -/
def Answers (listening : Listening) (s : AcceptLoop σ) : AcceptAnswer → Prop
  | .socket fd => s.Waiting ∧ s.openCount < listening.limit ∧ 0 ≤ fd ∧ ¬ s.InUse listening fd
  | .error .eagain => s.queue = []
  | .error .econnaborted => s.queue.head?.map Pending.aborted = some true
  | .error .emfile => listening.limit ≤ s.openCount

instance (listening : Listening) (s : AcceptLoop σ) (answer : AcceptAnswer) :
    Decidable (s.Answers listening answer) := by
  cases answer with
  | socket fd => unfold Answers; infer_instance
  | error errno => cases errno <;> unfold Answers <;> infer_instance

/-- `handleEvent` of the accept channel calls `handleRead`, its only callback. -/
def calls (listening : Listening) (heap : ChannelHeap) (id : ChannelId) : Bool :=
  id = listening.acceptChannel ∧ .read ∈ (heap id).handleEvent

/-- The loop thread runs a functor, or a callback of another channel. -/
def elsewhere (s : AcceptLoop σ) : Bool :=
  match s.phase with
  | .functors | .dispatching _ => true
  | .handleRead _ | .newConnection _ _ | .aborted => false

/-- A client resets the connection at `slot`. -/
def reset (queue : List Pending) (slot : Nat) (keepsPlace : Bool) : List Pending :=
  if keepsPlace then queue.modify slot fun pending => { pending with aborted := true }
  else queue.eraseIdx slot

/-- `Acceptor::handleRead`, up to the callback. -/
def handleRead (s : AcceptLoop σ) (active : List ChannelId) (answer : AcceptAnswer) :
    AcceptLoop σ :=
  match Socket.accept answer with
  | some sock =>
    { s with queue := s.queue.tail
             sockets := s.sockets ++ [sock]
             phase := .newConnection sock active }
  | none => { s with phase := .aborted }

def step (listening : Listening) (impl : Polling σ) (s : AcceptLoop σ) :
    AcceptAction impl.Answer → Except Fault (AcceptLoop σ)
  | .connect client =>
    if s.listenning then .ok { s with queue := s.queue ++ [⟨client, false⟩] }
    else .error .notEnabled
  | .reset slot keepsPlace =>
    if slot < s.queue.length then .ok { s with queue := reset s.queue slot keepsPlace }
    else .error .notEnabled
  | .openOther fd =>
    if 0 ≤ fd ∧ ¬ s.InUse listening fd ∧ s.openCount < listening.limit then
      .ok { s with others := s.others ++ [fd] }
    else .error .notEnabled
  | .closeOther fd =>
    if fd ∈ s.others then .ok { s with others := s.others.erase fd } else .error .notEnabled
  | .operate id op =>
    if s.elsewhere ∧ id ≠ listening.acceptChannel then
      match impl.operate s.heap s.poller id op with
      | .ok (heap, poller) => .ok { s with heap := heap, poller := poller }
      | .error e => .error e
    else .error .notEnabled
  | .listen =>
    if s.elsewhere ∧ s.listenning = false then
      match impl.operate s.heap s.poller listening.acceptChannel (.update .enRead) with
      | .ok (heap, poller) => .ok { s with heap := heap, poller := poller, listenning := true }
      | .error e => .error e
    else .error .notEnabled
  | .poll answer =>
    if s.phase = .functors ∧ impl.reports s.poller answer then
      match impl.poll s.heap s.poller answer with
      | .ok (heap, poller, active) =>
        -- the listening socket is readable while a connection waits
        if s.queue = [] ∧ active.any (calls listening heap) then .error .notEnabled
        else .ok { s with heap := heap, poller := poller, phase := .dispatching active }
      | .error e => .error e
    else .error .notEnabled
  | .dispatch =>
    match s.phase with
    | .dispatching [] => .ok { s with phase := .functors }
    | .dispatching (id :: active) =>
      if calls listening s.heap id then .ok { s with phase := .handleRead active }
      else .ok { s with phase := .dispatching active }
    | _ => .error .notEnabled
  | .accept answer =>
    match s.phase with
    | .handleRead active =>
      if s.Answers listening answer then .ok (s.handleRead active answer) else .error .notEnabled
    | _ => .error .notEnabled
  | .newConnection conn =>
    match s.phase with
    | .newConnection _ active =>
      -- `make_shared` gives no address of a live connection
      if conn ∈ s.server.accepted then .error .notEnabled
      else
        match s.server.newConnection conn with
        | .ok server => .ok { s with server := server, phase := .dispatching active }
        | .error e => .error e
    | _ => .error .notEnabled

end AcceptLoop

end Muduo.Source
