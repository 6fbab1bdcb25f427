import Muduo.Source.EventLoopThreadPool
import Muduo.Source.ReactorChannels

/-!
# TcpServer::start (muduo/net/tcp_server.cc) and the choice of a loop

Any thread calls `start`, and is between two of its statements while others go on. The pool
grows while it starts; the loops move as in the model of the deployed server, in the
deployment of the loops that there are. A connection is accepted once the server listens.
The system may refuse a thread, a pipe or `::listen`; whether the poller takes the accept
channel is an answer too, since that channel is not one of the loops' here.
-/
namespace Muduo.Source
open Muduo.Support

/-- Where a thread stands in `start`. -/
inductive StartPc where
  | outside
  /-- `started_` was false, and is true now -/
  | exchanged
  /-- in the loop of `EventLoopThreadPool::start` -/
  | creating (i : Int)
  /-- `thread_pool_->start()` has returned -/
  | created
  deriving DecidableEq, Repr

structure PooledServer (σ : Type) where
  server : TcpServer σ
  /-- `started_` -/
  started : Bool
  pool : EventLoopThreadPool
  /-- `listenning_` of the acceptor -/
  listenning : Bool
  starting : ThreadId → StartPc
  /-- functors that call `listen` in the queue of the main loop -/
  queued : Nat
  /-- calls of `listen` so far -/
  listens : Nat

inductive PooledAction (answer : Type) where
  | setThreadNum (thread : ThreadId) (num : Int)
  | start (thread : ThreadId)
  /-- the next statements of `start` -/
  | advance (thread : ThreadId) (answer : StartAnswer)
  /-- the functor that calls `listen` -/
  | listen (answer : StartAnswer)
  | run (action : ClusterAction answer)

def Deployment.withThreads (deployment : Deployment) (numThreads : Nat) : Deployment :=
  { deployment with numThreads := numThreads }

/-- The thread of the main loop takes the action. -/
def ClusterAction.onMain {answer : Type} : ClusterAction answer → Bool
  | .on loop (.run (.loop _)) | .on loop (.run (.poll _)) => loop = mainLoop
  | .on _ (.run (.connectElsewhere _)) | .on _ (.run (.removeElsewhere _))
  | .on _ (.run (.destroy _)) | .on _ (.run (.destroyElsewhere _)) | .destroyServer => true
  | _ => false

namespace PooledServer

variable {σ : Type}

def new (deployment : Deployment) (name : String) (poller : σ) : PooledServer σ where
  server := .start deployment name poller
  started := false
  pool := .new
  listenning := false
  starting _ := .outside
  queued := 0
  listens := 0

/-- The deployment of the loops that run. -/
def deployed (deployment : Deployment) (s : PooledServer σ) : Deployment :=
  deployment.withThreads s.pool.loops.length

/-- The thread can call a function of the server; the loop's own thread does so before
`loop()` or in a callback or functor. -/
def MayCall (s : PooledServer σ) (thread : ThreadId) : Prop :=
  s.starting thread = .outside ∧ s.server.cluster.destroying = false ∧
    (thread = loopThread → s.server.cluster.main.stack.head?.all (· = .user) = true)

instance (s : PooledServer σ) (thread : ThreadId) : Decidable (s.MayCall thread) := by
  unfold MayCall; infer_instance

/-- The server once `Acceptor::listen` has returned. -/
def listened (s : PooledServer σ) : PooledServer σ :=
  { s with listenning := true, listens := s.listens + 1 }

/-- `Acceptor::listen`: `Socket::listen`, then `enableReading`. -/
def listen (s : PooledServer σ) : StartAnswer → Except StartFault (PooledServer σ)
  | .granted => .ok s.listened
  | .listenFails => .error .socketListen
  | .channelFails fault => .error (.acceptChannel fault)
  | .noPipe | .noThread => .error (.loop .notEnabled)

def goto (s : PooledServer σ) (thread : ThreadId) (pc : StartPc) : PooledServer σ :=
  { s with starting := Function.update s.starting thread pc }

/-- `start` from where the thread stands. An exception leaves `started_` true behind. -/
def advance (s : PooledServer σ) (thread : ThreadId) (answer : StartAnswer) :
    Except StartFault (PooledServer σ) :=
  match s.starting thread with
  | .outside => .error (.loop .notEnabled)
  | .exchanged =>
    match s.pool.start thread with
    | .ok pool => .ok ({ s with pool := pool }.goto thread (.creating 0))
    | .error e => .error e
  | .creating i =>
    if i < s.pool.numThreads then
      match answer with
      | .granted => .ok ({ s with pool := s.pool.startLoop }.goto thread (.creating (i + 1)))
      | .noThread => .ok (s.goto thread .outside)
      | .noPipe => .error .createWakeupFd
      | .listenFails | .channelFails _ => .error (.loop .notEnabled)
    else .ok (s.goto thread .created)
  | .created =>
    if s.listenning = true then .error .serverStart
    -- `runInLoop`
    else if thread = loopThread then
      match s.listen answer with
      | .ok s => .ok (s.goto thread .outside)
      | .error e => .error e
    else .ok ({ s with queued := s.queued + 1 }.goto thread .outside)

/-- A step of the loops. -/
def run (deployment : Deployment) (impl : Polling σ) (s : PooledServer σ)
    (action : ClusterAction impl.Answer) : Except StartFault (PooledServer σ) :=
  match s.server.step (s.deployed deployment) impl action with
  | .ok server => .ok { s with server := server }
  | .error e => .error (.loop e)

/-- `newConnection`: the connection lives on the loop that the pool gives. -/
def newConnection (deployment : Deployment) (impl : Polling σ) (s : PooledServer σ)
    (conn : ServerConn) (action : ClusterAction impl.Answer) :
    Except StartFault (PooledServer σ) :=
  match s.pool.getNextLoop loopThread with
  | .error e => .error e
  | .ok (loop, pool) =>
    if conn.1 = loop then
      match s.run deployment impl action with
      | .ok s => .ok { s with pool := pool }
      | .error e => .error e
    else .error (.loop .notEnabled)

def step (deployment : Deployment) (impl : Polling σ) (s : PooledServer σ) :
    PooledAction impl.Answer → Except StartFault (PooledServer σ)
  | .setThreadNum thread num =>
    if s.MayCall thread ∧ num ≤ TcpServer.kMaxInt then
      .ok { s with pool := s.pool.setThreadNum num }
    else .error (.loop .notEnabled)
  | .start thread =>
    if s.MayCall thread then
      -- `started_.exchange(true)`
      if s.started = true then .ok s
      else .ok ({ s with started := true }.goto thread .exchanged)
    else .error (.loop .notEnabled)
  | .advance thread answer => s.advance thread answer
  | .listen answer =>
    if 0 < s.queued ∧ s.server.cluster.main.stack = [] ∧
        s.server.cluster.main.phase.inFunctors = true ∧ s.starting loopThread = .outside then
      { s with queued := s.queued - 1 }.listen answer
    else .error (.loop .notEnabled)
  | .run action =>
    if action.onMain = true ∧ s.starting loopThread ≠ .outside then .error (.loop .notEnabled)
    else
      match TcpServer.constructs action with
      | none => s.run deployment impl action
      | some conn =>
        if s.listenning = true then s.newConnection deployment impl conn action
        else .error (.loop .notEnabled)

end PooledServer

end Muduo.Source
