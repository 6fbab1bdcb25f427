import Muduo.Source.EventLoop
import Muduo.Source.TcpServer
import Muduo.Support.Rotation

/-!
# EventLoopThreadPool (muduo/net/eventloop_thread_pool.cc)

The loops of the pool are numbered in the order in which `startLoop` returned them, from 1.
-/
namespace Muduo.Source
open Muduo.Support

/-- The thread of the main loop. -/
def loopThread : ThreadId := 0

/-- Ways in which the start of a server and the choice of a loop do not return: the assertion
of each function, `assertInLoopThread`, an access outside `loops_`, what the system refuses,
and the faults of the loops. -/
inductive StartFault where
  | poolStart
  | getNextLoop
  | serverStart
  | notInLoopThread
  | outOfRange
  /-- the constructor of a new `EventLoop` calls `abort()` -/
  | createWakeupFd
  /-- `Socket::listen` calls `abort()` -/
  | socketListen
  /-- the poller of the main loop fails on the accept channel -/
  | acceptChannel (fault : Fault)
  | loop (fault : Fault)
  deriving DecidableEq, Repr

/-- What the system answers where `start` asks it for something. -/
inductive StartAnswer where
  | granted
  /-- `pipe` fails in the thread of the new loop -/
  | noPipe
  /-- an exception: no thread, or no memory -/
  | noThread
  /-- `::listen` fails -/
  | listenFails
  /-- `enableReading` of the accept channel does not return -/
  | channelFails (fault : Fault)
  deriving DecidableEq, Repr

structure EventLoopThreadPool where
  started : Bool
  numThreads : Int
  next : Int
  loops : List LoopId
  deriving DecidableEq, Repr

namespace EventLoopThreadPool

def new : EventLoopThreadPool := ⟨false, 0, 0, []⟩

def setThreadNum (pool : EventLoopThreadPool) (num : Int) : EventLoopThreadPool :=
  { pool with numThreads := num }

/-- `start` up to its loop. -/
def start (pool : EventLoopThreadPool) (thread : ThreadId) :
    Except StartFault EventLoopThreadPool :=
  if pool.started = true then .error .poolStart
  else if thread ≠ loopThread then .error .notInLoopThread
  else .ok { pool with started := true }

/-- One turn of the loop in `start`: a new `EventLoopThread`, whose `startLoop` returns. -/
def startLoop (pool : EventLoopThreadPool) : EventLoopThreadPool :=
  { pool with loops := pool.loops ++ [pool.loops.length + 1] }

/-- An index below zero is a huge `size_t`; an increment beyond `INT_MAX` is undefined. -/
def getNextLoop (pool : EventLoopThreadPool) (thread : ThreadId) :
    Except StartFault (LoopId × EventLoopThreadPool) :=
  if thread ≠ loopThread then .error .notInLoopThread
  else if pool.started = false then .error .getNextLoop
  else if pool.loops = [] then .ok (mainLoop, pool)
  else if pool.next < 0 ∨ pool.next = TcpServer.kMaxInt then .error .outOfRange
  else
    match pool.loops[pool.next.toNat]? with
    | none => .error .outOfRange
    | some loop =>
      let next := pool.next + 1
      .ok (loop, { pool with next := if pool.loops.length ≤ next then 0 else next })

/-- The loops that take connections. -/
def serving (pool : EventLoopThreadPool) : List LoopId :=
  if pool.loops = [] then [mainLoop] else pool.loops

/-- The cursor stands where the rotation of the loops does after `k` choices. -/
structure Rotates (pool : EventLoopThreadPool) (k : Nat) : Prop where
  cursor : pool.next = (k % pool.serving.length : Nat)
  bounded : (pool.loops.length : Int) ≤ TcpServer.kMaxInt

variable {pool : EventLoopThreadPool} {k : Nat}

theorem serving_nonempty (pool : EventLoopThreadPool) : 0 < pool.serving.length := by
  unfold serving
  split
  · exact Nat.one_pos
  · next nonempty => exact List.length_pos_iff.mpr nonempty

/-- A choice moves the cursor only. -/
theorem getNextLoop_keeps {pool' : EventLoopThreadPool} {thread : ThreadId} {loop : LoopId}
    (chosen : pool.getNextLoop thread = .ok (loop, pool')) :
    pool' = { pool with next := pool'.next } := by
  unfold getNextLoop at chosen
  split at chosen
  · cases chosen
  split at chosen
  · cases chosen
  split at chosen
  · cases chosen; rfl
  split at chosen
  · cases chosen
  split at chosen <;> cases chosen
  rfl

/-- The choice of the code is the choice of the rotation, and none of its checks fails. -/
theorem Rotates.getNextLoop (rotates : pool.Rotates k) (started : pool.started = true) :
    ∃ loop pool', pool.getNextLoop loopThread = .ok (loop, pool') ∧
      pool.serving[k % pool.serving.length]? = some loop ∧ pool'.Rotates (k + 1) := by
  have nonempty := pool.serving_nonempty
  have below := Nat.mod_lt k nonempty
  have cursor := rotates.cursor
  unfold EventLoopThreadPool.getNextLoop
  rw [if_neg (not_not.mpr rfl), if_neg (by simp [started])]
  split
  · next empty =>
    have single : pool.serving = [mainLoop] := if_pos empty
    refine ⟨mainLoop, pool, rfl, by simp [single, Nat.mod_one], ⟨?_, rotates.bounded⟩⟩
    simpa [single, Nat.mod_one] using cursor
  · next threads =>
    have all : pool.serving = pool.loops := if_neg threads
    rw [all] at below cursor nonempty
    have bounded := rotates.bounded
    have index : pool.next.toNat = k % pool.loops.length := by omega
    have present := List.getElem?_eq_getElem below
    rw [if_neg (by omega), index, present]
    refine ⟨_, _, rfl, by rw [all, present], ⟨?_, bounded⟩⟩
    have turned := turn_succ nonempty k
    show (if (pool.loops.length : Int) ≤ pool.next + 1 then 0 else pool.next + 1) =
      ((k + 1) % pool.serving.length : Nat)
    rw [all, turned]
    split <;> split <;> omega

end EventLoopThreadPool

end Muduo.Source
