import Muduo.Source.BufferRuns
import Muduo.Source.Channel

/-!
# TcpConnection (muduo/net/tcp_connection.h, muduo/net/tcp_conncetion.cc)

The connection's own data and the parts of its functions that run between two
points where other code may interfere: an access of the atomic `state_`, a user
callback, or an operation of the loop. `sendInLoop` has two such parts, before
and after the high-water callback; `handleWrite` has one before it looks at
`state_`. What a part asks of the loop (a queued task, a change of interest, a
callback) is returned as data.
-/
namespace Muduo.Source
open Muduo.Support

inductive StateE where
  | kConnecting | kConnected | kDisconnecting | kDisconnected
  deriving DecidableEq, Repr

/-- A `std::string`: its size is at most `max_size()`. -/
structure Message where
  bytes : Bytes
  size_le : bytes.length ≤ kMaxSize
  deriving DecidableEq, Repr

theorem Message.byte_le : 1 ≤ kMaxSize := by decide

theorem Message.two_bytes_le : 2 ≤ kMaxSize := by decide

theorem Message.three_bytes_le : 3 ≤ kMaxSize := by decide

/-- What `::write` answers: a count, `EWOULDBLOCK`, or another error. -/
inductive WriteAnswer where
  | accepted (n : Nat)
  | wouldBlock
  | failed
  deriving DecidableEq, Repr

/-- `::write` accepts at most what it was given. -/
def WriteAnswer.Valid (requested : Bytes) : WriteAnswer → Prop
  | .accepted n => n ≤ requested.length
  | .wouldBlock | .failed => True

instance (requested : Bytes) (answer : WriteAnswer) : Decidable (answer.Valid requested) :=
  match answer with
  | .accepted _ => Nat.decLe _ _
  | .wouldBlock | .failed => instDecidableTrue

/-- `n_wrote` after the error branch has reset it to 0. -/
def WriteAnswer.count : WriteAnswer → Nat
  | .accepted n => n
  | .wouldBlock | .failed => 0

structure TcpConnection where
  state : StateE
  inputBuffer : Buffer
  outputBuffer : Buffer
  highWaterMark : Nat
  highWaterMarkCallback : Bool
  writeCompleteCallback : Bool
  deriving DecidableEq, Repr

/-- The socket as the kernel sees it: the bytes accepted so far, and `SHUT_WR`. -/
structure SocketStream where
  sent : Bytes
  writeShut : Bool
  deriving DecidableEq, Repr

namespace TcpConnection

/-- The default `high_water_mark_` set by the constructor. -/
def defaultHighWaterMark : Nat := 64 * 1024 * 1024

def new (writeComplete : Bool) : TcpConnection :=
  ⟨.kConnecting, .fresh, .fresh, defaultHighWaterMark, false, writeComplete⟩

/-- `sendInLoop` may try `::write` at once: nothing is waiting in front. -/
def writesDirectly (conn : TcpConnection) (ch : Channel) : Bool :=
  !ch.isWriting && conn.outputBuffer.readableBytes == 0

/-- `sendInLoop` up to the high-water callback. -/
structure SendStart where
  /-- bytes `::write` accepted -/
  written : Bytes
  /-- `data + n_wrote`, `remaining` bytes long -/
  rest : Bytes
  /-- a write-complete task is queued -/
  complete : Bool
  /-- the high-water callback runs, with this length -/
  highWater : Option Nat
  deriving DecidableEq, Repr

def nWrote (conn : TcpConnection) (ch : Channel) (answer : WriteAnswer) : Nat :=
  if conn.writesDirectly ch then answer.count else 0

/-- `old_len + remaining >= high_water_mark_ && old_len < high_water_mark_`. -/
def crossesHighWater (conn : TcpConnection) (remaining : Nat) : Bool :=
  decide (conn.highWaterMark ≤ sizeAdd conn.outputBuffer.readableBytes remaining) &&
    decide (conn.outputBuffer.readableBytes < conn.highWaterMark) && conn.highWaterMarkCallback

def sendInLoopStart (conn : TcpConnection) (ch : Channel) (data : Bytes) (answer : WriteAnswer) :
    SendStart :=
  let n := conn.nWrote ch answer
  let remaining := data.length - n
  { written := data.take n
    rest := data.drop n
    complete := match answer with
      | .accepted k =>
        conn.writesDirectly ch && decide (data.length ≤ k) && conn.writeCompleteCallback
      | .wouldBlock | .failed => false
    highWater :=
      if n < data.length ∧ conn.crossesHighWater remaining then
        some (sizeAdd conn.outputBuffer.readableBytes remaining)
      else none }

/-- Run an operation on one of the connection's buffers. -/
def runBuffer {α : Type} (op : Buffer.BufferM α) (b : Buffer) : Except Fault (α × Buffer) :=
  match op.run b with
  | .ok a b' => .ok (a, b')
  | .error e _ => .error e

/-- The rest of `sendInLoop`: `rest` joins `output_buffer_`. The channel starts
watching writability if it does not yet; nothing happens when all was written. -/
def sendInLoopRest (conn : TcpConnection) (rest : Bytes) : Except Fault TcpConnection :=
  match runBuffer (Buffer.append rest) conn.outputBuffer with
  | .ok (_, output) => .ok { conn with outputBuffer := output }
  | .error e => .error e

/-- `handleWrite` on a writing channel, up to its test of `state_`. -/
structure WriteStart where
  conn : TcpConnection
  written : Bytes
  /-- `output_buffer_` has become empty: interest is dropped, completion queued -/
  drained : Bool
  deriving DecidableEq, Repr

def handleWriteStart (conn : TcpConnection) (answer : WriteAnswer) : Except Fault WriteStart :=
  match answer with
  | .accepted (n + 1) =>
    match runBuffer (Buffer.retrieve (n + 1)) conn.outputBuffer with
    | .ok (_, output) =>
      .ok ⟨{ conn with outputBuffer := output }, conn.outputBuffer.value.take (n + 1),
        output.readableBytes == 0⟩
    | .error e => .error e
  | .accepted 0 | .wouldBlock | .failed => .ok ⟨conn, [], false⟩

/-- `handleRead`: the count `readFd` returns decides what follows. -/
def handleRead (conn : TcpConnection) (answer : ReadvAnswer) : Except Fault (Int × TcpConnection) :=
  match runBuffer (Buffer.readFd answer) conn.inputBuffer with
  | .ok (n, input) => .ok (n, { conn with inputBuffer := input })
  | .error e => .error e

end TcpConnection

end Muduo.Source
