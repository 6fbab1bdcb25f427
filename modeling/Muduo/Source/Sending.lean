import Muduo.Support.Transition
import Muduo.Source.TcpConnection

/-!
# The sending path of one connection on its loop thread

`sendInLoop` and `handleWrite` run one after the other, with any answers of
`::write`, while the high-water callback does not call back into the connection.
Between them any thread may move `state_` to `kDisconnecting`, and the loop
thread may run a `shutdownInLoop`. The log records what the steps trigger.
-/
namespace Muduo.Source
open Muduo.Support

inductive SendEvent where
  | highWater (length : Nat)
  | writeComplete
  | shutdownWrite
  deriving DecidableEq, Repr

structure Sender where
  conn : TcpConnection
  channel : Channel
  socket : SocketStream
  log : List SendEvent
  deriving DecidableEq, Repr

inductive SendAction where
  | sendInLoop (message : Message) (answer : WriteAnswer)
  | handleWrite (answer : WriteAnswer)
  /-- the store of `kDisconnecting` in `shutdown` or `forceClose` -/
  | setDisconnecting
  | shutdownInLoop
  deriving DecidableEq, Repr

namespace Sender

def readable (s : Sender) : Bytes := s.conn.outputBuffer.value

/-- Right after `connectEstablished`: connected, watching for input, nothing sent. -/
def opened (fd : Int) (highWaterMark : Nat) (highWater writeComplete : Bool) : Sender where
  conn := { TcpConnection.new writeComplete with
    state := .kConnected
    highWaterMark := highWaterMark
    highWaterMarkCallback := highWater }
  channel := (Channel.new fd).enableReading
  socket := ⟨[], false⟩
  log := []

/-- `shutdownInLoop`. -/
def shutdownInLoop (s : Sender) : Sender :=
  if s.channel.isWriting then s
  else { s with socket.writeShut := true, log := s.log ++ [.shutdownWrite] }

/-- `sendInLoop` up to the high-water callback, which runs and returns. -/
def sendStart (s : Sender) (start : TcpConnection.SendStart) : Sender :=
  { s with
    socket.sent := s.socket.sent ++ start.written
    log := s.log ++ (if start.complete then [.writeComplete] else []) ++
      (start.highWater.map SendEvent.highWater).toList }

/-- The rest of `sendInLoop`, entered when `n_wrote < len`. -/
def sendRest (s : Sender) (rest : Bytes) : Except Fault Sender :=
  match s.conn.sendInLoopRest rest with
  | .ok conn =>
    .ok { s with
      conn := conn
      channel := if s.channel.isWriting then s.channel else s.channel.enableWriting }
  | .error e => .error e

def sendInLoop (s : Sender) (data : Bytes) (answer : WriteAnswer) : Except Fault Sender :=
  if s.conn.state = .kDisconnected then .ok s
  else
    let start := s.conn.sendInLoopStart s.channel data answer
    if start.rest = [] then .ok (s.sendStart start)
    else (s.sendStart start).sendRest start.rest

def handleWrite (s : Sender) (answer : WriteAnswer) : Except Fault Sender :=
  if s.channel.isWriting then
    match s.conn.handleWriteStart answer with
    | .error e => .error e
    | .ok start =>
      let s := { s with conn := start.conn, socket.sent := s.socket.sent ++ start.written }
      if start.drained then
        let s := { s with
          channel := s.channel.disableWriting
          log := s.log ++ (if s.conn.writeCompleteCallback then [.writeComplete] else []) }
        .ok (if s.conn.state = .kDisconnecting then s.shutdownInLoop else s)
      else .ok s
  else .ok s

/-- The answer of `::write` in a step fits what the step hands to it. -/
def Answered (s : Sender) : SendAction → Prop
  | .sendInLoop message answer => answer.Valid message.bytes
  | .handleWrite answer => answer.Valid s.readable
  | .setDisconnecting | .shutdownInLoop => True

instance (s : Sender) (action : SendAction) : Decidable (s.Answered action) := by
  cases action <;> unfold Answered <;> infer_instance

def step (s : Sender) (action : SendAction) : Except Fault Sender :=
  if s.Answered action then
    match action with
    | .sendInLoop message answer => s.sendInLoop message.bytes answer
    | .handleWrite answer => s.handleWrite answer
    | .setDisconnecting => .ok { s with conn.state := .kDisconnecting }
    | .shutdownInLoop => .ok s.shutdownInLoop
  else .error .notEnabled

/-- The messages passed to `sendInLoop`, in order. -/
def messages : List SendAction → Bytes
  | [] => []
  | .sendInLoop message _ :: rest => message.bytes ++ messages rest
  | _ :: rest => messages rest

end Sender

end Muduo.Source
