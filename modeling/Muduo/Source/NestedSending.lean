import Muduo.Source.Sending

/-!
# Sends from inside the high-water callback

`sendInLoop` calls `highWaterMarkCallback_` after its own `::write` and before it
stores the remainder. The callback may call `send` on the same connection, and the
callback of that `send` again, to any depth. Sends are numbered in the order of the
calls, and each run of bytes that a send hands over is noted with its number.
-/
namespace Muduo.Source
open Muduo.Support

/-- The sends that a callback makes, in order. `nested` are those of the callback that
the send itself calls, if it calls it. -/
inductive Sends where
  | done
  | send (message : Message) (answer : WriteAnswer) (nested rest : Sends)
  deriving DecidableEq, Repr

structure NestedSender where
  sender : Sender
  /-- the messages of the sends so far -/
  messages : List Bytes
  /-- what the sends have handed to the kernel and to `output_buffer_` -/
  pieces : List (Nat × Bytes)
  deriving DecidableEq, Repr

inductive NestedAction where
  /-- an outermost `sendInLoop` -/
  | sendInLoop (message : Message) (answer : WriteAnswer) (nested : Sends)
  | handleWrite (answer : WriteAnswer)
  | setDisconnecting
  | shutdownInLoop
  deriving DecidableEq, Repr

namespace NestedSender

def opened (fd : Int) (highWaterMark : Nat) (highWater writeComplete : Bool) : NestedSender :=
  ⟨.opened fd highWaterMark highWater writeComplete, [], []⟩

/-- An empty run of bytes is no piece. -/
def piece (number : Nat) (bytes : Bytes) : List (Nat × Bytes) :=
  if bytes = [] then [] else [(number, bytes)]

/-- `sendInLoop` up to the high-water callback. -/
def sendStart (r : NestedSender) (message : Message) (start : TcpConnection.SendStart) :
    NestedSender where
  sender := r.sender.sendStart start
  messages := r.messages ++ [message.bytes]
  pieces := r.pieces ++ piece r.messages.length start.written

/-- The rest of `sendInLoop`, for the send with that number. -/
def sendRest (r : NestedSender) (number : Nat) (rest : Bytes) : Except Fault NestedSender :=
  match r.sender.sendRest rest with
  | .ok sender => .ok { r with sender := sender, pieces := r.pieces ++ piece number rest }
  | .error e => .error e

/-- `sendInLoop`, with what the high-water callback does. -/
def sendInLoop (callback : NestedSender → Except Fault NestedSender) (r : NestedSender)
    (message : Message) (answer : WriteAnswer) : Except Fault NestedSender :=
  if ¬ answer.Valid message.bytes then .error .notEnabled
  else if r.sender.conn.state = .kDisconnected then .ok r
  else
    let start := r.sender.conn.sendInLoopStart r.sender.channel message.bytes answer
    let number := r.messages.length
    let r := r.sendStart message start
    if start.rest = [] then .ok r
    else if start.highWater.isSome then
      match callback r with
      | .ok r => r.sendRest number start.rest
      | .error e => .error e
    else r.sendRest number start.rest

/-- The calls of `send`, which look at `state_` first. -/
def sendAll : Sends → NestedSender → Except Fault NestedSender
  | .done, r => .ok r
  | .send message answer nested rest, r =>
    if r.sender.conn.state = .kConnected then
      match r.sendInLoop (sendAll nested) message answer with
      | .ok r => sendAll rest r
      | .error e => .error e
    else sendAll rest r

/-- A step that sends nothing. -/
def other (r : NestedSender) (action : SendAction) : Except Fault NestedSender :=
  match r.sender.step action with
  | .ok sender => .ok { r with sender := sender }
  | .error e => .error e

def step (r : NestedSender) : NestedAction → Except Fault NestedSender
  | .sendInLoop message answer nested => r.sendInLoop (sendAll nested) message answer
  | .handleWrite answer => r.other (.handleWrite answer)
  | .setDisconnecting => r.other .setDisconnecting
  | .shutdownInLoop => r.other .shutdownInLoop

end NestedSender

end Muduo.Source
