import Muduo.Source.ReactorPollers
import Muduo.Source.ReactorWork

/-!
# The loop thread is never stuck

Between two polls the loop thread can always take its next step, or fails: what it waits
for is a return of the user's code, or of a system call that does not block.
-/
namespace Muduo.Source
open Muduo.Support

namespace Buffer

/-- `notEnabled` is no outcome of the operation. -/
def Possible {α : Type} (op : BufferM α) : Prop := ∀ b b', op.run b ≠ .error .notEnabled b'

theorem possible_pure {α : Type} (a : α) : Possible (pure a) := fun _ _ failed => by cases failed

theorem possible_get : Possible get := fun _ _ failed => by cases failed

theorem possible_modify (f : Buffer → Buffer) : Possible (modify f) := fun _ _ failed => by cases failed

theorem possible_throw {α : Type} {fault : Fault} (other : fault ≠ .notEnabled) :
    Possible (throw fault : BufferM α) := by
  intro b b' failed
  cases failed
  exact other rfl

theorem Possible.bind {α β : Type} {first : BufferM α} {rest : α → BufferM β} (one : Possible first)
    (next : ∀ a, Possible (rest a)) : Possible (first >>= rest) := by
  intro b b' failed
  simp only [EStateM.run, Bind.bind, EStateM.bind] at failed
  split at failed
  · exact next _ _ _ failed
  · next ran =>
    cases failed
    exact one _ _ ran

theorem Possible.ite {α : Type} {test : Prop} [Decidable test] {yes no : BufferM α}
    (first : Possible yes) (second : Possible no) : Possible (if test then yes else no) := by
  split <;> assumption

theorem possible_require (fact : Prop) [Decidable fact] (assertion : Assertion) :
    Possible (require fact assertion) :=
  .ite (possible_pure _) (possible_throw (by simp))

theorem possible_readRange (first last : Nat) : Possible (readRange first last) :=
  possible_get.bind fun _ => .ite (possible_pure _) (possible_throw (by simp))

theorem possible_writeRange (pos : Nat) (data : Bytes) : Possible (writeRange pos data) :=
  possible_get.bind fun _ => .ite (possible_modify _) (possible_throw (by simp))

theorem possible_resizeStorage (n : Nat) : Possible (resizeStorage n) :=
  possible_get.bind fun _ => .ite (possible_modify _) (possible_throw (by simp))

theorem possible_moveReadable : Possible moveReadable :=
  possible_get.bind fun _ => (possible_readRange _ _).bind fun _ =>
    (possible_writeRange _ _).bind fun _ => (possible_modify _).bind fun _ => possible_modify _

theorem possible_makeSpace (len : Nat) : Possible (makeSpace len) := by
  have grow : Possible (do
      let b ← get
      if b.writableBytes < len then resizeStorage (sizeAdd b.writeIdx len) else pure ()) :=
    possible_get.bind fun _ => .ite (possible_resizeStorage _) (possible_pure _)
  exact possible_get.bind fun _ => .ite (possible_moveReadable.bind fun _ => grow) grow

theorem possible_ensureWritableBytes (len : Nat) : Possible (ensureWritableBytes len) := by
  have check : Possible (do
      let b ← get
      require (len ≤ b.writableBytes) .ensureWritableBytes) :=
    possible_get.bind fun _ => possible_require _ _
  exact possible_get.bind fun _ => .ite ((possible_makeSpace _).bind fun _ => check) check

theorem possible_append (data : Bytes) : Possible (append data) :=
  (possible_ensureWritableBytes _).bind fun _ => possible_get.bind fun _ =>
    (possible_writeRange _ _).bind fun _ => possible_modify _

end Buffer

namespace KqueueSystem

theorem update_possible {heap : ChannelHeap} {sys : KqueueSystem} {id : ChannelId}
    {flags : KeventFlags} : sys.update heap id flags ≠ .error .notEnabled := by
  unfold update
  split
  · simp
  · split <;> simp

theorem updateKnownChannel_possible {heap : ChannelHeap} {sys : KqueueSystem} {id : ChannelId}
    {opt : Opt} {reg : EventMask} :
    sys.updateKnownChannel heap id opt reg ≠ .error .notEnabled := by
  intro failed
  cases opt with
  | disAll =>
    simp only [updateKnownChannel] at failed
    split at failed <;> cases failed
    next impossible => exact update_possible impossible
  | _ => cases failed

theorem operate_possible (heap : ChannelHeap) (sys : KqueueSystem) (id : ChannelId)
    (op : ChannelOp) : polling.operate heap sys id op ≠ .error .notEnabled := by
  intro failed
  cases op with
  | update opt =>
    simp only [PollerImpl.operate, polling, impl, updateChannel, updateNewChannel] at failed
    repeat' split at failed
    all_goals cases failed
    next impossible => exact updateKnownChannel_possible impossible
  | remove =>
    simp only [PollerImpl.operate, polling, impl, removeChannel] at failed
    repeat' split at failed
    all_goals cases failed
    next impossible => exact update_possible impossible

end KqueueSystem

theorem PollPoller.operate_possible (heap : ChannelHeap) (sys : PollPoller) (id : ChannelId)
    (op : ChannelOp) : polling.operate heap sys id op ≠ .error .notEnabled := by
  intro failed
  cases op with
  | update opt =>
    simp only [PollerImpl.operate, polling, impl, updateChannel, appendChannel, rewriteChannel]
      at failed
    repeat' split at failed
    all_goals cases failed
  | remove =>
    simp only [PollerImpl.operate, polling, impl, removeChannel, swapOut] at failed
    repeat' split at failed
    all_goals cases failed

theorem PollerKind.operate_possible (kind : PollerKind) (heap : ChannelHeap) (s : kind.State)
    (id : ChannelId) (op : ChannelOp) : kind.polling.operate heap s id op ≠ .error .notEnabled := by
  cases kind with
  | kqueue => exact KqueueSystem.operate_possible heap s id op
  | poll => exact PollPoller.operate_possible heap s id op

namespace World

variable {σ : Type} {settings : Settings} {impl : Polling σ} {w w' : World σ} {c : ConnId}

/-- `EventLoop::loop` is about to poll. -/
def AtPoll (w : World σ) : Prop := w.stack = [] ∧ w.phase = .polling

instance (w : World σ) : Decidable w.AtPoll := instDecidableAnd

/-- What lets a frame go on: the user's code returns, the system call has nothing to do. -/
def answer (w : World σ) : Frame → Input
  | .user => .return
  | .handleRead _ => .readv (.error 0)
  | .handleWrite c => if (w.heap c).isWriting then .write .wouldBlock else .none
  | .sendInLoopStart c _ _ =>
    if (w.conns c).writesDirectly (w.heap c) then .write .wouldBlock else .none
  | _ => .none

theorem answer_charge (frame : Frame) : (w.answer frame).charge = 0 := by
  cases frame with
  | handleWrite | sendInLoopStart => simp only [answer]; split <;> rfl
  | _ => rfl

-- an operation of the poller returns, or fails
variable (operable : ∀ heap s id op, impl.operate heap s id op ≠ .error .notEnabled)

include operable

theorem operate_possible {id : ChannelId} {op : ChannelOp} :
    w.operate impl id op ≠ .error .notEnabled := by
  unfold operate
  have possible := operable w.heap w.poller id op
  split
  · simp
  · next failed => simpa [failed] using possible

theorem sendInLoopRest_possible {id : SendId} {rest : Message} :
    w.sendInLoopRest impl c id rest ≠ .error .notEnabled := by
  intro failed
  unfold sendInLoopRest at failed
  split at failed
  · next appended =>
    cases failed
    unfold TcpConnection.sendInLoopRest TcpConnection.runBuffer at appended
    split at appended
    · cases appended
    · next ran =>
      split at ran <;> cases ran
      cases appended
      next ran => exact Buffer.possible_append _ _ _ ran
  · dsimp only at failed
    split at failed
    · cases failed
    · exact operate_possible operable failed

/-- A frame of the loop thread is only held up by the user's code. -/
theorem advance_possible (frame : Frame) :
    w.advance settings impl true frame (w.answer frame) ≠ .error .notEnabled := by
  cases frame with
  | user | post | forceCloseStore => simp [advance, Frame.test, answer]
  | send | shutdown | shutdownInLoop =>
    simp only [advance, Frame.test, answer]
    split <;> simp
  -- a comparison of `state_` goes on, or is an assertion that fails
  | sendInLoop | forceClose | forceCloseSecond | closeTask | closeTaskSecond | handleClose
  | handleCloseSecond | connectEstablished | connectDestroyed | handleWriteState =>
    simp only [advance, Frame.test, answer, ne_eq, not_true_eq_false, if_false]
    split <;> simp
  | handleCloseStore | connectDestroyedStore | connectEstablishedStore | connectDestroyedRest =>
    intro failed
    simp only [advance, Frame.test, answer] at failed
    split at failed
    · cases failed
    · next impossible =>
      cases failed
      exact operate_possible operable impossible
  | handleCloseRest c =>
    simp only [advance, Frame.test, answer]
    split
    · by_cases listed : c ∈ (w.note (.closeCallback c)).table <;>
        simp [removeConnectionInLoop, listed]
    · simp
  | sendInLoopStart c id message =>
    cases direct : (w.conns c).writesDirectly (w.heap c) <;>
      simp [advance, Frame.test, answer, direct, WriteAnswer.Valid]
  | sendInLoopRest c id rest =>
    intro failed
    simp only [advance, Frame.test, answer] at failed
    split at failed
    · cases failed
    · next impossible =>
      cases failed
      exact sendInLoopRest_possible operable impossible
  | handleRead c =>
    simp [advance, Frame.test, answer, Buffer.Op.Valid, handleRead, TcpConnection.handleRead,
      TcpConnection.runBuffer, Buffer.readFd]
  | handleWrite c =>
    cases writing : (w.heap c).isWriting <;>
      simp [advance, Frame.test, answer, writing, WriteAnswer.Valid, handleWrite,
        TcpConnection.handleWriteStart]
  | handleEvent id callbacks =>
    cases callbacks with
    | nil => simp [advance, Frame.test, answer]
    | cons =>
      simp only [advance, Frame.test, answer]
      split <;> simp
  | writeComplete c =>
    simp only [advance, Frame.test, answer]
    split <;> simp

/-- Away from the poll the loop thread goes on, or fails. -/
theorem step_possible (away : ¬ w.AtPoll) :
    ∃ input, input.charge = 0 ∧ w.step settings impl (.loop input) ≠ .error .notEnabled := by
  cases stack : w.stack with
  | nil =>
    refine ⟨.none, rfl, ?_⟩
    simp only [step, stack, continueLoop]
    cases phase : w.phase with
    | polling => exact absurd ⟨stack, phase⟩ away
    | dispatching active => cases active <;> simp
    | functors batch => cases batch <;> simp
  | cons frame rest =>
    refine ⟨w.answer frame, answer_charge frame, ?_⟩
    simp only [step, stack]
    split
    · simp
    · next failed =>
      intro same
      cases same
      exact advance_possible operable frame failed

end World

end Muduo.Source
