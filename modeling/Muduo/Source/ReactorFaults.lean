import Muduo.Source.ReactorRuns
import Muduo.Source.SendingExecution

/-!
# When a step of a reactor fails

A step may be impossible in its state, and a vector may refuse to grow; every other
fault is a failed assertion or an access to freed memory. `Sound` collects what the
running frame relies on, function by function, and is all that a step needs.
-/
namespace Muduo.Source
open Muduo.Support

/-- The operation returns, cannot be asked for, or throws `std::length_error`. -/
def Returns {α : Type} (outcome : Except Fault α) : Prop :=
  ∀ fault, outcome = .error fault → fault = .notEnabled ∨ fault = .lengthError

theorem returns_ok {α : Type} (result : α) : Returns (.ok result : Except Fault α) :=
  fun _ failed => by cases failed

theorem returns_notEnabled {α : Type} : Returns (.error .notEnabled : Except Fault α) :=
  fun _ failed => by cases failed; exact Or.inl rfl

theorem returns_lengthError {α : Type} : Returns (.error .lengthError : Except Fault α) :=
  fun _ failed => by cases failed; exact Or.inr rfl

/-- A fault is passed on as it is. -/
theorem Returns.error {α β : Type} {outcome : Except Fault α} {fault : Fault}
    (returns : Returns outcome) (failed : outcome = .error fault) :
    Returns (.error fault : Except Fault β) := by
  rcases returns fault failed with rfl | rfl
  · exact returns_notEnabled
  · exact returns_lengthError

theorem Returns.ite {α : Type} {test : Prop} [Decidable test] {yes no : Except Fault α}
    (first : test → Returns yes) (second : ¬ test → Returns no) :
    Returns (if test then yes else no) := by
  split
  · next holds => exact first holds
  · next fails => exact second fails

/-- A valid operation on a buffer within its bounds at most throws. -/
theorem Buffer.Wf.exec_error {b b' : Buffer} (w : b.Wf) {op : Buffer.Op} (valid : op.Valid b)
    {fault : Fault} (failed : (Buffer.exec op).run b = .error fault b') :
    fault = .lengthError := by
  by_cases fit : op.Fits b
  · rw [w.run_exec_ok valid fit] at failed
    cases failed
  · rw [w.run_exec_error valid fit] at failed
    cases failed
    rfl

namespace TcpConnection

variable {conn : TcpConnection}

theorem sendInLoopRest_returns (w : conn.outputBuffer.Wf) (rest : Message) :
    Returns (conn.sendInLoopRest rest.bytes) := by
  by_cases fit : conn.outputBuffer.Fits rest.bytes.length
  · rw [sendInLoopRest_ok w fit]
    exact returns_ok _
  · rw [sendInLoopRest_error w fit (rest.fits_sum w)]
    exact returns_lengthError

theorem handleRead_returns (w : conn.inputBuffer.Wf) {answer : ReadvAnswer}
    (valid : Buffer.Op.Valid conn.inputBuffer (.readFd answer)) :
    Returns (conn.handleRead answer) := by
  unfold handleRead runBuffer
  cases ran : (Buffer.readFd answer).run conn.inputBuffer with
  | ok n input => exact returns_ok _
  | error e input =>
    have failed : (Buffer.exec (.readFd answer)).run conn.inputBuffer = .error e input := by
      simp only [Buffer.exec, bind, EStateM.run, EStateM.bind] at ran ⊢
      rw [ran]
    rw [w.exec_error valid failed]
    exact returns_lengthError

end TcpConnection

namespace World

variable {σ : Type} {settings : Settings} {impl : Polling σ} {w w' : World σ} {c : ConnId}

/-- What the running frame relies on. -/
structure Sound (settings : Settings) (impl : Polling σ) (w : World σ) (frame : Frame) : Prop where
  tested : ∀ test, frame.test = some test →
    w.state test.conn = test.expected ∨ ∃ frames, test.no = .ok frames
  operable : ∀ id op, Operates settings w frame id op →
    ∃ result, impl.operate w.heap w.poller id op = .ok result
  entered : ∀ c, frame = .handleCloseRest c → settings.serverHere = true → c ∈ w.table
  intact : ∀ c, frame = .writeComplete c → c ∉ w.destructed
  input : ∀ c, (w.conns c).inputBuffer.Wf
  output : ∀ c, (w.conns c).outputBuffer.Wf

theorem operate_returns {v : World σ} {id : ChannelId} {op : ChannelOp}
    (operable : ∃ result, impl.operate w.heap w.poller id op = .ok result)
    (heap : v.heap = w.heap) (poller : v.poller = w.poller) : ∃ v', v.operate impl id op = .ok v' := by
  obtain ⟨⟨heap', poller'⟩, operated⟩ := operable
  rw [← heap, ← poller] at operated
  exact ⟨_, operate_ok.mpr ⟨_, _, operated, rfl⟩⟩

theorem enter_returns (call : Call) : Returns (w.enter call) := by
  cases call with
  | queueInLoop => exact returns_ok _
  | send | shutdown | forceClose =>
    exact Returns.ite (fun _ => returns_ok _) fun _ => returns_notEnabled

theorem Sound.test_returns {frame : Frame} (sound : Sound settings impl w frame) {test : StateTest}
    (tested : frame.test = some test) (onLoop : Bool) (input : Input) :
    Returns (w.advance settings impl onLoop frame input) := by
  simp only [advance, tested]
  refine Returns.ite (fun _ => returns_notEnabled) fun _ => Returns.ite (fun _ => returns_ok _) ?_
  intro different
  obtain ⟨frames, none⟩ := (sound.tested test tested).resolve_left different
  rw [none]
  exact returns_ok _

theorem Sound.loopCall_returns (sound : Sound settings impl w .user) (call : LoopCall) :
    Returns (w.loopCall settings impl call) := by
  cases call with
  | setHighWaterMarkCallback c mark =>
    exact Returns.ite (fun _ => returns_ok _) fun _ => returns_notEnabled
  | input c op =>
    refine Returns.ite (fun ready => ?_) fun _ => returns_notEnabled
    cases ran : (Buffer.exec op).run (w.conns c).inputBuffer with
    | ok out buffer => exact returns_ok _
    | error e buffer =>
      rw [(sound.input c).exec_error ready.2 ran]
      exact returns_lengthError
  | newConnection c => exact Returns.ite (fun _ => returns_ok _) fun _ => returns_notEnabled
  | watch id =>
    refine Returns.ite (fun aux => ?_) fun _ => returns_notEnabled
    obtain ⟨v, operated⟩ := operate_returns (sound.operable id _ (.watch aux)) rfl rfl
    rw [operated]
    exact returns_ok _

theorem Sound.sendInLoopRest_returns {id : SendId} {rest : Message}
    (sound : Sound settings impl w (.sendInLoopRest c id rest)) :
    Returns (w.sendInLoopRest impl c id rest) := by
  unfold sendInLoopRest
  cases appended : (w.conns c).sendInLoopRest rest.bytes with
  | error e => exact (TcpConnection.sendInLoopRest_returns (sound.output c) rest).error appended
  | ok conn =>
    refine Returns.ite (fun _ => returns_ok _) fun idle => ?_
    obtain ⟨v, operated⟩ := operate_returns
      (v := (w.setConn c conn).note (.append c id rest.bytes))
      (sound.operable c _ (.enableWriting (Bool.eq_false_iff.mpr idle))) rfl rfl
    rw [operated]
    exact returns_ok _

theorem Sound.handleWrite_returns (sound : Sound settings impl w (.handleWrite c))
    (writing : (w.heap c).isWriting = true) {answer : WriteAnswer}
    (valid : answer.Valid (w.conns c).outputBuffer.value) :
    Returns (w.handleWrite impl c answer) := by
  unfold handleWrite
  rw [TcpConnection.handleWriteStart_ok (sound.output c) valid]
  generalize (if answer.count = 0 then _ else _ : TcpConnection.WriteStart) = start
  refine Returns.ite (fun _ => ?_) fun _ => returns_ok _
  obtain ⟨v, operated⟩ := operate_returns (v := w.wrote c start)
    (sound.operable c _ (.disableWriting writing)) rfl rfl
  simp only [wrote] at operated
  rw [operated]
  exact returns_ok _

/-- A frame that finds what it relies on does not fail. -/
theorem Sound.advance_returns {frame : Frame} (sound : Sound settings impl w frame) (onLoop : Bool)
    (input : Input) : Returns (w.advance settings impl onLoop frame input) := by
  have down (c : ConnId) (operable : ∃ result, impl.operate w.heap w.poller c (.update .disAll) =
      .ok result) : ∃ v, w.goDown impl c = .ok v := operate_returns operable rfl rfl
  cases tested : frame.test with
  | some test => exact sound.test_returns tested onLoop input
  | none =>
    cases frame with
    | user =>
      cases input with
      | call call =>
        simp only [advance, tested]
        cases entered : w.enter call with
        | ok frame => exact returns_ok _
        | error e => exact (enter_returns call).error entered
      | loopCall call =>
        simp only [advance, tested]
        cases called : w.loopCall settings impl call with
        | ok result => exact returns_ok _
        | error e => exact (sound.loopCall_returns call).error called
      | «return» => exact returns_ok _
      | none | readv | write => exact returns_notEnabled
    | send | shutdown | shutdownInLoop =>
      cases input <;> try exact returns_notEnabled
      exact Returns.ite (fun _ => returns_ok _) fun _ => returns_ok _
    | forceCloseStore | post =>
      cases input <;> first | exact returns_notEnabled | exact returns_ok _
    | handleCloseStore c =>
      cases input <;> try exact returns_notEnabled
      obtain ⟨v, ran⟩ := down c (sound.operable c _ .handleClose)
      simp only [advance, tested, ran]
      exact returns_ok _
    | connectDestroyedStore c =>
      cases input <;> try exact returns_notEnabled
      obtain ⟨v, ran⟩ := down c (sound.operable c _ .connectDestroyed)
      simp only [advance, tested, ran]
      exact returns_ok _
    | connectEstablishedStore c =>
      cases input <;> try exact returns_notEnabled
      obtain ⟨v, ran⟩ := operate_returns (v := (w.setState c .kConnected).note (.up c))
        (sound.operable c _ .connectEstablished) rfl rfl
      simp only [advance, tested, ran]
      exact returns_ok _
    | connectDestroyedRest c =>
      cases input <;> try exact returns_notEnabled
      obtain ⟨v, ran⟩ := operate_returns (v := w) (sound.operable c _ .remove) rfl rfl
      simp only [advance, tested, ran]
      exact returns_ok _
    | handleCloseRest c =>
      cases input <;> try exact returns_notEnabled
      refine Returns.ite (fun here => ?_) fun _ => returns_ok _
      have present : c ∈ (w.note (.closeCallback c)).table := sound.entered c rfl here
      simp only [removeConnectionInLoop, if_pos present]
      exact returns_ok _
    | sendInLoopStart c id message =>
      cases input <;> try exact returns_notEnabled
      · exact Returns.ite (fun _ => returns_notEnabled) fun _ => returns_ok _
      · exact Returns.ite (fun _ => returns_ok _) fun _ => returns_notEnabled
    | sendInLoopRest c id rest =>
      cases input <;> try exact returns_notEnabled
      simp only [advance, tested]
      cases ran : w.sendInLoopRest impl c id rest with
      | ok v => exact returns_ok _
      | error e => exact sound.sendInLoopRest_returns.error ran
    | handleRead c =>
      cases input <;> try exact returns_notEnabled
      next answer =>
      refine Returns.ite (fun valid => ?_) fun _ => returns_notEnabled
      unfold handleRead
      cases read : (w.conns c).handleRead answer with
      | error e => exact (TcpConnection.handleRead_returns (sound.input c) valid).error read
      | ok result =>
        exact Returns.ite (fun _ => returns_ok _) fun _ =>
          Returns.ite (fun _ => returns_ok _) fun _ => returns_ok _
    | handleWrite c =>
      cases input <;> try exact returns_notEnabled
      · exact Returns.ite (fun _ => returns_notEnabled) fun _ => returns_ok _
      · exact Returns.ite (fun ready => sound.handleWrite_returns ready.1 ready.2)
          fun _ => returns_notEnabled
    | handleEvent id callbacks =>
      cases callbacks <;> cases input <;> try exact returns_notEnabled
      · exact returns_ok _
      · exact Returns.ite (fun _ => returns_ok _) fun _ => returns_ok _
    | writeComplete c =>
      cases input <;> try exact returns_notEnabled
      simp only [advance, tested, if_neg (sound.intact c rfl)]
      exact returns_ok _
    | sendInLoop | forceClose | forceCloseSecond | closeTask | closeTaskSecond | handleClose
    | handleCloseSecond | connectEstablished | connectDestroyed | handleWriteState => cases tested

/-- What an action relies on besides its frame. -/
structure Prepared (settings : Settings) (impl : Polling σ) (w : World σ)
    (action : Action impl.Answer) : Prop where
  running : ∀ frame, w.running action = some frame → Sound settings impl w frame
  removed : ∀ c, action = .removeElsewhere c → c ∈ w.removing → c ∈ w.table
  destructed : ∀ c, action = .destruct c → w.Live c → w.Unreferenced c →
    w.state c = .kDisconnected
  polled : ∀ reported, action = .poll reported → impl.reports w.poller reported = true →
    ∃ result, impl.poll w.heap w.poller reported = .ok result

theorem continueLoop_returns (input : Input) : Returns (w.continueLoop input) := by
  unfold continueLoop
  split <;> first | exact returns_ok _ | exact returns_notEnabled

/-- An action that finds what it relies on does not fail. -/
theorem Prepared.returns {action : Action impl.Answer} (prepared : Prepared settings impl w action) :
    Returns (w.step settings impl action) := by
  cases action with
  | loop input =>
    cases stack : w.stack with
    | nil =>
      simp only [step, stack]
      exact continueLoop_returns input
    | cons frame rest =>
      have sound := prepared.running frame (by simp [World.running, stack])
      simp only [step, stack]
      cases ran : w.advance settings impl true frame input with
      | ok result => exact returns_ok _
      | error e => exact (sound.advance_returns true input).error ran
  | poll reported =>
    refine Returns.ite (fun ready => ?_) fun _ => returns_notEnabled
    obtain ⟨result, polled⟩ := prepared.polled reported rfl ready.2.2
    rw [polled]
    exact returns_ok _
  | destroy | connectElsewhere | destroyElsewhere =>
    exact Returns.ite (fun _ => returns_ok _) fun _ => returns_notEnabled
  | call call =>
    simp only [step]
    cases entered : w.enter call with
    | ok frame => exact returns_ok _
    | error e => exact (enter_returns call).error entered
  | other position =>
    simp only [step]
    cases present : w.others[position]? with
    | none => exact returns_notEnabled
    | some frame =>
      have sound := prepared.running frame present
      dsimp only
      cases ran : w.advance settings impl false frame .none with
      | ok result => exact returns_ok _
      | error e => exact (sound.advance_returns false .none).error ran
  | removeElsewhere c =>
    refine Returns.ite (fun posted => ?_) fun _ => returns_notEnabled
    have present : c ∈ { w with removing := w.removing.erase c }.table :=
      prepared.removed c rfl posted
    simp only [removeConnectionInLoop, if_pos present]
    exact returns_ok _
  | destruct c =>
    refine Returns.ite (fun ready => ?_) fun _ => returns_notEnabled
    rw [if_pos (prepared.destructed c rfl ready.1 ready.2)]
    exact returns_ok _

end World

end Muduo.Source
