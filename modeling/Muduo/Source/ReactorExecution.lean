import Muduo.Source.ReactorLoop

/-!
# What the steps of a reactor do

`Advance` lists the outcomes of a frame and `Step` those of an action; every
successful step is one of them. The invariants are proved over these lists.
-/
namespace Muduo.Source
open Muduo.Support

/-- Frames that may end with their next step. -/
def Frame.ends : Frame → Bool
  | .user | .send .. | .shutdown _ | .post _ | .shutdownInLoop _ | .handleCloseRest _
  | .connectDestroyedRest _ | .sendInLoopStart .. | .sendInLoopRest .. | .handleRead _
  | .handleWrite _ | .handleEvent .. => true
  | _ => false

/-- The first frame of a call. -/
def Frame.enters : Frame → Bool
  | .send .. | .shutdown _ | .forceClose _ | .post .user => true
  | _ => false

/-- The frame is the user's code, or hands the control to it. -/
def Frame.entrusts : Frame → Bool
  | .user | .sendInLoopStart .. | .handleCloseStore _ | .connectEstablishedStore _
  | .connectDestroyedStore _ | .handleRead _ | .handleEvent .. | .writeComplete _ => true
  | _ => false

namespace World

variable {σ : Type} {settings : Settings} {impl : Polling σ} {w w' : World σ} {c : ConnId}

@[simp] theorem conns_setConn (conn : TcpConnection) :
    (w.setConn c conn).conns = Function.update w.conns c conn := rfl

theorem state_setConn (conn : TcpConnection) (other : ConnId) :
    (w.setConn c conn).state other = if other = c then conn.state else w.state other := by
  simp only [state, conns_setConn, Function.update_apply]
  split <;> rfl

theorem state_setState (s : StateE) (other : ConnId) :
    (w.setState c s).state other = if other = c then s else w.state other :=
  state_setConn ..

/-- An operation changes the channels and the poller only. -/
theorem operate_ok {id : ChannelId} {op : ChannelOp} :
    w.operate impl id op = .ok w' ↔
      ∃ heap poller, impl.operate w.heap w.poller id op = .ok (heap, poller) ∧
        { w with heap := heap, poller := poller } = w' := by
  unfold operate
  cases impl.operate w.heap w.poller id op with
  | error e => simp
  | ok result => simp [Prod.ext_iff]

/-- A removed connection leaves the table and its `connectDestroyed` is queued. -/
theorem removeConnectionInLoop_ok :
    w.removeConnectionInLoop c = .ok w' ↔
      c ∈ w.table ∧ { w with table := w.table.erase c }.queue (.connectDestroyed c) = w' := by
  unfold removeConnectionInLoop
  split <;> simp [*]

/-- `sendInLoop` up to the high-water callback: with the answer of `::write`, or without one. -/
def Sent (w : World σ) (c : ConnId) (id : SendId) (message : Message) (input : Input)
    (w' : World σ) (frames : List Frame) : Prop :=
  ∃ answer : WriteAnswer,
    (answer.Valid message.bytes ∧
      if (w.conns c).writesDirectly (w.heap c) then input = .write answer
      else input = .none ∧ answer = .wouldBlock) ∧
    w.sendInLoopStart c id message answer = (w', frames)

/-- The outcomes of a frame. -/
inductive Advance (settings : Settings) (impl : Polling σ) (onLoop : Bool) (w : World σ) :
    Frame → Input → World σ → List Frame → Prop
  | yes {frame : Frame} {test : StateTest} : frame.test = some test →
      w.state test.conn = test.expected → Advance settings impl onLoop w frame .none w test.yes
  | no {frame : Frame} {test : StateTest} {frames : List Frame} : frame.test = some test →
      w.state test.conn ≠ test.expected → test.no = .ok frames →
      Advance settings impl onLoop w frame .none w frames
  | call {call : Call} {frame : Frame} : w.enter call = .ok frame →
      Advance settings impl onLoop w .user (.call call) w [frame, .user]
  | adjust {c : ConnId} {call : LoopCall} {conn : TcpConnection} :
      conn.state = w.state c → conn.outputBuffer = (w.conns c).outputBuffer →
      Advance settings impl onLoop w .user (.loopCall call) (w.setConn c conn) [.user]
  | construct {c : ConnId} : settings.serverHere = true → w.Fresh settings c →
      Advance settings impl onLoop w .user (.loopCall (.newConnection c)) (w.construct c)
        [.connectEstablished c, .user]
  | watch {id : ChannelId} {w' : World σ} : id ∈ settings.aux →
      w.operate impl id (.update .enRead) = .ok w' →
      Advance settings impl onLoop w .user (.loopCall (.watch id)) w' [.user]
  | return : Advance settings impl onLoop w .user .return w []
  | accept {c : ConnId} {message : Message} : w.state c = .kConnected →
      Advance settings impl onLoop w (.send c message) .none
        ({ w with nextSend := w.nextSend + 1 }.note (.accepted c w.nextSend message))
        [runInLoop onLoop (.sendInLoop c w.nextSend message)]
  | reject {c : ConnId} {message : Message} : w.state c ≠ .kConnected →
      Advance settings impl onLoop w (.send c message) .none w []
  | shutdown {c : ConnId} : w.state c = .kConnected →
      Advance settings impl onLoop w (.shutdown c) .none (w.setState c .kDisconnecting)
        [runInLoop onLoop (.shutdownInLoop c)]
  | shutdownLate {c : ConnId} : w.state c ≠ .kConnected →
      Advance settings impl onLoop w (.shutdown c) .none w []
  | forceCloseStore {c : ConnId} :
      Advance settings impl onLoop w (.forceCloseStore c) .none (w.setState c .kDisconnecting)
        [runInLoop onLoop (.forceClose c)]
  | post {task : Task} : Advance settings impl onLoop w (.post task) .none (w.queue task) []
  | shutdownDeferred {c : ConnId} : (w.heap c).isWriting = true →
      Advance settings impl onLoop w (.shutdownInLoop c) .none w []
  | shutdownWrite {c : ConnId} : (w.heap c).isWriting = false →
      Advance settings impl onLoop w (.shutdownInLoop c) .none
        ((w.setSocket c { w.sockets c with writeShut := true }).note (.shutdownWrite c)) []
  | handleCloseStore {c : ConnId} {w' : World σ} : w.goDown impl c = .ok w' →
      Advance settings impl onLoop w (.handleCloseStore c) .none w' [.user, .handleCloseRest c]
  | closeHere {c : ConnId} {w' : World σ} : settings.serverHere = true →
      (w.note (.closeCallback c)).removeConnectionInLoop c = .ok w' →
      Advance settings impl onLoop w (.handleCloseRest c) .none w' []
  | closeElsewhere {c : ConnId} : settings.serverHere = false →
      Advance settings impl onLoop w (.handleCloseRest c) .none
        { w.note (.closeCallback c) with removing := w.removing ++ [c] } []
  | connectEstablishedStore {c : ConnId} {w' : World σ} :
      ((w.setState c .kConnected).note (.up c)).operate impl c (.update .enRead) = .ok w' →
      Advance settings impl onLoop w (.connectEstablishedStore c) .none w' [.user]
  | connectDestroyedStore {c : ConnId} {w' : World σ} : w.goDown impl c = .ok w' →
      Advance settings impl onLoop w (.connectDestroyedStore c) .none w'
        [.user, .connectDestroyedRest c]
  | connectDestroyedRest {c : ConnId} {w' : World σ} : w.operate impl c .remove = .ok w' →
      Advance settings impl onLoop w (.connectDestroyedRest c) .none w' []
  | sendInLoopStart {c : ConnId} {id : SendId} {message : Message} {input : Input}
      {w' : World σ} {frames : List Frame} : w.Sent c id message input w' frames →
      Advance settings impl onLoop w (.sendInLoopStart c id message) input w' frames
  | sendInLoopRest {c : ConnId} {id : SendId} {rest : Message} {w' : World σ} :
      w.sendInLoopRest impl c id rest = .ok w' →
      Advance settings impl onLoop w (.sendInLoopRest c id rest) .none w' []
  | handleRead {c : ConnId} {answer : ReadvAnswer} {w' : World σ} {frames : List Frame} :
      w.handleRead c answer = .ok (w', frames) →
      Advance settings impl onLoop w (.handleRead c) (.readv answer) w' frames
  | handleWriteIdle {c : ConnId} : (w.heap c).isWriting = false →
      Advance settings impl onLoop w (.handleWrite c) .none w []
  | handleWrite {c : ConnId} {answer : WriteAnswer} {w' : World σ} {frames : List Frame} :
      (w.heap c).isWriting = true → answer.Valid (w.conns c).outputBuffer.value →
      w.handleWrite impl c answer = .ok (w', frames) →
      Advance settings impl onLoop w (.handleWrite c) (.write answer) w' frames
  | dispatched {id : ChannelId} : Advance settings impl onLoop w (.handleEvent id []) .none w []
  | dispatchAux {id : ChannelId} {event : EventCallback} {callbacks : List EventCallback} :
      id ∈ settings.aux →
      Advance settings impl onLoop w (.handleEvent id (event :: callbacks)) .none w
        [.user, .handleEvent id callbacks]
  | dispatch {c : ConnId} {event : EventCallback} {callbacks : List EventCallback} :
      c ∉ settings.aux →
      Advance settings impl onLoop w (.handleEvent c (event :: callbacks)) .none w
        (callback c event ++ [.handleEvent c callbacks])
  | writeComplete {c : ConnId} : c ∉ w.destructed →
      Advance settings impl onLoop w (.writeComplete c) .none w [.user]

theorem loopCall_ok {onLoop : Bool} {call : LoopCall} {frames : List Frame}
    (ran : w.loopCall settings impl call = .ok (w', frames)) :
    Advance settings impl onLoop w .user (.loopCall call) w' (frames ++ [.user]) := by
  cases call with
  | setHighWaterMarkCallback c mark =>
    simp only [loopCall] at ran
    split at ran <;> cases ran
    exact .adjust rfl rfl
  | input c op =>
    simp only [loopCall] at ran
    split at ran
    · split at ran <;> cases ran
      exact .adjust rfl rfl
    · cases ran
  | newConnection c =>
    simp only [loopCall] at ran
    split at ran <;> cases ran
    next fresh => exact .construct fresh.1 fresh.2
  | watch id =>
    simp only [loopCall] at ran
    split at ran
    · next aux =>
      split at ran <;> cases ran
      next enabled => exact .watch aux enabled
    · cases ran

theorem advance_ok {onLoop : Bool} {frame : Frame} {input : Input} {frames : List Frame}
    (ran : w.advance settings impl onLoop frame input = .ok (w', frames)) :
    Advance settings impl onLoop w frame input w' frames := by
  unfold advance at ran
  cases tested : frame.test with
  | some test =>
    simp only [tested, check_ok, not_not] at ran
    obtain ⟨rfl, ran⟩ := ran
    split at ran
    · next same =>
      cases ran
      exact .yes tested same
    · next different =>
      cases none : test.no with
      | error e => simp [none] at ran
      | ok frames' =>
        simp only [none] at ran
        cases ran
        exact .no tested different none
  | none =>
    simp only [tested] at ran
    cases frame with
    | user =>
      cases input <;> try cases ran
      · next call =>
        cases entered : w.enter call with
        | error e => simp [entered] at ran
        | ok frame =>
          simp only [entered] at ran
          cases ran
          exact .call entered
      · next call =>
        cases called : w.loopCall settings impl call with
        | error e => simp [called] at ran
        | ok result =>
          simp only [called] at ran
          cases ran
          exact loopCall_ok called
      · exact .return
    | send c message =>
      cases input <;> try cases ran
      dsimp only at ran
      split at ran <;> cases ran
      · next open_ => exact .accept open_
      · next closed => exact .reject closed
    | shutdown c =>
      cases input <;> try cases ran
      dsimp only at ran
      split at ran <;> cases ran
      · next open_ => exact .shutdown open_
      · next closed => exact .shutdownLate closed
    | forceCloseStore c => cases input <;> cases ran; exact .forceCloseStore
    | post task => cases input <;> cases ran; exact .post
    | shutdownInLoop c =>
      cases input <;> try cases ran
      dsimp only at ran
      split at ran <;> cases ran
      · next writing => exact .shutdownDeferred writing
      · next idle => exact .shutdownWrite (Bool.eq_false_iff.mpr idle)
    | handleCloseStore c =>
      cases input <;> try cases ran
      dsimp only at ran
      split at ran <;> cases ran
      next down => exact .handleCloseStore down
    | handleCloseRest c =>
      cases input <;> try cases ran
      dsimp only at ran
      split at ran
      · next here =>
        split at ran <;> cases ran
        next removed => exact .closeHere here removed
      · next elsewhere =>
        cases ran
        exact .closeElsewhere (Bool.eq_false_iff.mpr elsewhere)
    | connectEstablishedStore c =>
      cases input <;> try cases ran
      dsimp only at ran
      split at ran <;> cases ran
      next enabled => exact .connectEstablishedStore enabled
    | connectDestroyedStore c =>
      cases input <;> try cases ran
      dsimp only at ran
      split at ran <;> cases ran
      next down => exact .connectDestroyedStore down
    | connectDestroyedRest c =>
      cases input <;> try cases ran
      dsimp only at ran
      split at ran <;> cases ran
      next removed => exact .connectDestroyedRest removed
    | sendInLoopStart c id message =>
      cases input <;> try cases ran
      · dsimp only at ran
        split at ran
        · cases ran
        · next idle =>
          exact .sendInLoopStart ⟨.wouldBlock, ⟨trivial, by simp [idle]⟩, Except.ok.inj ran⟩
      · dsimp only at ran
        split at ran
        · next valid =>
          exact .sendInLoopStart ⟨_, ⟨valid.2, by simp [valid.1]⟩, Except.ok.inj ran⟩
        · cases ran
    | sendInLoopRest c id rest =>
      cases input <;> try cases ran
      dsimp only at ran
      split at ran <;> cases ran
      next appended => exact .sendInLoopRest appended
    | handleRead c =>
      cases input <;> try cases ran
      dsimp only at ran
      split at ran
      · exact .handleRead ran
      · cases ran
    | handleWrite c =>
      cases input <;> try cases ran
      · dsimp only at ran
        split at ran <;> cases ran
        next idle => exact .handleWriteIdle (Bool.eq_false_iff.mpr idle)
      · dsimp only at ran
        split at ran
        · next valid => exact .handleWrite valid.1 valid.2 ran
        · cases ran
    | handleEvent id callbacks =>
      cases callbacks with
      | nil => cases input <;> cases ran; exact .dispatched
      | cons event callbacks =>
        cases input <;> try cases ran
        dsimp only at ran
        split at ran <;> cases ran
        · next aux => exact .dispatchAux aux
        · next own => exact .dispatch own
    | writeComplete c =>
      cases input <;> try cases ran
      dsimp only at ran
      split at ran <;> cases ran
      next alive => exact .writeComplete alive
    | sendInLoop | forceClose | forceCloseSecond | closeTask | closeTaskSecond | handleClose
    | handleCloseSecond | connectEstablished | connectDestroyed | handleWriteState => cases tested

/-- A frame leaves the threads, the phase and the destructed connections alone. -/
structure SameControl (w w' : World σ) : Prop where
  stack : w'.stack = w.stack
  others : w'.others = w.others
  phase : w'.phase = w.phase
  destructed : w'.destructed = w.destructed

theorem operate_control {id : ChannelId} {op : ChannelOp}
    (operated : w.operate impl id op = .ok w') : SameControl w w' := by
  obtain ⟨heap, poller, _, rfl⟩ := operate_ok.mp operated
  exact ⟨rfl, rfl, rfl, rfl⟩

theorem operate_pending {id : ChannelId} {op : ChannelOp}
    (operated : w.operate impl id op = .ok w') : w'.pending = w.pending := by
  obtain ⟨_, _, _, rfl⟩ := operate_ok.mp operated
  rfl

/-- `handleRead` stores what was read and goes on by the count. -/
theorem handleRead_ok {answer : ReadvAnswer} {frames : List Frame}
    (ran : w.handleRead c answer = .ok (w', frames)) :
    ∃ n conn, (w.conns c).handleRead answer = .ok (n, conn) ∧
      (0 < n ∧ (w.setConn c conn).note (.messageCallback c) = w' ∧ [.user] = frames ∨
        n = 0 ∧ w.setConn c conn = w' ∧ [.handleClose c] = frames ∨
        n < 0 ∧ w.setConn c conn = w' ∧ [] = frames) := by
  unfold handleRead at ran
  split at ran
  · cases ran
  · next n conn read =>
    refine ⟨n, conn, read, ?_⟩
    dsimp only at ran
    split at ran
    · next positive =>
      cases ran
      exact Or.inl ⟨positive, rfl, rfl⟩
    · next notPositive =>
      split at ran <;> cases ran
      · next zero => exact Or.inr (Or.inl ⟨zero, rfl, rfl⟩)
      · next notZero => exact Or.inr (Or.inr ⟨by omega, rfl, rfl⟩)

/-- `sendInLoop` ends with an append, and with write interest if there was none. -/
theorem sendInLoopRest_ok {id : SendId} {rest : Message}
    (ran : w.sendInLoopRest impl c id rest = .ok w') :
    ∃ conn, (w.conns c).sendInLoopRest rest.bytes = .ok conn ∧
      ((w.heap c).isWriting = true ∧ (w.setConn c conn).note (.append c id rest.bytes) = w' ∨
        (w.heap c).isWriting = false ∧
          ((w.setConn c conn).note (.append c id rest.bytes)).operate impl c (.update .enWrite) =
            .ok w') := by
  unfold sendInLoopRest at ran
  split at ran
  · cases ran
  · next conn appended =>
    refine ⟨conn, appended, ?_⟩
    dsimp only at ran
    split at ran
    · next writing =>
      cases ran
      exact Or.inl ⟨writing, rfl⟩
    · next idle => exact Or.inr ⟨Bool.eq_false_iff.mpr idle, ran⟩

/-- The world after the `::write` of `handleWrite` and the retrieval. -/
def wrote (w : World σ) (c : ConnId) (start : TcpConnection.WriteStart) : World σ :=
  ((w.setConn c start.conn).setSocket c
    { w.sockets c with sent := (w.sockets c).sent ++ start.written }).note
    (.write c none (w.conns c).outputBuffer.value start.written)

/-- `handleWrite` writes, and drops its interest when nothing is left. -/
theorem handleWrite_ok {answer : WriteAnswer} {frames : List Frame}
    (ran : w.handleWrite impl c answer = .ok (w', frames)) :
    ∃ start, (w.conns c).handleWriteStart answer = .ok start ∧
      (start.drained = false ∧ w.wrote c start = w' ∧ [] = frames ∨
        start.drained = true ∧ [.handleWriteState c] = frames ∧
          ∃ w₁, (w.wrote c start).operate impl c (.update .disWrite) = .ok w₁ ∧
            { w₁ with pending := w₁.pending ++
              if start.conn.writeCompleteCallback then [.writeComplete c] else [] } = w') := by
  unfold handleWrite at ran
  split at ran
  · cases ran
  · next start started =>
    refine ⟨start, started, ?_⟩
    dsimp only at ran
    split at ran
    · next drained =>
      split at ran <;> cases ran
      next w₁ operated =>
      refine Or.inr ⟨drained, rfl, w₁, operated, ?_⟩
      split
      · rfl
      · simp
    · next kept =>
      cases ran
      exact Or.inl ⟨Bool.eq_false_iff.mpr kept, rfl, rfl⟩

/-- The frames that may take the place of a frame, in any world. -/
inductive Follows (onLoop : Bool) : Frame → List Frame → Prop
  | yes {frame : Frame} {test : StateTest} : frame.test = some test →
      Follows onLoop frame test.yes
  | no {frame : Frame} {test : StateTest} {frames : List Frame} : frame.test = some test →
      test.no = .ok frames → Follows onLoop frame frames
  | stop {frame : Frame} : frame.ends = true → Follows onLoop frame []
  | call {frame : Frame} : frame.enters = true → Follows onLoop .user [frame, .user]
  | resume : Follows onLoop .user [.user]
  | connect {c : ConnId} : Follows onLoop .user [.connectEstablished c, .user]
  | send {c : ConnId} {id : SendId} {message : Message} :
      Follows onLoop (.send c message) [runInLoop onLoop (.sendInLoop c id message)]
  | shutdown {c : ConnId} :
      Follows onLoop (.shutdown c) [runInLoop onLoop (.shutdownInLoop c)]
  | forceClose {c : ConnId} :
      Follows onLoop (.forceCloseStore c) [runInLoop onLoop (.forceClose c)]
  | handleClose {c : ConnId} : Follows onLoop (.handleCloseStore c) [.user, .handleCloseRest c]
  | connectEstablished {c : ConnId} : Follows onLoop (.connectEstablishedStore c) [.user]
  | connectDestroyed {c : ConnId} :
      Follows onLoop (.connectDestroyedStore c) [.user, .connectDestroyedRest c]
  | remainder {c : ConnId} {id : SendId} {message rest : Message} :
      Follows onLoop (.sendInLoopStart c id message) [.sendInLoopRest c id rest]
  | highWater {c : ConnId} {id : SendId} {message rest : Message} :
      Follows onLoop (.sendInLoopStart c id message) [.user, .sendInLoopRest c id rest]
  | message {c : ConnId} : Follows onLoop (.handleRead c) [.user]
  | endOfInput {c : ConnId} : Follows onLoop (.handleRead c) [.handleClose c]
  | drained {c : ConnId} : Follows onLoop (.handleWrite c) [.handleWriteState c]
  | dispatchAux {id : ChannelId} {event : EventCallback} {callbacks : List EventCallback} :
      Follows onLoop (.handleEvent id (event :: callbacks)) [.user, .handleEvent id callbacks]
  | dispatch {c : ConnId} {event : EventCallback} {callbacks : List EventCallback} :
      Follows onLoop (.handleEvent c (event :: callbacks))
        (callback c event ++ [.handleEvent c callbacks])
  | writeComplete {c : ConnId} : Follows onLoop (.writeComplete c) [.user]

/-- The frames that may come after a frame, one by one. -/
inductive Leads (onLoop : Bool) : Frame → Frame → Prop
  | user {frame : Frame} : frame.entrusts = true → Leads onLoop frame .user
  | call {frame : Frame} : frame.enters = true → Leads onLoop .user frame
  | connect {c : ConnId} : Leads onLoop .user (.connectEstablished c)
  | sendNow {c : ConnId} {id : SendId} {message : Message} : onLoop = true →
      Leads onLoop (.send c message) (.sendInLoop c id message)
  | sendLater {c : ConnId} {id : SendId} {message : Message} : onLoop = false →
      Leads onLoop (.send c message) (.post (.sendInLoop c id message))
  | sendStart {c : ConnId} {id : SendId} {message : Message} :
      Leads onLoop (.sendInLoop c id message) (.sendInLoopStart c id message)
  | sendRest {c : ConnId} {id : SendId} {message rest : Message} :
      Leads onLoop (.sendInLoopStart c id message) (.sendInLoopRest c id rest)
  | shutdownNow {c : ConnId} : onLoop = true → Leads onLoop (.shutdown c) (.shutdownInLoop c)
  | shutdownLater {c : ConnId} : onLoop = false →
      Leads onLoop (.shutdown c) (.post (.shutdownInLoop c))
  | shutdownDrained {c : ConnId} : Leads onLoop (.handleWriteState c) (.shutdownInLoop c)
  | forceFirst {c : ConnId} : Leads onLoop (.forceClose c) (.forceCloseStore c)
  | forceSecond {c : ConnId} : Leads onLoop (.forceClose c) (.forceCloseSecond c)
  | forceStore {c : ConnId} : Leads onLoop (.forceCloseSecond c) (.forceCloseStore c)
  | forceNow {c : ConnId} : onLoop = true → Leads onLoop (.forceCloseStore c) (.closeTask c)
  | forceLater {c : ConnId} : onLoop = false →
      Leads onLoop (.forceCloseStore c) (.post (.forceClose c))
  | taskFirst {c : ConnId} : Leads onLoop (.closeTask c) (.handleClose c)
  | taskSecond {c : ConnId} : Leads onLoop (.closeTask c) (.closeTaskSecond c)
  | taskClose {c : ConnId} : Leads onLoop (.closeTaskSecond c) (.handleClose c)
  | closeFirst {c : ConnId} : Leads onLoop (.handleClose c) (.handleCloseStore c)
  | closeSecond {c : ConnId} : Leads onLoop (.handleClose c) (.handleCloseSecond c)
  | closeStore {c : ConnId} : Leads onLoop (.handleCloseSecond c) (.handleCloseStore c)
  | closeRest {c : ConnId} : Leads onLoop (.handleCloseStore c) (.handleCloseRest c)
  | established {c : ConnId} : Leads onLoop (.connectEstablished c) (.connectEstablishedStore c)
  | destroyStore {c : ConnId} : Leads onLoop (.connectDestroyed c) (.connectDestroyedStore c)
  | destroySkip {c : ConnId} : Leads onLoop (.connectDestroyed c) (.connectDestroyedRest c)
  | destroyRest {c : ConnId} : Leads onLoop (.connectDestroyedStore c) (.connectDestroyedRest c)
  | endOfInput {c : ConnId} : Leads onLoop (.handleRead c) (.handleClose c)
  | drained {c : ConnId} : Leads onLoop (.handleWrite c) (.handleWriteState c)
  | hangup {c : ConnId} {callbacks : List EventCallback} :
      Leads onLoop (.handleEvent c (.close :: callbacks)) (.handleClose c)
  | input {c : ConnId} {callbacks : List EventCallback} :
      Leads onLoop (.handleEvent c (.read :: callbacks)) (.handleRead c)
  | output {c : ConnId} {callbacks : List EventCallback} :
      Leads onLoop (.handleEvent c (.write :: callbacks)) (.handleWrite c)
  | next {id : ChannelId} {event : EventCallback} {callbacks : List EventCallback} :
      Leads onLoop (.handleEvent id (event :: callbacks)) (.handleEvent id callbacks)

theorem Follows.leads {onLoop : Bool} {frame other : Frame} {frames : List Frame}
    (follows : Follows onLoop frame frames) (member : other ∈ frames) :
    Leads onLoop frame other := by
  cases follows with
  | yes tested =>
    cases frame <;> cases tested <;> cases member <;> first | constructor | contradiction
  | no tested none =>
    cases frame <;> cases tested <;> cases none <;> cases member <;>
      first | constructor | contradiction
  | stop => cases member
  | call enters =>
    simp only [List.mem_cons, List.not_mem_nil, or_false] at member
    rcases member with rfl | rfl
    · exact .call enters
    · exact .user rfl
  | send | shutdown | forceClose =>
    rw [List.mem_singleton.mp member]
    cases onLoop <;> constructor <;> rfl
  | @dispatch c event callbacks =>
    rcases List.mem_append.mp member with begun | later
    · cases event <;> simp only [callback, List.mem_singleton, List.not_mem_nil] at begun <;>
        subst begun <;> constructor
    · exact List.mem_singleton.mp later ▸ .next
  | resume | connectEstablished | message | writeComplete =>
    rw [List.mem_singleton.mp member]
    exact .user rfl
  | remainder | endOfInput | drained =>
    rw [List.mem_singleton.mp member]
    constructor
  | connect =>
    simp only [List.mem_cons, List.not_mem_nil, or_false] at member
    rcases member with rfl | rfl
    · exact .connect
    · exact .user rfl
  | handleClose | connectDestroyed | highWater | dispatchAux =>
    simp only [List.mem_cons, List.not_mem_nil, or_false] at member
    rcases member with rfl | rfl <;> constructor
    rfl

theorem enter_enters {call : Call} {frame : Frame} (entered : w.enter call = .ok frame) :
    frame.enters = true := by
  cases call with
  | queueInLoop => cases entered; rfl
  | send | shutdown | forceClose =>
    simp only [enter] at entered
    split at entered <;> cases entered
    rfl

theorem Advance.follows {onLoop : Bool} {frame : Frame} {input : Input} {frames : List Frame}
    (advance : Advance settings impl onLoop w frame input w' frames) :
    Follows onLoop frame frames := by
  cases advance with
  | yes tested => exact .yes tested
  | no tested _ none => exact .no tested none
  | call entered => exact .call (enter_enters entered)
  | adjust | watch => exact .resume
  | construct => exact .connect
  | accept => exact .send
  | shutdown => exact .shutdown
  | forceCloseStore => exact .forceClose
  | handleCloseStore => exact .handleClose
  | connectEstablishedStore => exact .connectEstablished
  | connectDestroyedStore => exact .connectDestroyed
  | sendInLoopStart sent =>
    obtain ⟨answer, _, ran⟩ := sent
    cases ran
    split
    · exact .stop rfl
    · split
      · exact .highWater
      · exact .remainder
  | handleRead ran =>
    obtain ⟨n, conn, _, ⟨_, _, rfl⟩ | ⟨_, _, rfl⟩ | ⟨_, _, rfl⟩⟩ := handleRead_ok ran
    · exact .message
    · exact .endOfInput
    · exact .stop rfl
  | handleWrite _ _ ran =>
    obtain ⟨start, _, ⟨_, _, rfl⟩ | ⟨_, rfl, _⟩⟩ := handleWrite_ok ran
    · exact .stop rfl
    · exact .drained
  | dispatchAux => exact .dispatchAux
  | dispatch => exact .dispatch
  | writeComplete => exact .writeComplete
  | _ => exact .stop rfl

theorem sent_control {id : SendId} {message : Message} {input : Input} {frames : List Frame}
    (sent : w.Sent c id message input w' frames) : SameControl w w' := by
  obtain ⟨answer, _, ran⟩ := sent
  cases ran
  exact ⟨rfl, rfl, rfl, rfl⟩

theorem Advance.control {onLoop : Bool} {frame : Frame} {input : Input} {frames : List Frame}
    (advance : Advance settings impl onLoop w frame input w' frames) : SameControl w w' := by
  cases advance with
  | sendInLoopStart sent => exact sent_control sent
  | sendInLoopRest ran =>
    obtain ⟨conn, _, ⟨_, rfl⟩ | ⟨_, operated⟩⟩ := sendInLoopRest_ok ran
    · exact ⟨rfl, rfl, rfl, rfl⟩
    · obtain ⟨stack, others, phase, destructed⟩ := operate_control operated
      exact ⟨stack, others, phase, destructed⟩
  | handleRead ran =>
    obtain ⟨n, conn, _, ⟨_, rfl, _⟩ | ⟨_, rfl, _⟩ | ⟨_, rfl, _⟩⟩ := handleRead_ok ran <;>
      exact ⟨rfl, rfl, rfl, rfl⟩
  | handleWrite _ _ ran =>
    obtain ⟨start, _, ⟨_, rfl, _⟩ | ⟨_, _, w₁, operated, rfl⟩⟩ := handleWrite_ok ran
    · exact ⟨rfl, rfl, rfl, rfl⟩
    · obtain ⟨stack, others, phase, destructed⟩ := operate_control operated
      exact ⟨stack, others, phase, destructed⟩
  | watch _ operated | connectDestroyedRest operated => exact operate_control operated
  | handleCloseStore down | connectDestroyedStore down | connectEstablishedStore down =>
    obtain ⟨stack, others, phase, destructed⟩ := operate_control down
    exact ⟨stack, others, phase, destructed⟩
  | closeHere _ removed =>
    obtain ⟨_, rfl⟩ := removeConnectionInLoop_ok.mp removed
    exact ⟨rfl, rfl, rfl, rfl⟩
  | _ => exact ⟨rfl, rfl, rfl, rfl⟩

/-- A frame's writes to `state_`. -/
inductive Stores (w : World σ) : Frame → ConnId → StateE → Prop
  | shutdown {c : ConnId} : w.state c = .kConnected → Stores w (.shutdown c) c .kDisconnecting
  | forceClose {c : ConnId} : Stores w (.forceCloseStore c) c .kDisconnecting
  | handleClose {c : ConnId} : Stores w (.handleCloseStore c) c .kDisconnected
  | connectEstablished {c : ConnId} : Stores w (.connectEstablishedStore c) c .kConnected
  | connectDestroyed {c : ConnId} : Stores w (.connectDestroyedStore c) c .kDisconnected

theorem operate_state {id : ChannelId} {op : ChannelOp}
    (operated : w.operate impl id op = .ok w') : w'.state = w.state := by
  obtain ⟨_, _, _, rfl⟩ := operate_ok.mp operated
  rfl

theorem setConn_state {conn : TcpConnection} (same : conn.state = w.state c) :
    (w.setConn c conn).state = w.state := by
  funext other
  rw [state_setConn, same]
  split
  · next equal => rw [equal]
  · rfl

theorem sendInLoopRest_state {id : SendId} {rest : Message}
    (ran : w.sendInLoopRest impl c id rest = .ok w') : w'.state = w.state := by
  obtain ⟨conn, appended, outcome⟩ := sendInLoopRest_ok ran
  have same : conn.state = w.state c := by
    unfold TcpConnection.sendInLoopRest at appended
    split at appended <;> cases appended
    rfl
  rcases outcome with ⟨_, rfl⟩ | ⟨_, operated⟩
  · exact setConn_state same
  · exact (operate_state operated).trans (setConn_state same)

theorem handleWriteStart_state {conn : TcpConnection} {answer : WriteAnswer}
    {start : TcpConnection.WriteStart} (ran : conn.handleWriteStart answer = .ok start) :
    start.conn.state = conn.state := by
  unfold TcpConnection.handleWriteStart at ran
  split at ran
  · split at ran <;> cases ran
    rfl
  · cases ran
    rfl
  · cases ran
    rfl
  · cases ran
    rfl

theorem handleWrite_state {answer : WriteAnswer} {frames : List Frame}
    (ran : w.handleWrite impl c answer = .ok (w', frames)) : w'.state = w.state := by
  obtain ⟨start, started, outcome⟩ := handleWrite_ok ran
  have same : (w.wrote c start).state = w.state := setConn_state (handleWriteStart_state started)
  rcases outcome with ⟨_, rfl, _⟩ | ⟨_, _, w₁, operated, rfl⟩
  · exact same
  · exact (operate_state operated).trans same

theorem handleRead_state {answer : ReadvAnswer} {frames : List Frame}
    (ran : w.handleRead c answer = .ok (w', frames)) : w'.state = w.state := by
  obtain ⟨n, conn, read, outcome⟩ := handleRead_ok ran
  have same : conn.state = w.state c := by
    unfold TcpConnection.handleRead at read
    split at read <;> cases read
    rfl
  rcases outcome with ⟨_, rfl, _⟩ | ⟨_, rfl, _⟩ | ⟨_, rfl, _⟩ <;> exact setConn_state same

theorem goDown_state (down : w.goDown impl c = .ok w') (other : ConnId) :
    w'.state other = if other = c then .kDisconnected else w.state other := by
  rw [operate_state down]
  exact state_setState ..

/-- A frame changes the state of one connection, or of none. -/
theorem Advance.state {onLoop : Bool} {frame : Frame} {input : Input} {frames : List Frame}
    (advance : Advance settings impl onLoop w frame input w' frames) :
    (w'.state = w.state ∧ ∀ c s, ¬ w.Stores frame c s) ∨
      ∃ c s, w.Stores frame c s ∧
        ∀ other, w'.state other = if other = c then s else w.state other := by
  cases advance with
  | shutdown open_ => exact .inr ⟨_, _, .shutdown open_, state_setState _⟩
  | forceCloseStore => exact .inr ⟨_, _, .forceClose, state_setState _⟩
  | handleCloseStore down => exact .inr ⟨_, _, .handleClose, goDown_state down⟩
  | connectDestroyedStore down => exact .inr ⟨_, _, .connectDestroyed, goDown_state down⟩
  | connectEstablishedStore enabled =>
    refine .inr ⟨_, _, .connectEstablished, fun other => ?_⟩
    rw [operate_state enabled]
    exact state_setState ..
  | shutdownLate closed =>
    refine .inl ⟨rfl, fun c s stores => ?_⟩
    cases stores with
    | shutdown open_ => exact closed open_
  | yes tested =>
    refine .inl ⟨rfl, fun c s stores => ?_⟩
    cases stores <;> cases tested
  | no tested =>
    refine .inl ⟨rfl, fun c s stores => ?_⟩
    cases stores <;> cases tested
  | adjust same => exact .inl ⟨setConn_state same, fun c s stores => by cases stores⟩
  | watch _ operated | connectDestroyedRest operated =>
    exact .inl ⟨operate_state operated, fun c s stores => by cases stores⟩
  | sendInLoopStart sent =>
    obtain ⟨answer, _, ran⟩ := sent
    cases ran
    exact .inl ⟨rfl, fun c s stores => by cases stores⟩
  | sendInLoopRest ran =>
    exact .inl ⟨sendInLoopRest_state ran, fun c s stores => by cases stores⟩
  | handleRead ran => exact .inl ⟨handleRead_state ran, fun c s stores => by cases stores⟩
  | handleWrite _ _ ran => exact .inl ⟨handleWrite_state ran, fun c s stores => by cases stores⟩
  | closeHere _ removed =>
    obtain ⟨_, rfl⟩ := removeConnectionInLoop_ok.mp removed
    exact .inl ⟨rfl, fun c s stores => by cases stores⟩
  | call | construct | «return» | accept | reject | post | shutdownDeferred | shutdownWrite
  | closeElsewhere | handleWriteIdle | dispatched | dispatchAux | dispatch | writeComplete =>
    exact .inl ⟨rfl, fun c s stores => by cases stores⟩

/-- A frame's operations on channels. -/
inductive Operates (settings : Settings) (w : World σ) : Frame → ChannelId → ChannelOp → Prop
  | watch {id : ChannelId} : id ∈ settings.aux → Operates settings w .user id (.update .enRead)
  | connectEstablished {c : ConnId} :
      Operates settings w (.connectEstablishedStore c) c (.update .enRead)
  | handleClose {c : ConnId} : Operates settings w (.handleCloseStore c) c (.update .disAll)
  | connectDestroyed {c : ConnId} :
      Operates settings w (.connectDestroyedStore c) c (.update .disAll)
  | remove {c : ConnId} : Operates settings w (.connectDestroyedRest c) c .remove
  | enableWriting {c : ConnId} {id : SendId} {rest : Message} : (w.heap c).isWriting = false →
      Operates settings w (.sendInLoopRest c id rest) c (.update .enWrite)
  | disableWriting {c : ConnId} : (w.heap c).isWriting = true →
      Operates settings w (.handleWrite c) c (.update .disWrite)

/-- Channels and poller are as before, or after one operation. -/
def Operated (settings : Settings) (impl : Polling σ) (w : World σ) (frame : Frame)
    (w' : World σ) : Prop :=
  (w'.heap = w.heap ∧ w'.poller = w.poller) ∨
    ∃ id op, Operates settings w frame id op ∧
      impl.operate w.heap w.poller id op = .ok (w'.heap, w'.poller)

theorem operated_of_operate {v : World σ} {frame : Frame} {id : ChannelId} {op : ChannelOp}
    (ran : v.operate impl id op = .ok w') (operates : Operates settings w frame id op)
    (heap : v.heap = w.heap) (poller : v.poller = w.poller) :
    Operated settings impl w frame w' := by
  obtain ⟨_, _, operated, rfl⟩ := operate_ok.mp ran
  rw [heap, poller] at operated
  exact Or.inr ⟨id, op, operates, operated⟩

/-- A frame makes at most one operation on a channel. -/
theorem Advance.operated {onLoop : Bool} {frame : Frame} {input : Input} {frames : List Frame}
    (advance : Advance settings impl onLoop w frame input w' frames) :
    Operated settings impl w frame w' := by
  cases advance with
  | watch aux ran => exact operated_of_operate ran (.watch aux) rfl rfl
  | handleCloseStore ran => exact operated_of_operate ran .handleClose rfl rfl
  | connectEstablishedStore ran => exact operated_of_operate ran .connectEstablished rfl rfl
  | connectDestroyedStore ran => exact operated_of_operate ran .connectDestroyed rfl rfl
  | connectDestroyedRest ran => exact operated_of_operate ran .remove rfl rfl
  | sendInLoopStart sent =>
    obtain ⟨answer, _, ran⟩ := sent
    cases ran
    exact Or.inl ⟨rfl, rfl⟩
  | sendInLoopRest ran =>
    obtain ⟨conn, _, ⟨_, rfl⟩ | ⟨idle, ran⟩⟩ := sendInLoopRest_ok ran
    · exact Or.inl ⟨rfl, rfl⟩
    · exact operated_of_operate ran (.enableWriting idle) rfl rfl
  | handleWrite writing _ ran =>
    obtain ⟨start, _, ⟨_, rfl, _⟩ | ⟨_, _, w₁, operated, rfl⟩⟩ := handleWrite_ok ran
    · exact Or.inl ⟨rfl, rfl⟩
    · have moved : Operated settings impl w _ w₁ :=
        operated_of_operate operated (.disableWriting writing) rfl rfl
      exact moved
  | handleRead ran =>
    obtain ⟨n, conn, _, ⟨_, rfl, _⟩ | ⟨_, rfl, _⟩ | ⟨_, rfl, _⟩⟩ := handleRead_ok ran <;>
      exact Or.inl ⟨rfl, rfl⟩
  | closeHere _ removed =>
    obtain ⟨_, rfl⟩ := removeConnectionInLoop_ok.mp removed
    exact Or.inl ⟨rfl, rfl⟩
  | _ => exact Or.inl ⟨rfl, rfl⟩

end World

/-- `connectionCallback_` and `closeCallback_`. -/
def Event.lifecycle : Event → Bool
  | .up _ | .down _ | .closeCallback _ => true
  | .messageCallback _ | .accepted .. | .write .. | .append .. | .shutdownWrite _ => false

/-- The calls of `connectionCallback_` and `closeCallback_` in a frame. -/
def Frame.callbacks : Frame → List Event
  | .connectEstablishedStore c => [.up c]
  | .handleCloseStore c | .connectDestroyedStore c => [.down c]
  | .handleCloseRest c => [.closeCallback c]
  | _ => []

namespace World

variable {σ : Type} {settings : Settings} {impl : Polling σ} {w w' : World σ} {c : ConnId}

/-- The calls of `connectionCallback_` and `closeCallback_` so far. -/
def callbacks (w : World σ) : List Event := w.trace.filter Event.lifecycle

theorem operate_trace {id : ChannelId} {op : ChannelOp}
    (operated : w.operate impl id op = .ok w') : w'.trace = w.trace := by
  obtain ⟨_, _, _, rfl⟩ := operate_ok.mp operated
  rfl

theorem callbacks_append {events : List Event} (trace : w'.trace = w.trace ++ events) :
    w'.callbacks = w.callbacks ++ events.filter Event.lifecycle := by
  rw [callbacks, trace, List.filter_append]
  rfl

/-- Events that are no callback of the lifecycle leave it as it is. -/
theorem callbacks_other {events : List Event} (trace : w'.trace = w.trace ++ events)
    (silent : events.filter Event.lifecycle = []) : w'.callbacks = w.callbacks ++ [] := by
  rw [callbacks_append trace, silent]

theorem Advance.callbacks {onLoop : Bool} {frame : Frame} {input : Input} {frames : List Frame}
    (advance : Advance settings impl onLoop w frame input w' frames) :
    w'.callbacks = w.callbacks ++ frame.callbacks := by
  cases advance with
  | yes tested | no tested =>
    cases frame <;> cases tested <;> exact (List.append_nil _).symm
  | watch _ ran | connectDestroyedRest ran =>
    exact callbacks_other ((operate_trace ran).trans (List.append_nil _).symm) rfl
  | handleCloseStore ran | connectEstablishedStore ran | connectDestroyedStore ran =>
    exact callbacks_append (operate_trace ran)
  | @closeHere c _ _ removed =>
    obtain ⟨_, rfl⟩ := removeConnectionInLoop_ok.mp removed
    exact callbacks_append (show _ = w.trace ++ [.closeCallback c] from rfl)
  | sendInLoopStart sent =>
    obtain ⟨answer, _, ran⟩ := sent
    cases ran
    refine callbacks_other rfl ?_
    split <;> rfl
  | sendInLoopRest ran =>
    obtain ⟨conn, _, ⟨_, rfl⟩ | ⟨_, operated⟩⟩ := sendInLoopRest_ok ran
    · exact callbacks_other rfl rfl
    · exact callbacks_other (operate_trace operated) rfl
  | handleWrite _ _ ran =>
    obtain ⟨start, _, ⟨_, rfl, _⟩ | ⟨_, _, w₁, operated, rfl⟩⟩ := handleWrite_ok ran
    · exact callbacks_other rfl rfl
    · exact callbacks_other (operate_trace operated) rfl
  | handleRead ran =>
    obtain ⟨n, conn, _, ⟨_, rfl, _⟩ | ⟨_, rfl, _⟩ | ⟨_, rfl, _⟩⟩ := handleRead_ok ran
    · exact callbacks_other rfl rfl
    · exact (List.append_nil _).symm
    · exact (List.append_nil _).symm
  | @closeElsewhere c => exact callbacks_append (show _ = w.trace ++ [.closeCallback c] from rfl)
  | accept | shutdownWrite => exact callbacks_other rfl rfl
  | _ => exact (List.append_nil _).symm

/-- What a frame queues besides the functor it posts. -/
theorem Advance.pending {onLoop : Bool} {frame : Frame} {input : Input} {frames : List Frame}
    (advance : Advance settings impl onLoop w frame input w' frames) :
    ∃ queued, w'.pending = w.pending ++ queued ∧ ∀ task ∈ queued,
      frame = .post task ∨ (∃ c, frame.conn = some c ∧ task = .writeComplete c) ∨
        ∃ c, frame = .handleCloseRest c ∧ task = .connectDestroyed c := by
  cases advance with
  | @post task => exact ⟨[task], rfl, by simp⟩
  | @closeHere c _ _ removed =>
    obtain ⟨_, rfl⟩ := removeConnectionInLoop_ok.mp removed
    exact ⟨[.connectDestroyed c], rfl, by simp⟩
  | watch _ ran | connectDestroyedRest ran | handleCloseStore ran | connectEstablishedStore ran
  | connectDestroyedStore ran =>
    obtain ⟨_, _, _, rfl⟩ := operate_ok.mp ran
    exact ⟨[], (List.append_nil _).symm, by simp⟩
  | @sendInLoopStart c _ _ _ _ _ sent =>
    obtain ⟨answer, _, ran⟩ := sent
    cases ran
    refine ⟨_, rfl, fun task member => Or.inr (Or.inl ⟨c, rfl, ?_⟩)⟩
    split at member <;> simp_all
  | sendInLoopRest ran =>
    obtain ⟨conn, _, ⟨_, rfl⟩ | ⟨_, operated⟩⟩ := sendInLoopRest_ok ran
    · exact ⟨[], (List.append_nil _).symm, by simp⟩
    · obtain ⟨_, _, _, rfl⟩ := operate_ok.mp operated
      exact ⟨[], (List.append_nil _).symm, by simp⟩
  | @handleWrite c _ _ _ _ _ ran =>
    obtain ⟨start, _, ⟨_, rfl, _⟩ | ⟨_, _, w₁, operated, rfl⟩⟩ := handleWrite_ok ran
    · exact ⟨[], (List.append_nil _).symm, by simp⟩
    · obtain ⟨_, _, _, rfl⟩ := operate_ok.mp operated
      refine ⟨_, rfl, fun task member => Or.inr (Or.inl ⟨c, rfl, ?_⟩)⟩
      split at member <;> simp_all
  | handleRead ran =>
    obtain ⟨n, conn, _, ⟨_, rfl, _⟩ | ⟨_, rfl, _⟩ | ⟨_, rfl, _⟩⟩ := handleRead_ok ran <;>
      exact ⟨[], (List.append_nil _).symm, by simp⟩
  | _ => exact ⟨[], (List.append_nil _).symm, by simp⟩

/-- The outcomes of an action. -/
inductive Step (settings : Settings) (impl : Polling σ) (w : World σ) :
    Action impl.Answer → World σ → Prop
  | loop {frame : Frame} {rest frames : List Frame} {input : Input} {w' : World σ} :
      w.stack = frame :: rest → Advance settings impl true w frame input w' frames →
      Step settings impl w (.loop input) { w' with stack := frames ++ rest }
  | other {frame : Frame} {before after frames : List Frame} {w' : World σ} :
      w.others = before ++ frame :: after →
      Advance settings impl false w frame .none w' frames →
      Step settings impl w (.other before.length) { w' with others := before ++ frames ++ after }
  | dispatch {id : ChannelId} {active : List ChannelId} : w.stack = [] →
      w.phase = .dispatching (id :: active) →
      Step settings impl w (.loop .none) { w with
        phase := .dispatching active
        stack := [.handleEvent id (w.heap id).handleEvent] }
  | swap : w.stack = [] → w.phase = .dispatching [] →
      Step settings impl w (.loop .none) { w with phase := .functors w.pending, pending := [] }
  | start {task : Task} {batch : List Task} : w.stack = [] →
      w.phase = .functors (task :: batch) →
      Step settings impl w (.loop .none)
        { w with phase := .functors batch, stack := [task.frame] }
  | again : w.stack = [] → w.phase = .functors [] →
      Step settings impl w (.loop .none) { w with phase := .polling }
  | poll {reported : impl.Answer} {heap : ChannelHeap} {poller : σ} {active : List ChannelId} :
      w.stack = [] → w.phase = .polling → impl.reports w.poller reported = true →
      impl.poll w.heap w.poller reported = .ok (heap, poller, active) →
      Step settings impl w (.poll reported)
        { w with heap := heap, poller := poller, phase := .dispatching active }
  | destroy {c : ConnId} : settings.serverHere = true → w.stack = [.user] → c ∈ w.table →
      Step settings impl w (.destroy c)
        { w with table := w.table.erase c, stack := [.connectDestroyed c, .user] }
  | call {call : Call} {frame : Frame} : w.enter call = .ok frame →
      Step settings impl w (.call call) { w with others := w.others ++ [frame] }
  | connectElsewhere {c : ConnId} : settings.serverHere = false → w.Fresh settings c →
      Step settings impl w (.connectElsewhere c) ((w.construct c).queue (.connectEstablished c))
  | removeElsewhere {c : ConnId} : c ∈ w.removing → c ∈ w.table →
      Step settings impl w (.removeElsewhere c)
        ({ w with removing := w.removing.erase c, table := w.table.erase c }.queue
          (.connectDestroyed c))
  | destroyElsewhere {c : ConnId} : settings.serverHere = false → c ∈ w.table →
      Step settings impl w (.destroyElsewhere c)
        ({ w with table := w.table.erase c }.queue (.connectDestroyed c))
  | destruct {c : ConnId} : w.Live c → w.Unreferenced c → w.state c = .kDisconnected →
      Step settings impl w (.destruct c)
        { w with
          destructed := w.destructed ++ [c]
          poller := impl.closed w.poller (settings.fdOf c) }

theorem step_ok {action : Action impl.Answer} (ran : w.step settings impl action = .ok w') :
    Step settings impl w action w' := by
  cases action with
  | loop input =>
    simp only [step] at ran
    split at ran
    · next empty =>
      unfold continueLoop at ran
      split at ran <;> cases ran
      · next phase => exact .dispatch empty phase
      · next phase => exact .swap empty phase
      · next phase => exact .start empty phase
      · next phase => exact .again empty phase
    · next frame rest stack =>
      split at ran <;> cases ran
      next advanced => exact .loop stack (advance_ok advanced)
  | poll reported =>
    simp only [step] at ran
    split at ran
    · next ready =>
      split at ran <;> cases ran
      next polled => exact .poll ready.1 ready.2.1 ready.2.2 polled
    · cases ran
  | destroy c =>
    simp only [step] at ran
    split at ran <;> cases ran
    next ready => exact .destroy ready.1 ready.2.1 ready.2.2
  | call call =>
    simp only [step] at ran
    split at ran <;> cases ran
    next entered => exact .call entered
  | other position =>
    simp only [step] at ran
    split at ran
    · cases ran
    · next frame present =>
      split at ran <;> cases ran
      next frames advanced =>
      obtain ⟨inside, rfl⟩ := List.getElem?_eq_some_iff.mp present
      have control := (advance_ok advanced).control
      have split : w.others = w.others.take position ++
          w.others[position] :: w.others.drop (position + 1) := by simp
      have length : (w.others.take position).length = position := by
        rw [List.length_take]
        omega
      have taken := Step.other split (advance_ok advanced)
      rw [length] at taken
      rwa [control.others]
  | connectElsewhere c =>
    simp only [step] at ran
    split at ran <;> cases ran
    next ready => exact .connectElsewhere (Bool.eq_false_iff.mpr ready.1) ready.2
  | removeElsewhere c =>
    simp only [step] at ran
    split at ran
    · next posted =>
      obtain ⟨present, rfl⟩ := removeConnectionInLoop_ok.mp ran
      exact .removeElsewhere posted present
    · cases ran
  | destroyElsewhere c =>
    simp only [step] at ran
    split at ran <;> cases ran
    next ready => exact .destroyElsewhere (Bool.eq_false_iff.mpr ready.1) ready.2
  | destruct c =>
    simp only [step] at ran
    split at ran
    · next ready =>
      split at ran <;> cases ran
      next closed => exact .destruct ready.1 ready.2 closed
    · cases ran

/-- A comparison of `state_` whose assertion holds takes its step. -/
theorem step_of_test {frame : Frame} {rest : List Frame} {test : StateTest}
    (stack : w.stack = frame :: rest) (tested : frame.test = some test)
    (passes : w.state test.conn = test.expected ∨ ∃ frames, test.no = .ok frames) :
    ∃ w', w.step settings impl (.loop .none) = .ok w' := by
  simp only [step, stack, advance, tested, ne_eq, not_true_eq_false, if_false]
  by_cases same : w.state test.conn = test.expected
  · exact ⟨_, by rw [if_pos same]⟩
  · obtain ⟨frames, none⟩ := passes.resolve_left same
    exact ⟨_, by rw [if_neg same, none]⟩

end World

end Muduo.Source
