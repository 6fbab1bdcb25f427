import Muduo.Source.ReactorEvents
import Muduo.Source.TestServer

/-!
# What the echo server keeps

What has been read from a connection has been sent back on it, up to what the callbacks
still have. They have something on one connection at most, and then the user's code runs,
so that a function of the library finds every `input_buffer_` empty.
-/
namespace Muduo.Source
open Muduo.Support

namespace Buffer

variable {b : Buffer}

/-- A buffer from which nothing has been retrieved, or everything. -/
structure Fronted (b : Buffer) : Prop where
  wf : b.Wf
  front : b.readIdx = kCheapPrepend

theorem fresh_fronted : fresh.Fronted := ⟨fresh_wf, rfl⟩

theorem Fronted.drained (fronted : b.Fronted) :
    (b.retrieved b.value.length).Fronted ∧ (b.retrieved b.value.length).value = [] := by
  refine ⟨⟨fronted.wf.retrieved _, ?_⟩, by simp [fronted.wf.value_retrieved]⟩
  rw [retrieved, if_neg (by rw [fronted.wf.length_value]; omega)]

theorem Fronted.appended (fronted : b.Fronted) {data : Bytes} (fit : b.Fits data.length) :
    (b.appended data).Fronted ∧ (b.appended data).value = b.value ++ data := by
  have kept : ¬ kCheapPrepend < b.readIdx := by simp [fronted.front]
  refine ⟨⟨fronted.wf.appended fit, ?_⟩, ?_⟩
  · rw [Buffer.appended, stored_readIdx, reserved_readIdx kept, fronted.front]
  · rw [fronted.wf.value_appended fit, spill_of_readIdx_le _ (le_of_eq fronted.front),
      List.append_nil]

/-- `readFd` on such a buffer adds what `readv` stored, in place or through `extrabuf`. -/
theorem Fronted.readFd (fronted : b.Fronted) {data : Bytes}
    (valid : Op.Valid b (.readFd (.bytes data))) (fit : Op.Fits b (.readFd (.bytes data))) :
    (Op.outcome b (.readFd (.bytes data))).2.Fronted ∧
      (Op.outcome b (.readFd (.bytes data))).2.value = b.value ++ data := by
  have bounds := fronted.wf.outcome valid fit (by simp)
  have size := fronted.wf.write_le_size
  simp only [Op.outcome] at bounds ⊢
  split at bounds
  · next room =>
    rw [if_pos room]
    have stored : (b.stored data).value = b.value ++ data :=
      Wf.value_stored (by omega) fronted.wf
    exact ⟨⟨bounds, fronted.front⟩, stored⟩
  · next excess =>
    rw [if_neg excess]
    have room := fronted.wf.room_inPlace data
    have first : (b.stored (b.inPlace data)).Fronted := ⟨.stored room fronted.wf, fronted.front⟩
    obtain ⟨whole, value⟩ := first.appended ((fronted.wf.fits_stored_inPlace (by omega)).mpr fit)
    refine ⟨whole, ?_⟩
    rw [value, Wf.value_stored room fronted.wf, List.append_assoc, inPlace_append_extra]

end Buffer

/-- `handleRead` adds what `readv` stored to `input_buffer_`. -/
theorem TcpConnection.handleRead_input {conn conn' : TcpConnection} {answer : ReadvAnswer} {n : Int}
    (fronted : conn.inputBuffer.Fronted)
    (valid : Buffer.Op.Valid conn.inputBuffer (.readFd answer))
    (read : conn.handleRead answer = .ok (n, conn')) :
    conn'.inputBuffer.Fronted ∧
      conn'.inputBuffer.value = conn.inputBuffer.value ++ answer.stored := by
  unfold handleRead runBuffer at read
  cases ran : (Buffer.readFd answer).run conn.inputBuffer with
  | error e input => simp [ran] at read
  | ok count input =>
    rw [ran] at read
    cases read
    have returned : (Buffer.exec (.readFd answer)).run conn.inputBuffer =
        .ok (.count n) input := by
      simp only [Buffer.exec, bind, EStateM.run, EStateM.bind] at ran ⊢
      rw [ran]
      rfl
    have fit := fronted.wf.fits_of_exec valid returned
    rw [fronted.wf.run_exec_ok valid fit] at returned
    obtain ⟨_, rfl⟩ := EStateM.Result.ok.inj returned
    cases answer with
    | error => exact ⟨fronted, (List.append_nil _).symm⟩
    | bytes data => exact fronted.readFd valid fit

/-- The connection that a callback still has to serve. -/
def Callback.conn : Callback → Option ConnId
  | .onMessage c | .reply c _ => some c
  | _ => none

/-- What a callback holds in `tmp` for the connection. -/
def Callback.holds (c : ConnId) : Callback → Bytes
  | .reply c' tmp => if c' = c then tmp.bytes else []
  | _ => []

/-- The message of a call of `send` that has not begun. -/
def Frame.brings (c : ConnId) : Frame → Bytes
  | .send c' message => if c' = c then message.bytes else []
  | _ => []

theorem Callback.holds_idle {callback : Callback} (idle : callback.conn = none) (c : ConnId) :
    callback.holds c = [] := by
  cases callback <;> first | rfl | cases idle

theorem Frame.brings_other {frame : Frame} (other : ∀ c message, frame ≠ .send c message)
    (c : ConnId) : frame.brings c = [] := by
  cases frame <;> first | rfl | exact absurd rfl (other _ _)

namespace TestServer

variable {σ : Type} {settings : Settings} {impl : Polling σ} {w w' : World σ}

/-- What a statement of a callback does to the world, and what is left of the callback. -/
inductive Speaks (w : World σ) : Callback → World σ → List Callback → Prop
  | return {callback : Callback} {below : List Frame} : callback.conn = none →
      w.stack = .user :: below → Speaks w callback { w with stack := below } []
  | retrieve {c : ConnId} {tmp : Message} : tmp.bytes = (w.conns c).inputBuffer.value →
      Speaks w (.onMessage c) (w.setConn c { w.conns c with
        inputBuffer := (w.conns c).inputBuffer.retrieved (w.conns c).inputBuffer.value.length })
        [.reply c tmp]
  | send {c : ConnId} {tmp : Message} :
      Speaks w (.reply c tmp) { w with stack := .send c tmp :: w.stack } [.done]
  | component {w' : World σ} {frames : List Frame} : w'.trace = w.trace → w'.conns = w.conns →
      w'.stack = frames ++ w.stack →
      (∀ frame ∈ frames, frame ≠ .user ∧ ∀ c message, frame ≠ .send c message) →
      Speaks w .component w' [.component]

/-- The next statement is an input that no other connection or high-water mark is part of. -/
theorem next_plain {callback : Callback} {input : Input} {left : List Callback}
    (goes : next w callback input = some left) :
    World.Plain (.loop input : Action impl.Answer) := by
  unfold next at goes
  split at goes <;> trivial

theorem retrieveAllAsString_ok {b b' : Buffer} {tmp : Bytes} (wf : b.Wf)
    (ran : Buffer.retrieveAllAsString.run b = .ok tmp b') :
    tmp = b.value ∧ b' = b.retrieved b.value.length := by
  have all := wf.run_retrieveAsString (Nat.le_refl b.value.length)
  have same : Buffer.retrieveAllAsString.run b = (Buffer.retrieveAsString b.readableBytes).run b :=
    rfl
  rw [same, wf.readableBytes_value, all] at ran
  cases ran
  exact ⟨List.take_length, rfl⟩

/-- A step of the thread's innermost frame. -/
theorem loop_ok {frame : Frame} {below : List Frame} {input : Input}
    (stack : w.stack = frame :: below) (ran : w.step settings impl (.loop input) = .ok w') :
    ∃ v frames, w.advance settings impl true frame input = .ok (v, frames) ∧
      { v with stack := frames ++ below } = w' := by
  simp only [World.step, stack] at ran
  split at ran <;> cases ran
  next moved => exact ⟨_, _, moved, rfl⟩

/-- A call of the user that runs on the loop thread only comes back to the user's code. -/
theorem step_loopCall {call : LoopCall} (user : w.stack.head? = some .user)
    (ran : w.step settings impl (.loop (.loopCall call)) = .ok w') :
    ∃ v frames, w.loopCall settings impl call = .ok (v, frames) ∧
      { v with stack := frames ++ w.stack } = w' := by
  obtain ⟨below, stack⟩ := List.head?_eq_some_iff.mp user
  obtain ⟨v, frames, moved, rfl⟩ := loop_ok stack ran
  simp only [World.advance, Frame.test] at moved
  split at moved <;> cases moved
  next called => exact ⟨_, _, called, by simp [stack]⟩

theorem next_ok {callback : Callback} {input : Input} {left : List Callback}
    (wf : ∀ c, (w.conns c).inputBuffer.Wf) (user : w.stack.head? = some .user)
    (goes : next w callback input = some left)
    (ran : w.step settings impl (.loop input) = .ok w') : Speaks w callback w' left := by
  obtain ⟨below, stack⟩ := List.head?_eq_some_iff.mp user
  unfold next at goes
  split at goes
  · cases goes
    simp only [World.step, stack, World.advance, Frame.test] at ran
    cases ran
    exact .return rfl stack
  · split at goes
    · next own same =>
      subst same
      split at goes
      · next tmp b returned =>
        split at goes <;> cases goes
        next size_le =>
        obtain ⟨rfl, rfl⟩ := retrieveAllAsString_ok (wf own) returned
        obtain ⟨v, frames, called, rfl⟩ := step_loopCall user ran
        have all := @Buffer.Wf.run_exec_ok _ (wf own) .retrieveAllAsString trivial trivial
        rw [World.loopCall, all] at called
        split at called <;> cases called
        exact .retrieve rfl
      · cases goes
    · cases goes
  · split at goes
    · next own =>
      obtain ⟨rfl, rfl⟩ := own
      cases goes
      simp only [World.step, stack, World.advance, Frame.test, World.enter] at ran
      split at ran
      · next moved =>
        split at moved
        · next entered =>
          split at entered <;> cases entered
          cases moved
          cases ran
          rw [List.cons_append, List.singleton_append, ← stack]
          exact .send
        · cases moved
      · cases ran
    · cases goes
  · cases goes
    simp only [World.step, stack, World.advance, Frame.test] at ran
    cases ran
    exact .return rfl stack
  · cases goes
    simp only [World.step, stack, World.advance, Frame.test, World.enter] at ran
    cases ran
    have posts : [.post .user, .user] ++ below = [.post .user] ++ w.stack := by rw [stack]; rfl
    exact .component rfl rfl posts (by simp)
  · cases goes
    obtain ⟨v, frames, called, rfl⟩ := step_loopCall user ran
    simp only [World.loopCall] at called
    split at called <;> cases called
    exact .component rfl rfl rfl (by simp)
  · cases goes
    obtain ⟨v, frames, called, rfl⟩ := step_loopCall user ran
    simp only [World.loopCall] at called
    split at called
    · split at called <;> cases called
      next operated =>
      have trace : v.trace = w.trace := World.operate_trace operated
      have conns : v.conns = w.conns := World.operate_conns operated
      exact .component trace conns rfl (by simp)
    · cases called
  · cases goes

/-- What has been read on the connection and not been sent yet. -/
def answering (s : TestServer σ) (c : ConnId) : Bytes :=
  s.world.stack.flatMap (Frame.brings c) ++ s.callbacks.flatMap (Callback.holds c) ++
    (s.world.conns c).inputBuffer.value

/-- Where the callbacks stand. -/
structure Program (s : TestServer σ) : Prop where
  counted : s.callbacks.length = s.world.stack.count .user
  waiting : ∀ callback ∈ s.callbacks.tail, callback.conn = none
  resting : s.world.stack.head? ≠ some .user → ∀ callback ∈ s.callbacks, callback.conn = none
  inputs : ∀ c, (s.world.conns c).inputBuffer.Fronted
  unread : ∀ c, (s.world.conns c).inputBuffer.value ≠ [] → s.callbacks.head? = some (.onMessage c)
  serving : ∀ callback ∈ s.callbacks, ∀ c, callback.conn = some c → s.world.state c ≠ .kConnecting
  sending : ∀ c message, .send c message ∈ s.world.stack → s.world.state c ≠ .kConnecting

theorem start_program (settings : Settings) (poller : σ) :
    (TestServer.start settings poller).Program where
  counted := rfl
  waiting := by simp [start]
  resting := by simp [start]
  inputs _ := Buffer.fresh_fronted
  unread c more := absurd Buffer.value_fresh more
  serving := by simp [start]
  sending := by simp [start, World.start]

/-- A function of the library finds every `input_buffer_` empty. -/
theorem Program.drained {s : TestServer σ} (program : s.Program)
    (library : s.world.stack.head? ≠ some .user) (c : ConnId) :
    (s.world.conns c).inputBuffer.value = [] := by
  by_contra more
  have first := List.mem_of_mem_head? (program.unread c more)
  cases program.resting library _ first

variable {s s' : TestServer σ}

/-- A statement leaves the other callbacks waiting. -/
theorem Program.callback (program : s.Program) {callback : Callback} {rest left : List Callback}
    (user : s.world.stack.head? = some .user) (callbacks : s.callbacks = callback :: rest)
    (speaks : Speaks s.world callback w' left) :
    Program { s with world := w', callbacks := left ++ rest } := by
  obtain ⟨counted, waiting, _, inputs, unread, serving, sending⟩ := program
  simp only [callbacks, List.length_cons, List.tail_cons, List.head?_cons, Option.some.injEq,
    List.forall_mem_cons] at counted waiting unread serving
  cases speaks with
  | @«return» _ below idle stack =>
    rw [stack] at counted sending
    refine ⟨by simpa using counted, fun other member => ?_, fun _ => waiting, inputs,
      fun c more => ?_, serving.2, fun c message member => ?_⟩
    · exact waiting other (List.mem_of_mem_tail member)
    · have reads := unread c more
      subst reads
      cases idle
    · exact sending c message (List.mem_cons_of_mem _ member)
  | @retrieve c tmp _ =>
    have state : (s.world.setConn c { s.world.conns c with
        inputBuffer := ((s.world.conns c).inputBuffer.retrieved
          (s.world.conns c).inputBuffer.value.length) }).state = s.world.state :=
      World.setConn_state rfl
    refine ⟨counted, waiting, fun resting => absurd user resting, fun c' => ?_, fun c' more => ?_,
      ?_, fun c' message member => ?_⟩
    · rw [World.conns_setConn, Function.update_apply]
      split
      · exact (inputs c).drained.1
      · exact inputs c'
    · rw [World.conns_setConn, Function.update_apply] at more
      split at more
      · exact absurd (inputs c).drained.2 more
      · next other =>
        cases unread c' more
        exact absurd rfl other
    · simp only [List.singleton_append, List.forall_mem_cons]
      rw [state]
      exact ⟨serving.1, serving.2⟩
    · rw [state]
      exact sending c' message member
  | @send c tmp =>
    refine ⟨by simpa using counted, waiting, fun _ => ?_, inputs, fun c' more => ?_, ?_,
      fun c' message member => ?_⟩
    · simpa using ⟨rfl, waiting⟩
    · cases unread c' more
    · refine List.forall_mem_cons.mpr ⟨fun own none => ?_, serving.2⟩
      cases none
    · rcases List.mem_cons.mp member with same | old
      · cases same
        exact serving.1 c rfl
      · exact sending c' message old
  | @component _ frames _ conns stack others =>
    have none : frames.count .user = 0 :=
      List.count_eq_zero.mpr fun member => (others _ member).1 rfl
    have state : w'.state = s.world.state := by
      funext c
      rw [World.state, conns]
      rfl
    refine ⟨?_, waiting, fun _ => ?_, ?_, fun c more => ?_, ?_, fun c message member => ?_⟩
    · rw [stack, List.count_append, none, Nat.zero_add]
      exact counted
    · simpa using ⟨rfl, waiting⟩
    · rwa [conns]
    · rw [conns] at more
      cases unread c more
    · rw [state]
      refine List.forall_mem_cons.mpr ⟨fun own none => ?_, serving.2⟩
      cases none
    · rw [stack] at member
      rw [state]
      rcases List.mem_append.mp member with new | old
      · exact absurd rfl ((others _ new).2 c message)
      · exact sending c message old

theorem brings_below (orderly : w.Orderly) {frame : Frame} {below : List Frame}
    (stack : w.stack = frame :: below) (c : ConnId) : below.flatMap (Frame.brings c) = [] := by
  refine List.flatMap_eq_nil_iff.mpr fun other member => Frame.brings_other ?_ c
  rintro c message rfl
  have waits := orderly.waiting _ (by rw [stack]; exact member)
  cases waits

theorem holds_idle {callbacks : List Callback} (idle : ∀ callback ∈ callbacks, callback.conn = none)
    (c : ConnId) : callbacks.flatMap (Callback.holds c) = [] :=
  List.flatMap_eq_nil_iff.mpr fun callback member => Callback.holds_idle (idle callback member) c

/-- What has been read is in the buffer, in `tmp`, or with `send`. -/
theorem Speaks.answering (program : s.Program) (orderly : s.world.Orderly) {callback : Callback}
    {rest left : List Callback} (user : s.world.stack.head? = some .user)
    (callbacks : s.callbacks = callback :: rest) (speaks : Speaks s.world callback w' left)
    (c : ConnId) :
    w'.trace = s.world.trace ∧
      answering { s with world := w', callbacks := left ++ rest } c = s.answering c := by
  obtain ⟨below, stack⟩ := List.head?_eq_some_iff.mp user
  have quiet := brings_below orderly stack c
  have idle := holds_idle (callbacks ▸ program.waiting) c
  rw [List.tail_cons] at idle
  simp only [TestServer.answering, stack, callbacks, List.flatMap_append, List.flatMap_cons, quiet,
    idle, List.append_nil]
  cases speaks with
  | @«return» _ below' none stack' =>
    cases stack.symm.trans stack'
    exact ⟨rfl, by simp [quiet, Frame.brings, Callback.holds_idle none]⟩
  | @retrieve own tmp same =>
    refine ⟨rfl, ?_⟩
    rw [World.conns_setConn, Function.update_apply]
    split
    · next equal =>
      subst equal
      have drained := (program.inputs c).drained.2
      simp [drained, Frame.brings, Callback.holds, same, stack, quiet, World.setConn]
    · next other =>
      have apart : own ≠ c := fun equal => other equal.symm
      simp [Frame.brings, Callback.holds, apart, stack, quiet, World.setConn]
  | send => exact ⟨rfl, by simp [stack, quiet, Frame.brings, Callback.holds]⟩
  | @component _ frames trace conns stack' others =>
    have none : frames.flatMap (Frame.brings c) = [] :=
      List.flatMap_eq_nil_iff.mpr fun frame member => Frame.brings_other (others frame member).2 c
    exact ⟨trace, by simp [stack', stack, conns, none, quiet, Frame.brings, Callback.holds]⟩

/-- Apart from the user's code, a frame is replaced by frames of the library, over which one
callback may run. -/
theorem users_of_follows {frame : Frame} {frames : List Frame} {onLoop : Bool}
    (follows : World.Follows onLoop frame frames) (library : frame ≠ .user) :
    frames.count .user = 0 ∨ ∃ others, frames = .user :: others ∧ others.count .user = 0 := by
  cases follows with
  | yes tested => cases frame <;> cases tested <;> simp
  | no tested none => cases frame <;> cases tested <;> cases none <;> simp
  | call | resume | connect => exact absurd rfl library
  | @dispatch _ event => cases event <;> simp [World.callback]
  | send | shutdown | forceClose => cases onLoop <;> simp [runInLoop, Task.frame]
  | _ => simp

/-- The callback that a frame of the library calls. -/
theorem called_advance {v : World σ} {frame : Frame} {below frames : List Frame}
    (stack : w.stack = frame :: below) (library : frame ≠ .user)
    (follows : World.Follows true frame frames) :
    called w { v with stack := frames ++ below } = [] ∧ frames.count .user = 0 ∨
      called w { v with stack := frames ++ below } = [frame.callback] ∧
        ∃ others, frames = .user :: others ∧ others.count .user = 0 := by
  rcases users_of_follows follows library with none | ⟨others, rfl, none⟩
  · exact Or.inl ⟨by simp [called, stack, library, none], none⟩
  · exact Or.inr ⟨by simp [called, stack, library, none], others, rfl, none⟩

/-- Only the user's code calls `send`. -/
theorem sends_of_follows {frame : Frame} {frames : List Frame} {onLoop : Bool}
    (follows : World.Follows onLoop frame frames) (library : frame ≠ .user) {c : ConnId}
    {message : Message} : .send c message ∉ frames := by
  intro member
  cases follows.leads member with
  | call => exact library rfl

/-- A frame of the library calls no code of the user. -/
theorem library_input {frame : Frame} {frames : List Frame} {input : Input} {v : World σ}
    (library : frame ≠ .user) (ran : w.advance settings impl true frame input = .ok (v, frames)) :
    (∀ call, input ≠ .call call) ∧ ∀ call, input ≠ .loopCall call := by
  constructor <;>
  · rintro call rfl
    cases frame with
    | user => exact library rfl
    | _ => simp [World.advance, Frame.test] at ran

theorem library_plain {input : Input} (library : w.stack.head? ≠ some .user)
    (ran : w.step settings impl (.loop input) = .ok w') :
    World.Plain (.loop input : Action impl.Answer) := by
  cases stack : w.stack with
  | nil =>
    cases World.step_ok ran with
    | loop full => cases stack.symm.trans full
    | _ => trivial
  | cons frame below =>
    have other : frame ≠ .user := fun same => library (by rw [stack, same]; rfl)
    obtain ⟨v, frames, moved, _⟩ := loop_ok stack ran
    obtain ⟨uncalled, unlooped⟩ := library_input other moved
    cases input with
    | call call => exact absurd rfl (uncalled call)
    | loopCall call => exact absurd rfl (unlooped call)
    | _ => trivial

theorem advance_handleRead {frames : List Frame} {input : Input} {c : ConnId}
    (ran : w.advance settings impl true (.handleRead c) input = .ok (w', frames)) :
    ∃ answer, input = .readv answer ∧
      Buffer.Op.Valid (w.conns c).inputBuffer (.readFd answer) ∧
      w.handleRead c answer = .ok (w', frames) := by
  cases input with
  | readv answer =>
    simp only [World.advance, Frame.test] at ran
    split at ran
    · next valid => exact ⟨answer, rfl, valid, ran⟩
    · cases ran
  | _ => simp [World.advance, Frame.test] at ran

/-- What a frame of the library does to the inputs: `handleRead` stores, and calls back. -/
theorem input_advance {frame : Frame} {below frames : List Frame} {input : Input} {v : World σ}
    (stack : w.stack = frame :: below) (library : frame ≠ .user)
    (fronted : ∀ c, (w.conns c).inputBuffer.Fronted)
    (ran : w.advance settings impl true frame input = .ok (v, frames)) (c : ConnId) :
    (v.conns c).inputBuffer.Fronted ∧
      (v.conns c).inputBuffer.value = (w.conns c).inputBuffer.value ++ stored w input c ∧
      (stored w input c ≠ [] → frames = [.user] ∧ frame = .handleRead c) := by
  by_cases reads : frame = .handleRead c
  · subst reads
    obtain ⟨answer, rfl, valid, read⟩ := advance_handleRead ran
    obtain ⟨n, conn, counted, outcome⟩ := World.handleRead_ok read
    obtain ⟨whole, value⟩ := TcpConnection.handleRead_input (fronted c) valid counted
    have holds : stored w (.readv answer) c = answer.stored := by simp [stored, stack]
    have calls : stored w (.readv answer) c ≠ [] → 0 < n := by
      have count := TcpConnection.handleRead_count counted
      rw [holds, count]
      cases answer <;> simp [ReadvAnswer.stored, List.length_pos_iff]
    rw [← holds] at value
    have own : v.conns c = conn := by
      rcases outcome with ⟨_, rfl, _⟩ | ⟨_, rfl, _⟩ | ⟨_, rfl, _⟩ <;> exact Function.update_self ..
    rw [own]
    refine ⟨whole, value, fun more => ⟨?_, rfl⟩⟩
    have positive := calls more
    rcases outcome with ⟨_, _, goes⟩ | ⟨zero, _⟩ | ⟨negative, _⟩
    · exact goes.symm
    · omega
    · omega
  · have kept := ((World.advance_ok ran).keeps (library_input library ran).2 reads).input
    have none : stored w input c = [] := by
      unfold stored
      split
      · rw [if_neg (by simpa [stack] using reads)]
      · rfl
    rw [kept, none]
    exact ⟨fronted c, (List.append_nil _).symm, fun more => absurd rfl more⟩

/-- What a step of the library does to the inputs and the callbacks. -/
structure Serves (w w' : World σ) (input : Input) : Prop where
  calls : called w w' = [] ∧ w'.stack.count .user = w.stack.count .user ∨
    ∃ callback, called w w' = [callback] ∧ w'.stack.head? = some .user ∧
      w'.stack.count .user = w.stack.count .user + 1
  served : ∀ callback ∈ called w w', ∀ c, callback.conn = some c →
    callback = .onMessage c ∧ .handleRead c ∈ w.stack
  reads : ∀ c, (w'.conns c).inputBuffer.Fronted ∧
    (w'.conns c).inputBuffer.value = (w.conns c).inputBuffer.value ++ stored w input c ∧
    (stored w input c ≠ [] → called w w' = [.onMessage c])
  unsent : ∀ c message, .send c message ∉ w'.stack

theorem Serves.of_empty {input : Input} (stack : w.stack = [])
    (fronted : ∀ c, (w.conns c).inputBuffer.Fronted)
    (ran : w.step settings impl (.loop input) = .ok w') : Serves w w' input := by
  have none (c : ConnId) : stored w input c = [] := by cases input <;> simp [stored, stack]
  have kept (conns : w'.conns = w.conns) (c : ConnId) : (w'.conns c).inputBuffer.Fronted ∧
      (w'.conns c).inputBuffer.value = (w.conns c).inputBuffer.value ++ stored w input c ∧
      (stored w input c ≠ [] → called w w' = [.onMessage c]) := by
    rw [conns, none, List.append_nil]
    exact ⟨fronted c, rfl, fun more => absurd rfl more⟩
  cases World.step_ok ran with
  | loop full => cases stack.symm.trans full
  | dispatch | swap | again =>
    exact ⟨Or.inl (by simp [called, stack]), by simp [called, stack], kept rfl, by simp [stack]⟩
  | @start task =>
    by_cases user : task = .user
    · subst user
      exact ⟨Or.inr ⟨.component, by simp [called, stack, Task.frame], rfl,
          by simp [stack, Task.frame]⟩,
        by simp [called, stack, Task.frame, Callback.conn], kept rfl, by simp [Task.frame]⟩
    · have library : task.frame ≠ .user ∧ ∀ c message, task.frame ≠ .send c message := by
        cases task <;> simp [Task.frame] at user ⊢
      exact ⟨Or.inl (by simp [called, stack, library.1]), by simp [called, stack, library.1],
        kept rfl, fun c message member => library.2 c message (List.mem_singleton.mp member).symm⟩

theorem Serves.of_frame {frame : Frame} {below : List Frame} {input : Input}
    (orderly : w.Orderly) (stack : w.stack = frame :: below) (library : frame ≠ .user)
    (fronted : ∀ c, (w.conns c).inputBuffer.Fronted)
    (ran : w.step settings impl (.loop input) = .ok w') : Serves w w' input := by
  obtain ⟨v, frames, moved, rfl⟩ := loop_ok stack ran
  have follows := (World.advance_ok moved).follows
  have calls := called_advance (v := v) stack library follows
  refine ⟨?_, fun callback member c own => ?_, fun c => ?_, fun c message member => ?_⟩
  · rcases calls with ⟨none, silent⟩ | ⟨one, others, rfl, silent⟩
    · exact Or.inl ⟨none, by simp [stack, library, silent]⟩
    · exact Or.inr ⟨_, one, rfl, by simp [stack, library, silent]⟩
  · rcases calls with ⟨none, _⟩ | ⟨one, _⟩
    · rw [none] at member
      cases member
    · rw [one, List.mem_singleton] at member
      subst member
      cases frame <;> cases own
      exact ⟨rfl, by simp [stack]⟩
  · obtain ⟨whole, value, reads⟩ := input_advance stack library fronted moved c
    refine ⟨whole, value, fun more => ?_⟩
    obtain ⟨rfl, rfl⟩ := reads more
    rcases calls with ⟨_, silent⟩ | ⟨one, _⟩
    · cases silent
    · exact one
  · rcases List.mem_append.mp member with new | old
    · exact sends_of_follows follows library new
    · have waits := orderly.waiting _ (by rw [stack]; exact old)
      cases waits

theorem serves_of_library {input : Input} (orderly : w.Orderly)
    (library : w.stack.head? ≠ some .user) (fronted : ∀ c, (w.conns c).inputBuffer.Fronted)
    (ran : w.step settings impl (.loop input) = .ok w') : Serves w w' input := by
  cases stack : w.stack with
  | nil => exact .of_empty stack fronted ran
  | cons frame below =>
    have other : frame ≠ .user := fun same => library (by rw [stack, same]; rfl)
    exact .of_frame orderly stack other fronted ran

/-- A step of the library starts one callback, or none. -/
theorem Program.library (program : s.Program) {mentions : σ → ChannelId → Prop}
    (established : s.world.Established settings mentions)
    (library : s.world.stack.head? ≠ some .user)
    (later : ∀ c, s.world.state c ≠ .kConnecting → w'.state c ≠ .kConnecting)
    {input : Input} (serves : Serves s.world w' input) (received : ConnId → Bytes) :
    Program ⟨w', called s.world w' ++ s.callbacks, received⟩ := by
  have resting := program.resting library
  refine ⟨?_, fun callback member => ?_, fun head callback member => ?_,
    fun c => (serves.reads c).1, fun c more => ?_, fun callback member c own => ?_,
    fun c message member => absurd member (serves.unsent c message)⟩
  · rcases serves.calls with ⟨none, same⟩ | ⟨callback, one, _, grown⟩
    · simp [none, same, program.counted]
    · simp [one, grown, program.counted]
  · rcases serves.calls with ⟨none, _⟩ | ⟨_, one, _⟩
    · rw [none] at member
      exact resting callback (List.mem_of_mem_tail member)
    · rw [one] at member
      exact resting callback member
  · rcases serves.calls with ⟨none, _⟩ | ⟨_, _, user, _⟩
    · rw [none] at member
      exact resting callback member
    · exact absurd user head
  · obtain ⟨_, value, reads⟩ := serves.reads c
    rw [value, program.drained library c, List.nil_append] at more
    rw [reads more]
    rfl
  · rcases List.mem_append.mp member with new | old
    · obtain ⟨_, reads⟩ := serves.served callback new c own
      exact later c (established.stack _ reads)
    · cases (resting callback old).symm.trans own

theorem promised_advance {onLoop : Bool} {frame : Frame} {frames : List Frame} {input : Input}
    (advance : World.Advance settings impl onLoop w frame input w' frames)
    (other : ∀ c message, frame ≠ .send c message) (c : ConnId) :
    promised w'.trace c = promised w.trace c := by
  rcases advance.notes with same | ⟨e, notes, noted⟩
  · rw [same]
  · have silent : e.promise c = none := by
      cases notes <;> first | rfl | exact absurd rfl (other _ _)
    rw [noted, promised_append]
    simp [promised, silent]

/-- A message is accepted where `send` is called, unless the connection is down. -/
theorem promised_library {input : Input} {c : ConnId} (program : s.Program)
    (orderly : s.world.Orderly) (alone : s.world.Alone) (downed : s.world.Downed)
    (up : .down c ∉ s.world.trace) (ran : s.world.step settings impl (.loop input) = .ok w') :
    promised w'.trace c =
      promised s.world.trace c ++ s.world.stack.flatMap (Frame.brings c) := by
  cases World.step_ok ran with
  | dispatch stack | swap stack | again stack | start stack => simp [stack]
  | @loop frame below frames _ v stack advance =>
    rw [stack, List.flatMap_cons, brings_below orderly stack, List.append_nil]
    cases frame with
    | send own message =>
      cases advance with
      | yes tested | no tested => cases tested
      | accept =>
        show promised (s.world.trace ++ [_]) c = _
        rw [promised_append]
        by_cases same : own = c <;> simp [promised, Event.promise, Frame.brings, same]
      | reject closed =>
        have apart : own ≠ c := by
          rintro rfl
          have begun := program.sending own message (by simp [stack])
          have lasts := alone.states own
          refine up (downed.trace ?_)
          cases state : s.world.state own <;> simp_all
        simp [Frame.brings, apart]
    | _ => rw [promised_advance advance (by simp), Frame.brings_other (by simp), List.append_nil]

/-- What has been read on a connection that is not down is on its way back. -/
def Answers (s : TestServer σ) : Prop :=
  ∀ c, .down c ∉ s.world.trace →
    s.received c = promised s.world.trace c ++ s.answering c

theorem start_answers (settings : Settings) (poller : σ) :
    (TestServer.start settings poller).Answers := by
  intro c _
  simp [start, World.start, promised, answering, TcpConnection.new]

theorem Answers.callback (answers : s.Answers) (program : s.Program)
    (orderly : s.world.Orderly) {callback : Callback} {rest left : List Callback}
    (user : s.world.stack.head? = some .user) (callbacks : s.callbacks = callback :: rest)
    (speaks : Speaks s.world callback w' left) :
    Answers { s with world := w', callbacks := left ++ rest } := by
  intro c up
  obtain ⟨trace, same⟩ := speaks.answering program orderly user callbacks c
  rw [trace] at up ⊢
  rw [same]
  exact answers c up

theorem Answers.library (answers : s.Answers) (program : s.Program) (orderly : s.world.Orderly)
    (alone : s.world.Alone) (downed : s.world.Downed)
    (library : s.world.stack.head? ≠ some .user) {input : Input}
    (serves : Serves s.world w' input)
    (ran : s.world.step settings impl (.loop input) = .ok w') :
    Answers ⟨w', called s.world w' ++ s.callbacks,
      fun c => s.received c ++ stored s.world input c⟩ := by
  intro c up
  have earlier : .down c ∉ s.world.trace := by
    obtain ⟨old, new, events, sends⟩ := (World.step_ok ran).sending
    intro member
    exact up (show .down c ∈ w'.trace from sends.trace ▸ List.mem_append_left _ member)
  have unheld : (called s.world w').flatMap (Callback.holds c) = [] := by
    refine List.flatMap_eq_nil_iff.mpr fun callback member => ?_
    cases own : callback.conn with
    | none => exact Callback.holds_idle own c
    | some reads =>
      rw [(serves.served callback member reads own).1]
      rfl
  have unsent : w'.stack.flatMap (Frame.brings c) = [] := by
    refine List.flatMap_eq_nil_iff.mpr fun frame member => Frame.brings_other ?_ c
    rintro own message rfl
    exact serves.unsent own message member
  have before := answers c earlier
  simp only [answering, holds_idle (program.resting library), program.drained library c,
    List.append_nil] at before
  simp only [answering, List.flatMap_append, unsent, unheld, holds_idle (program.resting library),
    (serves.reads c).2.1, program.drained library c, List.nil_append]
  rw [before, promised_library program orderly alone downed earlier ran]

/-- What happens beside the loop thread leaves its stack and the connections alone. -/
theorem outside_step {action : Action impl.Answer} (alone : w.Alone)
    (foreign : ∀ input, action ≠ .loop input) (stays : ∀ c, action ≠ .destroy c)
    (step : World.Step settings impl w action w') :
    w'.stack = w.stack ∧ w'.conns = w.conns ∧ w'.trace = w.trace := by
  cases step with
  | @other frame before after frames v others advance =>
    have posts : frame = .post .user := alone.others frame (by simp [others])
    subst posts
    cases advance with
    | yes tested | no tested => cases tested
    | post => exact ⟨rfl, rfl, rfl⟩
  | loop | dispatch | swap | start | again => exact absurd rfl (foreign _)
  | destroy => exact absurd rfl (stays _)
  | _ => exact ⟨rfl, rfl, rfl⟩

/-- What the world of an echo server keeps. -/
structure Flowing (settings : Settings) (mentions : σ → ChannelId → Prop) (w : World σ) : Prop where
  alone : w.Alone
  delivering : w.Delivering
  counted : w.Counted
  established : w.Established settings mentions
  sequential : w.Sequential
  stilled : w.Stilled

variable {mentions : σ → ChannelId → Prop}

theorem start_flowing (settings : Settings) {poller : σ} (empty : ∀ id, ¬ mentions poller id) :
    Flowing settings mentions (World.start settings poller) where
  alone := World.start_alone settings poller
  delivering := World.start_delivering settings poller
  counted := World.start_counted settings poller
  established := World.start_established settings empty
  sequential _ _ := rfl
  stilled := World.start_stilled settings poller

theorem Flowing.step (flowing : Flowing settings mentions w) (lawful : impl.Lawful mentions)
    {action : Action impl.Answer} (plain : World.Plain action)
    (ran : w.step settings impl action = .ok w') : Flowing settings mentions w' := by
  obtain ⟨alone, delivering, counted, established, sequential, stilled⟩ := flowing
  have step := World.step_ok ran
  have orderly := delivering.orderly
  have onTime : w.NoLateStore action := World.noLateStore_iff.mpr fun c runs => by
    rcases alone.running runs with ⟨_, head⟩ | posts
    · cases alone.lasting _ (List.mem_of_mem_head? head)
    · cases posts
  obtain ⟨old, new, events, sends⟩ := step.sending
  have outflow := step.outflow lawful orderly delivering.remains sends.trace
  exact ⟨alone.step plain ran, delivering.step lawful step,
    World.counted_step orderly counted onTime step, established.step lawful orderly step,
    sequential.step alone delivering.downed step, stilled.step alone orderly lawful step outflow⟩

theorem Flowing.closed {c : ConnId} (flowing : Flowing settings mentions w)
    (down : .down c ∈ w.trace) : w.state c = .kDisconnected := by
  have listed : .down c ∈ w.callbacks := List.mem_filter.mpr ⟨down, rfl⟩
  have downs := flowing.counted.downs c
  by_contra other
  rw [if_neg other] at downs
  exact absurd listed (List.count_eq_zero.mp downs)

/-- The kernel takes nothing of a connection in the step that closes it, or later. -/
theorem Flowing.stays {c : ConnId} (flowing : Flowing settings mentions w)
    (lawful : impl.Lawful mentions) {action : Action impl.Answer}
    (ran : w.step settings impl action = .ok w') (down : .down c ∈ w'.trace) :
    acceptedBytes w'.trace c = acceptedBytes w.trace c := by
  have step := World.step_ok ran
  have orderly := flowing.delivering.orderly
  obtain ⟨old, new, events, sends⟩ := step.sending
  have outflow := step.outflow lawful orderly flowing.delivering.remains sends.trace c
  have silent : acceptedBytes events c = [] := by
    rw [sends.trace, List.mem_append] at down
    rcases down with before | now
    · exact (flowing.stilled.silent flowing.alone orderly (flowing.closed before) outflow).1
    · cases outflow with
      | same _ _ apart => exact (stream_silent apart).2
      | down _ noted => simp [noted, acceptedBytes, Event.taken]
      | direct _ _ _ _ noted | append _ _ _ _ _ noted | drain _ _ _ _ _ noted => simp [noted] at now
  rw [sends.trace, acceptedBytes_append, silent, List.append_nil]

/-- What every run of the echo server keeps. -/
structure Echoing (settings : Settings) (mentions : σ → ChannelId → Prop) (s : TestServer σ) :
    Prop where
  flowing : Flowing settings mentions s.world
  program : s.Program
  answers : s.Answers

theorem start_echoing (settings : Settings) {poller : σ} (empty : ∀ id, ¬ mentions poller id) :
    Echoing settings mentions (TestServer.start settings poller) where
  flowing := start_flowing settings empty
  program := start_program settings poller
  answers := start_answers settings poller

/-- The step of the world in a step of the server. -/
theorem Step.world {action : Action impl.Answer}
    (step : TestServer.Step settings impl s action s') :
    s.world.step settings impl action = .ok s'.world ∧ ∀ c, s.received c <+: s'.received c := by
  cases step with
  | callback _ _ _ ran | outside _ _ _ ran => exact ⟨ran, fun _ => List.prefix_refl _⟩
  | library _ ran => exact ⟨ran, fun _ => List.prefix_append ..⟩

theorem Echoing.step (echoing : Echoing settings mentions s) (lawful : impl.Lawful mentions)
    {action : Action impl.Answer} (step : TestServer.Step settings impl s action s') :
    Echoing settings mentions s' := by
  obtain ⟨flowing, program, answers⟩ := echoing
  have orderly := flowing.delivering.orderly
  have later (c : ConnId) : s.world.state c ≠ .kConnecting → s'.world.state c ≠ .kConnecting :=
    (World.step_ok step.world.1).state_ne
  cases step with
  | callback user callbacks goes ran =>
    have speaks := next_ok (fun c => (program.inputs c).wf) user goes ran
    exact ⟨flowing.step lawful (next_plain goes) ran, program.callback user callbacks speaks,
      answers.callback program orderly user callbacks speaks⟩
  | library library ran =>
    have serves := serves_of_library orderly library program.inputs ran
    exact ⟨flowing.step lawful (library_plain library ran) ran,
      program.library flowing.established library later serves _,
      answers.library program orderly flowing.alone flowing.delivering.downed library serves ran⟩
  | @outside _ w foreign plain stays ran =>
    obtain ⟨stack, conns, trace⟩ := outside_step flowing.alone foreign stays (World.step_ok ran)
    obtain ⟨counted, waiting, resting, inputs, unread, serving, sending⟩ := program
    refine ⟨flowing.step lawful plain ran, ⟨stack ▸ counted, waiting, stack ▸ resting,
      conns ▸ inputs, conns ▸ unread,
      fun callback member c own => later c (serving callback member c own),
      fun c message member => later c (sending c message (stack ▸ member))⟩, fun c up => ?_⟩
    simp only [answering, stack, conns]
    rw [trace] at up ⊢
    exact answers c up

/-- While no function runs, nothing is on its way to `send`. -/
theorem Program.answered (program : s.Program) (empty : s.world.stack = []) (c : ConnId) :
    s.answering c = [] := by
  have none : s.callbacks = [] := by
    have counted := program.counted
    rw [empty] at counted
    exact List.eq_nil_of_length_eq_zero counted
  simp [answering, empty, none, program.drained (by simp [empty]) c]

/-- What has been read has been handed over, but for what runs. -/
theorem Echoing.handed {c : ConnId} (echoing : Echoing settings mentions s)
    (up : .down c ∉ s.world.trace) :
    s.received c = (pieces s.world.trace c).flatten ++ s.world.inFlight c ++ s.answering c := by
  rw [echoing.answers c up, echoing.flowing.sequential c up]

/-- What a run keeps in which no append has compacted an output buffer. -/
structure Exact (s : TestServer σ) : Prop where
  seamless : s.world.Seamless
  sent : ∀ c, acceptedBytes s.world.trace c <+: s.received c

theorem start_exact (settings : Settings) (poller : σ) :
    (TestServer.start settings poller).Exact where
  seamless c _ := by
    show [] ++ Buffer.fresh.value = []
    simp
  sent _ := List.nil_prefix

theorem Exact.whole {c : ConnId} (exactly : s.Exact) (echoing : Echoing settings mentions s)
    (up : .down c ∉ s.world.trace) :
    s.received c = acceptedBytes s.world.trace c ++ (s.world.conns c).outputBuffer.value ++
      s.world.inFlight c ++ s.answering c := by
  rw [echoing.handed up, ← exactly.seamless c up]

theorem Exact.step (exactly : s.Exact) (echoing : Echoing settings mentions s)
    (lawful : impl.Lawful mentions) {action : Action impl.Answer}
    (inPlace : s.world.InPlace action) (step : TestServer.Step settings impl s action s') :
    s'.Exact := by
  obtain ⟨ran, grown⟩ := step.world
  have flowing := echoing.flowing
  have delivering := flowing.delivering
  obtain ⟨old, new, events, sends⟩ := (World.step_ok ran).sending
  have outflow := (World.step_ok ran).outflow lawful delivering.orderly delivering.remains
    sends.trace
  have seamless := exactly.seamless.step delivering.streaming inPlace sends.trace outflow
  refine ⟨seamless, fun c => ?_⟩
  by_cases down : .down c ∈ s'.world.trace
  · rw [flowing.stays lawful ran down]
    exact (exactly.sent c).trans (grown c)
  · rw [(echoing.step lawful step).handed down, ← seamless c down, List.append_assoc,
      List.append_assoc]
    exact List.prefix_append ..

end TestServer

end Muduo.Source
