import Muduo.Source.ReactorOrder
import Muduo.Source.ReactorRecords

/-!
# Output of a loop whose own callbacks send

Where all sends are made in callbacks of the loop and no high-water callback is set, one
message is on its way at a time. While no append compacts the buffer, what the kernel took
and what is buffered are then the accepted messages, one after the other, up to the part
that is on its way.
-/
namespace Muduo.Source
open Muduo.Support

/-- Frames that lead to `kDisconnecting`. -/
def Frame.shuts : Frame → Bool
  | .shutdown _ | .forceClose _ | .forceCloseSecond _ | .forceCloseStore _ => true
  | _ => false

/-- A message that `send` takes over. -/
def Event.promise (c : ConnId) : Event → Option Bytes
  | .accepted c' _ message => if c' = c then some message.bytes else none
  | _ => none

/-- The messages that `send` took over on the connection. -/
def promised (trace : List Event) (c : ConnId) : Bytes :=
  (trace.filterMap (Event.promise c)).flatten

theorem promised_append (trace events : List Event) (c : ConnId) :
    promised (trace ++ events) c = promised trace c ++ promised events c := by
  simp [promised]

theorem promised_silent {events : List Event} (silent : ∀ e ∈ events, e.silent = true)
    (c : ConnId) : promised events c = [] ∧ pieces events c = [] := by
  have none : ∀ e ∈ events, e.promise c = none ∧ e.piece c = none := by
    intro e member
    have quiet := silent e member
    cases e with
    | write _ sender => cases sender <;> first | exact ⟨rfl, rfl⟩ | cases quiet
    | accepted | append => cases quiet
    | _ => exact ⟨rfl, rfl⟩
  have promises : events.filterMap (Event.promise c) = [] :=
    List.filterMap_eq_nil_iff.mpr fun e member => (none e member).1
  refine ⟨by rw [promised, promises, List.flatten_nil], ?_⟩
  exact List.filterMap_eq_nil_iff.mpr fun e member => (none e member).2

namespace World

variable {σ : Type} {settings : Settings} {impl : Polling σ} {w w' : World σ} {c : ConnId}
  {old new : Option Carried} {events : List Event}

/-- The append that the action makes leaves the storage of the buffer in place. -/
def InPlace {answer : Type} (w : World σ) (action : Action answer) : Prop :=
  match w.running action with
  | some (.sendInLoopRest c _ rest) => ¬ (w.conns c).outputBuffer.Compacts rest.bytes.length
  | _ => True

instance {answer : Type} (w : World σ) (action : Action answer) : Decidable (w.InPlace action) := by
  delta InPlace
  rcases w.running action with _ | frame
  · infer_instance
  · induction frame using Frame.casesOn <;> infer_instance

/-- What the kernel took and what is buffered are the pieces, without a gap. -/
def Seamless (w : World σ) : Prop :=
  ∀ c, .down c ∉ w.trace →
    acceptedBytes w.trace c ++ (w.conns c).outputBuffer.value = (pieces w.trace c).flatten

theorem Seamless.step (seamless : w.Seamless) (streaming : w.Streaming)
    {action : Action impl.Answer} (inPlace : w.InPlace action)
    (trace : w'.trace = w.trace ++ events)
    (outflow : ∀ c, Outflow w w' c (w.running action) events) : w'.Seamless := by
  intro c up
  rw [trace, List.mem_append, not_or] at up
  have before := seamless c up.1
  obtain ⟨outgoing, _⟩ := streaming c up.1
  rw [trace, pieces_append, acceptedBytes_append, List.flatten_append, ← before]
  cases outflow c with
  | same buffer _ apart =>
    obtain ⟨none, nothing⟩ := stream_silent apart
    rw [buffer, none, nothing]
    simp
  | down _ noted => exact absurd (by simp [noted]) up.2
  | @direct id message answer _ direct buffer _ noted =>
    have empty : (w.conns c).outputBuffer.value = [] := by
      rw [TcpConnection.writesDirectly_eq outgoing] at direct
      exact of_decide_eq_true direct
    rw [buffer, empty, noted]
    simp [pieces, Event.piece, acceptedBytes, Event.taken]
  | @append id rest conn runs nonempty ran buffer _ noted =>
    have fit : (w.conns c).outputBuffer.Fits rest.bytes.length := by
      by_contra excess
      rw [TcpConnection.sendInLoopRest_error outgoing.wf excess (rest.fits_sum outgoing.wf)] at ran
      cases ran
    have still : (w.conns c).outputBuffer.spill rest.bytes.length = [] := by
      simp only [InPlace, runs] at inPlace
      exact if_neg inPlace
    rw [TcpConnection.sendInLoopRest_ok outgoing.wf fit] at ran
    cases ran
    rw [buffer, outgoing.wf.value_appended fit, still, noted]
    simp [pieces, Event.piece, acceptedBytes, Event.taken]
  | @drain answer start _ valid started buffer _ noted =>
    have shape := TcpConnection.handleWriteStart_ok outgoing.wf valid
    rw [started, Except.ok.injEq] at shape
    rw [buffer, noted]
    by_cases none : answer.count = 0
    · rw [if_pos none] at shape
      subst shape
      simp [pieces, Event.piece, acceptedBytes, Event.taken]
    · rw [if_neg none] at shape
      subst shape
      simp [pieces, Event.piece, acceptedBytes, Event.taken, outgoing.wf.value_retrieved]

/-- Another thread queues functors, and the user's code on the loop sends; it sets no
high-water callback. -/
def Plain {answer : Type} : Action answer → Prop
  | .call call => call = .queueInLoop
  | .loop (.call (.shutdown _)) | .loop (.call (.forceClose _))
  | .loop (.loopCall (.setHighWaterMarkCallback ..)) => False
  | _ => True

/-- Only callbacks of the loop send, one message at a time, and nobody shuts down. -/
structure Alone (w : World σ) : Prop where
  others : ∀ frame ∈ w.others, frame = .post .user
  direct : w.Direct
  waiting : ∀ frame ∈ w.stack.tail, frame.carries = none
  tasks : ∀ task ∈ w.tasks, task.carries = none
  marks : ∀ c, (w.conns c).highWaterMarkCallback = false
  lasting : ∀ frame ∈ w.stack, frame.shuts = false
  states : ∀ c, w.state c ≠ .kDisconnecting

theorem start_alone (settings : Settings) (poller : σ) : (start settings poller).Alone where
  others := by simp [start]
  direct := by simp [Direct, start]
  waiting := by simp [start]
  tasks := by simp [start, World.tasks]
  marks _ := rfl
  lasting := by simp [start]
  states c := by simp [start, state, TcpConnection.new]

/-- Two states of a connection that differ in `state_` and `output_buffer_` at most. -/
structure Keeps (conn conn' : TcpConnection) : Prop where
  input : conn'.inputBuffer = conn.inputBuffer
  mark : conn'.highWaterMarkCallback = conn.highWaterMarkCallback

theorem Keeps.refl (conn : TcpConnection) : Keeps conn conn := ⟨rfl, rfl⟩

theorem keeps_setConn {own : ConnId} {conn : TcpConnection} (keeps : Keeps (w.conns own) conn)
    (c : ConnId) : Keeps (w.conns c) ((w.setConn own conn).conns c) := by
  rw [conns_setConn, Function.update_apply]
  split
  · next equal => exact equal ▸ keeps
  · exact .refl _

theorem keeps_setState (own : ConnId) (s : StateE) (c : ConnId) :
    Keeps (w.conns c) ((w.setState own s).conns c) := by
  have same : Keeps (w.conns own) { w.conns own with state := s } := ⟨rfl, rfl⟩
  exact keeps_setConn same c

theorem keeps_operate {v : World σ} {id : ChannelId} {op : ChannelOp}
    (operated : v.operate impl id op = .ok w') (keeps : Keeps (w.conns c) (v.conns c)) :
    Keeps (w.conns c) (w'.conns c) := by
  rwa [operate_conns operated]

/-- Only `handleRead` and calls of the user change more of a connection. -/
theorem Advance.keeps {onLoop : Bool} {frame : Frame} {input : Input} {frames : List Frame}
    (advance : Advance settings impl onLoop w frame input w' frames)
    (library : ∀ call, input ≠ .loopCall call) (apart : frame ≠ .handleRead c) :
    Keeps (w.conns c) (w'.conns c) := by
  cases advance with
  | adjust | construct | watch => exact absurd rfl (library _)
  | connectDestroyedRest operated => exact keeps_operate operated (.refl _)
  | handleCloseStore down | connectDestroyedStore down =>
    exact keeps_operate down (keeps_setState _ _ c)
  | connectEstablishedStore enabled => exact keeps_operate enabled (keeps_setState _ _ c)
  | shutdown | forceCloseStore => exact keeps_setState _ _ c
  | closeHere _ removed =>
    obtain ⟨_, rfl⟩ := removeConnectionInLoop_ok.mp removed
    exact .refl _
  | sendInLoopStart sent =>
    obtain ⟨_, _, started⟩ := sent
    cases started
    exact .refl _
  | @sendInLoopRest own _ _ _ rested =>
    obtain ⟨conn, appended, outcome⟩ := sendInLoopRest_ok rested
    have same : Keeps (w.conns own) conn := by
      unfold TcpConnection.sendInLoopRest at appended
      split at appended <;> cases appended
      exact ⟨rfl, rfl⟩
    rcases outcome with ⟨_, rfl⟩ | ⟨_, operated⟩
    · exact keeps_setConn same c
    · exact keeps_operate operated (keeps_setConn same c)
  | @handleRead own _ _ _ read =>
    have other : c ≠ own := fun same => apart (same ▸ rfl)
    obtain ⟨_, conn, _, ⟨_, rfl, _⟩ | ⟨_, rfl, _⟩ | ⟨_, rfl, _⟩⟩ := handleRead_ok read <;>
      exact (conns_setConn_other other) ▸ .refl _
  | @handleWrite own _ _ _ _ _ wrote =>
    obtain ⟨start, started, outcome⟩ := handleWrite_ok wrote
    have same : Keeps (w.conns own) start.conn := by
      unfold TcpConnection.handleWriteStart at started
      split at started
      · split at started <;> cases started
        exact ⟨rfl, rfl⟩
      all_goals cases started; exact .refl _
    have kept : Keeps (w.conns c) ((w.wrote own start).conns c) := keeps_setConn same c
    rcases outcome with ⟨_, rfl, _⟩ | ⟨_, _, w₁, operated, rfl⟩
    · exact kept
    · have moved : Keeps (w.conns c) (w₁.conns c) := keeps_operate operated kept
      exact moved
  | _ => exact .refl _

theorem mark_loopCall {call : LoopCall} {frames : List Frame}
    (unset : ∀ c mark, call ≠ .setHighWaterMarkCallback c mark)
    (ran : w.loopCall settings impl call = .ok (w', frames)) (c : ConnId) :
    (w'.conns c).highWaterMarkCallback = (w.conns c).highWaterMarkCallback := by
  cases call with
  | setHighWaterMarkCallback c mark => exact absurd rfl (unset c mark)
  | input own op =>
    simp only [loopCall] at ran
    split at ran
    · split at ran <;> cases ran
      next buffer _ =>
      rw [conns_setConn, Function.update_apply]
      split
      · next equal => rw [equal]
      · rfl
    · cases ran
  | newConnection =>
    simp only [loopCall] at ran
    split at ran <;> cases ran
    rfl
  | watch =>
    simp only [loopCall] at ran
    split at ran
    · split at ran <;> cases ran
      next operated => rw [operate_conns operated]
    · cases ran

theorem mark_handleRead {own : ConnId} {answer : ReadvAnswer} {frames : List Frame}
    (read : w.handleRead own answer = .ok (w', frames)) (c : ConnId) :
    (w'.conns c).highWaterMarkCallback = (w.conns c).highWaterMarkCallback := by
  obtain ⟨_, conn, counted, outcome⟩ := handleRead_ok read
  have same : conn.highWaterMarkCallback = (w.conns own).highWaterMarkCallback := by
    unfold TcpConnection.handleRead at counted
    split at counted <;> cases counted
    rfl
  have kept : ((w.setConn own conn).conns c).highWaterMarkCallback =
      (w.conns c).highWaterMarkCallback := by
    rw [conns_setConn, Function.update_apply]
    split
    · next equal => rw [same, equal]
    · rfl
  rcases outcome with ⟨_, rfl, _⟩ | ⟨_, rfl, _⟩ | ⟨_, rfl, _⟩ <;> exact kept

theorem mark_advance {onLoop : Bool} {frame : Frame} {input : Input} {frames : List Frame}
    (unset : ∀ c mark, input ≠ .loopCall (.setHighWaterMarkCallback c mark))
    (ran : w.advance settings impl onLoop frame input = .ok (w', frames)) (c : ConnId) :
    (w'.conns c).highWaterMarkCallback = (w.conns c).highWaterMarkCallback := by
  have advance := advance_ok ran
  by_cases called : ∃ call, input = .loopCall call
  · obtain ⟨call, rfl⟩ := called
    cases frame with
    | user =>
      simp only [World.advance, Frame.test] at ran
      split at ran <;> cases ran
      next moved => exact mark_loopCall (fun c mark same => unset c mark (by rw [same])) moved c
    | _ => simp [World.advance, Frame.test] at ran
  · by_cases reads : frame = .handleRead c
    · subst reads
      cases advance with
      | yes tested | no tested => cases tested
      | handleRead read => exact mark_handleRead read c
    · exact (advance.keeps (fun call same => called ⟨call, same⟩) reads).mark

theorem mark_step {action : Action impl.Answer} (plain : Plain action)
    (ran : w.step settings impl action = .ok w') (c : ConnId) :
    (w'.conns c).highWaterMarkCallback = (w.conns c).highWaterMarkCallback := by
  cases action with
  | loop input =>
    simp only [World.step] at ran
    split at ran
    · unfold continueLoop at ran
      split at ran <;> cases ran
      all_goals rfl
    · split at ran <;> cases ran
      next advanced =>
      refine mark_advance (fun c mark same => ?_) advanced c
      subst same
      exact plain
  | other =>
    simp only [World.step] at ran
    split at ran
    · cases ran
    · split at ran <;> cases ran
      next advanced => exact mark_advance (by simp) advanced c
  | _ =>
    cases step_ok ran
    all_goals rfl

/-- A new frame behind the first one holds no message: a remainder waits for a high-water
callback only. -/
theorem Advance.light {onLoop : Bool} {frame : Frame} {input : Input} {frames : List Frame}
    (advance : Advance settings impl onLoop w frame input w' frames)
    (unmarked : ∀ c, (w.conns c).highWaterMarkCallback = false) :
    ∀ other ∈ frames.tail, other.carries = none := by
  cases advance with
  | yes tested => cases frame <;> cases tested <;> simp
  | no tested _ none => cases frame <;> cases tested <;> cases none <;> simp
  | @dispatch _ event => cases event <;> simp [callback, Frame.carries]
  | @sendInLoopStart own id message _ _ _ sent =>
    obtain ⟨answer, _, started⟩ := sent
    obtain ⟨_, rfl⟩ := Prod.mk.inj started
    have below : ((w.conns own).sendInLoopStart (w.heap own) message.bytes answer).highWater =
        none := by
      simp [TcpConnection.sendInLoopStart, TcpConnection.crossesHighWater, unmarked own]
    rw [below]
    split <;> simp
  | handleRead read =>
    obtain ⟨_, _, _, ⟨_, _, rfl⟩ | ⟨_, _, rfl⟩ | ⟨_, _, rfl⟩⟩ := handleRead_ok read <;> simp
  | handleWrite _ _ wrote =>
    obtain ⟨_, _, ⟨_, _, rfl⟩ | ⟨_, rfl, _⟩⟩ := handleWrite_ok wrote <;> simp
  | _ => simp [Frame.carries]

theorem enter_lasts {call : Call} {frame : Frame}
    (plain : Plain (.loop (.call call) : Action impl.Answer)) (entered : w.enter call = .ok frame) : frame.shuts = false := by
  cases call with
  | shutdown | forceClose => cases plain
  | queueInLoop => cases entered; rfl
  | send =>
    simp only [enter] at entered
    split at entered <;> cases entered
    rfl

theorem lasting_step (alone : w.Alone) {action : Action impl.Answer} (plain : Plain action)
    (step : Step settings impl w action w') : ∀ frame ∈ w'.stack, frame.shuts = false := by
  cases step with
  | @loop running rest frames input v stack advance =>
    have lasts := alone.lasting running (by simp [stack])
    intro frame member
    rcases List.mem_append.mp member with new | old
    · cases shuts : frame.shuts with
      | false => rfl
      | true =>
        cases advance.follows.leads new with
        | call enters =>
          cases advance with
          | call entered =>
            have kept := enter_lasts plain entered
            simp only [List.mem_cons, List.not_mem_nil, or_false] at new
            rcases new with rfl | rfl
            · exact shuts.symm.trans kept
            · cases shuts
          | construct => simp at new; rcases new with rfl | rfl <;> cases shuts
          | adjust | watch => cases List.mem_singleton.mp new; cases shuts
          | «return» => cases new
          | yes tested | no tested => cases tested
        | forceFirst | forceSecond | forceStore => cases lasts
        | _ => cases shuts
    · exact alone.lasting frame (by simp [stack, old])
  | other _ advance =>
    rw [advance.control.stack]
    exact alone.lasting
  | start =>
    intro frame member
    rw [List.mem_singleton.mp member]
    cases ‹Task› <;> rfl
  | dispatch | destroy => simp [Frame.shuts]
  | _ => exact alone.lasting

/-- Other threads only post functors of the user. -/
theorem others_step (alone : w.Alone) {action : Action impl.Answer} (plain : Plain action)
    (step : Step settings impl w action w') : ∀ frame ∈ w'.others, frame = .post .user := by
  cases step with
  | loop _ advance =>
    rw [advance.control.others]
    exact alone.others
  | @other running before after frames v others advance =>
    have posts : running = .post .user := alone.others running (by simp [others])
    subst posts
    cases advance with
    | yes tested | no tested => cases tested
    | post =>
      intro frame member
      exact alone.others frame (by simp only [others]; simp at member ⊢; tauto)
  | call entered =>
    cases plain
    cases entered
    intro frame member
    rcases List.mem_append.mp member with old | new
    · exact alone.others frame old
    · exact List.mem_singleton.mp new
  | _ => exact alone.others

theorem states_step (alone : w.Alone) {action : Action impl.Answer}
    (step : Step settings impl w action w') (c : ConnId) : w'.state c ≠ .kDisconnecting := by
  rcases step.state with ⟨same, _⟩ | ⟨frame, own, s, runs, stores, changed⟩
  · rw [same]
    exact alone.states c
  · have lasts : frame.shuts = false := by
      rcases running_mem runs with member | member
      · exact alone.lasting frame member
      · rw [alone.others frame member]
        rfl
    rw [changed]
    split
    · cases stores <;> first | (cases lasts; done) | simp
    · exact alone.states c

theorem waiting_step (alone : w.Alone) {action : Action impl.Answer}
    (step : Step settings impl w action w') : ∀ frame ∈ w'.stack.tail, frame.carries = none := by
  cases step with
  | @loop running rest frames input v stack advance =>
    have waiting := alone.waiting
    rw [stack, List.tail_cons] at waiting
    have light := advance.light alone.marks
    show ∀ frame ∈ (frames ++ rest).tail, frame.carries = none
    cases frames with
    | nil => exact fun frame member => waiting frame (List.mem_of_mem_tail member)
    | cons first others =>
      intro frame member
      rcases List.mem_append.mp member with new | old
      · exact light frame new
      · exact waiting frame old
  | other _ advance =>
    rw [advance.control.stack]
    exact alone.waiting
  | dispatch | start => simp
  | destroy => simp [Frame.carries]
  | _ => exact alone.waiting

theorem tasks_step (alone : w.Alone) {action : Action impl.Answer}
    (step : Step settings impl w action w') : ∀ task ∈ w'.tasks, task.carries = none := by
  intro task member
  rcases step.queues member with old | ⟨_, frame, _, _, _, runs, advance, new⟩ | ⟨_, _, rfl⟩ |
    ⟨_, _, rfl⟩
  · exact alone.tasks task old
  · rcases advance.queues new with old | rfl | ⟨_, _, rfl⟩ | ⟨_, _, rfl⟩
    · exact alone.tasks task old
    · rcases running_mem runs with member | member
      · exact alone.direct _ member
      · cases alone.others _ member
        rfl
    · rfl
    · rfl
  · rfl
  · rfl

theorem Alone.step (alone : w.Alone) {action : Action impl.Answer} (plain : Plain action)
    (ran : w.step settings impl action = .ok w') : w'.Alone where
  others := others_step alone plain (step_ok ran)
  direct := alone.direct.step (step_ok ran)
  waiting := waiting_step alone (step_ok ran)
  tasks := tasks_step alone (step_ok ran)
  marks c := (mark_step plain ran c).trans (alone.marks c)
  lasting := lasting_step alone plain (step_ok ran)
  states := states_step alone (step_ok ran)

/-- What a running `sendInLoop` still has of a message of the connection. -/
def inFlight (w : World σ) (c : ConnId) : Bytes :=
  ((w.stack.filterMap Frame.carries).filterMap fun p =>
    if p.conn = c then some p.message.bytes else none).flatten

/-- Bytes of a message on its way, as far as they are the connection's. -/
def share (c : ConnId) (p : Option Carried) : Bytes :=
  match p with
  | some p => if p.conn = c then p.message.bytes else []
  | none => []

theorem inFlight_eq {p : Option Carried} (carried : w.stack.filterMap Frame.carries = p.toList)
    (c : ConnId) : w.inFlight c = share c p := by
  rw [inFlight, carried]
  cases p with
  | none => rfl
  | some p =>
    unfold share
    by_cases own : p.conn = c <;> simp [own]

/-- On a connection that is not down every accepted byte has been handed over, up to what
the running `sendInLoop` has. -/
def Sequential (w : World σ) : Prop :=
  ∀ c, .down c ∉ w.trace → promised w.trace c = (pieces w.trace c).flatten ++ w.inFlight c

/-- A step of the frame that has the message, or accepts one. -/
theorem Handles.sequential {next : SendId} (handles : Handles w next old new events)
    (downed : w.Downed) (trace : w'.trace = w.trace ++ events) (c : ConnId)
    (up : .down c ∉ w.trace)
    (before : promised w.trace c = (pieces w.trace c).flatten ++ share c old) :
    promised w'.trace c = (pieces w'.trace c).flatten ++ share c new := by
  rw [trace, promised_append, pieces_append, List.flatten_append, before]
  cases handles with
  | idle silent =>
    obtain ⟨promises, hands⟩ := promised_silent silent c
    simp [promises, hands]
  | @accept own message =>
    by_cases same : own = c <;>
      simp [promised, Event.promise, pieces, Event.piece, share, same]
  | move => simp [promised, pieces]
  | @drop p closed =>
    have other : p.conn ≠ c := by
      rintro rfl
      exact up (downed.trace closed)
    simp [promised, pieces, share, other]
  | @skip p empty => simp [promised, pieces, share, empty]
  | @write p taken rest parts =>
    by_cases same : p.conn = c
    · have whole : p.message.bytes = taken ++ rest.bytes := parts.symm
      by_cases none : rest.bytes = []
      · simp [promised, Event.promise, pieces, Event.piece, share, same, none, whole]
      · simp [promised, Event.promise, pieces, Event.piece, share, same, none, whole]
    · by_cases none : rest.bytes = [] <;>
        simp [promised, Event.promise, pieces, Event.piece, share, same, none]
  | @append p =>
    by_cases same : p.conn = c <;>
      simp [promised, Event.promise, pieces, Event.piece, share, same]

theorem Sequential.step (sequential : w.Sequential) (alone : w.Alone) (downed : w.Downed)
    {action : Action impl.Answer} (step : Step settings impl w action w') : w'.Sequential := by
  have still (trace : w'.trace = w.trace)
      (stack : w'.stack.filterMap Frame.carries = w.stack.filterMap Frame.carries) :
      w'.Sequential := by
    intro c up
    rw [trace] at up ⊢
    rw [inFlight, stack]
    exact sequential c up
  cases step with
  | @loop frame rest frames input v stack advance =>
    obtain ⟨new, events, delivers⟩ := advance.delivers
    have light : rest.filterMap Frame.carries = [] := by
      refine List.filterMap_eq_nil_iff.mpr fun other member => alone.waiting other ?_
      rwa [stack, List.tail_cons]
    have direct : frame.hands = none := alone.direct frame (by simp [stack])
    have held : w.stack.filterMap Frame.carries = frame.carries.toList := by
      rw [stack, filterMap_carries_cons, light, List.append_nil]
    have next : (frames ++ rest).filterMap Frame.carries = new.toList := by
      rw [List.filterMap_append, light, ← delivers.next, direct]
      rfl
    intro c up
    have earlier : .down c ∉ w.trace := fun member =>
      up (show .down c ∈ v.trace from delivers.trace ▸ List.mem_append_left _ member)
    have before := sequential c earlier
    rw [inFlight_eq held] at before
    rw [inFlight_eq next]
    exact delivers.handles.sequential downed delivers.trace c earlier before
  | @other frame before after frames v others advance =>
    have posts : frame = .post .user := alone.others frame (by simp [others])
    subst posts
    cases advance with
    | yes tested | no tested => cases tested
    | post => exact still rfl rfl
  | dispatch empty => exact still rfl (by rw [empty]; rfl)
  | @start task batch empty phase =>
    have light := alone.tasks task (by simp [World.tasks, phase])
    have same : task.frame.carries = task.carries := by cases task <;> rfl
    exact still rfl (by rw [empty]; simp [same, light])
  | destroy _ stack => exact still rfl (by rw [stack]; rfl)
  | _ => exact still rfl rfl

/-- A connection that is down watches no writability, and no `sendInLoop` appends to it. -/
structure Stilled (w : World σ) : Prop where
  idle : ∀ c, w.state c = .kDisconnected → (w.heap c).isWriting = false
  resting : ∀ c id rest, .sendInLoopRest c id rest ∈ w.stack → w.state c ≠ .kDisconnected

theorem start_stilled (settings : Settings) (poller : σ) : (start settings poller).Stilled where
  idle c closed := by cases closed
  resting := by simp [start]

variable {mentions : σ → ChannelId → Prop}

/-- The frame that an action runs is the loop's, unless it posts a functor of the user. -/
theorem Alone.running (alone : w.Alone) {answer : Type} {action : Action answer} {frame : Frame}
    (runs : w.running action = some frame) :
    (∃ input, action = .loop input) ∧ w.stack.head? = some frame ∨ frame = .post .user := by
  cases action with
  | loop input => exact Or.inl ⟨⟨input, rfl⟩, runs⟩
  | other => exact Or.inr (alone.others frame (List.mem_of_getElem? runs))
  | _ => cases runs

theorem goDown_isWriting (lawful : impl.Lawful mentions) (down : w.goDown impl c = .ok w') :
    (w'.heap c).isWriting = false := by
  obtain ⟨_, _, operated, rfl⟩ := operate_ok.mp down
  have writing := operate_writing lawful operated c
  rwa [if_pos rfl] at writing

/-- Nothing leaves a connection that is down. -/
theorem Stilled.silent (stilled : w.Stilled) (alone : w.Alone) (orderly : w.Orderly)
    {answer : Type} {action : Action answer} (closed : w.state c = .kDisconnected)
    (outflow : Outflow w w' c (w.running action) events) :
    acceptedBytes events c = [] ∧ (w'.heap c).isWriting = false := by
  have idle := stilled.idle c closed
  have inStack {frame : Frame} (runs : w.running action = some frame)
      (other : frame ≠ .post .user) : frame ∈ w.stack := by
    rcases alone.running runs with ⟨_, head⟩ | same
    · exact List.mem_of_mem_head? head
    · exact absurd same other
  cases outflow with
  | same _ writing apart => exact ⟨(stream_silent apart).2, writing.trans idle⟩
  | down writing noted => exact ⟨by simp [noted, acceptedBytes, Event.taken], writing⟩
  | direct runs =>
    have known : w.state c ≠ .kDisconnected := orderly.knows _ (inStack runs (by simp))
    exact absurd closed known
  | append runs => exact absurd closed (stilled.resting _ _ _ (inStack runs (by simp)))
  | drain busy => cases busy.symm.trans idle

theorem Stilled.step (stilled : w.Stilled) (alone : w.Alone) (orderly : w.Orderly)
    (lawful : impl.Lawful mentions) {action : Action impl.Answer}
    (step : Step settings impl w action w')
    (outflow : ∀ c, Outflow w w' c (w.running action) events) : w'.Stilled where
  idle c closed := by
    by_cases before : w.state c = .kDisconnected
    · exact (stilled.silent alone orderly before (outflow c)).2
    · rcases step.state with ⟨same, _⟩ | ⟨frame, own, s, runs, stores, changed⟩
      · exact absurd (same ▸ closed) before
      · rw [changed] at closed
        split at closed
        · next equal =>
          subst equal closed
          rcases alone.running runs with ⟨⟨input, rfl⟩, head⟩ | rfl
          · obtain ⟨rest, v, frames, _, advance, rfl⟩ := step.advanced head
            have quiet : (v.heap c).isWriting = false := by
              cases stores <;> cases advance
              all_goals first
                | (cases ‹Frame.test _ = some _›)
                | exact goDown_isWriting lawful ‹_›
            exact quiet
          · cases stores
        · exact absurd closed before
  resting c id rest member := by
    rcases step.state with ⟨same, _⟩ | ⟨frame, own, s, runs, stores, changed⟩
    · rw [same]
      rcases step.remains_origin member with old | ⟨_, message, head⟩
      · exact stilled.resting c id rest old
      · exact orderly.knows _ (List.mem_of_mem_head? head)
    · rcases alone.running runs with ⟨_, top⟩ | rfl
      · rcases step.remains_origin member with old | ⟨_, message, head⟩
        · obtain ⟨below, shape⟩ := List.head?_eq_some_iff.mp top
          rw [shape] at old
          rcases List.mem_cons.mp old with rfl | waits
          · cases stores
          · have light := alone.waiting _ (by rw [shape]; exact waits)
            cases light
        · cases top.symm.trans head
          cases stores
      · cases stores

end World

end Muduo.Source
