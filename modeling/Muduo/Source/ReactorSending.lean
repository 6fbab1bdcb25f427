import Muduo.Source.ReactorTeardown
import Muduo.Source.SendingExecution
import Muduo.Support.Delivery

/-!
# The messages of a reactor

Between its acceptance by `send` and its delivery to the kernel or to
`output_buffer_` a message is on its way: in a functor, about to be queued, or in
a running `sendInLoop`. A step moves it on, hands a part of it over, or drops it on
a closed connection.
-/
namespace Muduo.Source
open Muduo.Support

/-- What is left of an accepted message on its way. -/
structure Carried where
  conn : ConnId
  id : SendId
  message : Message
  deriving DecidableEq, Repr

def Task.carries : Task → Option Carried
  | .sendInLoop c id message => some ⟨c, id, message⟩
  | _ => none

def Frame.carries : Frame → Option Carried
  | .sendInLoop c id message | .sendInLoopStart c id message | .sendInLoopRest c id message =>
    some ⟨c, id, message⟩
  | .post task => task.carries
  | _ => none

/-- What a frame puts into the queue. -/
def Frame.hands : Frame → Option Carried
  | .post task => task.carries
  | _ => none

/-- What an event hands over of a send: to the kernel, or to `output_buffer_`. -/
def Event.handed (key : ConnId × SendId) : Event → Option Bytes
  | .write c (some id) _ taken => if (c, id) = key then some taken else none
  | .append c id data => if (c, id) = key then some data else none
  | _ => none

/-- What an event hands over of the connection's sends. -/
def Event.piece (c : ConnId) : Event → Option Bytes
  | .write c' (some _) _ taken => if c' = c then some taken else none
  | .append c' _ data => if c' = c then some data else none
  | _ => none

/-- What the kernel takes from the connection. -/
def Event.taken (c : ConnId) : Event → Option Bytes
  | .write c' _ _ taken => if c' = c then some taken else none
  | _ => none

/-- The event is about the connection's output. -/
def Event.streams (c : ConnId) : Event → Bool
  | .write c' .. | .append c' .. => c' == c
  | _ => false

/-- The event is about no send. -/
def Event.silent : Event → Bool
  | .accepted .. | .write _ (some _) .. | .append .. => false
  | _ => true

def handedOver (trace : List Event) (key : ConnId × SendId) : Bytes :=
  (trace.filterMap (Event.handed key)).flatten

/-- What the connection's sends have handed over, in order. -/
def pieces (trace : List Event) (c : ConnId) : List Bytes := trace.filterMap (Event.piece c)

/-- What the kernel has accepted on the connection. -/
def acceptedBytes (trace : List Event) (c : ConnId) : Bytes :=
  (trace.filterMap (Event.taken c)).flatten

theorem handedOver_append (trace events : List Event) (key : ConnId × SendId) :
    handedOver (trace ++ events) key = handedOver trace key ++ handedOver events key := by
  simp [handedOver]

theorem pieces_append (trace events : List Event) (c : ConnId) :
    pieces (trace ++ events) c = pieces trace c ++ pieces events c :=
  List.filterMap_append ..

theorem acceptedBytes_append (trace events : List Event) (c : ConnId) :
    acceptedBytes (trace ++ events) c = acceptedBytes trace c ++ acceptedBytes events c := by
  simp [acceptedBytes]

theorem Event.handed_silent {e : Event} (silent : e.silent = true) (key : ConnId × SendId) :
    e.handed key = none := by
  cases e with
  | write _ sender => cases sender <;> first | rfl | cases silent
  | append => cases silent
  | _ => rfl

theorem handedOver_silent {events : List Event} (silent : ∀ e ∈ events, e.silent = true)
    (key : ConnId × SendId) : handedOver events key = [] := by
  have none : events.filterMap (Event.handed key) = [] := by
    refine List.filterMap_eq_nil_iff.mpr fun e member => ?_
    exact Event.handed_silent (silent e member) key
  rw [handedOver, none, List.flatten_nil]

theorem stream_silent {events : List Event} {c : ConnId}
    (silent : ∀ e ∈ events, e.streams c = false) :
    pieces events c = [] ∧ acceptedBytes events c = [] := by
  have apart : ∀ e ∈ events, e.piece c = none ∧ e.taken c = none := by
    intro e member
    have quiet := silent e member
    cases e with
    | write other sender =>
      have different : other ≠ c := by simpa [Event.streams] using quiet
      cases sender <;> simp [Event.piece, Event.taken, different]
    | append other =>
      have different : other ≠ c := by simpa [Event.streams] using quiet
      simp [Event.piece, Event.taken, different]
    | _ => exact ⟨rfl, rfl⟩
  have taken : events.filterMap (Event.taken c) = [] :=
    List.filterMap_eq_nil_iff.mpr fun e member => (apart e member).2
  refine ⟨List.filterMap_eq_nil_iff.mpr fun e member => (apart e member).1, ?_⟩
  rw [acceptedBytes, taken, List.flatten_nil]

/-- The write interest after an operation of the channel's own. -/
def ChannelOp.writes (op : ChannelOp) (writing : Bool) : Bool :=
  match op with
  | .update .enWrite => true
  | .update .disWrite | .update .disAll => false
  | .update .enRead | .update .disRead | .remove => writing

namespace World

variable {σ : Type} {settings : Settings} {impl : Polling σ} {w w' : World σ} {c : ConnId}

/-- All messages on their way. -/
def carried (w : World σ) : List Carried :=
  w.tasks.filterMap Task.carries ++ w.stack.filterMap Frame.carries ++
    w.others.filterMap Frame.carries

/-- What a step does with the message that it moves: before, after, and the events;
`next` is `nextSend` after it. -/
inductive Handles (w : World σ) (next : SendId) : Option Carried → Option Carried → List Event → Prop
  | idle {events : List Event} : (∀ e ∈ events, e.silent = true) → next = w.nextSend →
      Handles w next none none events
  | accept {c : ConnId} {message : Message} : w.state c = .kConnected → next = w.nextSend + 1 →
      Handles w next none (some ⟨c, w.nextSend, message⟩) [.accepted c w.nextSend message]
  | move {p : Carried} : next = w.nextSend → Handles w next (some p) (some p) []
  | drop {p : Carried} : w.state p.conn = .kDisconnected → next = w.nextSend →
      Handles w next (some p) none []
  | skip {p : Carried} : p.message.bytes = [] → next = w.nextSend →
      Handles w next (some p) none []
  | write {p : Carried} {taken : Bytes} {rest : Message} : taken ++ rest.bytes = p.message.bytes →
      next = w.nextSend →
      Handles w next (some p) (if rest.bytes = [] then none else some ⟨p.conn, p.id, rest⟩)
        [.write p.conn (some p.id) p.message.bytes taken]
  | append {p : Carried} : next = w.nextSend →
      Handles w next (some p) none [.append p.conn p.id p.message.bytes]

/-- What a step of a frame does about sending. -/
structure Delivers (w w' : World σ) (frame : Frame) (frames : List Frame) (new : Option Carried)
    (events : List Event) : Prop where
  trace : w'.trace = w.trace ++ events
  few : events.length ≤ 1
  next : frames.filterMap Frame.carries ++ frame.hands.toList = new.toList
  handles : Handles w w'.nextSend frame.carries new events
  shut : ∀ c, .shutdownWrite c ∈ events → frame = .shutdownInLoop c ∧ (w.heap c).isWriting = false

theorem drop_zero (message : Message) : message.drop 0 = message := rfl

theorem Delivers.idle {frame : Frame} {frames : List Frame} {events : List Event}
    (trace : w'.trace = w.trace ++ events) (few : events.length ≤ 1)
    (bare : frames.filterMap Frame.carries = []) (light : frame.carries = none)
    (nextSend : w'.nextSend = w.nextSend) (silent : ∀ e ∈ events, e.silent = true)
    (shut : ∀ c, .shutdownWrite c ∉ events) : Delivers w w' frame frames none events := by
  have hands : frame.hands = none := by cases frame <;> first | rfl | exact light
  refine ⟨trace, few, by rw [bare, hands]; rfl, by rw [light]; exact .idle silent nextSend,
    fun c member => absurd member (shut c)⟩

/-- A direct `::write` takes a part of the message, and the rest stays on its way. -/
theorem sendInLoopStart_delivers (w : World σ) (c : ConnId) (id : SendId) (message : Message)
    (answer : WriteAnswer) :
    ∃ new events, Delivers w (w.sendInLoopStart c id message answer).1
      (.sendInLoopStart c id message) (w.sendInLoopStart c id message answer).2 new events := by
  let n := (w.conns c).nWrote (w.heap c) answer
  let rest := message.drop n
  have next : (w.sendInLoopStart c id message answer).2.filterMap Frame.carries =
      (if rest.bytes = [] then none else some ⟨c, id, rest⟩ : Option Carried).toList := by
    have same : ((w.conns c).sendInLoopStart (w.heap c) message.bytes answer).rest = rest.bytes := rfl
    simp only [World.sendInLoopStart, same]
    split
    · rfl
    · split <;> rfl
  have parts : message.bytes.take n ++ rest.bytes = message.bytes := List.take_append_drop ..
  by_cases direct : (w.conns c).writesDirectly (w.heap c) = true
  · refine ⟨_, [.write c (some id) message.bytes (message.bytes.take n)], ?_, by simp,
      by rw [next]; exact List.append_nil _, .write parts rfl, by simp⟩
    simp only [World.sendInLoopStart, if_pos direct]
    rfl
  · have whole : n = 0 := by simp [n, TcpConnection.nWrote, direct]
    have same : rest = message := by
      show message.drop n = message
      rw [whole]
      exact drop_zero message
    rw [same] at next
    have trace : (w.sendInLoopStart c id message answer).1.trace = w.trace ++ [] := by
      simp only [World.sendInLoopStart, if_neg direct]
    by_cases empty : message.bytes = []
    · rw [if_pos empty] at next
      exact ⟨none, [], trace, by simp, by rw [next]; rfl, .skip empty rfl, by simp⟩
    · rw [if_neg empty] at next
      exact ⟨some ⟨c, id, message⟩, [], trace, by simp, by rw [next]; rfl, .move rfl, by simp⟩

theorem Advance.delivers {onLoop : Bool} {frame : Frame} {input : Input} {frames : List Frame}
    (advance : Advance settings impl onLoop w frame input w' frames) :
    ∃ new events, Delivers w w' frame frames new events := by
  have quiet (trace : w'.trace = w.trace) (bare : frames.filterMap Frame.carries = [])
      (light : frame.carries = none) (nextSend : w'.nextSend = w.nextSend) :
      ∃ new events, Delivers w w' frame frames new events :=
    ⟨_, [], .idle (by rw [trace, List.append_nil]) (by simp) bare light nextSend (by simp) (by simp)⟩
  cases advance with
  | @yes frame test tested same =>
    cases frame with
    | sendInLoop c id message =>
      cases tested
      exact ⟨none, [], (List.append_nil _).symm, by simp, rfl, .drop same rfl, by simp⟩
    | _ => cases tested <;> exact quiet rfl rfl rfl rfl
  | @no frame test frames tested different found =>
    cases frame with
    | sendInLoop c id message =>
      cases tested
      cases found
      exact ⟨_, [], (List.append_nil _).symm, by simp, rfl, .move rfl, by simp⟩
    | _ => cases tested <;> cases found <;> exact quiet rfl rfl rfl rfl
  | @call _ frame entered =>
    have enters := enter_enters entered
    refine quiet rfl ?_ rfl rfl
    cases frame with
    | post task => cases task <;> first | rfl | cases enters
    | _ => first | rfl | cases enters
  | @accept c message open_ =>
    refine ⟨some ⟨c, w.nextSend, message⟩, _, rfl, by simp, ?_, .accept open_ rfl, by simp⟩
    cases onLoop <;> rfl
  | shutdown | forceCloseStore =>
    refine quiet rfl ?_ rfl rfl
    cases onLoop <;> rfl
  | @post task =>
    cases task with
    | sendInLoop c id message =>
      exact ⟨_, [], (List.append_nil _).symm, by simp, rfl, .move rfl, by simp⟩
    | _ => exact quiet rfl rfl rfl rfl
  | @shutdownWrite c idle =>
    refine ⟨none, [.shutdownWrite c], rfl, by simp, rfl, .idle (by simp [Event.silent]) rfl, ?_⟩
    intro c' member
    cases List.mem_singleton.mp member
    exact ⟨rfl, idle⟩
  | @handleCloseStore c _ ran | @connectDestroyedStore c _ ran =>
    obtain ⟨_, _, _, rfl⟩ := operate_ok.mp ran
    exact ⟨none, [.down c], .idle rfl (by simp) rfl rfl rfl (by simp [Event.silent]) (by simp)⟩
  | @connectEstablishedStore c _ ran =>
    obtain ⟨_, _, _, rfl⟩ := operate_ok.mp ran
    exact ⟨none, [.up c], .idle rfl (by simp) rfl rfl rfl (by simp [Event.silent]) (by simp)⟩
  | watch _ ran | connectDestroyedRest ran =>
    obtain ⟨_, _, _, rfl⟩ := operate_ok.mp ran
    exact quiet rfl rfl rfl rfl
  | @closeHere c _ _ removed =>
    obtain ⟨_, rfl⟩ := removeConnectionInLoop_ok.mp removed
    exact ⟨none, [.closeCallback c],
      .idle rfl (by simp) rfl rfl rfl (by simp [Event.silent]) (by simp)⟩
  | @closeElsewhere c =>
    exact ⟨none, [.closeCallback c],
      .idle rfl (by simp) rfl rfl rfl (by simp [Event.silent]) (by simp)⟩
  | @dispatch c event => cases event <;> exact quiet rfl rfl rfl rfl
  | @sendInLoopStart c id message _ _ _ sent =>
    obtain ⟨answer, _, ran⟩ := sent
    obtain ⟨rfl, rfl⟩ := Prod.mk.inj ran
    exact sendInLoopStart_delivers w c id message answer
  | @sendInLoopRest c id rest _ ran =>
    obtain ⟨conn, _, ⟨_, rfl⟩ | ⟨_, operated⟩⟩ := sendInLoopRest_ok ran
    · exact ⟨none, [.append c id rest.bytes], rfl, by simp, rfl,
        .append rfl, by simp⟩
    · obtain ⟨_, _, _, rfl⟩ := operate_ok.mp operated
      exact ⟨none, [.append c id rest.bytes], rfl, by simp, rfl,
        .append rfl, by simp⟩
  | @handleRead c _ _ _ ran =>
    obtain ⟨n, conn, _, ⟨_, rfl, rfl⟩ | ⟨_, rfl, rfl⟩ | ⟨_, rfl, rfl⟩⟩ := handleRead_ok ran
    · exact ⟨none, [.messageCallback c],
        .idle rfl (by simp) rfl rfl rfl (by simp [Event.silent]) (by simp)⟩
    · exact quiet rfl rfl rfl rfl
    · exact quiet rfl rfl rfl rfl
  | @handleWrite c _ _ _ _ _ ran =>
    obtain ⟨start, _, ⟨_, rfl, rfl⟩ | ⟨_, rfl, w₁, operated, rfl⟩⟩ := handleWrite_ok ran
    · exact ⟨none, _, .idle rfl (by simp) rfl rfl rfl (by simp [Event.silent]) (by simp)⟩
    · obtain ⟨_, _, _, rfl⟩ := operate_ok.mp operated
      exact ⟨none, _, .idle rfl (by simp) rfl rfl rfl (by simp [Event.silent]) (by simp)⟩
  | _ => exact quiet rfl rfl rfl rfl

theorem Advance.queued {onLoop : Bool} {frame : Frame} {input : Input} {frames : List Frame}
    (advance : Advance settings impl onLoop w frame input w' frames) :
    ∃ queued, w'.pending = w.pending ++ queued ∧
      queued.filterMap Task.carries = frame.hands.toList := by
  cases frame with
  | post task =>
    cases advance with
    | yes tested | no tested => cases tested
    | post => exact ⟨[task], rfl, by cases task <;> rfl⟩
  | _ =>
    obtain ⟨queued, grown, origin⟩ := advance.pending
    refine ⟨queued, grown, List.filterMap_eq_nil_iff.mpr fun task member => ?_⟩
    rcases origin task member with same | ⟨_, _, rfl⟩ | ⟨_, _, rfl⟩
    · cases same
    · rfl
    · rfl

/-- The queue and the other threads after a step of a frame. -/
theorem Advance.carried_queued {onLoop : Bool} {frame : Frame} {input : Input}
    {frames : List Frame} (advance : Advance settings impl onLoop w frame input w' frames) :
    w'.tasks.filterMap Task.carries = w.tasks.filterMap Task.carries ++ frame.hands.toList ∧
      w'.others = w.others := by
  obtain ⟨queued, grown, hands⟩ := advance.queued
  refine ⟨?_, advance.control.others⟩
  simp only [World.tasks, advance.control.phase, grown, List.filterMap_append, hands,
    List.append_assoc]

/-- What a step does about sending: one message moves, the others stay. -/
structure Sends {answer : Type} (w : World σ) (action : Action answer) (w' : World σ)
    (old new : Option Carried) (events : List Event) : Prop where
  trace : w'.trace = w.trace ++ events
  few : events.length ≤ 1
  others : ∃ kept, w.carried.Perm (old.toList ++ kept) ∧ w'.carried.Perm (new.toList ++ kept)
  handles : Handles w w'.nextSend old new events
  shut : ∀ c, .shutdownWrite c ∈ events →
    w.running action = some (.shutdownInLoop c) ∧ (w.heap c).isWriting = false

theorem filterMap_carries_cons (frame : Frame) (rest : List Frame) :
    (frame :: rest).filterMap Frame.carries =
      frame.carries.toList ++ rest.filterMap Frame.carries := by
  cases carries : frame.carries <;> simp [carries]

/-- A step that neither moves a message nor notes an event. -/
theorem Sends.still {answer : Type} {action : Action answer} (trace : w'.trace = w.trace)
    (carried : w'.carried.Perm w.carried) (nextSend : w'.nextSend = w.nextSend) :
    Sends w action w' none none [] :=
  ⟨by rw [trace, List.append_nil], by simp, ⟨w.carried, .rfl, carried⟩, .idle (by simp) nextSend,
    by simp⟩

theorem Step.sending {action : Action impl.Answer} (step : Step settings impl w action w') :
    ∃ old new events, Sends w action w' old new events := by
  cases step with
  | @loop frame rest frames input v stack advance =>
    obtain ⟨new, events, delivers⟩ := advance.delivers
    obtain ⟨tasks, others⟩ := advance.carried_queued
    refine ⟨frame.carries, new, events, delivers.trace, delivers.few,
      ⟨w.tasks.filterMap Task.carries ++ rest.filterMap Frame.carries ++
        w.others.filterMap Frame.carries, ?_, ?_⟩, delivers.handles, fun c member => ?_⟩
    · rw [carried, stack, filterMap_carries_cons]
      exact List.perm_iff_count.mpr fun p => by simp only [List.count_append]; omega
    · have after : ({ v with stack := frames ++ rest } : World σ).carried =
          v.tasks.filterMap Task.carries ++ (frames ++ rest).filterMap Frame.carries ++
            v.others.filterMap Frame.carries := rfl
      rw [after, tasks, others, ← delivers.next, List.filterMap_append]
      exact List.perm_iff_count.mpr fun p => by simp only [List.count_append]; omega
    · obtain ⟨rfl, idle⟩ := delivers.shut c member
      exact ⟨by simp [running, stack], idle⟩
  | @other frame before after frames v others advance =>
    obtain ⟨new, events, delivers⟩ := advance.delivers
    obtain ⟨tasks, _⟩ := advance.carried_queued
    refine ⟨frame.carries, new, events, delivers.trace, delivers.few,
      ⟨w.tasks.filterMap Task.carries ++ w.stack.filterMap Frame.carries ++
        before.filterMap Frame.carries ++ after.filterMap Frame.carries, ?_, ?_⟩,
      delivers.handles, fun c member => ?_⟩
    · rw [carried, others, List.filterMap_append, filterMap_carries_cons]
      exact List.perm_iff_count.mpr fun p => by simp only [List.count_append]; omega
    · have there : ({ v with others := before ++ frames ++ after } : World σ).carried =
          v.tasks.filterMap Task.carries ++ v.stack.filterMap Frame.carries ++
            (before ++ frames ++ after).filterMap Frame.carries := rfl
      rw [there, tasks, advance.control.stack, ← delivers.next, List.filterMap_append,
        List.filterMap_append]
      exact List.perm_iff_count.mpr fun p => by simp only [List.count_append]; omega
    · obtain ⟨rfl, idle⟩ := delivers.shut c member
      exact ⟨by simp [running, others], idle⟩
  | dispatch empty phase | swap empty phase | again empty phase | poll empty phase =>
    refine ⟨none, none, [], .still rfl ?_ rfl⟩
    simp [carried, World.tasks, empty, phase, Frame.carries, List.filterMap_cons]
  | @start task batch empty phase =>
    refine ⟨none, none, [], .still rfl ?_ rfl⟩
    have same : task.frame.carries = task.carries := by cases task <;> rfl
    have before : w.tasks = task :: (batch ++ w.pending) := by simp [World.tasks, phase]
    have after : World.carried { w with phase := .functors batch, stack := [task.frame] } =
        (batch ++ w.pending).filterMap Task.carries ++ [task.frame].filterMap Frame.carries ++
          w.others.filterMap Frame.carries := rfl
    rw [after, carried, before, empty, filterMap_carries_cons, same]
    cases carries : task.carries with
    | none => simp [carries]
    | some p =>
      rw [List.filterMap_cons, carries]
      exact List.perm_iff_count.mpr fun q => by simp [List.count_append, List.count_cons]; omega
  | destroy _ shape =>
    refine ⟨none, none, [], .still rfl ?_ rfl⟩
    simp [carried, shape, Frame.carries, World.tasks, List.filterMap_cons]
  | @call _ frame entered =>
    refine ⟨none, none, [], .still rfl ?_ rfl⟩
    have enters := enter_enters entered
    have light : frame.carries = none := by
      cases frame with
      | post task => cases task <;> first | rfl | cases enters
      | _ => first | rfl | cases enters
    have after : ({ w with others := w.others ++ [frame] } : World σ).carried =
        w.tasks.filterMap Task.carries ++ w.stack.filterMap Frame.carries ++
          (w.others ++ [frame]).filterMap Frame.carries := rfl
    rw [after, carried, List.filterMap_append, filterMap_carries_cons, light]
    simp
  | connectElsewhere | removeElsewhere | destroyElsewhere =>
    refine ⟨none, none, [], .still rfl ?_ rfl⟩
    rw [carried, tasks_queue, List.filterMap_append]
    simp [carried, Task.carries, List.filterMap_cons, queue, World.tasks, construct]
  | destruct => exact ⟨none, none, [], .still rfl .rfl rfl⟩

theorem operate_writing {mentions : σ → ChannelId → Prop} (lawful : impl.Lawful mentions)
    {heap heap' : ChannelHeap} {s s' : σ} {id : ChannelId} {op : ChannelOp}
    (ran : impl.operate heap s id op = .ok (heap', s')) (c : ChannelId) :
    (heap' c).isWriting =
      if c = id then op.writes (heap c).isWriting else (heap c).isWriting := by
  rw [Channel.isWriting, lawful.operate_events ran c]
  split
  · next own =>
    subst own
    cases op with
    | remove => rw [ChannelOp.apply, ChannelHeap.events_leave]; rfl
    | update opt =>
      rw [ChannelOp.apply, ChannelHeap.events_change_same, Channel.newEvents_and_write]
      cases opt <;> rfl
  · next other =>
    cases op with
    | remove => rw [ChannelOp.apply, ChannelHeap.events_leave]; rfl
    | update opt => rw [ChannelOp.apply, ChannelHeap.change_other _ _ _ other]; rfl

/-- A frame drops the write interest of a connection at its end, or with the last byte. -/
theorem Advance.disables {mentions : σ → ChannelId → Prop} (lawful : impl.Lawful mentions)
    {onLoop : Bool} {frame : Frame} {input : Input} {frames : List Frame}
    (advance : Advance settings impl onLoop w frame input w' frames)
    (busy : (w.heap c).isWriting = true) (idle : (w'.heap c).isWriting = false) :
    .handleWriteState c ∈ frames ∨ .down c ∈ w'.trace := by
  have noted (event : Event) (called : frame.callbacks = [event]) : event ∈ w'.trace := by
    have listed : event ∈ w'.callbacks := by
      rw [advance.callbacks, called]
      simp
    exact (List.mem_filter.mp listed).1
  rcases advance.operated with ⟨heap, _⟩ | ⟨id, op, operates, ran⟩
  · rw [heap] at idle
    cases busy.symm.trans idle
  · have writing := operate_writing lawful ran c
    rw [idle] at writing
    split at writing
    · next own =>
      subst own
      rw [busy] at writing
      cases operates with
      | watch | connectEstablished | remove | enableWriting => cases writing
      | handleClose | connectDestroyed => exact Or.inr (noted _ rfl)
      | disableWriting =>
        cases advance with
        | yes tested | no tested => cases tested
        | handleWriteIdle unwatched => cases busy.symm.trans unwatched
        | handleWrite _ _ ran =>
          obtain ⟨start, _, ⟨_, rfl, _⟩ | ⟨_, rfl, _⟩⟩ := handleWrite_ok ran
          · cases busy.symm.trans idle
          · exact Or.inl (List.mem_singleton.mpr rfl)
    · cases busy.symm.trans writing.symm

/-- What a step of a frame does to the output of one connection. -/
inductive Outflow (w w' : World σ) (c : ConnId) (frame : Option Frame) (events : List Event) : Prop
  | same : (w'.conns c).outputBuffer = (w.conns c).outputBuffer →
      (w'.heap c).isWriting = (w.heap c).isWriting → (∀ e ∈ events, e.streams c = false) →
      Outflow w w' c frame events
  | down : (w'.heap c).isWriting = false → events = [.down c] → Outflow w w' c frame events
  | direct {id : SendId} {message : Message} {answer : WriteAnswer} :
      frame = some (.sendInLoopStart c id message) →
      (w.conns c).writesDirectly (w.heap c) = true →
      (w'.conns c).outputBuffer = (w.conns c).outputBuffer →
      (w'.heap c).isWriting = (w.heap c).isWriting →
      events = [.write c (some id) message.bytes (message.bytes.take answer.count)] →
      Outflow w w' c frame events
  | append {id : SendId} {rest : Message} {conn : TcpConnection} :
      frame = some (.sendInLoopRest c id rest) →
      rest.bytes ≠ [] → (w.conns c).sendInLoopRest rest.bytes = .ok conn →
      (w'.conns c).outputBuffer = conn.outputBuffer → (w'.heap c).isWriting = true →
      events = [.append c id rest.bytes] → Outflow w w' c frame events
  | drain {answer : WriteAnswer} {start : TcpConnection.WriteStart} :
      (w.heap c).isWriting = true → answer.Valid (w.conns c).outputBuffer.value →
      (w.conns c).handleWriteStart answer = .ok start →
      (w'.conns c).outputBuffer = start.conn.outputBuffer →
      (w'.heap c).isWriting = !start.drained →
      events = [.write c none (w.conns c).outputBuffer.value start.written] →
      Outflow w w' c frame events

theorem outputBuffer_setConn {conn : TcpConnection} {own : ConnId}
    (same : conn.outputBuffer = (w.conns own).outputBuffer) (c : ConnId) :
    ((w.setConn own conn).conns c).outputBuffer = (w.conns c).outputBuffer := by
  rw [conns_setConn, Function.update_apply]
  split
  · next equal => rw [same, equal]
  · rfl

theorem outputBuffer_setState {own : ConnId} (s : StateE) (c : ConnId) :
    ((w.setState own s).conns c).outputBuffer = (w.conns c).outputBuffer := by
  have same : ({ w.conns own with state := s } : TcpConnection).outputBuffer =
      (w.conns own).outputBuffer := rfl
  exact outputBuffer_setConn same c

theorem conns_setConn_other {conn : TcpConnection} {own : ConnId} (other : c ≠ own) :
    (w.setConn own conn).conns c = w.conns c :=
  Function.update_of_ne other ..

section Output

variable {mentions : σ → ChannelId → Prop} {frame : Frame} {frames : List Frame}
  {running : Option Frame} {events : List Event}

theorem Outflow.unnoted (trace : w'.trace = w.trace ++ events) (unnoted : w'.trace = w.trace)
    (buffer : (w'.conns c).outputBuffer = (w.conns c).outputBuffer)
    (writing : (w'.heap c).isWriting = (w.heap c).isWriting) : Outflow w w' c running events := by
  have none : events = [] := by rw [unnoted] at trace; simpa using trace.symm
  exact .same buffer writing (by simp [none])

theorem Outflow.noted (trace : w'.trace = w.trace ++ events) (event : Event)
    (noted : w'.trace = w.trace ++ [event]) (apart : event.streams c = false)
    (buffer : (w'.conns c).outputBuffer = (w.conns c).outputBuffer)
    (writing : (w'.heap c).isWriting = (w.heap c).isWriting) : Outflow w w' c running events := by
  have one : events = [event] := List.append_cancel_left (trace.symm.trans noted)
  exact .same buffer writing (by simpa [one] using apart)

/-- Output of another connection. -/
theorem Outflow.other {own : ConnId} {conn : TcpConnection} {interest : Bool} (different : c ≠ own)
    (trace : w'.trace = w.trace ++ events) (event : Event) (noted : w'.trace = w.trace ++ [event])
    (apart : event.streams c = decide (own = c)) (conns : w'.conns = (w.setConn own conn).conns)
    (writing : (w'.heap c).isWriting = if c = own then interest else (w.heap c).isWriting) :
    Outflow w w' c running events := by
  rw [if_neg different] at writing
  refine .noted trace event noted (by rw [apart, decide_eq_false different.symm]) ?_ writing
  rw [conns, conns_setConn_other different]

/-- An operation that keeps its own channel's write interest keeps every channel's. -/
theorem operate_isWriting (lawful : impl.Lawful mentions) {id : ChannelId} {op : ChannelOp}
    (keeps : ∀ writing, op.writes writing = writing) (operated : w.operate impl id op = .ok w')
    (c : ChannelId) : (w'.heap c).isWriting = (w.heap c).isWriting := by
  obtain ⟨_, _, ran, rfl⟩ := operate_ok.mp operated
  rw [operate_writing lawful ran c, keeps]
  split <;> rfl

theorem operate_conns {id : ChannelId} {op : ChannelOp}
    (operated : w.operate impl id op = .ok w') : w'.conns = w.conns := by
  obtain ⟨_, _, _, rfl⟩ := operate_ok.mp operated
  rfl

/-- The stores of `kDisconnected` drop the write interest of their own connection. -/
theorem goDown_outflow (lawful : impl.Lawful mentions) {own : ConnId}
    (down : w.goDown impl own = .ok w') (trace : w'.trace = w.trace ++ events) :
    Outflow w w' c running events := by
  have noted : w'.trace = w.trace ++ [.down own] := operate_trace down
  obtain ⟨_, _, operated, rfl⟩ := operate_ok.mp down
  have writing := operate_writing lawful operated c
  by_cases same : c = own
  · subst same
    rw [if_pos rfl] at writing
    exact .down writing (List.append_cancel_left (trace.symm.trans noted))
  · rw [if_neg same] at writing
    have conn : (w.setState own .kDisconnected).conns c = w.conns c := conns_setConn_other same
    exact .noted trace _ noted rfl (congrArg _ conn) writing

theorem Advance.outflow (lawful : impl.Lawful mentions) {onLoop : Bool} {input : Input}
    (advance : Advance settings impl onLoop w frame input w' frames)
    (remains : ∀ c id rest, frame = .sendInLoopRest c id rest → rest.bytes ≠ [])
    (trace : w'.trace = w.trace ++ events) (c : ConnId) :
    Outflow w w' c (some frame) events := by
  cases advance with
  | adjust _ same => exact .unnoted trace rfl (outputBuffer_setConn same c) rfl
  | watch _ ran | connectDestroyedRest ran =>
    have buffer := congrArg TcpConnection.outputBuffer (congrFun (operate_conns ran) c)
    exact .unnoted trace (operate_trace ran) buffer (operate_isWriting lawful (fun _ => rfl) ran c)
  | accept => exact .noted trace _ rfl rfl rfl rfl
  | shutdown | forceCloseStore => exact .unnoted trace rfl (outputBuffer_setState _ c) rfl
  | shutdownWrite => exact .noted trace _ rfl rfl rfl rfl
  | handleCloseStore down | connectDestroyedStore down => exact goDown_outflow lawful down trace
  | @connectEstablishedStore own _ ran =>
    have noted : w'.trace = w.trace ++ [.up own] := operate_trace ran
    have buffer := congrArg TcpConnection.outputBuffer (congrFun (operate_conns ran) c)
    exact .noted trace _ noted rfl (buffer.trans (outputBuffer_setState _ c))
      (operate_isWriting lawful (fun _ => rfl) ran c)
  | @closeHere own _ _ removed =>
    obtain ⟨_, rfl⟩ := removeConnectionInLoop_ok.mp removed
    exact .noted trace (.closeCallback own) rfl rfl rfl rfl
  | @closeElsewhere own => exact .noted trace (.closeCallback own) rfl rfl rfl rfl
  | @sendInLoopStart own id message _ _ _ sent =>
    obtain ⟨answer, _, ran⟩ := sent
    obtain ⟨rfl, _⟩ := Prod.mk.inj ran
    by_cases direct : (w.conns own).writesDirectly (w.heap own) = true
    · have count : (w.conns own).nWrote (w.heap own) answer = answer.count := if_pos direct
      have noted : (w.sendInLoopStart own id message answer).1.trace =
          w.trace ++ [.write own (some id) message.bytes (message.bytes.take answer.count)] := by
        simp only [World.sendInLoopStart, if_pos direct, TcpConnection.sendInLoopStart, count]
      by_cases same : c = own
      · subst same
        exact .direct rfl direct rfl rfl (List.append_cancel_left (trace.symm.trans noted))
      · exact .noted trace _ noted (by simpa [Event.streams] using Ne.symm same) rfl rfl
    · refine .unnoted trace ?_ rfl rfl
      simp only [if_neg direct, List.append_nil]
  | @sendInLoopRest own id rest _ ran =>
    obtain ⟨conn, appended, outcome⟩ := sendInLoopRest_ok ran
    have noted : w'.trace = w.trace ++ [.append own id rest.bytes] := by
      rcases outcome with ⟨_, rfl⟩ | ⟨_, operated⟩
      · rfl
      · exact operate_trace operated
    have conns : w'.conns = (w.setConn own conn).conns := by
      rcases outcome with ⟨_, rfl⟩ | ⟨_, operated⟩
      · rfl
      · have same := operate_conns operated
        exact same
    have writing : (w'.heap c).isWriting = if c = own then true else (w.heap c).isWriting := by
      rcases outcome with ⟨busy, rfl⟩ | ⟨_, operated⟩
      · split
        · next same => exact same ▸ busy
        · rfl
      · obtain ⟨_, _, updated, rfl⟩ := operate_ok.mp operated
        exact operate_writing lawful updated c
    by_cases same : c = own
    · subst same
      rw [if_pos rfl] at writing
      refine .append rfl (remains c id rest rfl) appended ?_ writing
        (List.append_cancel_left (trace.symm.trans noted))
      rw [conns, conns_setConn, Function.update_self]
    · exact .other same trace _ noted rfl conns writing
  | @handleRead own answer _ _ ran =>
    obtain ⟨n, conn, read, outcome⟩ := handleRead_ok ran
    have same : conn.outputBuffer = (w.conns own).outputBuffer := by
      unfold TcpConnection.handleRead at read
      split at read <;> cases read
      rfl
    rcases outcome with ⟨_, rfl, _⟩ | ⟨_, rfl, _⟩ | ⟨_, rfl, _⟩
    · exact .noted trace (.messageCallback own) rfl rfl (outputBuffer_setConn same c) rfl
    · exact .unnoted trace rfl (outputBuffer_setConn same c) rfl
    · exact .unnoted trace rfl (outputBuffer_setConn same c) rfl
  | @handleWrite own answer _ _ busy valid ran =>
    obtain ⟨start, started, outcome⟩ := handleWrite_ok ran
    have noted : w'.trace = w.trace ++
        [.write own none (w.conns own).outputBuffer.value start.written] := by
      rcases outcome with ⟨_, rfl, _⟩ | ⟨_, _, w₁, operated, rfl⟩
      · rfl
      · exact operate_trace operated
    have conns : w'.conns = (w.setConn own start.conn).conns := by
      rcases outcome with ⟨_, rfl, _⟩ | ⟨_, _, w₁, operated, rfl⟩
      · rfl
      · have same := operate_conns operated
        exact same
    have writing : (w'.heap c).isWriting =
        if c = own then !start.drained else (w.heap c).isWriting := by
      rcases outcome with ⟨kept, rfl, _⟩ | ⟨drained, _, w₁, operated, rfl⟩
      · split
        · next same => rw [kept, same]; exact busy
        · rfl
      · obtain ⟨_, _, updated, rfl⟩ := operate_ok.mp operated
        rw [drained]
        exact operate_writing lawful updated c
    by_cases same : c = own
    · subst same
      rw [if_pos rfl] at writing
      refine .drain busy valid started ?_ writing
        (List.append_cancel_left (trace.symm.trans noted))
      rw [conns, conns_setConn, Function.update_self]
    · exact .other same trace _ noted rfl conns writing
  | _ => exact .unnoted trace rfl rfl rfl

/-- Only the buffers and the channels matter. -/
theorem Outflow.congr {v : World σ} (flows : Outflow w v c running events)
    (conns : w'.conns = v.conns) (heap : w'.heap = v.heap) : Outflow w w' c running events := by
  cases flows with
  | same buffer writing apart => exact .same (conns ▸ buffer) (heap ▸ writing) apart
  | down idle noted => exact .down (heap ▸ idle) noted
  | direct own direct buffer writing noted =>
    exact .direct own direct (conns ▸ buffer) (heap ▸ writing) noted
  | append own nonempty ran buffer writing noted =>
    exact .append own nonempty ran (conns ▸ buffer) (heap ▸ writing) noted
  | drain busy valid started buffer writing noted =>
    exact .drain busy valid started (conns ▸ buffer) (heap ▸ writing) noted

theorem Step.outflow (lawful : impl.Lawful mentions) (orderly : w.Orderly)
    {action : Action impl.Answer} (step : Step settings impl w action w')
    (remains : ∀ c id rest, .sendInLoopRest c id rest ∈ w.stack → rest.bytes ≠ [])
    (trace : w'.trace = w.trace ++ events) (c : ConnId) :
    Outflow w w' c (w.running action) events := by
  cases step with
  | @loop frame rest frames input v stack advance =>
    have runs : w.running (.loop input : Action impl.Answer) = some frame := by
      simp [World.running, stack]
    have flows : Outflow w v c (some frame) events :=
      advance.outflow lawful (fun c id rest own => remains c id rest (by simp [stack, own])) trace c
    rw [runs]
    exact flows.congr rfl rfl
  | @other frame before after frames v others advance =>
    have runs : w.running (.other before.length : Action impl.Answer) = some frame := by
      simp [World.running, others]
    have calling := orderly.calling frame (by simp [others])
    have flows : Outflow w v c (some frame) events := by
      refine advance.outflow lawful (fun c id rest own => ?_) trace c
      rw [own] at calling
      cases calling
    rw [runs]
    exact flows.congr rfl rfl
  | poll _ _ _ polled =>
    refine .unnoted trace rfl rfl ?_
    rw [Channel.isWriting, lawful.poll_events polled c]
    rfl
  | _ => exact .unnoted trace rfl rfl rfl

end Output

end World

end Muduo.Source
