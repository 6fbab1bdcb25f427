import Muduo.Support.Precedence
import Muduo.Source.ReactorDelivery

/-!
# The order of the messages of a reactor

Line up the messages by what has been handed over, then by the frames of the loop
thread, innermost first, then by the functors in their order. A step of the loop
thread hands over from the front of the waiting ones, the start of a functor changes
nothing, and another thread joins at the end. Only a `send` on the loop thread itself
puts a message in front of those that wait.
-/
namespace Muduo.Source
open Muduo.Support

/-- The send that an event hands a part over of. -/
def Event.send : Event → Option SendId
  | .write _ sender _ _ => sender
  | .append _ id _ => some id
  | _ => none

namespace World

variable {σ : Type} {settings : Settings} {impl : Polling σ} {w w' : World σ} {c : ConnId}
  {old new : Option Carried} {events : List Event}

/-- The messages that a loop still has to hand over, next one first. -/
def waiting (w : World σ) : List SendId :=
  (w.stack.filterMap Frame.carries ++ w.tasks.filterMap Task.carries).map Carried.id

/-- All parts that were handed over or wait, in their order. -/
def line (w : World σ) : List SendId := w.trace.filterMap Event.send ++ w.waiting

/-- Messages that other threads have yet to queue. -/
def posting (w : World σ) : List SendId := (w.others.filterMap Frame.carries).map Carried.id

theorem mem_carried_ids {id : SendId} :
    id ∈ w.carried.map Carried.id ↔ id ∈ w.waiting ∨ id ∈ w.posting := by
  simp only [carried, waiting, posting, List.map_append, List.mem_append]
  tauto

theorem Event.send_silent {e : Event} (silent : e.silent = true) : e.send = none := by
  cases e with
  | write _ sender => cases sender <;> first | rfl | cases silent
  | append => cases silent
  | _ => rfl

/-- The loop thread's next step accepts a message. -/
def accepting (w : World σ) : Bool :=
  match w.stack with
  | .send c _ :: _ => decide (w.state c = .kConnected)
  | _ => false

/-- On the loop thread nothing posts a message. -/
def Direct (w : World σ) : Prop := ∀ frame ∈ w.stack, frame.hands = none

theorem Follows.hands {frame : Frame} {frames : List Frame} (follows : Follows true frame frames) :
    ∀ other ∈ frames, other.hands = none := by
  intro other member
  cases follows.leads member with
  | call enters =>
    cases other with
    | post task => cases task <;> first | rfl | cases enters
    | _ => rfl
  | sendLater onLoop | shutdownLater onLoop | forceLater onLoop => cases onLoop
  | _ => rfl

theorem Direct.step (direct : w.Direct) {action : Action impl.Answer}
    (step : Step settings impl w action w') : w'.Direct := by
  intro frame member
  cases step.origin frame member with
  | kept old => exact direct frame old
  | advanced _ advance _ _ new => exact advance.follows.hands frame new
  | @started task => cases task <;> rfl
  | dispatched | resumed | destroyed => rfl

/-- What a step hands over, and what stays of the message that it moves. -/
def moved (new : Option Carried) (events : List Event) : List SendId :=
  events.filterMap Event.send ++ new.toList.map Carried.id

/-- A step that moves a message hands over of that message only. -/
theorem Handles.moved_old {next : SendId} {p : Carried}
    (handles : Handles w next (some p) new events) : ∀ id ∈ moved new events, id = p.id := by
  cases handles with
  | move | drop | skip | append => simp [moved, Event.send]
  | write => split <;> simp [moved, Event.send]

/-- Otherwise it hands over nothing, and can only accept the next one. -/
theorem Handles.moved_new {next : SendId} (handles : Handles w next none new events) :
    events.filterMap Event.send = [] ∧ (new.toList.map Carried.id = [] ∨
      new.toList.map Carried.id = [w.nextSend] ∧ next = w.nextSend + 1) := by
  cases handles with
  | idle silent =>
    refine ⟨List.filterMap_eq_nil_iff.mpr fun e member => ?_, Or.inl rfl⟩
    exact Event.send_silent (silent e member)
  | accept _ grown => exact ⟨rfl, Or.inr ⟨rfl, grown⟩⟩

/-- Only `send` on an established connection gives out a number. -/
theorem Advance.accepting {onLoop : Bool} {frame : Frame} {rest : List Frame} {input : Input}
    {frames : List Frame} (advance : Advance settings impl onLoop w frame input w' frames)
    (stack : w.stack = frame :: rest) (grown : w'.nextSend ≠ w.nextSend) :
    w.accepting = true := by
  cases advance with
  | accept open_ => simp [World.accepting, stack, open_]
  | handleCloseStore ran | connectDestroyedStore ran | connectEstablishedStore ran | watch _ ran
  | connectDestroyedRest ran =>
    obtain ⟨_, _, _, rfl⟩ := operate_ok.mp ran
    exact absurd rfl grown
  | closeHere _ removed =>
    obtain ⟨_, rfl⟩ := removeConnectionInLoop_ok.mp removed
    exact absurd rfl grown
  | sendInLoopStart sent =>
    obtain ⟨answer, _, ran⟩ := sent
    cases ran
    exact absurd rfl grown
  | sendInLoopRest ran =>
    obtain ⟨conn, _, ⟨_, rfl⟩ | ⟨_, operated⟩⟩ := sendInLoopRest_ok ran
    · exact absurd rfl grown
    · obtain ⟨_, _, _, rfl⟩ := operate_ok.mp operated
      exact absurd rfl grown
  | handleRead ran =>
    obtain ⟨n, conn, _, ⟨_, rfl, _⟩ | ⟨_, rfl, _⟩ | ⟨_, rfl, _⟩⟩ := handleRead_ok ran <;>
      exact absurd rfl grown
  | handleWrite _ _ ran =>
    obtain ⟨start, _, ⟨_, rfl, _⟩ | ⟨_, _, w₁, operated, rfl⟩⟩ := handleWrite_ok ran
    · exact absurd rfl grown
    · obtain ⟨_, _, _, rfl⟩ := operate_ok.mp operated
      exact absurd rfl grown
  | _ => exact absurd rfl grown

/-- What a step does to the line. -/
inductive Shifts {answer : Type} (w : World σ) (action : Action answer) (w' : World σ) : Prop
  | hand {part left after : List SendId} (x : SendId) :
      w.line = w.trace.filterMap Event.send ++ part ++ after →
      w'.line = w.trace.filterMap Event.send ++ left ++ after →
      (∀ id ∈ left, id = x ∧ id ∈ part) → Shifts w action w'
  | accept {input : Input} : action = .loop input → w.accepting = true →
      w'.nextSend = w.nextSend + 1 →
      w'.line = w.trace.filterMap Event.send ++ [w.nextSend] ++ w.waiting → Shifts w action w'
  | queue {joined : List SendId} (x : SendId) : w'.line = w.line ++ joined →
      (∀ id ∈ joined, id = x ∧ id ∈ w.posting) → Shifts w action w'

/-- A step of the loop thread keeps the waiting messages below and behind its frame. -/
theorem Advance.shifts {frame : Frame} {rest frames : List Frame} {input : Input} {v : World σ}
    (advance : Advance settings impl true w frame input v frames) (stack : w.stack = frame :: rest)
    (direct : frame.hands = none) :
    Shifts w (.loop input : Action impl.Answer) { v with stack := frames ++ rest } := by
  obtain ⟨new, events, delivers⟩ := advance.delivers
  obtain ⟨tasks, _⟩ := advance.carried_queued
  let after := (rest.filterMap Frame.carries ++ w.tasks.filterMap Task.carries).map Carried.id
  have next : frames.filterMap Frame.carries = new.toList := by
    simpa [direct] using delivers.next
  have before : w.line =
      w.trace.filterMap Event.send ++ frame.carries.toList.map Carried.id ++ after := by
    simp [line, waiting, stack, filterMap_carries_cons, after]
  have later : World.line { v with stack := frames ++ rest } =
      w.trace.filterMap Event.send ++ moved new events ++ after := by
    have shape : World.line { v with stack := frames ++ rest } = v.trace.filterMap Event.send ++
        ((frames ++ rest).filterMap Frame.carries ++ v.tasks.filterMap Task.carries).map
          Carried.id := rfl
    rw [shape, delivers.trace, tasks, direct]
    simp [next, moved, after]
  have handles := delivers.handles
  cases carries : frame.carries with
  | some p =>
    rw [carries] at handles before
    refine .hand p.id before later fun id member => ?_
    have same := handles.moved_old id member
    exact ⟨same, by simp [same]⟩
  | none =>
    rw [carries] at handles before
    obtain ⟨unsent, none | ⟨one, grown⟩⟩ := handles.moved_new
    · exact .hand 0 before later (by simp [moved, unsent, none])
    · have accepting := advance.accepting stack (grown ▸ Nat.succ_ne_self _)
      refine .accept rfl accepting grown (later.trans ?_)
      have waits : w.waiting = after := by
        simp [waiting, stack, carries, after]
      rw [moved, unsent, one, waits, List.nil_append]

theorem Shifts.still {answer : Type} {action : Action answer} (same : w'.line = w.line) :
    Shifts w action w' :=
  .queue 0 (by rw [same, List.append_nil]) (by simp)

theorem line_queue (task : Task) :
    (w.queue task).line = w.line ++ task.carries.toList.map Carried.id := by
  have shape : (w.queue task).line = w.trace.filterMap Event.send ++
      (w.stack.filterMap Frame.carries ++ (w.queue task).tasks.filterMap Task.carries).map
        Carried.id := rfl
  rw [shape, tasks_queue]
  cases carries : task.carries <;> simp [line, waiting, carries]

/-- Another thread hands over nothing itself. -/
theorem Advance.unsent {frame : Frame} {frames : List Frame} {v : World σ}
    (advance : Advance settings impl false w frame .none v frames)
    (calling : frame.foreign = true) :
    v.trace.filterMap Event.send = w.trace.filterMap Event.send := by
  obtain ⟨new, events, delivers⟩ := advance.delivers
  cases frame with
  | post task =>
    cases advance with
    | yes tested | no tested => cases tested
    | post => rfl
  | send | shutdown | forceClose | forceCloseSecond | forceCloseStore =>
    have unsent := delivers.handles.moved_new.1
    rw [delivers.trace, List.filterMap_append, unsent, List.append_nil]
  | _ => cases calling

theorem Step.shifts {action : Action impl.Answer} (step : Step settings impl w action w')
    (orderly : w.Orderly) (direct : w.Direct) : Shifts w action w' := by
  cases step with
  | @loop frame _ _ _ _ stack advance =>
    exact advance.shifts stack (direct frame (by simp [stack]))
  | @other frame before after frames v others advance =>
    have calling := orderly.calling frame (by simp [others])
    obtain ⟨tasks, _⟩ := advance.carried_queued
    have shape : World.line { v with others := before ++ frames ++ after } =
        v.trace.filterMap Event.send ++
          (v.stack.filterMap Frame.carries ++ v.tasks.filterMap Task.carries).map Carried.id := rfl
    have joined : World.line { v with others := before ++ frames ++ after } =
        w.line ++ frame.hands.toList.map Carried.id := by
      rw [shape, advance.unsent calling, advance.control.stack, tasks]
      simp [line, waiting]
    cases hands : frame.hands with
    | none => exact .queue 0 joined (by simp [hands])
    | some p =>
      have carries : frame.carries = some p := by
        cases frame <;> first | exact hands | cases hands
      have posted : p.id ∈ w.posting := by simp [World.posting, others, carries]
      exact .queue p.id joined (by simp [hands, posted])
  | dispatch empty phase | swap empty phase | again empty phase | poll empty phase =>
    refine .still ?_
    simp [line, waiting, World.tasks, empty, phase, Frame.carries, List.filterMap_cons]
  | @start task batch empty phase =>
    have same : task.frame.carries = task.carries := by cases task <;> rfl
    have tasks : w.tasks = task :: (batch ++ w.pending) := by simp [World.tasks, phase]
    have shape : World.line { w with phase := .functors batch, stack := [task.frame] } =
        w.trace.filterMap Event.send ++ ([task.frame].filterMap Frame.carries ++
          (batch ++ w.pending).filterMap Task.carries).map Carried.id := rfl
    refine .still (shape.trans ?_)
    rw [line, waiting, tasks, empty, List.filterMap_cons, List.filterMap_cons, same]
    cases task.carries <;> simp
  | destroy _ stack =>
    refine .still ?_
    simp [line, waiting, stack, World.tasks, Frame.carries, List.filterMap_cons]
  | call | destruct => exact .still rfl
  | connectElsewhere | removeElsewhere | destroyElsewhere =>
    exact .still ((line_queue _).trans (List.append_nil _))

/-- Another thread posts what it posted before, or what it has just accepted. -/
theorem Step.posting_origin {action : Action impl.Answer} (step : Step settings impl w action w')
    {id : SendId} (member : id ∈ w'.posting) : id ∈ w.posting ∨ id = w.nextSend := by
  obtain ⟨p, listed, rfl⟩ := List.mem_map.mp member
  obtain ⟨frame, present, carries⟩ := List.mem_filterMap.mp listed
  have mem_posting {frame : Frame} {p : Carried} (old : frame ∈ w.others)
      (carries : frame.carries = some p) : p.id ∈ w.posting :=
    List.mem_map.mpr ⟨p, List.mem_filterMap.mpr ⟨frame, old, carries⟩, rfl⟩
  rcases step.others_origin present with old | enters | ⟨running, v, frames, old, advance, _, new⟩
  · exact Or.inl (mem_posting old carries)
  · have light : frame.carries = none := by
      cases frame with
      | post task => cases task <;> first | rfl | cases enters
      | _ => first | rfl | cases enters
    cases carries.symm.trans light
  · obtain ⟨new', events, delivers⟩ := advance.delivers
    have own : p ∈ new'.toList := by
      rw [← delivers.next]
      exact List.mem_append_left _ (List.mem_filterMap.mpr ⟨frame, new, carries⟩)
    have handles := delivers.handles
    cases before : running.carries with
    | some q =>
      rw [before] at handles
      have same := handles.moved_old p.id (List.mem_append_right _ (List.mem_map_of_mem own))
      exact Or.inl (same ▸ mem_posting old before)
    | none =>
      rw [before] at handles
      have own := List.mem_map_of_mem (f := Carried.id) own
      obtain ⟨_, none | ⟨one, _⟩⟩ := handles.moved_new
      · simp [none] at own
      · exact Or.inr (by simpa [one] using own)

/-- What all runs keep about the order of the messages. -/
structure Lined (w : World σ) : Prop where
  delivering : w.Delivering
  direct : w.Direct
  numbered : ∀ id ∈ w.line, id < w.nextSend

theorem start_lined (settings : Settings) (poller : σ) : (start settings poller).Lined where
  delivering := start_delivering settings poller
  direct := by simp [start, Direct]
  numbered := by simp [start, line, waiting, World.tasks]

theorem Step.nextSend_le {action : Action impl.Answer} (step : Step settings impl w action w') :
    w.nextSend ≤ w'.nextSend := by
  obtain ⟨old, new, events, sends⟩ := step.sending
  exact sends.handles.next_le

theorem Lined.step (lined : w.Lined) {mentions : σ → ChannelId → Prop}
    (lawful : impl.Lawful mentions) {action : Action impl.Answer}
    (step : Step settings impl w action w') : w'.Lined := by
  have grown := step.nextSend_le
  refine ⟨lined.delivering.step lawful step, lined.direct.step step, fun id member => ?_⟩
  have listed (member : id ∈ w.line) : id < w'.nextSend :=
    lt_of_lt_of_le (lined.numbered id member) grown
  cases step.shifts lined.delivering.orderly lined.direct with
  | hand x before later from_ =>
    rw [later, List.mem_append, List.mem_append] at member
    refine listed ?_
    rw [before, List.mem_append, List.mem_append]
    exact member.imp_left (Or.imp_right fun left => (from_ id left).2)
  | accept _ _ next later =>
    rw [later, List.mem_append, List.mem_append, List.mem_singleton] at member
    rcases member with (handed | rfl) | waits
    · exact listed (List.mem_append_left _ handed)
    · exact next ▸ Nat.lt_succ_self _
    · exact listed (List.mem_append_right _ waits)
  | queue x later from_ =>
    rw [later, List.mem_append] at member
    rcases member with old | joined
    · exact listed old
    · obtain ⟨p, carried, rfl⟩ := List.mem_map.mp
        (mem_carried_ids.mpr (Or.inr (from_ id joined).2))
      exact lt_of_lt_of_le (lined.delivering.numbered.carried_lt carried) grown

end World

end Muduo.Source
