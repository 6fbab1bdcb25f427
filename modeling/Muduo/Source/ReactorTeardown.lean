import Muduo.Source.ReactorClosing

/-!
# Who destroys a connection

`connectDestroyed` runs once on a connection: the server's table holds it, then a
functor, then the call itself. It starts outside of every callback but those of
the functor that destroys the server, so no half-done `sendInLoop` stands below it.
-/
namespace Muduo.Source
open Muduo.Support

def Frame.destroys : Frame → Option ConnId
  | .connectDestroyed c | .connectDestroyedStore c | .connectDestroyedRest c => some c
  | _ => none

/-- The frame has more of `connectDestroyed` to run after its next step. -/
def Frame.destroysOn : Frame → Option ConnId
  | .connectDestroyed c | .connectDestroyedStore c => some c
  | _ => none

def Frame.establishes : Frame → Option ConnId
  | .connectEstablished c | .connectEstablishedStore c => some c
  | _ => none

/-- `sendInLoop` after its test of `state_`. -/
def Frame.sends : Frame → Option ConnId
  | .sendInLoopStart c _ _ | .sendInLoopRest c _ _ => some c
  | _ => none

/-- Functors that calls of the user queue. -/
def Task.ofCall : Task → Bool
  | .sendInLoop .. | .shutdownInLoop _ | .forceClose _ | .user => true
  | .writeComplete _ | .connectEstablished _ | .connectDestroyed _ => false

/-- What a frame posts comes from a call. -/
def Frame.postsCalls : Frame → Bool
  | .post task => task.ofCall
  | _ => true

namespace World

variable {σ : Type} {settings : Settings} {impl : Polling σ} {w w' : World σ} {c : ConnId}

theorem postsCalls_of_enters {frame : Frame} (enters : frame.enters = true) :
    frame.postsCalls = true := by
  cases frame with
  | post task => cases task <;> first | rfl | cases enters
  | _ => rfl

theorem Follows.postsCalls {onLoop : Bool} {frame : Frame} {frames : List Frame}
    (follows : Follows onLoop frame frames) : ∀ other ∈ frames, other.postsCalls = true := by
  intro other member
  cases follows.leads member with
  | call enters => exact postsCalls_of_enters enters
  | _ => rfl

/-- A frame hands its part of `connectDestroyed` to the frames that follow. -/
theorem Follows.destroys {onLoop : Bool} {frame : Frame} {frames : List Frame}
    (follows : Follows onLoop frame frames) :
    frames.filterMap Frame.destroys = frame.destroysOn.toList := by
  cases follows with
  | yes tested => cases frame <;> cases tested <;> rfl
  | no tested none => cases frame <;> cases tested <;> cases none <;> rfl
  | @call frame enters => cases frame <;> first | rfl | cases enters
  | stop ends => cases frame <;> first | rfl | cases ends
  | send | shutdown | forceClose => cases onLoop <;> rfl
  | @dispatch c event callbacks => cases event <;> rfl
  | _ => rfl

theorem Follows.sends {onLoop : Bool} {frame : Frame} {frames : List Frame}
    (follows : Follows onLoop frame frames) :
    ∀ other ∈ frames, other.sends = some c →
      frame.sends = some c ∨ ∃ id message, frame = .sendInLoop c id message := by
  intro other member sends
  cases follows.leads member with
  | sendStart => exact Or.inr ⟨_, _, congrArg (Frame.sendInLoop · _ _) (Option.some.inj sends)⟩
  | sendRest => exact Or.inl sends
  | call enters => cases other <;> simp_all [Frame.enters, Frame.sends]
  | _ => cases sends

theorem Follows.establishes {onLoop : Bool} {frame : Frame} {frames : List Frame}
    (follows : Follows onLoop frame frames) :
    ∀ other ∈ frames, other.establishes = some c →
      frame.establishes = some c ∨ frame = .user ∧ other = .connectEstablished c := by
  intro other member establishes
  cases follows.leads member with
  | connect => exact Or.inr ⟨rfl, congrArg Frame.connectEstablished (Option.some.inj establishes)⟩
  | established => exact Or.inl establishes
  | call enters => cases other <;> simp_all [Frame.enters, Frame.establishes]
  | _ => cases establishes

/-- `sendInLoop` goes past its test on an unclosed connection only. -/
theorem Advance.sends {onLoop : Bool} {frame : Frame} {input : Input} {frames : List Frame}
    (advance : Advance settings impl onLoop w frame input w' frames) {other : Frame}
    (member : other ∈ frames) (sends : other.sends = some c) :
    frame.sends = some c ∨ (∃ id message, frame = .sendInLoop c id message) ∧
      w.state c ≠ .kDisconnected := by
  rcases advance.follows.sends other member sends with old | ⟨id, message, rfl⟩
  · exact Or.inl old
  · refine Or.inr ⟨⟨id, message, rfl⟩, ?_⟩
    cases advance with
    | yes tested => cases tested; simp at member
    | no tested different => cases tested; exact different

/-- A connection is established after its construction. -/
theorem Advance.establishes {onLoop : Bool} {frame : Frame} {input : Input} {frames : List Frame}
    (advance : Advance settings impl onLoop w frame input w' frames) {other : Frame}
    (member : other ∈ frames) (establishes : other.establishes = some c) :
    frame.establishes = some c ∨ c ∈ w'.accepted := by
  rcases advance.follows.establishes other member establishes with old | ⟨rfl, rfl⟩
  · exact Or.inl old
  · refine Or.inr ?_
    cases advance with
    | yes tested | no tested => cases tested
    | @call _ frame entered =>
      have enters := enter_enters entered
      cases frame <;> simp_all [Frame.enters]
    | construct => simp_all [World.construct]
    | adjust | watch | «return» => simp at member

theorem count_complete {pending : List Task} {complete : Prop} [Decidable complete] {other : ConnId} :
    (pending ++ if complete then [Task.writeComplete c] else []).count (.connectDestroyed other) =
      pending.count (.connectDestroyed other) := by
  rw [List.count_append]
  split <;> simp

/-- The table and the queue together keep their claims on each connection, and
`newConnection` adds one. -/
theorem Advance.balance {onLoop : Bool} {frame : Frame} {input : Input} {frames : List Frame}
    (advance : Advance settings impl onLoop w frame input w' frames)
    (posts : frame.postsCalls = true) :
    (w'.accepted = w.accepted ∧ ∀ c, w'.table.count c + w'.pending.count (.connectDestroyed c) =
        w.table.count c + w.pending.count (.connectDestroyed c)) ∨
      ∃ new, frame = .user ∧ w.Fresh settings new ∧ w' = w.construct new := by
  cases advance with
  | construct _ fresh => exact Or.inr ⟨_, rfl, fresh, rfl⟩
  | @closeHere c _ _ removed =>
    obtain ⟨present, rfl⟩ := removeConnectionInLoop_ok.mp removed
    refine Or.inl ⟨rfl, fun other => ?_⟩
    by_cases same : other = c
    · subst same
      have held : 0 < w.table.count other := List.count_pos_iff.mpr present
      simp only [queue, note, List.count_append, List.count_erase_self, List.count_singleton_self]
      omega
    · have apart : Task.connectDestroyed c ≠ .connectDestroyed other := by simpa using Ne.symm same
      simp [queue, note, List.count_append, List.count_erase_of_ne same, apart]
  | @post task =>
    refine Or.inl ⟨rfl, fun other => ?_⟩
    have apart : task ≠ .connectDestroyed other := by
      rintro rfl
      cases posts
    simp [queue, List.count_append, apart]
  | watch _ ran | connectDestroyedRest ran | handleCloseStore ran | connectEstablishedStore ran
  | connectDestroyedStore ran =>
    obtain ⟨_, _, _, rfl⟩ := operate_ok.mp ran
    exact Or.inl ⟨rfl, fun _ => rfl⟩
  | sendInLoopStart sent =>
    obtain ⟨answer, _, ran⟩ := sent
    cases ran
    exact Or.inl ⟨rfl, fun other => by rw [count_complete]; rfl⟩
  | sendInLoopRest ran =>
    obtain ⟨conn, _, ⟨_, rfl⟩ | ⟨_, operated⟩⟩ := sendInLoopRest_ok ran
    · exact Or.inl ⟨rfl, fun _ => rfl⟩
    · obtain ⟨_, _, _, rfl⟩ := operate_ok.mp operated
      exact Or.inl ⟨rfl, fun _ => rfl⟩
  | handleWrite _ _ ran =>
    obtain ⟨start, _, ⟨_, rfl, _⟩ | ⟨_, _, w₁, operated, rfl⟩⟩ := handleWrite_ok ran
    · exact Or.inl ⟨rfl, fun _ => rfl⟩
    · obtain ⟨_, _, _, rfl⟩ := operate_ok.mp operated
      exact Or.inl ⟨rfl, fun other => by rw [count_complete]; rfl⟩
  | handleRead ran =>
    obtain ⟨n, conn, _, ⟨_, rfl, _⟩ | ⟨_, rfl, _⟩ | ⟨_, rfl, _⟩⟩ := handleRead_ok ran <;>
      exact Or.inl ⟨rfl, fun _ => rfl⟩
  | _ => exact Or.inl ⟨rfl, fun _ => rfl⟩

/-- How often `connectDestroyed` is still to run, or to end, on a connection. -/
def destroyers (w : World σ) (c : ConnId) : Nat :=
  w.table.count c + w.tasks.count (.connectDestroyed c) +
    (w.stack.filterMap Frame.destroys).count c

theorem destroyers_eq_zero {c : ConnId} (table : c ∉ w.table)
    (tasks : .connectDestroyed c ∉ w.tasks) (stack : ∀ frame ∈ w.stack, frame.destroys ≠ some c) :
    w.destroyers c = 0 := by
  have running : (w.stack.filterMap Frame.destroys).count c = 0 := by
    refine List.count_eq_zero.mpr fun member => ?_
    obtain ⟨frame, present, destroys⟩ := List.mem_filterMap.mp member
    exact stack frame present destroys
  rw [destroyers, List.count_eq_zero.mpr table, List.count_eq_zero.mpr tasks, running]

/-- What a step of a frame does to the functors, its phase being the same. -/
theorem count_tasks {v : World σ} (phase : v.phase = w.phase) (task : Task) :
    v.tasks.count task + w.pending.count task = w.tasks.count task + v.pending.count task := by
  simp only [World.tasks, phase, List.count_append]
  omega

theorem fresh_accepted {new : ConnId} (fresh : w.Fresh settings new) : new ∉ w.accepted :=
  fresh.2.1

/-- A frame's part of `connectDestroyed` ends with its last step. -/
theorem count_destroys (frame : Frame) (c : ConnId) :
    frame.destroysOn.toList.count c + (if some frame = some (.connectDestroyedRest c) then 1 else 0) =
      frame.destroys.toList.count c := by
  cases frame <;> simp [Frame.destroysOn, Frame.destroys, List.count_singleton]

theorem count_destroys_cons (frame : Frame) (rest : List Frame) (c : ConnId) :
    ((frame :: rest).filterMap Frame.destroys).count c =
      frame.destroys.toList.count c + (rest.filterMap Frame.destroys).count c := by
  cases destroys : frame.destroys with
  | none => simp [destroys]
  | some own =>
    simp only [List.filterMap_cons, destroys, List.count_cons, Option.toList_some, List.count_nil]
    omega

theorem tasks_queue (task : Task) : (w.queue task).tasks = w.tasks ++ [task] :=
  (List.append_assoc ..).symm

theorem count_push {α : Type} [DecidableEq α] (list : List α) (new x : α) :
    (list ++ [new]).count x = list.count x + if x = new then 1 else 0 := by
  rw [List.count_append, List.count_cons, List.count_nil]
  by_cases same : x = new
  · simp [same]
  · simp [same, Ne.symm same]

theorem count_erase {α : Type} [DecidableEq α] {list : List α} {old : α} (present : old ∈ list)
    (x : α) : (list.erase old).count x + (if x = old then 1 else 0) = list.count x := by
  have held := List.count_pos_iff.mpr present
  by_cases same : x = old
  · subst same
    rw [List.count_erase_self, if_pos rfl]
    omega
  · rw [List.count_erase_of_ne same, if_neg same, Nat.add_zero]

/-- The claim of the table goes to the queue. -/
theorem destroyers_queue (v : World σ) (present : c ∈ w.table) (table : v.table = w.table.erase c)
    (tasks : v.tasks = w.tasks) (stack : v.stack = w.stack) {other : ConnId} :
    (v.queue (.connectDestroyed c)).destroyers other = w.destroyers other := by
  have erased := count_erase present other
  have after : (v.queue (.connectDestroyed c)).destroyers other = v.table.count other +
      (v.queue (.connectDestroyed c)).tasks.count (.connectDestroyed other) +
      (v.stack.filterMap Frame.destroys).count other := rfl
  rw [after, tasks_queue, tasks, table, stack, count_push, World.destroyers]
  simp only [Task.connectDestroyed.injEq]
  omega

/-- The number of `connectDestroyed` to come changes where one ends, or with a new connection. -/
def CountsDestroyers (settings : Settings) (w w' : World σ) (running : Option Frame) : Prop :=
  (w'.accepted = w.accepted ∧ ∀ c, w'.destroyers c +
      (if running = some (.connectDestroyedRest c) then 1 else 0) = w.destroyers c) ∨
    ∃ new, w.Fresh settings new ∧ w'.accepted = w.accepted ++ [new] ∧
      ∀ c, w'.destroyers c = w.destroyers c + if c = new then 1 else 0

theorem Advance.destroyers_loop {frame : Frame} {input : Input} {v : World σ}
    {frames rest : List Frame} (advance : Advance settings impl true w frame input v frames)
    (stack : w.stack = frame :: rest) (posts : frame.postsCalls = true) :
    CountsDestroyers settings w { v with stack := frames ++ rest } (some frame) := by
  have handed : ∀ c, ((frames ++ rest).filterMap Frame.destroys).count c +
      (if some frame = some (.connectDestroyedRest c) then 1 else 0) =
        (w.stack.filterMap Frame.destroys).count c := by
    intro c
    have ends := count_destroys frame c
    rw [stack, count_destroys_cons, List.filterMap_append, advance.follows.destroys,
      List.count_append]
    omega
  have shape : ∀ c, ({ v with stack := frames ++ rest } : World σ).destroyers c =
      v.table.count c + v.tasks.count (.connectDestroyed c) +
        ((frames ++ rest).filterMap Frame.destroys).count c := fun c => rfl
  have tasks := fun c => count_tasks advance.control.phase (.connectDestroyed c)
  rcases advance.balance posts with ⟨accepted, balance⟩ | ⟨new, rfl, fresh, rfl⟩
  · refine Or.inl ⟨accepted, fun c => ?_⟩
    have frames := handed c
    have kept := balance c
    have queued := tasks c
    rw [shape c, World.destroyers]
    omega
  · refine Or.inr ⟨new, fresh, rfl, fun c => ?_⟩
    have frames := handed c
    have grown : (w.construct new).table.count c = w.table.count c + if c = new then 1 else 0 :=
      count_push ..
    have same : (w.construct new).tasks = w.tasks := rfl
    simp only [reduceCtorEq, Option.some.injEq, if_false] at frames
    rw [shape c, World.destroyers, grown, same]
    omega

theorem Advance.destroyers_other {frame : Frame} {input : Input} {v : World σ}
    {frames others : List Frame} (advance : Advance settings impl false w frame input v frames)
    (calling : frame.foreign = true) (posts : frame.postsCalls = true) :
    CountsDestroyers settings w { v with others := others } (some frame) := by
  have silent : ∀ c, some frame ≠ some (.connectDestroyedRest c) := by
    rintro c same
    cases same
    cases calling
  have tasks := fun c => count_tasks advance.control.phase (.connectDestroyed c)
  rcases advance.balance posts with ⟨accepted, balance⟩ | ⟨new, rfl, _⟩
  · refine Or.inl ⟨accepted, fun c => ?_⟩
    have kept := balance c
    have queued := tasks c
    have shape : ({ v with others := others } : World σ).destroyers c =
        v.table.count c + v.tasks.count (.connectDestroyed c) +
          (v.stack.filterMap Frame.destroys).count c := rfl
    rw [shape, if_neg (silent c), World.destroyers, advance.control.stack]
    omega
  · cases calling

/-- A functor that the loop takes keeps its claim as a frame. -/
theorem destroyers_start {task : Task} {batch : List Task} (empty : w.stack = [])
    (phase : w.phase = .functors (task :: batch)) (c : ConnId) :
    World.destroyers { w with phase := .functors batch, stack := [task.frame] } c =
      w.destroyers c := by
  have frame : (task.frame.destroys.toList).count c = [task].count (.connectDestroyed c) := by
    cases task <;> simp [Task.frame, Frame.destroys, List.count_singleton]
  have first : ([task.frame].filterMap Frame.destroys).count c =
      [task].count (.connectDestroyed c) := by
    rw [count_destroys_cons, frame]
    simp
  simp only [World.destroyers, World.tasks, empty, phase, first, List.count_append,
    List.filterMap_nil, List.count_nil, List.count_cons]
  simp
  omega

/-- In `~TcpServer` the claim of the table becomes a frame. -/
theorem destroyers_destroy (stack : w.stack = [.user]) (present : c ∈ w.table) (other : ConnId) :
    World.destroyers { w with
      table := w.table.erase c, stack := [.connectDestroyed c, .user] } other =
        w.destroyers other := by
  have erased := count_erase present other
  have claimed : ([] ++ [c]).count other = _ := count_push [] c other
  have before : w.destroyers other = w.table.count other +
      w.tasks.count (.connectDestroyed other) + 0 := by
    rw [World.destroyers, stack]
    rfl
  have after : World.destroyers { w with
        table := w.table.erase c, stack := [.connectDestroyed c, .user] } other =
      (w.table.erase c).count other + w.tasks.count (.connectDestroyed other) +
        ([] ++ [c]).count other := rfl
  rw [before, after, claimed, List.count_nil]
  omega

theorem destroyers_connect (c other : ConnId) :
    ((w.construct c).queue (.connectEstablished c)).destroyers other =
      w.destroyers other + if other = c then 1 else 0 := by
  have after : ((w.construct c).queue (.connectEstablished c)).destroyers other =
      (w.table ++ [c]).count other +
        ((w.construct c).queue (.connectEstablished c)).tasks.count (.connectDestroyed other) +
        (w.stack.filterMap Frame.destroys).count other := rfl
  have same : (w.construct c).tasks = w.tasks := rfl
  rw [after, tasks_queue, same, count_push, count_push, World.destroyers]
  simp only [reduceCtorEq, if_false]
  omega

/-- A step keeps the number of `connectDestroyed` to come, unless one ends or a
connection is constructed. -/
theorem Step.destroyers {action : Action impl.Answer} (step : Step settings impl w action w')
    (orderly : w.Orderly) (posts : ∀ frame, frame ∈ w.stack ∨ frame ∈ w.others →
      frame.postsCalls = true) : CountsDestroyers settings w w' (w.running action) := by
  cases step with
  | @loop frame rest frames input v stack advance =>
    have runs : w.running (.loop input : Action impl.Answer) = some frame := by
      simp [running, stack]
    rw [runs]
    exact advance.destroyers_loop stack (posts frame (Or.inl (by simp [stack])))
  | @other frame before after frames v others advance =>
    have member : frame ∈ w.others := by simp [others]
    have runs : w.running (.other before.length : Action impl.Answer) = some frame := by
      simp [running, others]
    rw [runs]
    exact advance.destroyers_other (orderly.calling frame member) (posts frame (Or.inr member))
  | dispatch empty phase | swap empty phase | again empty phase | poll empty phase =>
    refine Or.inl ⟨rfl, fun c => ?_⟩
    simp [World.destroyers, World.tasks, running, empty, phase, Frame.destroys, List.filterMap_cons]
  | start empty phase =>
    refine Or.inl ⟨rfl, fun c => ?_⟩
    rw [destroyers_start empty phase]
    simp [running, empty]
  | destroy _ stack present => exact Or.inl ⟨rfl, destroyers_destroy stack present⟩
  | call => exact Or.inl ⟨rfl, fun c => rfl⟩
  | @connectElsewhere c _ fresh => exact Or.inr ⟨c, fresh, rfl, destroyers_connect c⟩
  | @removeElsewhere c _ present =>
    exact Or.inl ⟨rfl, fun other => destroyers_queue { w with
      removing := w.removing.erase c, table := w.table.erase c } present rfl rfl rfl⟩
  | @destroyElsewhere c _ present =>
    exact Or.inl ⟨rfl, fun other =>
      destroyers_queue { w with table := w.table.erase c } present rfl rfl rfl⟩
  | destruct => exact Or.inl ⟨rfl, fun c => rfl⟩

/-- Where the frames of the loop thread come from. -/
inductive Origin (settings : Settings) (impl : Polling σ) (w w' : World σ) : Frame → Prop
  | kept {frame : Frame} : frame ∈ w.stack → Origin settings impl w w' frame
  | advanced {running frame : Frame} {input : Input} {v : World σ} {frames : List Frame} :
      w.stack.head? = some running → Advance settings impl true w running input v frames →
      v.accepted = w'.accepted → v.conns = w'.conns → frame ∈ frames →
      Origin settings impl w w' frame
  | dispatched {id : ChannelId} {callbacks : List EventCallback} :
      Origin settings impl w w' (.handleEvent id callbacks)
  | started {task : Task} : task ∈ w.tasks → Origin settings impl w w' task.frame
  | resumed : Origin settings impl w w' .user
  | destroyed {c : ConnId} : Origin settings impl w w' (.connectDestroyed c)

theorem Step.origin {action : Action impl.Answer} (step : Step settings impl w action w') :
    ∀ frame ∈ w'.stack, Origin settings impl w w' frame := by
  intro frame member
  cases step with
  | loop stack advance =>
    rcases List.mem_append.mp member with new | old
    · exact .advanced (by rw [stack]; rfl) advance rfl rfl new
    · exact .kept (by simp [stack, old])
  | other others advance => exact .kept (advance.control.stack ▸ member)
  | dispatch =>
    rw [List.mem_singleton.mp member]
    exact .dispatched
  | start _ phase =>
    rw [List.mem_singleton.mp member]
    exact .started (by simp [World.tasks, phase])
  | destroy =>
    rcases List.mem_cons.mp member with rfl | member
    · exact .destroyed
    · rw [List.mem_singleton.mp member]
      exact .resumed
  | swap | again | poll | call | connectElsewhere | removeElsewhere | destroyElsewhere | destruct =>
    exact .kept member

/-- Where the frames of other threads come from. -/
theorem Step.others_origin {action : Action impl.Answer} (step : Step settings impl w action w')
    {frame : Frame} (member : frame ∈ w'.others) :
    frame ∈ w.others ∨ frame.enters = true ∨ ∃ running v frames, running ∈ w.others ∧
      Advance settings impl false w running .none v frames ∧ v.conns = w'.conns ∧
        frame ∈ frames := by
  cases step with
  | loop stack advance => exact Or.inl (advance.control.others ▸ member)
  | @other running before after frames v others advance =>
    simp only [List.mem_append] at member
    rcases member with (old | new) | old
    · exact Or.inl (by simp [others, old])
    · exact Or.inr (Or.inr ⟨running, v, frames, by simp [others], advance, rfl, new⟩)
    · exact Or.inl (by simp [others, old])
  | call entered =>
    rcases List.mem_append.mp member with old | new
    · exact Or.inl old
    · rw [List.mem_singleton.mp new]
      exact Or.inr (Or.inl (enter_enters entered))
  | _ => exact Or.inl member

/-- A frame past the test of `sendInLoop` has just made the test, or was there before. -/
theorem Step.sends {action : Action impl.Answer} (step : Step settings impl w action w')
    {frame : Frame} (member : frame ∈ w'.stack) (sends : frame.sends = some c) :
    (∃ old ∈ w.stack, old.sends = some c) ∨
      (∃ id message, w.stack.head? = some (.sendInLoop c id message)) ∧
        w.state c ≠ .kDisconnected := by
  cases step.origin frame member with
  | kept old => exact Or.inl ⟨frame, old, sends⟩
  | @advanced running _ _ _ _ head advance _ _ new =>
    rcases advance.sends new sends with before | ⟨⟨id, message, rfl⟩, unclosed⟩
    · exact Or.inl ⟨running, List.mem_of_mem_head? head, before⟩
    · exact Or.inr ⟨⟨id, message, head⟩, unclosed⟩
  | @started task => cases task <;> cases sends
  | dispatched | resumed | destroyed => cases sends

theorem Step.postsCalls {action : Action impl.Answer} (step : Step settings impl w action w')
    (posts : ∀ frame, frame ∈ w.stack ∨ frame ∈ w.others → frame.postsCalls = true) :
    ∀ frame, frame ∈ w'.stack ∨ frame ∈ w'.others → frame.postsCalls = true := by
  intro frame member
  rcases member with member | member
  · cases step.origin frame member with
    | kept old => exact posts frame (Or.inl old)
    | advanced _ advance _ _ new => exact advance.follows.postsCalls frame new
    | @started task => cases task <;> rfl
    | dispatched | resumed | destroyed => rfl
  · rcases step.others_origin member with old | enters | ⟨_, _, _, _, advance, _, new⟩
    · exact posts frame (Or.inr old)
    · exact postsCalls_of_enters enters
    · exact advance.follows.postsCalls frame new

/-- A frame or a functor is to establish the connection. -/
def Establishing (w : World σ) (c : ConnId) : Prop :=
  (∃ frame ∈ w.stack, frame.establishes = some c) ∨ .connectEstablished c ∈ w.tasks

/-- Functors that are new were posted, completions, or come with the server's calls. -/
theorem Step.tasks_origin {action : Action impl.Answer} (step : Step settings impl w action w') :
    ∀ task ∈ w'.tasks, task ∈ w.tasks ∨ w.running action = some (.post task) ∨
      (∃ c, (w.running action).bind Frame.conn = some c ∧ task = .writeComplete c) ∨
        (∃ c, task = .connectDestroyed c) ∨ ∃ c ∈ w'.accepted, task = .connectEstablished c := by
  intro task member
  have ofAdvance {onLoop : Bool} {frame : Frame} {input : Input} {v : World σ}
      {frames : List Frame} (advance : Advance settings impl onLoop w frame input v frames)
      (tasks : task ∈ v.tasks) : task ∈ w.tasks ∨ frame = .post task ∨
        (∃ c, frame.conn = some c ∧ task = .writeComplete c) ∨ ∃ c, task = .connectDestroyed c := by
    obtain ⟨queued, grown, origin⟩ := advance.pending
    have split : task ∈ w.tasks ∨ task ∈ queued := by
      simp only [World.tasks, advance.control.phase, grown, List.mem_append] at tasks ⊢
      tauto
    rcases split with old | new
    · exact Or.inl old
    · rcases origin task new with post | complete | ⟨c, _, rfl⟩
      · exact Or.inr (Or.inl post)
      · exact Or.inr (Or.inr (Or.inl complete))
      · exact Or.inr (Or.inr (Or.inr ⟨c, rfl⟩))
  cases step with
  | loop stack advance =>
    rcases ofAdvance advance member with old | rfl | complete | destroy
    · exact Or.inl old
    · exact Or.inr (Or.inl (by simp [running, stack]))
    · exact Or.inr (Or.inr (Or.inl (by simpa [running, stack] using complete)))
    · exact Or.inr (Or.inr (Or.inr (Or.inl destroy)))
  | other others advance =>
    rcases ofAdvance advance member with old | rfl | complete | destroy
    · exact Or.inl old
    · exact Or.inr (Or.inl (by simp [running, others]))
    · exact Or.inr (Or.inr (Or.inl (by simpa [running, others] using complete)))
    · exact Or.inr (Or.inr (Or.inr (Or.inl destroy)))
  | dispatch _ phase | swap _ phase | again _ phase | poll _ phase =>
    exact Or.inl (by simpa [World.tasks, phase] using member)
  | start _ phase =>
    refine Or.inl ?_
    simp only [World.tasks, phase, List.mem_append, List.mem_cons] at member ⊢
    tauto
  | destroy | call | destruct => exact Or.inl member
  | @connectElsewhere c =>
    rw [tasks_queue] at member
    rcases List.mem_append.mp member with old | new
    · exact Or.inl old
    · exact Or.inr (Or.inr (Or.inr (Or.inr ⟨c, by simp [construct, queue],
        List.mem_singleton.mp new⟩)))
  | @removeElsewhere c | @destroyElsewhere c =>
    rw [tasks_queue] at member
    rcases List.mem_append.mp member with old | new
    · exact Or.inl old
    · exact Or.inr (Or.inr (Or.inr (Or.inl ⟨c, List.mem_singleton.mp new⟩)))

/-- A functor stays queued, or the loop takes it. -/
theorem Step.queued {action : Action impl.Answer} (step : Step settings impl w action w')
    {task : Task} (queued : task ∈ w.tasks) :
    task ∈ w'.tasks ∨ (∃ input, action = .loop input) ∧ w.stack = [] ∧
      (∃ batch, w.phase = .functors (task :: batch)) ∧ w'.stack = [task.frame] := by
  have grown {onLoop : Bool} {frame : Frame} {input : Input} {v : World σ} {frames : List Frame}
      (advance : Advance settings impl onLoop w frame input v frames) : task ∈ v.tasks := by
    obtain ⟨new, grown, _⟩ := advance.pending
    simp only [World.tasks, advance.control.phase, grown, List.mem_append] at queued ⊢
    tauto
  cases step with
  | loop _ advance | other _ advance =>
    have stays := grown advance
    exact Or.inl stays
  | dispatch _ phase | swap _ phase | again _ phase | poll _ phase =>
    exact Or.inl (by simpa [World.tasks, phase] using queued)
  | @start first batch empty phase =>
    by_cases own : task = first
    · subst own
      exact Or.inr ⟨⟨_, rfl⟩, empty, ⟨batch, phase⟩, rfl⟩
    · refine Or.inl ?_
      simp only [World.tasks, phase, List.mem_append, List.mem_cons] at queued ⊢
      tauto
  | destroy | call | destruct => exact Or.inl queued
  | connectElsewhere | removeElsewhere | destroyElsewhere =>
    rw [tasks_queue]
    exact Or.inl (List.mem_append_left _ queued)

/-- A functor that another thread is about to queue gets queued. -/
theorem Step.posting {action : Action impl.Answer} (step : Step settings impl w action w')
    {task : Task} (posting : .post task ∈ w.others) : .post task ∈ w'.others ∨ task ∈ w'.tasks := by
  cases step with
  | loop _ advance =>
    have stays := advance.control.others ▸ posting
    exact Or.inl stays
  | @other frame before after frames v others advance =>
    rw [others, List.mem_append, List.mem_cons] at posting
    rcases posting with old | rfl | old
    · exact Or.inl (by simp [old])
    · have queued : task ∈ v.tasks := by
        cases advance with
        | yes tested | no tested => cases tested
        | post => simp [tasks_queue]
      exact Or.inr queued
    · exact Or.inl (by simp [old])
  | call => exact Or.inl (List.mem_append_left _ posting)
  | _ => exact Or.inl posting

theorem Step.establishing {action : Action impl.Answer} (step : Step settings impl w action w')
    (posts : ∀ frame, frame ∈ w.stack ∨ frame ∈ w.others → frame.postsCalls = true)
    (establishing : w'.Establishing c) : w.Establishing c ∨ c ∈ w'.accepted := by
  rcases establishing with ⟨frame, member, establishes⟩ | member
  · cases step.origin frame member with
    | kept old => exact Or.inl (Or.inl ⟨frame, old, establishes⟩)
    | @advanced running _ _ _ _ head advance accepted _ new =>
      rcases advance.establishes new establishes with before | constructed
      · exact Or.inl (Or.inl ⟨running, List.mem_of_mem_head? head, before⟩)
      · exact Or.inr (accepted ▸ constructed)
    | @started task listed =>
      cases task <;> cases establishes
      exact Or.inl (Or.inr listed)
    | dispatched | resumed | destroyed => cases establishes
  · rcases step.tasks_origin _ member with old | posted | ⟨_, _, same⟩ | ⟨_, same⟩ | ⟨_, new, same⟩
    · exact Or.inl (Or.inr old)
    · cases posts _ (running_mem posted)
    · cases same
    · cases same
    · cases same
      exact Or.inr new

/-- `connectDestroyed` stands at the bottom, or on the functor that called it. -/
def Outermost : List Frame → Prop
  | [] => True
  | frame :: below => (frame.destroys ≠ none → below = [] ∨ below = [.user]) ∧ Outermost below

theorem outermost_append {frames rest : List Frame} (none : frames.filterMap Frame.destroys = [])
    (below : Outermost rest) : Outermost (frames ++ rest) := by
  induction frames with
  | nil => exact below
  | cons frame frames ih =>
    cases destroys : frame.destroys with
    | some c => simp [destroys] at none
    | none =>
      simp only [List.filterMap_cons, destroys] at none
      exact ⟨fun some => absurd destroys some, ih none⟩

theorem Outermost.below {frame : Frame} {rest : List Frame} (outermost : Outermost (frame :: rest))
    (destroys : frame.destroys ≠ none) : ∀ other ∈ rest, other = .user := by
  rcases outermost.1 destroys with rfl | rfl <;> simp

theorem Follows.outermost {onLoop : Bool} {frame : Frame} {frames rest : List Frame}
    (follows : Follows onLoop frame frames) (outermost : Outermost (frame :: rest)) :
    Outermost (frames ++ rest) := by
  obtain ⟨bottom, below⟩ := outermost
  have handed := follows.destroys
  cases frame with
  | connectDestroyed c =>
    have shape : rest = [] ∨ rest = [.user] := bottom (by simp [Frame.destroys])
    cases follows with
    | yes tested =>
      cases tested
      exact ⟨fun _ => shape, below⟩
    | no tested none =>
      cases tested
      cases none
      exact ⟨fun _ => shape, below⟩
    | stop ends => cases ends
  | connectDestroyedStore c =>
    have shape : rest = [] ∨ rest = [.user] := bottom (by simp [Frame.destroys])
    cases follows with
    | connectDestroyed => exact ⟨fun some => absurd rfl some, fun _ => shape, below⟩
    | yes tested | no tested => cases tested
    | stop ends => cases ends
  | _ => exact outermost_append handed below

theorem Step.outermost {action : Action impl.Answer} (step : Step settings impl w action w')
    (outermost : Outermost w.stack) : Outermost w'.stack := by
  cases step with
  | loop stack advance => exact advance.follows.outermost (stack ▸ outermost)
  | other others advance =>
    have stack := advance.control.stack
    exact stack ▸ outermost
  | dispatch => exact ⟨fun some => absurd rfl some, trivial⟩
  | @start task =>
    refine ⟨fun _ => Or.inl rfl, trivial⟩
  | destroy =>
    refine ⟨fun _ => Or.inr rfl, fun some => absurd rfl some, trivial⟩
  | _ => exact outermost

/-- The connection is closed, without interest, and nothing is being sent. -/
structure Ended (w : World σ) (c : ConnId) : Prop where
  closed : w.state c = .kDisconnected
  idle : (w.heap c).isNoneEvent = true
  silent : ∀ frame ∈ w.stack, frame.sends ≠ some c

/-- `connectDestroyed` finds the connection `kConnected`, or closed and without
interest. -/
def Destroyable {answer : Type} (w : World σ) (action : Action answer) : Prop :=
  match w.running action with
  | some (.connectDestroyed c) =>
    w.state c = .kConnected ∨ w.state c = .kDisconnected ∧ (w.heap c).isNoneEvent = true
  | _ => True

instance {answer : Type} (w : World σ) (action : Action answer) :
    Decidable (Destroyable w action) := by
  delta Destroyable
  rcases w.running action with _ | frame
  · infer_instance
  · induction frame using Frame.casesOn <;> infer_instance

/-- `kDisconnected` is final without late stores. -/
theorem Step.state_final {action : Action impl.Answer} (orderly : w.Orderly)
    (onTime : w.NoLateStore action) (step : Step settings impl w action w')
    (closed : w.state c = .kDisconnected) : w'.state c = .kDisconnected := by
  rcases step.state with ⟨same, _⟩ | ⟨frame, c', s, runs, stores, changed⟩
  · rwa [same]
  · rw [changed]
    split
    · next own =>
      subst own
      have known := orderly.running_knows runs
      cases stores with
      | shutdown open_ => rw [closed] at open_; cases open_
      | forceClose => exact absurd closed (noLateStore_iff.mp onTime c runs)
      | connectEstablished => cases closed.symm.trans known
      | handleClose | connectDestroyed => rfl
    · exact closed

/-- An action makes one operation on a channel, through the loop thread's frame, or
leaves the interest of all channels alone. -/
theorem Step.operated {mentions : σ → ChannelId → Prop} (lawful : impl.Lawful mentions)
    {action : Action impl.Answer} (orderly : w.Orderly) (step : Step settings impl w action w') :
    (∀ id, (w'.heap id).events = (w.heap id).events) ∨
      ∃ frame id op, w.stack.head? = some frame ∧ Operates settings w frame id op ∧
        ∀ other, (w'.heap other).events = (op.apply w.heap id other).events := by
  cases step with
  | loop stack advance =>
    rcases advance.operated with ⟨heap, _⟩ | ⟨id, op, operates, ran⟩
    · exact Or.inl fun id => congrArg (fun h => (h id).events) heap
    · exact Or.inr ⟨_, id, op, by rw [stack]; rfl, operates, lawful.operate_events ran⟩
  | @other frame before after frames w' others advance =>
    have calling := orderly.calling frame (by simp [others])
    rcases advance.operated with ⟨heap, _⟩ | ⟨id, op, operates, _⟩
    · exact Or.inl fun id => congrArg (fun h => (h id).events) heap
    · cases operates <;> cases calling
  | poll _ _ _ polled => exact Or.inl (lawful.poll_events polled)
  | _ => exact Or.inl fun _ => rfl

/-- The connections that exist, and what is still to run on them. -/
structure Owned (settings : Settings) (w : World σ) : Prop where
  posts : ∀ frame, frame ∈ w.stack ∨ frame ∈ w.others → frame.postsCalls = true
  establishing : ∀ c, w.Establishing c → c ∈ w.accepted
  once : ∀ c, w.destroyers c ≤ 1
  owned : ∀ c, w.destroyers c ≠ 0 → w.Live c
  outermost : Outermost w.stack
  unborn : ∀ c, c ∉ w.accepted → w.state c = .kConnecting
  destructed : ∀ c ∈ w.destructed, c ∈ w.accepted
  own : ∀ c ∈ w.accepted, c ∉ settings.aux
  sending : ∀ frame ∈ w.stack, ∀ c, frame.sends = some c → w.destroyers c ≠ 0
  spent : ∀ c ∈ w.accepted, w.destroyers c = 0 → w.state c = .kDisconnected
  ended : ∀ c, .connectDestroyedRest c ∈ w.stack → w.Ended c

theorem start_owned (settings : Settings) (poller : σ) : (start settings poller).Owned settings where
  posts := by simp [start]
  establishing := by simp [start, Establishing, World.tasks]
  once := by simp [start, World.destroyers, World.tasks]
  owned := by simp [start, World.destroyers, World.tasks]
  outermost := trivial
  unborn _ _ := rfl
  destructed := by simp [start]
  own := by simp [start]
  sending := by simp [start]
  spent := by simp [start]
  ended := by simp [start]

/-- An open connection exists, and is to be destroyed. -/
theorem Owned.open_owned (owned : w.Owned settings) (begun : w.state c ≠ .kConnecting)
    (unclosed : w.state c ≠ .kDisconnected) : w.destroyers c ≠ 0 := by
  have accepted : c ∈ w.accepted := by
    by_contra unborn
    exact begun (owned.unborn c unborn)
  exact fun spent => unclosed (owned.spent c accepted spent)

theorem unreferenced_destroyers (unreferenced : w.Unreferenced c) : w.destroyers c = 0 := by
  obtain ⟨table, _, tasks, stack, _⟩ := unreferenced
  refine destroyers_eq_zero table (fun member => tasks _ member rfl)
    fun frame present destroys => stack frame present ?_
  cases frame <;> first | exact destroys | cases destroys

theorem Step.destructed {action : Action impl.Answer} (step : Step settings impl w action w') :
    w'.destructed = w.destructed ∨ ∃ c, w.Live c ∧ w.Unreferenced c ∧
      w'.accepted = w.accepted ∧ w'.destructed = w.destructed ++ [c] := by
  cases step with
  | loop _ advance | other _ advance => exact Or.inl advance.control.destructed
  | destruct live unreferenced => exact Or.inr ⟨_, live, unreferenced, rfl, rfl⟩
  | _ => exact Or.inl rfl

theorem Owned.live_step (owned : w.Owned settings) (orderly : w.Orderly)
    {action : Action impl.Answer} (step : Step settings impl w action w') :
    (∀ c, w'.destroyers c ≤ 1) ∧ (∀ c, w'.destroyers c ≠ 0 → w'.Live c) ∧
      (∀ c ∈ w'.destructed, c ∈ w'.accepted) ∧ (∀ c ∈ w.accepted, c ∈ w'.accepted) ∧
      ∀ c ∈ w'.accepted, c ∉ settings.aux := by
  rcases step.destroyers orderly owned.posts with
    ⟨accepted, count⟩ | ⟨new, fresh, accepted, count⟩
  · have live : ∀ c, w'.destroyers c ≠ 0 → w.destroyers c ≠ 0 := by
      intro c more
      have counted := count c
      omega
    refine ⟨fun c => ?_, fun c more => ?_, fun c member => ?_, fun c member => ?_, ?_⟩
    · have counted := count c
      have once := owned.once c
      omega
    · have before := owned.owned c (live c more)
      refine ⟨accepted ▸ before.1, ?_⟩
      rcases step.destructed with same | ⟨gone, _, unreferenced, _, grown⟩
      · exact same ▸ before.2
      · rw [grown, List.mem_append, List.mem_singleton]
        rintro (old | rfl)
        · exact before.2 old
        · exact live c more (unreferenced_destroyers unreferenced)
    · rw [accepted]
      rcases step.destructed with same | ⟨gone, alive, _, _, grown⟩
      · exact owned.destructed c (same ▸ member)
      · rw [grown, List.mem_append, List.mem_singleton] at member
        rcases member with old | rfl
        · exact owned.destructed c old
        · exact alive.1
    · exact accepted ▸ member
    · exact accepted ▸ owned.own
  · have same : w'.destructed = w.destructed := by
      rcases step.destructed with same | ⟨_, _, _, unchanged, _⟩
      · exact same
      · rw [unchanged] at accepted
        simp at accepted
    have unowned : w.destroyers new = 0 := by
      by_contra more
      exact fresh_accepted fresh (owned.owned new more).1
    refine ⟨fun c => ?_, fun c more => ?_, fun c member => ?_, fun c member => ?_,
      fun c member => ?_⟩
    · rw [count]
      have once := owned.once c
      split
      · next own => subst own; omega
      · omega
    · rw [World.Live, accepted, same, List.mem_append, List.mem_singleton]
      by_cases own : c = new
      · exact ⟨Or.inr own, fun gone => fresh_accepted fresh (own ▸ owned.destructed c gone)⟩
      · have before := owned.owned c (by rwa [count, if_neg own, Nat.add_zero] at more)
        exact ⟨Or.inl before.1, before.2⟩
    · rw [accepted]
      exact List.mem_append_left _ (owned.destructed c (same ▸ member))
    · rw [accepted]
      exact List.mem_append_left _ member
    · rw [accepted, List.mem_append, List.mem_singleton] at member
      rcases member with old | rfl
      · exact owned.own c old
      · exact fresh.1

/-- A frame that no call has on another thread runs on the loop thread. -/
theorem Orderly.running_head (orderly : w.Orderly) {action : Action impl.Answer} {frame : Frame}
    (runs : w.running action = some frame) (own : frame.foreign = false) :
    w.stack.head? = some frame := by
  cases action with
  | loop => exact runs
  | other =>
    have calling := orderly.calling frame (List.mem_of_getElem? runs)
    cases own.symm.trans calling
  | _ => cases runs

/-- A frame that waits for nothing stays where it is, or takes the step. -/
theorem Step.top {action : Action impl.Answer} (step : Step settings impl w action w')
    (orderly : w.Orderly) {frame : Frame} (present : frame ∈ w.stack) (runs : frame.waits = false)
    (code : frame ≠ .user) : frame ∈ w'.stack ∨ w.running action = some frame ∧
      ∃ input rest v frames, w.stack = frame :: rest ∧
        Advance settings impl true w frame input v frames ∧
        { v with stack := frames ++ rest } = w' := by
  cases step with
  | @loop first rest frames input v stack advance =>
    have head : frame = first := by
      rw [stack] at present
      rcases List.mem_cons.mp present with same | below
      · exact same
      · have waits := orderly.waiting frame (by simpa [stack] using below)
        cases runs.symm.trans waits
    subst head
    exact Or.inr ⟨by simp [running, stack], input, rest, v, frames, stack, advance, rfl⟩
  | other _ advance => exact Or.inl (advance.control.stack ▸ present)
  | dispatch empty | swap empty | start empty | again empty | poll empty => simp [empty] at present
  | destroy _ stack =>
    rw [stack, List.mem_singleton] at present
    exact absurd present code
  | call | connectElsewhere | removeElsewhere | destroyElsewhere | destruct => exact Or.inl present

/-- Such a frame's step is one of the loop thread. -/
theorem Step.on_loop {action : Action impl.Answer} (step : Step settings impl w action w')
    (orderly : w.Orderly) {frame : Frame} (runs : w.running action = some frame)
    (own : frame.foreign = false) :
    ∃ input rest v frames, w.stack = frame :: rest ∧
      Advance settings impl true w frame input v frames ∧
        w' = { v with stack := frames ++ rest } := by
  have head := orderly.running_head runs own
  cases step with
  | loop stack advance =>
    rw [stack, List.head?_cons, Option.some.injEq] at head
    subst head
    exact ⟨_, _, _, _, stack, advance, rfl⟩
  | other others =>
    have calling := orderly.calling frame (List.mem_of_getElem? runs)
    cases own.symm.trans calling
  | dispatch empty | swap empty | start empty | again empty => simp [empty] at head
  | _ => cases runs

/-- A connection leaves `kConnecting` in `connectEstablished`. -/
theorem Step.connecting {action : Action impl.Answer} (step : Step settings impl w action w')
    (orderly : w.Orderly) (connecting : w.state c = .kConnecting)
    (other : w.running action ≠ some (.connectEstablishedStore c)) : w'.state c = .kConnecting := by
  rcases step.state with ⟨same, _⟩ | ⟨frame, c', s, runs, stores, changed⟩
  · rwa [same]
  · rw [changed]
    split
    · next own =>
      subst own
      have known := orderly.running_knows runs
      cases stores with
      | shutdown open_ => cases connecting.symm.trans open_
      | forceClose => exact absurd connecting known
      | connectEstablished => exact absurd runs other
      | handleClose | connectDestroyed =>
        rcases (known : w.Open c) with open_ | open_ <;> cases connecting.symm.trans open_
    · exact connecting

/-- Only constructed connections leave `kConnecting`. -/
theorem Step.unborn {action : Action impl.Answer} (step : Step settings impl w action w')
    (orderly : w.Orderly) (unborn : c ∉ w.accepted → w.state c = .kConnecting)
    (establishing : w.Establishing c → c ∈ w.accepted) (before : c ∉ w.accepted) :
    w'.state c = .kConnecting :=
  step.connecting orderly (unborn before) fun runs =>
    before (establishing
      (Or.inl ⟨_, List.mem_of_mem_head? (orderly.running_head runs rfl), rfl⟩))

theorem Owned.spent_step (owned : w.Owned settings) (orderly : w.Orderly)
    {action : Action impl.Answer} (onTime : w.NoLateStore action)
    (step : Step settings impl w action w') (member : c ∈ w'.accepted)
    (spent : w'.destroyers c = 0) : w'.state c = .kDisconnected := by
  refine step.state_final orderly onTime ?_
  rcases step.destroyers orderly owned.posts with
    ⟨accepted, count⟩ | ⟨new, _, accepted, count⟩
  · have counted := count c
    split at counted
    · next runs =>
      exact (owned.ended c (List.mem_of_mem_head? (orderly.running_head runs rfl))).closed
    · exact owned.spent c (accepted ▸ member) (by omega)
  · have counted := count c
    have old : c ≠ new := by
      rintro rfl
      rw [if_pos rfl] at counted
      omega
    rw [accepted, List.mem_append, List.mem_singleton] at member
    exact owned.spent c (member.resolve_right old) (by omega)

theorem Owned.sending_step (owned : w.Owned settings) (orderly : w.Orderly)
    {mentions : σ → ChannelId → Prop} (established : w.Established settings mentions)
    {action : Action impl.Answer} (step : Step settings impl w action w') {frame : Frame}
    (member : frame ∈ w'.stack) (sends : frame.sends = some c) : w'.destroyers c ≠ 0 := by
  have before : w.destroyers c ≠ 0 ∧ w.running action ≠ some (.connectDestroyedRest c) := by
    rcases step.sends member sends with ⟨old, present, before⟩ | ⟨⟨id, message, head⟩, unclosed⟩
    · refine ⟨owned.sending old present c before, fun runs => ?_⟩
      have ends := List.mem_of_mem_head? (orderly.running_head runs rfl)
      exact (owned.ended c ends).silent old present before
    · have begun : w.state c ≠ .kConnecting :=
        established.stack _ (List.mem_of_mem_head? head)
      refine ⟨owned.open_owned begun unclosed, fun runs => ?_⟩
      cases head.symm.trans (orderly.running_head runs rfl)
  rcases step.destroyers orderly owned.posts with ⟨_, count⟩ | ⟨_, _, _, count⟩
  · have counted := count c
    rw [if_neg before.2] at counted
    omega
  · have counted := count c
    omega

/-- An ended connection stays as it is. -/
theorem Owned.ended_step (owned : w.Owned settings) (orderly : w.Orderly)
    {mentions : σ → ChannelId → Prop} (lawful : impl.Lawful mentions)
    {action : Action impl.Answer} (onTime : w.NoLateStore action)
    (step : Step settings impl w action w') (accepted : c ∈ w.accepted)
    (ended : w.Ended c) : w'.Ended c := by
  obtain ⟨closed, idle, silent⟩ := ended
  have none : (w.heap c).events = kNoneEvent := by simpa [Channel.isNoneEvent] using idle
  refine ⟨step.state_final orderly onTime closed, ?_, fun frame member sends => ?_⟩
  · rcases step.operated lawful orderly with same | ⟨frame, id, op, head, operates, events⟩
    · rw [Channel.isNoneEvent, same]
      exact idle
    · have present := List.mem_of_mem_head? head
      have kept : c ≠ id → (op.apply w.heap id c).events = kNoneEvent := by
        intro apart
        cases op with
        | update opt => rw [ChannelOp.apply, ChannelHeap.change_other _ _ _ apart, none]
        | remove => rw [ChannelOp.apply, ChannelHeap.events_leave, none]
      have after : (op.apply w.heap id c).events = kNoneEvent := by
        by_cases own : c = id
        · subst own
          cases operates with
          | watch aux => exact absurd aux (owned.own c accepted)
          | connectEstablished => cases closed.symm.trans (orderly.knows _ present)
          | handleClose | connectDestroyed => rw [ChannelOp.apply, ChannelHeap.events_change_same]; rfl
          | remove => rw [ChannelOp.apply, ChannelHeap.events_leave, none]
          | enableWriting => exact absurd rfl (silent _ present)
          | disableWriting writing =>
            rw [Channel.isWriting, none] at writing
            exact absurd writing (by decide)
        · exact kept own
      rw [Channel.isNoneEvent, events, after]
      rfl
  · rcases step.sends member sends with ⟨old, present, before⟩ | ⟨_, unclosed⟩
    · exact silent old present before
    · exact unclosed closed

theorem destroyers_of_stack {frame : Frame} (member : frame ∈ w.stack)
    (destroys : frame.destroys = some c) : w.destroyers c ≠ 0 := by
  have running : 0 < (w.stack.filterMap Frame.destroys).count c :=
    List.count_pos_iff.mpr (List.mem_filterMap.mpr ⟨frame, member, destroys⟩)
  unfold World.destroyers
  omega

/-- `connectDestroyedRest` follows a test or a store that has closed the connection. -/
theorem Owned.ended_new (owned : w.Owned settings) {mentions : σ → ChannelId → Prop}
    (lawful : impl.Lawful mentions) {action : Action impl.Answer} (guard : w.Destroyable action)
    (step : Step settings impl w action w') (member : .connectDestroyedRest c ∈ w'.stack)
    (new : .connectDestroyedRest c ∉ w.stack) : w'.Ended c := by
  cases step with
  | @loop frame rest frames _ v stack advance =>
    have follows : .connectDestroyedRest c ∈ frames := by
      rcases List.mem_append.mp member with follows | old
      · exact follows
      · exact absurd (by simp [stack, old]) new
    have part : frame.destroysOn = some c := by
      have handed : c ∈ frames.filterMap Frame.destroys :=
        List.mem_filterMap.mpr ⟨_, follows, rfl⟩
      rw [advance.follows.destroys] at handed
      simpa using handed
    have outermost : Outermost (frame :: rest) := stack ▸ owned.outermost
    have below : frame.destroys ≠ none → ∀ other ∈ rest, other.sends ≠ some c := by
      intro destroys other present
      rw [outermost.below destroys other present]
      simp [Frame.sends]
    cases frame with
    | connectDestroyed c' =>
      cases part
      have silent := below (by simp [Frame.destroys])
      simp only [Destroyable, running, stack, List.head?_cons] at guard
      cases advance with
      | yes tested => cases tested; simp at follows
      | no tested different none =>
        cases tested
        cases none
        obtain ⟨closed, idle⟩ := guard.resolve_left different
        exact ⟨closed, idle, by simpa [Frame.sends] using silent⟩
    | connectDestroyedStore c' =>
      cases part
      have silent := below (by simp [Frame.destroys])
      cases advance with
      | yes tested | no tested => cases tested
      | connectDestroyedStore down =>
        have closed : v.state c = .kDisconnected := (goDown_state down c).trans (if_pos rfl)
        obtain ⟨_, _, operated, rfl⟩ := operate_ok.mp down
        have events := lawful.operate_events operated c
        rw [ChannelOp.apply, ChannelHeap.events_change_same] at events
        refine ⟨closed, ?_, by simpa [Frame.sends] using silent⟩
        show Channel.isNoneEvent _ = true
        rw [Channel.isNoneEvent, events]
        rfl
    | _ => cases part
  | other others advance => exact absurd (advance.control.stack ▸ member) new
  | dispatch => cases List.mem_singleton.mp member
  | @start task =>
    have same := List.mem_singleton.mp member
    cases task <;> cases same
  | destroy => simp at member
  | _ => exact absurd member new

theorem Owned.step (owned : w.Owned settings) (orderly : w.Orderly)
    {mentions : σ → ChannelId → Prop} (lawful : impl.Lawful mentions)
    (established : w.Established settings mentions) {action : Action impl.Answer}
    (onTime : w.NoLateStore action) (guard : w.Destroyable action)
    (step : Step settings impl w action w') : w'.Owned settings := by
  obtain ⟨once, live, destructed, accepted, own⟩ := owned.live_step orderly step
  refine ⟨step.postsCalls owned.posts, fun c establishing => ?_, once, live,
    step.outermost owned.outermost, fun c unborn => step.unborn orderly
      (owned.unborn c) (owned.establishing c) fun member => unborn (accepted c member),
    destructed, own, fun frame member c sends => owned.sending_step orderly established step
      member sends, fun c member spent => owned.spent_step orderly onTime step member spent,
    fun c member => ?_⟩
  · rcases step.establishing owned.posts establishing with before | new
    · exact accepted c (owned.establishing c before)
    · exact new
  · by_cases old : .connectDestroyedRest c ∈ w.stack
    · have present : c ∈ w.accepted := by
        exact (owned.owned c (destroyers_of_stack old rfl)).1
      exact owned.ended_step orderly lawful onTime step present (owned.ended c old)
    · exact owned.ended_new lawful guard step member old

end World

end Muduo.Source
