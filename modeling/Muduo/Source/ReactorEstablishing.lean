import Muduo.Support.Queue
import Muduo.Source.ReactorTeardown

/-!
# A connection is established before it is destroyed

`newConnection` calls `connectEstablished` at once on its own loop, and queues it on
another one, in front of any `connectDestroyed` of the connection. So no
`connectDestroyed` finds a connection that is still `kConnecting`.
-/
namespace Muduo.Source
open Muduo.Support

namespace World

variable {σ : Type} {settings : Settings} {impl : Polling σ} {w w' : World σ} {c : ConnId}

/-- A step queues functors at the end, or starts the first one of the batch. Only the
server's own loop queues `connectEstablished`. -/
theorem Step.tasks_change {action : Action impl.Answer} (step : Step settings impl w action w')
    (posts : ∀ frame, frame ∈ w.stack ∨ frame ∈ w.others → frame.postsCalls = true) :
    (∃ queued, w'.tasks = w.tasks ++ queued ∧ ∀ c, .connectEstablished c ∈ queued →
        settings.serverHere = false ∧ w.Fresh settings c) ∨
      ∃ task, w.stack = [] ∧ w.tasks = task :: w'.tasks ∧ w'.stack = [task.frame] := by
  have ofAdvance {onLoop : Bool} {frame : Frame} {input : Input} {v : World σ}
      {frames : List Frame} (advance : Advance settings impl onLoop w frame input v frames)
      (own : frame.postsCalls = true) : ∃ queued, v.tasks = w.tasks ++ queued ∧
        ∀ c, .connectEstablished c ∈ queued → settings.serverHere = false ∧ w.Fresh settings c := by
    obtain ⟨queued, grown, origin⟩ := advance.pending
    refine ⟨queued, by simp [World.tasks, advance.control.phase, grown], fun c member => ?_⟩
    rcases origin _ member with rfl | ⟨_, _, same⟩ | ⟨_, _, same⟩
    · cases own
    · cases same
    · cases same
  cases step with
  | @loop frame rest _ _ _ stack advance =>
    have queues := ofAdvance advance (posts frame (Or.inl (by simp [stack])))
    exact Or.inl queues
  | @other frame before after _ _ others advance =>
    have queues := ofAdvance advance (posts frame (Or.inr (by simp [others])))
    exact Or.inl queues
  | dispatch _ phase | swap _ phase | again _ phase | poll _ phase =>
    exact Or.inl ⟨[], by simp [World.tasks, phase], by simp⟩
  | @start task batch empty phase =>
    exact Or.inr ⟨task, empty, by simp [World.tasks, phase], rfl⟩
  | destroy | call | destruct => exact Or.inl ⟨[], (List.append_nil _).symm, by simp⟩
  | @connectElsewhere c elsewhere fresh =>
    refine Or.inl ⟨[.connectEstablished c], tasks_queue _, fun other member => ?_⟩
    cases List.mem_singleton.mp member
    exact ⟨elsewhere, fresh⟩
  | @removeElsewhere c | @destroyElsewhere c =>
    exact Or.inl ⟨[.connectDestroyed c], tasks_queue _, by simp⟩

/-- A new connection comes with its `connectEstablished`. -/
theorem Advance.accepted {onLoop : Bool} {frame : Frame} {input : Input} {frames : List Frame}
    (advance : Advance settings impl onLoop w frame input w' frames) (member : c ∈ w'.accepted) :
    c ∈ w.accepted ∨ .connectEstablished c ∈ frames := by
  cases advance with
  | @construct new =>
    rcases List.mem_append.mp member with old | new
    · exact Or.inl old
    · exact Or.inr (by simp [List.mem_singleton.mp new])
  | closeHere _ removed =>
    obtain ⟨_, rfl⟩ := removeConnectionInLoop_ok.mp removed
    exact Or.inl member
  | watch _ ran | connectDestroyedRest ran | handleCloseStore ran | connectEstablishedStore ran
  | connectDestroyedStore ran =>
    obtain ⟨_, _, _, rfl⟩ := operate_ok.mp ran
    exact Or.inl member
  | sendInLoopStart sent =>
    obtain ⟨answer, _, ran⟩ := sent
    cases ran
    exact Or.inl member
  | sendInLoopRest ran =>
    obtain ⟨conn, _, ⟨_, rfl⟩ | ⟨_, operated⟩⟩ := sendInLoopRest_ok ran
    · exact Or.inl member
    · obtain ⟨_, _, _, rfl⟩ := operate_ok.mp operated
      exact Or.inl member
  | handleWrite _ _ ran =>
    obtain ⟨start, _, ⟨_, rfl, _⟩ | ⟨_, _, w₁, operated, rfl⟩⟩ := handleWrite_ok ran
    · exact Or.inl member
    · obtain ⟨_, _, _, rfl⟩ := operate_ok.mp operated
      exact Or.inl member
  | handleRead ran =>
    obtain ⟨n, conn, _, ⟨_, rfl, _⟩ | ⟨_, rfl, _⟩ | ⟨_, rfl, _⟩⟩ := handleRead_ok ran <;>
      exact Or.inl member
  | _ => exact Or.inl member

/-- `connectEstablished` goes on while the connection is `kConnecting`. -/
theorem Advance.establishing {onLoop : Bool} {frame : Frame} {input : Input} {frames : List Frame}
    (advance : Advance settings impl onLoop w frame input w' frames)
    (establishes : frame.establishes = some c) (connecting : w'.state c = .kConnecting) :
    ∃ other ∈ frames, other.establishes = some c := by
  cases frame with
  | connectEstablished c' =>
    cases establishes
    cases advance with
    | yes tested =>
      cases tested
      exact ⟨_, List.mem_singleton.mpr rfl, rfl⟩
    | no tested _ none =>
      cases tested
      cases none
  | connectEstablishedStore c' =>
    cases establishes
    cases advance with
    | yes tested | no tested => cases tested
    | connectEstablishedStore ran =>
      rw [operate_state ran] at connecting
      simp [note, World.state, setState] at connecting
  | _ => cases establishes

/-- The connections that are not established yet. -/
structure Starting (settings : Settings) (w : World σ) : Prop where
  here : settings.serverHere = true → ∀ c, .connectEstablished c ∉ w.tasks
  connecting : ∀ c ∈ w.accepted, w.state c = .kConnecting →
    (∃ frame ∈ w.stack, frame.establishes = some c) ∨
      QueuedBefore (.connectEstablished c) (.connectDestroyed c) w.tasks
  destroying : ∀ c, .connectDestroyed c ∈ w.stack → w.state c ≠ .kConnecting

theorem start_starting (settings : Settings) (poller : σ) :
    (start settings poller).Starting settings where
  here := by simp [start, World.tasks]
  connecting := by simp [start]
  destroying := by simp [start]

theorem Owned.accepted_of_destroyers (owned : w.Owned settings) (more : w.destroyers c ≠ 0) :
    c ∈ w.accepted :=
  (owned.owned c more).1

theorem destroyers_of_tasks (member : .connectDestroyed c ∈ w.tasks) : w.destroyers c ≠ 0 := by
  have listed := List.count_pos_iff.mpr member
  unfold World.destroyers
  omega

theorem destroyers_of_table (member : c ∈ w.table) : w.destroyers c ≠ 0 := by
  have listed := List.count_pos_iff.mpr member
  unfold World.destroyers
  omega

/-- `connectDestroyed` begins as a functor, or with the destruction of the server. -/
theorem Follows.begins_no_destroy {onLoop : Bool} {frame : Frame} {frames : List Frame}
    (follows : Follows onLoop frame frames) : .connectDestroyed c ∉ frames := by
  intro member
  cases follows.leads member with
  | call enters => cases enters

namespace Starting

/-- What is to establish the connection is still there, or has become a frame. -/
theorem queued_step (owned : w.Owned settings)
    {action : Action impl.Answer} (step : Step settings impl w action w')
    (queued : QueuedBefore (.connectEstablished c) (.connectDestroyed c) w.tasks) :
    (∃ frame ∈ w'.stack, frame.establishes = some c) ∨
      QueuedBefore (.connectEstablished c) (.connectDestroyed c) w'.tasks := by
  rcases step.tasks_change owned.posts with ⟨more, grown, _⟩ | ⟨task, _, first, stack⟩
  · exact Or.inr (grown ▸ queued.enqueue more)
  · rcases (first ▸ queued).dequeue with rfl | ⟨_, later⟩
    · exact Or.inl ⟨_, by rw [stack]; exact List.mem_singleton.mpr rfl, rfl⟩
    · exact Or.inr later

theorem frame_step {action : Action impl.Answer} (step : Step settings impl w action w')
    (connecting : w'.state c = .kConnecting)
    (establishing : ∃ frame ∈ w.stack, frame.establishes = some c) :
    ∃ frame ∈ w'.stack, frame.establishes = some c := by
  obtain ⟨frame, member, establishes⟩ := establishing
  cases step with
  | @loop running rest frames _ _ stack advance =>
    rw [stack, List.mem_cons] at member
    rcases member with rfl | below
    · obtain ⟨other, follows, same⟩ := advance.establishing establishes connecting
      exact ⟨other, List.mem_append_left _ follows, same⟩
    · exact ⟨frame, List.mem_append_right _ below, establishes⟩
  | other _ advance =>
    have stack := advance.control.stack
    exact ⟨frame, stack ▸ member, establishes⟩
  | dispatch empty | swap empty | start empty | again empty | poll empty => simp [empty] at member
  | destroy _ stack =>
    rw [stack, List.mem_singleton] at member
    subst member
    cases establishes
  | call | connectElsewhere | removeElsewhere | destroyElsewhere | destruct =>
    exact ⟨frame, member, establishes⟩

theorem new_step (orderly : w.Orderly) (owned : w.Owned settings) {action : Action impl.Answer}
    (step : Step settings impl w action w') (member : c ∈ w'.accepted) :
    c ∈ w.accepted ∨ (∃ frame ∈ w'.stack, frame.establishes = some c) ∨
      QueuedBefore (.connectEstablished c) (.connectDestroyed c) w'.tasks := by
  cases step with
  | loop _ advance =>
    rcases advance.accepted member with old | new
    · exact Or.inl old
    · exact Or.inr (Or.inl ⟨_, List.mem_append_left _ new, rfl⟩)
  | @other frame before after _ _ others advance =>
    rcases advance.accepted member with old | new
    · exact Or.inl old
    · have calling := advance.follows.foreign (orderly.calling frame (by simp [others])) _ new
      cases calling
  | connectElsewhere _ fresh =>
    rcases List.mem_append.mp member with old | new
    · exact Or.inl old
    · cases List.mem_singleton.mp new
      refine Or.inr (Or.inr ?_)
      rw [tasks_queue]
      refine queuedBefore_last fun listed => ?_
      exact fresh_accepted fresh (owned.accepted_of_destroyers (destroyers_of_tasks listed))
  | _ => exact Or.inl member

/-- A `connectDestroyed` that begins finds its connection established. -/
theorem destroying_step (starting : w.Starting settings) (owned : w.Owned settings)
    {action : Action impl.Answer}
    (step : Step settings impl w action w') (member : .connectDestroyed c ∈ w'.stack) :
    w'.state c ≠ .kConnecting := by
  refine step.state_ne ?_
  cases step with
  | loop stack advance =>
    rcases List.mem_append.mp member with new | old
    · exact absurd new advance.follows.begins_no_destroy
    · exact starting.destroying c (by simp [stack, old])
  | other _ advance => exact starting.destroying c (advance.control.stack ▸ member)
  | dispatch => cases List.mem_singleton.mp member
  | @start task batch empty phase =>
    have same := List.mem_singleton.mp member
    cases task <;> cases same
    intro connecting
    have tasks : w.tasks = .connectDestroyed c :: (batch ++ w.pending) := by
      simp [World.tasks, phase]
    have listed : .connectDestroyed c ∈ w.tasks := by simp [tasks]
    have accepted := owned.accepted_of_destroyers (destroyers_of_tasks listed)
    rcases starting.connecting c accepted connecting with ⟨frame, present, _⟩ | queued
    · simp [empty] at present
    · rcases (tasks ▸ queued).dequeue with same | ⟨different, _⟩
      · cases same
      · exact different rfl
  | @destroy c' here stack listed =>
    rcases List.mem_cons.mp member with same | member
    · cases same
      intro connecting
      have accepted := owned.accepted_of_destroyers (destroyers_of_table listed)
      rcases starting.connecting c accepted connecting with ⟨frame, present, establishes⟩ | queued
      · rw [stack, List.mem_singleton] at present
        subst present
        cases establishes
      · obtain ⟨front, back, split, _⟩ := queued
        exact starting.here here c (by simp [split])
    · cases List.mem_singleton.mp member
  | swap | again | poll | call | connectElsewhere | removeElsewhere | destroyElsewhere
  | destruct => exact starting.destroying c member

theorem step (starting : w.Starting settings) (orderly : w.Orderly) (owned : w.Owned settings)
    {action : Action impl.Answer} (step : Step settings impl w action w') :
    w'.Starting settings where
  here here c member := by
    rcases step.tasks_change owned.posts with ⟨queued, grown, origin⟩ | ⟨task, _, first, _⟩
    · rw [grown, List.mem_append] at member
      rcases member with old | new
      · exact starting.here here c old
      · cases here.symm.trans (origin c new).1
    · exact starting.here here c (by simp [first, member])
  connecting c member connecting := by
    rcases new_step orderly owned step member with accepted | started
    · have before : w.state c = .kConnecting := by
        by_contra begun
        exact step.state_ne begun connecting
      rcases starting.connecting c accepted before with frame | queued
      · exact Or.inl (frame_step step connecting frame)
      · exact queued_step owned step queued
    · exact started
  destroying c member := starting.destroying_step owned step member

end Starting

end World

end Muduo.Source
