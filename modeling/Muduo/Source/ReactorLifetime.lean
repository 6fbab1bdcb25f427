import Muduo.Source.KqueuePollerLocality
import Muduo.Source.ReactorChannels
import Muduo.Source.ReactorRemoval

/-!
# The channel of a connection that is still referenced

While no server is destroyed, `connectDestroyed` is a functor of its own, so it runs
when nothing of the connection is being dispatched. From then on the poller does not
know the channel, unless a late store of `forceClose` lets `sendInLoop` register it
again: such a connection is never let go.
-/
namespace Muduo.Source
open Muduo.Support

namespace World

variable {σ : Type} {settings : Settings} {impl : Polling σ} {mentions : σ → ChannelId → Prop}
  {w w' : World σ} {c : ConnId}

/-- Where connections may stand, whatever is destroyed. -/
structure Placed (settings : Settings) (mentions : σ → ChannelId → Prop) (w : World σ) : Prop where
  outermost : Outermost w.stack
  establishing : ∀ c, w.Establishing c → c ∈ w.accepted
  unborn : ∀ c, c ∉ w.accepted → w.state c = .kConnecting
  own : ∀ c ∈ w.accepted, c ∉ settings.aux
  destructed : ∀ c ∈ w.destructed, c ∈ w.accepted
  established : w.Established settings mentions

theorem start_placed (settings : Settings) {poller : σ} (empty : ∀ id, ¬ mentions poller id) :
    (start settings poller).Placed settings mentions where
  outermost := trivial
  establishing := by simp [start, Establishing, World.tasks]
  unborn _ _ := rfl
  own := by simp [start]
  destructed := by simp [start]
  established := start_established settings empty

/-- New connections come from `newConnection`. -/
theorem Step.accepted_cases {action : Action impl.Answer} (step : Step settings impl w action w') :
    w'.accepted = w.accepted ∨ ∃ new, w.Fresh settings new ∧ w'.accepted = w.accepted ++ [new] := by
  cases step.moves with
  | stay same => exact Or.inl same.accepted
  | construct fresh accepted => exact Or.inr ⟨_, fresh, accepted⟩
  | post _ _ accepted => exact Or.inl accepted
  | erase _ _ accepted => exact Or.inl accepted
  | remove _ _ _ accepted => exact Or.inl accepted

theorem Step.accepted_mono {action : Action impl.Answer} (step : Step settings impl w action w')
    (born : c ∈ w.accepted) : c ∈ w'.accepted := by
  rcases step.accepted_cases with same | ⟨new, _, grown⟩
  · rwa [same]
  · rw [grown]
    exact List.mem_append_left _ born

theorem Placed.step (placed : w.Placed settings mentions) (lawful : impl.Lawful mentions)
    (orderly : w.Orderly) (posts : ∀ frame, frame ∈ w.stack ∨ frame ∈ w.others →
      frame.postsCalls = true) {action : Action impl.Answer} (other : ∀ c, action ≠ .destruct c)
    (step : Step settings impl w action w') : w'.Placed settings mentions where
  outermost := step.outermost placed.outermost
  establishing c establishing := by
    rcases step.establishing posts establishing with before | new
    · exact step.accepted_mono (placed.establishing c before)
    · exact new
  unborn c unborn := step.unborn orderly (placed.unborn c) (placed.establishing c)
    fun born => unborn (step.accepted_mono born)
  own c born := by
    rcases step.accepted_cases with same | ⟨new, fresh, grown⟩
    · exact placed.own c (same ▸ born)
    · rw [grown, List.mem_append, List.mem_singleton] at born
      rcases born with old | rfl
      · exact placed.own c old
      · exact fresh.1
  destructed c gone := by
    rw [step.destructed_kept other] at gone
    exact step.accepted_mono (placed.destructed c gone)
  established := placed.established.step lawful orderly step

/-- `connectDestroyed` runs among the functors. -/
def Phased (w : World σ) : Prop :=
  ∀ frame ∈ w.stack, frame.destroys ≠ none → w.phase.inFunctors = true

theorem Step.phased {action : Action impl.Answer} (step : Step settings impl w action w')
    (phased : w.Phased) (serves : action.serves = true) : w'.Phased := by
  intro frame member destroys
  cases step with
  | @loop running rest frames input v stack advance =>
    have phase : v.phase = w.phase := advance.control.phase
    show v.phase.inFunctors = true
    rw [phase]
    rcases List.mem_append.mp member with new | old
    · obtain ⟨own, same⟩ := Option.ne_none_iff_exists'.mp destroys
      have handed : own ∈ running.destroysOn.toList := by
        rw [← advance.follows.destroys]
        exact List.mem_filterMap.mpr ⟨frame, new, same⟩
      refine phased running (by simp [stack]) ?_
      cases running <;> simp_all [Frame.destroysOn, Frame.destroys]
    · exact phased frame (by simp [stack, old]) destroys
  | @other running before after frames v others advance =>
    have phase : v.phase = w.phase := advance.control.phase
    show v.phase.inFunctors = true
    rw [phase]
    exact phased frame (advance.control.stack ▸ member) destroys
  | dispatch =>
    rw [List.mem_singleton.mp member] at destroys
    exact absurd rfl destroys
  | start => rfl
  | swap empty | again empty | poll empty => simp [empty] at member
  | destroy => cases serves
  | call | connectElsewhere | removeElsewhere | destroyElsewhere | destruct =>
    exact phased frame member destroys

/-- Nothing dispatches the channel, or is about to. -/
structure Undispatched (w : World σ) (c : ConnId) : Prop where
  active : c ∉ w.active
  stack : ∀ callbacks, .handleEvent c callbacks ∉ w.stack

theorem Follows.handleEvent {onLoop : Bool} {frame : Frame} {frames : List Frame}
    (follows : Follows onLoop frame frames) {callbacks : List EventCallback}
    (member : .handleEvent c callbacks ∈ frames) : ∃ before, frame = .handleEvent c before := by
  cases follows.leads member with
  | call enters => cases enters
  | next => exact ⟨_, rfl⟩

/-- A channel is dispatched from `activeChannels_`. -/
theorem Step.dispatched {action : Action impl.Answer} (step : Step settings impl w action w')
    {callbacks : List EventCallback} (member : .handleEvent c callbacks ∈ w'.stack) :
    (∃ before, .handleEvent c before ∈ w.stack) ∨ c ∈ w.active := by
  cases step with
  | loop stack advance =>
    rcases List.mem_append.mp member with new | old
    · obtain ⟨before, rfl⟩ := advance.follows.handleEvent new
      exact Or.inl ⟨before, by simp [stack]⟩
    · exact Or.inl ⟨callbacks, by simp [stack, old]⟩
  | other _ advance => exact Or.inl ⟨callbacks, advance.control.stack ▸ member⟩
  | dispatch _ phase =>
    cases List.mem_singleton.mp member
    exact Or.inr (by simp [World.active, phase])
  | @start task =>
    have same := List.mem_singleton.mp member
    cases task <;> cases same
  | destroy => simp at member
  | _ => exact Or.inl ⟨callbacks, member⟩

/-- `activeChannels_` is filled by `poll` only. -/
theorem Step.activated {action : Action impl.Answer} (step : Step settings impl w action w')
    (member : c ∈ w'.active) : c ∈ w.active ∨ ∃ reported heap poller active,
      impl.reports w.poller reported = true ∧
        impl.poll w.heap w.poller reported = .ok (heap, poller, active) ∧ c ∈ active := by
  cases step with
  | loop _ advance | other _ advance =>
    have phase := advance.control.phase
    refine Or.inl ?_
    simpa only [World.active, phase] using member
  | dispatch _ phase =>
    refine Or.inl ?_
    simp only [World.active, phase] at member ⊢
    exact List.mem_cons_of_mem _ member
  | poll _ _ reports polled => exact Or.inr ⟨_, _, _, _, reports, polled, member⟩
  | swap | start | again => cases member
  | _ => exact Or.inl member

/-- The end of `connectDestroyed` leaves nothing of the connection to dispatch. -/
theorem Step.undispatched {action : Action impl.Answer} (step : Step settings impl w action w')
    (orderly : w.Orderly) (phased : w.Phased) (outermost : Outermost w.stack)
    (runs : w.running action = some (.connectDestroyedRest c)) : w'.Undispatched c := by
  obtain ⟨_, rest, v, frames, stack, advance, rfl⟩ := step.on_loop orderly runs rfl
  have functors := phased (.connectDestroyedRest c) (by simp [stack]) (by simp [Frame.destroys])
  have phase : v.phase = w.phase := advance.control.phase
  rw [stack] at outermost
  refine ⟨fun member => ?_, fun callbacks member => ?_⟩
  · simp only [World.active, phase] at member
    cases shape : w.phase with
    | functors => simp [shape] at member
    | polling | dispatching => simp [shape, Phase.inFunctors] at functors
  · rcases List.mem_append.mp member with new | old
    · obtain ⟨_, same⟩ := advance.follows.handleEvent new
      cases same
    · cases outermost.below (by simp [Frame.destroys]) _ old

end World

namespace Sharing

variable {σ : Type} {settings : Settings} {impl : Polling σ} {mentions : σ → ChannelId → Prop}
  {s s' : Sharing σ} {c : ConnId}

/-- What holds of a loop while no server is destroyed, whatever its poller. -/
structure Serving (settings : Settings) (mentions : σ → ChannelId → Prop) (s : Sharing σ) :
    Prop where
  accounted : s.Accounted
  placed : s.world.Placed settings mentions
  phased : s.world.Phased
  sending : ∀ frame ∈ s.world.stack, ∀ c, frame.sends = some c → s.world.Tidy c →
    s.world.destroyers c ≠ 0

theorem start_serving (settings : Settings) {poller : σ} (empty : ∀ id, ¬ mentions poller id) :
    (start settings poller).Serving settings mentions where
  accounted := start_accounted settings poller
  placed := World.start_placed settings empty
  phased := by simp [start, World.start, World.Phased]
  sending := by simp [start, World.start]

/-- An established connection that no late store has touched is destroyed after its sends. -/
theorem Serving.sending_step (serving : s.Serving settings mentions) {action : Action impl.Answer}
    {w : World σ} (step : s.world.Step settings impl action w) {frame : Frame}
    (member : frame ∈ w.stack) (sends : frame.sends = some c) (tidy : w.Tidy c) :
    w.destroyers c ≠ 0 := by
  obtain ⟨accounted, placed, _, sending⟩ := serving
  have orderly := accounted.claimed.orderly
  have before := accounted.tidy_step step tidy
  have held : s.world.destroyers c ≠ 0 ∧
      s.world.running action ≠ some (.connectDestroyedRest c) := by
    rcases step.sends member sends with ⟨old, present, was⟩ | ⟨⟨id, message, head⟩, unclosed⟩
    · refine ⟨sending old present c was before, fun runs => ?_⟩
      obtain ⟨rest, stack⟩ := List.head?_eq_some_iff.mp (orderly.running_head runs rfl)
      have bottom := placed.outermost
      rw [stack] at bottom present
      rcases List.mem_cons.mp present with rfl | below
      · cases was
      · rw [bottom.below (by simp [Frame.destroys]) old below] at was
        cases was
    · have begun : s.world.state c ≠ .kConnecting :=
        placed.established.stack _ (List.mem_of_mem_head? head)
      have born : c ∈ s.world.accepted := by
        by_contra unborn
        exact begun (placed.unborn c unborn)
      refine ⟨accounted.entered born ?_, fun runs => ?_⟩
      · rwa [World.Tidy, if_neg unclosed] at before
      · cases head.symm.trans (orderly.running_head runs rfl)
  rcases step.destroyers orderly accounted.claimed.posts with ⟨_, count⟩ | ⟨_, _, _, count⟩
  · have counted := count c
    rw [if_neg held.2] at counted
    omega
  · have counted := count c
    omega

theorem placed_step (placed : s.world.Placed settings mentions) (lawful : impl.Lawful mentions)
    (claimed : s.Claimed) {action : SharedAction impl.Answer}
    (step : s.Step settings impl action s') : s'.world.Placed settings mentions := by
  cases step with
  | run other _ _ taken => exact placed.step lawful claimed.orderly claimed.posts other taken
  | keep | drop => exact placed
  | @destruct gone live =>
    obtain ⟨outermost, establishing, unborn, own, destructed, established⟩ := placed
    refine ⟨outermost, establishing, unborn, own, fun c member => ?_,
      established.stack, established.others, established.tasks, established.active,
      fun id mentioned => established.poller id (lawful.closed_mentions mentioned)⟩
    rcases List.mem_append.mp member with old | new
    · exact destructed c old
    · rw [List.mem_singleton.mp new]
      exact live.1

theorem Serving.step (serving : s.Serving settings mentions) (lawful : impl.Lawful mentions)
    {action : SharedAction impl.Answer} (serves : ∀ own, action = .run own → own.serves = true)
    (step : s.Step settings impl action s') : s'.Serving settings mentions := by
  have accounted := serving.accounted.step serves step
  have placed := placed_step serving.placed lawful serving.accounted.claimed step
  cases step with
  | @run own w _ _ _ taken =>
    exact ⟨accounted, placed, taken.phased serving.phased (serves own rfl),
      fun frame member c => serving.sending_step taken member⟩
  | keep | drop | destruct => exact ⟨accounted, placed, serving.phased, serving.sending⟩

end Sharing

end Muduo.Source
