import Muduo.Source.ReactorSharing

/-!
# Connections that leave through `closeCallback_` only

While no server is destroyed, a connection leaves `connections_` once for each down
callback. A late store of `forceClose` reopens a closed connection, but the functor
that follows the store holds it and closes it again.
-/
namespace Muduo.Source
open Muduo.Support

/-- A close on the loop thread, up to the store of `kDisconnected`. -/
def Frame.closes : Frame → Option ConnId
  | .closeTask c | .closeTaskSecond c | .handleClose c | .handleCloseSecond c
  | .handleCloseStore c => some c
  | _ => none

/-- The action is no part of `~TcpServer`. -/
def Action.serves {answer : Type} : Action answer → Bool
  | .destroy _ | .destroyElsewhere _ => false
  | _ => true

namespace World

variable {σ : Type} {settings : Settings} {impl : Polling σ} {w w' : World σ} {c : ConnId}

theorem Step.downs {action : Action impl.Answer} (step : Step settings impl w action w')
    (c : ConnId) : w'.downs c = w.downs c +
      if w.running action = some (.handleCloseStore c) ∨
        w.running action = some (.connectDestroyedStore c) then 1 else 0 := by
  unfold World.downs
  rw [step.callbacks, List.count_append]
  congr 1
  unfold newCallbacks
  cases w.running action with
  | none => simp
  | some frame => simp [count_down_callbacks]

/-- A close stays on the stack from its store to `closeCallback_`. -/
theorem Step.closing {action : Action impl.Answer} (step : Step settings impl w action w')
    (orderly : w.Orderly) (c : ConnId) :
    w'.closing c + (if w.running action = some (.handleCloseRest c) then 1 else 0) =
      w.closing c + if w.running action = some (.handleCloseStore c) then 1 else 0 := by
  unfold World.closing
  cases step with
  | @loop frame rest frames _ _ stack advance =>
    have follow := advance.follows.count_closing c
    simp only [running, stack, List.head?_cons, Option.some.injEq, List.count_append,
      List.count_cons, beq_iff_eq, follow]
    omega
  | @other frame before after frames v others advance =>
    have calling := orderly.calling frame (by simp [others])
    have stack : v.stack = w.stack := advance.control.stack
    have runs : w.running (.other before.length : Action impl.Answer) = some frame := by
      simp [running, others]
    have silent : frame ≠ .handleCloseRest c ∧ frame ≠ .handleCloseStore c := by
      constructor <;> (rintro rfl; cases calling)
    simp [runs, silent, stack]
  | dispatch empty | swap empty | again empty => simp [running, empty]
  | @start task _ empty => cases task <;> simp [running, empty, Task.frame]
  | destroy _ stack => simp [running, stack]
  | poll | call | connectElsewhere | removeElsewhere | destroyElsewhere | destruct =>
    simp [running, queue, construct]

/-- A close goes on to its store while the connection is `kDisconnecting`. -/
theorem Advance.closes {onLoop : Bool} {frame : Frame} {input : Input} {frames : List Frame}
    (advance : Advance settings impl onLoop w frame input w' frames)
    (closes : frame.closes = some c) (open_ : w.state c = .kDisconnecting) :
    (∃ other ∈ frames, other.closes = some c) ∨ frame = .handleCloseStore c := by
  cases frame with
  | handleCloseStore c' =>
    cases closes
    exact Or.inr rfl
  | closeTask c' | closeTaskSecond c' | handleClose c' | handleCloseSecond c' =>
    cases closes
    cases advance with
    | yes tested =>
      cases tested
      exact Or.inl ⟨_, List.mem_singleton.mpr rfl, rfl⟩
    | no tested different none =>
      cases tested
      cases none <;> first
        | exact absurd open_ different
        | exact Or.inl ⟨_, List.mem_singleton.mpr rfl, rfl⟩
  | _ => cases closes

theorem waits_of_closes {frame : Frame} (closes : frame.closes = some c) :
    frame.waits = false := by
  cases frame <;> first | rfl | cases closes

/-- `connectDestroyed` makes the missing part of a close for `kConnected` only. -/
theorem Step.spared {action : Action impl.Answer} (step : Step settings impl w action w')
    (spared : .connectDestroyedStore c ∉ w.stack)
    (closed : .connectDestroyed c ∈ w.stack → w.state c ≠ .kConnected) :
    .connectDestroyedStore c ∉ w'.stack := by
  intro member
  generalize shape : Frame.connectDestroyedStore c = frame at member
  cases step.origin frame member with
  | kept old => exact spared (shape ▸ old)
  | @advanced running _ _ _ _ head advance _ _ new =>
    subst shape
    have handed : c ∈ running.destroysOn.toList := by
      rw [← advance.follows.destroys]
      exact List.mem_filterMap.mpr ⟨_, new, rfl⟩
    cases running with
    | connectDestroyed c' =>
      simp only [Frame.destroysOn, Option.toList_some, List.mem_singleton] at handed
      subst handed
      cases advance with
      | yes tested same =>
        cases tested
        exact closed (List.mem_of_mem_head? head) same
      | no tested _ none =>
        cases tested
        cases none
        simp at new
    | connectDestroyedStore c' =>
      cases advance with
      | yes tested | no tested => cases tested
      | connectDestroyedStore => simp at new
    | _ => simp [Frame.destroysOn] at handed
  | @started task => cases task <;> cases shape
  | dispatched | resumed | destroyed => cases shape

/-- No late store has reopened the connection. -/
def Tidy (w : World σ) (c : ConnId) : Prop :=
  w.downs c = if w.state c = .kDisconnected then 1 else 0

end World

namespace Sharing

variable {σ : Type} {settings : Settings} {impl : Polling σ} {s s' : Sharing σ} {c : ConnId}

/-- A functor of `forceClose` is on its way to the connection, or closes it now. -/
def Forced (s : Sharing σ) (c : ConnId) : Prop :=
  Frame.post (.forceClose c) ∈ s.world.others ∨ Task.forceClose c ∈ s.world.tasks ∨
    Task.forceClose c ∈ s.begun ∧ ∃ frame ∈ s.world.stack, frame.closes = some c

/-- A functor stays queued, or the loop takes it into the batch. -/
theorem tasks_step {action : Action impl.Answer} {w : World σ} {task : Task}
    (step : s.world.Step settings impl action w) (queued : task ∈ s.world.tasks) :
    task ∈ w.tasks ∨ task ∈ s.begunAfter action ∧ w.stack = [task.frame] := by
  rcases step.queued queued with stays | ⟨⟨input, rfl⟩, empty, ⟨batch, phase⟩, stack⟩
  · exact Or.inl stays
  · exact Or.inr ⟨by simp [begunAfter, empty, phase], stack⟩

/-- No functor of the batch is done while one runs. -/
theorem begunAfter_of_stack {answer : Type} {action : Action answer} {frame : Frame}
    (member : frame ∈ s.world.stack) : s.begunAfter action = s.begun := by
  cases stack : s.world.stack with
  | nil => simp [stack] at member
  | cons => cases action <;> simp [begunAfter, stack]

/-- The functor of `forceClose` does not get lost before its close stores `kDisconnected`. -/
theorem Forced.step (forced : s.Forced c) (orderly : s.world.Orderly)
    (open_ : s.world.state c = .kDisconnecting) {action : Action impl.Answer} {w : World σ}
    (step : s.world.Step settings impl action w) :
    Forced { s with world := w, begun := s.begunAfter action } c ∨
      s.world.running action = some (.handleCloseStore c) := by
  have taken (queued : Task.forceClose c ∈ s.world.tasks) :
      Forced { s with world := w, begun := s.begunAfter action } c := by
    rcases tasks_step step queued with stays | ⟨begun, stack⟩
    · exact Or.inr (Or.inl stays)
    · refine Or.inr (Or.inr ⟨begun, .closeTask c, ?_, rfl⟩)
      rw [stack]
      exact List.mem_singleton.mpr rfl
  rcases forced with posting | queued | ⟨begun, frame, member, closes⟩
  · rcases step.posting posting with stays | queued
    · exact Or.inl (Or.inl stays)
    · exact Or.inl (Or.inr (Or.inl queued))
  · exact Or.inl (taken queued)
  · have code : frame ≠ .user := by
      rintro rfl
      cases closes
    have kept : Task.forceClose c ∈ s.begunAfter action := begunAfter_of_stack member ▸ begun
    rcases step.top orderly member (World.waits_of_closes closes) code with
      stays | ⟨runs, _, rest, _, _, _, advance, rfl⟩
    · exact Or.inl (Or.inr (Or.inr ⟨kept, frame, stays, closes⟩))
    · rcases advance.closes closes open_ with ⟨other, next, closes⟩ | rfl
      · have new := List.mem_append_left rest next
        exact Or.inl (Or.inr (Or.inr ⟨kept, other, new, closes⟩))
      · exact Or.inr runs

/-- How the connections of a server that is not destroyed are accounted for. -/
structure Accounted (s : Sharing σ) : Prop where
  claimed : s.Claimed
  balance : ∀ c, s.world.downs c + s.world.table.count c =
    s.world.closing c + s.world.removing.count c + if c ∈ s.world.accepted then 1 else 0
  closed : ∀ c, s.world.downs c ≠ 0 →
    s.world.state c = .kDisconnecting ∨ s.world.state c = .kDisconnected
  ended : ∀ c, s.world.state c = .kDisconnected → s.world.downs c ≠ 0
  spared : ∀ c, .connectDestroyedStore c ∉ s.world.stack
  late : ∀ c, s.world.downs c ≠ 0 → s.world.Open c → s.Forced c

theorem start_accounted (settings : Settings) (poller : σ) : (start settings poller).Accounted where
  claimed := start_claimed settings poller
  balance c := by simp [start, World.start, World.downs, World.callbacks, World.closing]
  closed c more := by simp [start, World.start, World.downs, World.callbacks] at more
  ended c closed := by cases closed
  spared c := by simp [start, World.start]
  late c more := by simp [start, World.start, World.downs, World.callbacks] at more

/-- A connection that has left the table was closed. -/
theorem Accounted.left (accounted : s.Accounted) (born : c ∈ s.world.accepted)
    (gone : s.world.table.count c = 0) : s.world.downs c ≠ 0 := by
  have balance := accounted.balance c
  rw [if_pos born] at balance
  omega

/-- So was one that is being destroyed. -/
theorem Accounted.destroying (accounted : s.Accounted) {frame : Frame}
    (member : frame ∈ s.world.stack) (destroys : frame.destroys = some c) :
    s.world.downs c ≠ 0 := by
  have more := World.destroyers_of_stack member destroys
  have once := accounted.claimed.once c
  have born := accounted.claimed.accepted_of_destroyers more
  have running : 0 < (s.world.stack.filterMap Frame.destroys).count c :=
    List.count_pos_iff.mpr (List.mem_filterMap.mpr ⟨frame, member, destroys⟩)
  unfold World.destroyers at once
  rw [if_pos born] at once
  exact accounted.left born (by omega)

/-- Only the store of `handleClose` runs the down callback. -/
theorem Accounted.downs_step (accounted : s.Accounted) {action : Action impl.Answer} {w : World σ}
    (step : s.world.Step settings impl action w) (c : ConnId) :
    w.downs c = s.world.downs c +
      if s.world.running action = some (.handleCloseStore c) then 1 else 0 := by
  have never : s.world.running action ≠ some (.connectDestroyedStore c) := fun runs =>
    accounted.spared c
      (List.mem_of_mem_head? (accounted.claimed.orderly.running_head runs rfl))
  rw [step.downs, if_congr (or_iff_left never) rfl rfl]

theorem Accounted.balance_step (accounted : s.Accounted) {action : Action impl.Answer}
    {w : World σ} (serves : action.serves = true) (step : s.world.Step settings impl action w)
    (c : ConnId) : w.downs c + w.table.count c =
      w.closing c + w.removing.count c + if c ∈ w.accepted then 1 else 0 := by
  have before := accounted.balance c
  have downs := accounted.downs_step step c
  have closing := step.closing accounted.claimed.orderly c
  cases step.moves with
  | stay same silent =>
    rw [if_neg (silent c)] at closing
    rw [same.accepted, same.table, same.removing]
    omega
  | @construct new fresh accepted table removing silent =>
    rw [if_neg (silent c)] at closing
    have pushed := World.count_push s.world.table new c
    rw [table, removing]
    by_cases own : c = new
    · subst own
      rw [if_neg (World.fresh_accepted fresh)] at before
      rw [if_pos rfl] at pushed
      rw [if_pos (by simp [accepted])]
      omega
    · have kept : c ∈ w.accepted ↔ c ∈ s.world.accepted := by simp [accepted, own]
      rw [if_neg own] at pushed
      rw [if_congr kept rfl rfl]
      omega
  | @post own runs _ accepted table removing =>
    have pushed := World.count_push s.world.removing own c
    simp only [runs, Option.some.injEq, Frame.handleCloseRest.injEq, reduceCtorEq, if_false]
      at closing downs
    rw [accepted, table, removing]
    simp only [eq_comm (a := own)] at closing
    omega
  | @erase own cause present accepted table removing =>
    have erased := World.count_erase present c
    rcases cause with ⟨runs, _⟩ | rfl | rfl
    · simp only [runs, Option.some.injEq, Frame.handleCloseRest.injEq, reduceCtorEq, if_false]
        at closing downs
      rw [accepted, table, removing]
      simp only [eq_comm (a := own)] at closing
      omega
    · cases serves
    · cases serves
  | @remove own called posted present accepted table removing =>
    subst called
    have erased := World.count_erase present c
    have taken := World.count_erase posted c
    simp only [World.running, reduceCtorEq, if_false] at closing downs
    rw [accepted, table, removing]
    omega

/-- The down callback runs where `kDisconnected` is stored, and only there. -/
theorem Accounted.state_step (accounted : s.Accounted) {action : Action impl.Answer} {w : World σ}
    (step : s.world.Step settings impl action w) (c : ConnId) :
    (w.downs c ≠ 0 → w.state c = .kDisconnecting ∨ w.state c = .kDisconnected) ∧
      (w.state c = .kDisconnected → w.downs c ≠ 0) := by
  have downs := accounted.downs_step step c
  rcases step.state with ⟨same, silent⟩ | ⟨frame, own, state, runs, stores, changed⟩
  · rw [if_neg fun runs => silent _ runs c _ .handleClose, Nat.add_zero] at downs
    rw [downs, same]
    exact ⟨accounted.closed c, accounted.ended c⟩
  · have known := accounted.claimed.orderly.running_knows runs
    rw [changed, downs, runs]
    by_cases other : c = own
    · subst other
      rw [if_pos rfl]
      cases stores with
      | shutdown | forceClose => exact ⟨fun _ => Or.inl rfl, fun closed => by cases closed⟩
      | handleClose => exact ⟨fun _ => Or.inr rfl, fun _ => by rw [if_pos rfl]; omega⟩
      | connectEstablished =>
        have connecting : s.world.state c = .kConnecting := known
        have untouched : s.world.downs c = 0 := by
          by_contra more
          rcases accounted.closed c more with state | state <;> cases connecting.symm.trans state
        exact ⟨fun more => absurd (by simpa using more) (not_not.mpr untouched),
          fun closed => by cases closed⟩
      | connectDestroyed =>
        exact absurd (List.mem_of_mem_head?
          (accounted.claimed.orderly.running_head runs rfl)) (accounted.spared c)
    · have silent : some frame ≠ some (.handleCloseStore c) := by
        intro same
        cases same
        cases stores
        exact other rfl
      rw [if_neg other, if_neg silent, Nat.add_zero]
      exact ⟨accounted.closed c, accounted.ended c⟩

/-- A connection that is open after its close has a functor of `forceClose` to come. -/
theorem Accounted.late_step (accounted : s.Accounted) {action : Action impl.Answer} {w : World σ}
    (step : s.world.Step settings impl action w) (more : w.downs c ≠ 0) (open_ : w.Open c) :
    Forced { s with world := w, begun := s.begunAfter action } c := by
  have orderly := accounted.claimed.orderly
  have unstored : s.world.running action ≠ some (.handleCloseStore c) := by
    intro runs
    rcases step.state with ⟨_, silent⟩ | ⟨frame, own, state, runs', stores, changed⟩
    · exact silent _ runs c _ .handleClose
    · rw [runs, Option.some.injEq] at runs'
      subst runs'
      cases stores
      simp [World.Open, changed] at open_
  have before : s.world.downs c ≠ 0 := by
    have downs := accounted.downs_step step c
    rw [if_neg unstored] at downs
    omega
  rcases accounted.closed c before with disconnecting | disconnected
  · exact ((accounted.late c before (Or.inr disconnecting)).step orderly disconnecting step).resolve_right
      unstored
  · rcases step.state with ⟨same, _⟩ | ⟨frame, own, state, runs, stores, changed⟩
    · simp [World.Open, same, disconnected] at open_
    · by_cases other : c = own
      · subst other
        have known := orderly.running_knows runs
        cases stores with
        | shutdown state => cases disconnected.symm.trans state
        | connectEstablished => cases disconnected.symm.trans known
        | handleClose => exact absurd runs unstored
        | connectDestroyed => simp [World.Open, changed] at open_
        | forceClose =>
          cases step with
          | @loop first rest _ _ _ stack =>
            have head : first = .forceCloseStore c := by simpa [World.running, stack] using runs
            have open_ : s.world.Open c :=
              orderly.knows (.forceCloseStore c) (by simp [stack, head])
            simp [World.Open, disconnected] at open_
          | @other first _ _ frames _ others advance =>
            have own : first = .forceCloseStore c := by simpa [World.running, others] using runs
            subst own
            have posting : .post (.forceClose c) ∈ frames := by
              cases advance with
              | yes tested | no tested => cases tested
              | forceCloseStore => exact List.mem_singleton.mpr rfl
            exact Or.inl (by simp [posting])
          | dispatch empty | swap empty | start empty | again empty =>
            simp [World.running, empty] at runs
          | _ => cases runs
      · simp [World.Open, changed, other, disconnected] at open_

theorem Accounted.step (accounted : s.Accounted) {action : SharedAction impl.Answer}
    (serves : ∀ own, action = .run own → own.serves = true)
    (step : s.Step settings impl action s') : s'.Accounted := by
  have claimed := accounted.claimed.step step
  cases step with
  | @run own w _ _ _ taken =>
    have destroyed : ∀ c, .connectDestroyed c ∈ s.world.stack → s.world.state c ≠ .kConnected := by
      intro c member connected
      rcases accounted.closed c (accounted.destroying member rfl) with state | state <;>
        cases connected.symm.trans state
    exact ⟨claimed, accounted.balance_step (serves own rfl) taken,
      fun c => (accounted.state_step taken c).1, fun c => (accounted.state_step taken c).2,
      fun c => taken.spared (accounted.spared c) (destroyed c), fun c => accounted.late_step taken⟩
  | keep | drop | destruct =>
    exact ⟨claimed, accounted.balance, accounted.closed, accounted.ended, accounted.spared,
      accounted.late⟩

/-- A connection that was reopened stays so. -/
theorem Accounted.tidy_step (accounted : s.Accounted) {action : Action impl.Answer} {w : World σ}
    (step : s.world.Step settings impl action w) (tidy : w.Tidy c) : s.world.Tidy c := by
  have downs := accounted.downs_step step c
  unfold World.Tidy at tidy ⊢
  by_cases before : s.world.state c = .kDisconnected
  · have more := accounted.ended c before
    rw [if_pos before]
    split at tidy <;> omega
  · rw [if_neg before]
    by_cases runs : s.world.running action = some (.handleCloseStore c)
    · rw [if_pos runs] at downs
      split at tidy <;> omega
    · rw [if_neg runs] at downs
      have open_ : w.state c ≠ .kDisconnected := by
        intro after
        rcases step.state with ⟨same, _⟩ | ⟨frame, own, state, runs', stores, changed⟩
        · exact before (same ▸ after)
        · by_cases other : c = own
          · subst other
            rw [changed, if_pos rfl] at after
            cases stores with
            | handleClose => exact runs runs'
            | connectDestroyed =>
              exact accounted.spared c (List.mem_of_mem_head?
                (accounted.claimed.orderly.running_head runs' rfl))
            | shutdown | forceClose | connectEstablished => cases after
          · rw [changed, if_neg other] at after
            exact before after
      rw [if_neg open_] at tidy
      omega

/-- A live connection is in the table until it is closed. -/
theorem Accounted.entered (accounted : s.Accounted) (born : c ∈ s.world.accepted)
    (untouched : s.world.downs c = 0) : s.world.destroyers c ≠ 0 := by
  have balance := accounted.balance c
  rw [if_pos born] at balance
  unfold World.destroyers
  omega

/-- The last reference goes after the one close of the connection and its
`connectDestroyed`. -/
theorem Accounted.released (accounted : s.Accounted) (live : s.world.Live c)
    (last : s.refs c = 0) :
    s.world.Tidy c ∧ s.world.state c = .kDisconnected ∧ s.world.destroyers c = 0 ∧ c ∈ s.torn := by
  have unheld := unheld_of_refs last
  have once := accounted.claimed.once c
  rw [if_pos live.1, unheld.destroyers] at once
  have downs : s.world.downs c = 1 := by
    have balance := accounted.balance c
    have closing : s.world.closing c = 0 :=
      List.count_eq_zero.mpr fun member => unheld.frames _ (Or.inl member) rfl
    rw [if_pos live.1, List.count_eq_zero.mpr unheld.table,
      List.count_eq_zero.mpr unheld.removing, closing] at balance
    omega
  have closed : s.world.state c = .kDisconnected := by
    refine (accounted.closed c (by omega)).resolve_left fun open_ => ?_
    rcases accounted.late c (by omega) (Or.inr open_) with posting | queued | ⟨begun, _⟩
    · exact unheld.frames _ (Or.inr posting) rfl
    · exact unheld.tasks _ (Or.inl queued) rfl
    · exact unheld.tasks _ (Or.inr begun) rfl
  exact ⟨by rw [World.Tidy, downs, if_pos closed], closed, unheld.destroyers,
    List.count_pos_iff.mp (by omega)⟩

end Sharing

end Muduo.Source
