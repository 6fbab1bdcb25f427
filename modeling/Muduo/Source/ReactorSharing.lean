import Muduo.Source.ReactorTeardown

/-!
# Strong references to the connections of a reactor

`connections_`, the functors that captured a `TcpConnectionPtr`, the callers and
the local guards hold a connection; users keep references of their own and drop
them at will. The functors of a batch are released when `doPendingFunctors`
returns. `Channel` and the write-complete functor have a plain pointer only. The
destructor runs once the last reference is gone.
-/
namespace Muduo.Source
open Muduo.Support

/-- The connection that a call holds a reference to: its caller's, that of the functor
it runs in or posts, or `guardThis`. What `Channel::handleEvent` calls holds none. -/
def Frame.holds : Frame → Option ConnId
  | .send c _ | .sendInLoop c _ _ | .sendInLoopStart c _ _ | .sendInLoopRest c _ _ | .shutdown c
  | .forceClose c | .forceCloseSecond c | .forceCloseStore c | .closeTask c | .closeTaskSecond c
  | .handleCloseRest c | .connectEstablished c | .connectEstablishedStore c
  | .connectDestroyed c | .connectDestroyedStore c | .connectDestroyedRest c => some c
  | .post task => task.holds
  | .user | .shutdownInLoop _ | .handleClose _ | .handleCloseSecond _ | .handleCloseStore _
  | .handleRead _ | .handleWrite _ | .handleWriteState _ | .handleEvent .. | .writeComplete _ =>
    none

/-- The connection that user code calls a function of. -/
def Call.callee : Call → Option ConnId
  | .send c _ | .shutdown c | .forceClose c => some c
  | .queueInLoop => none

def LoopCall.callee : LoopCall → Option ConnId
  | .setHighWaterMarkCallback c _ | .input c _ => some c
  | .newConnection _ | .watch _ => none

def Action.callee {answer : Type} : Action answer → Option ConnId
  | .call made | .loop (.call made) => made.callee
  | .loop (.loopCall made) => made.callee
  | _ => none

inductive SharedAction (answer : Type) where
  | run (action : Action answer)
  /-- a user copies a reference, or lets go of one -/
  | keep (c : ConnId)
  | drop (c : ConnId)
  /-- the last reference is gone -/
  | destruct (c : ConnId)

structure Sharing (σ : Type) where
  world : World σ
  /-- functors of the running batch that were taken -/
  begun : List Task
  /-- references of users -/
  kept : ConnId → Nat
  /-- each return of `connectDestroyed` -/
  torn : List ConnId

/-- The object whose memory an action reads. -/
def World.subject {σ answer : Type} (w : World σ) : Action answer → Option ConnId
  | .loop _ =>
    match w.stack, w.phase with
    | frame :: _, _ => frame.conn
    | [], .dispatching (id :: _) => some id
    | [], _ => none
  | .other position => w.others[position]?.bind Frame.conn
  | _ => none

namespace World

variable {σ : Type} {settings : Settings} {impl : Polling σ} {w w' : World σ}

/-- A step of a frame reads the connection that the frame works on. -/
theorem subject_of_running {answer : Type} {action : Action answer} {c : ConnId}
    (runs : (w.running action).bind Frame.conn = some c) : w.subject action = some c := by
  cases action with
  | loop input =>
    cases stack : w.stack with
    | nil => simp [running, stack] at runs
    | cons frame rest => simpa [running, subject, stack] using runs
  | other position => exact runs
  | _ => cases runs

/-- The server's lists before and after. -/
structure SameRosters (w w' : World σ) : Prop where
  accepted : w'.accepted = w.accepted
  table : w'.table = w.table
  removing : w'.removing = w.removing

/-- Where an action takes a connection from one of the server's lists to the next. -/
inductive Moves {answer : Type} (settings : Settings) (w : World σ) (action : Action answer)
    (w' : World σ) : Prop
  | stay : SameRosters w w' → (∀ c, w.running action ≠ some (.handleCloseRest c)) →
      Moves settings w action w'
  | construct {new : ConnId} : w.Fresh settings new → w'.accepted = w.accepted ++ [new] →
      w'.table = w.table ++ [new] → w'.removing = w.removing →
      (∀ c, w.running action ≠ some (.handleCloseRest c)) →
      (action = .loop (.loopCall (.newConnection new)) ∨
        action = .connectElsewhere new ∧ settings.serverHere = false) → Moves settings w action w'
  | post {c : ConnId} : w.running action = some (.handleCloseRest c) →
      settings.serverHere = false → w'.accepted = w.accepted → w'.table = w.table →
      w'.removing = w.removing ++ [c] → Moves settings w action w'
  | erase {c : ConnId} : w.running action = some (.handleCloseRest c) ∧ settings.serverHere = true ∨
        action = .destroy c ∨ action = .destroyElsewhere c →
      c ∈ w.table → w'.accepted = w.accepted → w'.table = w.table.erase c →
      w'.removing = w.removing → Moves settings w action w'
  | remove {c : ConnId} : action = .removeElsewhere c → c ∈ w.removing → c ∈ w.table →
      w'.accepted = w.accepted → w'.table = w.table.erase c →
      w'.removing = w.removing.erase c → Moves settings w action w'

theorem operate_rosters {id : ChannelId} {op : ChannelOp}
    (operated : w.operate impl id op = .ok w') : SameRosters w w' := by
  obtain ⟨_, _, _, rfl⟩ := operate_ok.mp operated
  exact ⟨rfl, rfl, rfl⟩

theorem Advance.rosters {onLoop : Bool} {frame : Frame} {input : Input} {frames : List Frame}
    (advance : Advance settings impl onLoop w frame input w' frames) :
    (SameRosters w w' ∧ ∀ c, frame ≠ .handleCloseRest c) ∨
      (∃ new, frame = .user ∧ input = .loopCall (.newConnection new) ∧ w.Fresh settings new ∧
        w' = w.construct new) ∨
      ∃ c, frame = .handleCloseRest c ∧ w'.accepted = w.accepted ∧
        (settings.serverHere = false ∧ w'.table = w.table ∧ w'.removing = w.removing ++ [c] ∨
          settings.serverHere = true ∧ c ∈ w.table ∧ w'.table = w.table.erase c ∧
            w'.removing = w.removing) := by
  cases advance with
  | yes tested | no tested => exact Or.inl ⟨⟨rfl, rfl, rfl⟩, fun c same => by cases same; cases tested⟩
  | construct _ fresh => exact Or.inr (Or.inl ⟨_, rfl, rfl, fresh, rfl⟩)
  | closeHere here removed =>
    obtain ⟨present, rfl⟩ := removeConnectionInLoop_ok.mp removed
    exact Or.inr (Or.inr ⟨_, rfl, rfl, Or.inr ⟨here, present, rfl, rfl⟩⟩)
  | closeElsewhere elsewhere =>
    exact Or.inr (Or.inr ⟨_, rfl, rfl, Or.inl ⟨elsewhere, rfl, rfl⟩⟩)
  | watch _ ran | connectDestroyedRest ran => exact Or.inl ⟨operate_rosters ran, by simp⟩
  | handleCloseStore ran | connectEstablishedStore ran | connectDestroyedStore ran =>
    obtain ⟨accepted, table, removing⟩ := operate_rosters ran
    exact Or.inl ⟨⟨accepted, table, removing⟩, by simp⟩
  | sendInLoopStart sent =>
    obtain ⟨answer, _, ran⟩ := sent
    cases ran
    exact Or.inl ⟨⟨rfl, rfl, rfl⟩, by simp⟩
  | sendInLoopRest ran =>
    obtain ⟨conn, _, ⟨_, rfl⟩ | ⟨_, operated⟩⟩ := sendInLoopRest_ok ran
    · exact Or.inl ⟨⟨rfl, rfl, rfl⟩, by simp⟩
    · obtain ⟨accepted, table, removing⟩ := operate_rosters operated
      exact Or.inl ⟨⟨accepted, table, removing⟩, by simp⟩
  | handleWrite _ _ ran =>
    obtain ⟨start, _, ⟨_, rfl, _⟩ | ⟨_, _, w₁, operated, rfl⟩⟩ := handleWrite_ok ran
    · exact Or.inl ⟨⟨rfl, rfl, rfl⟩, by simp⟩
    · obtain ⟨accepted, table, removing⟩ := operate_rosters operated
      exact Or.inl ⟨⟨accepted, table, removing⟩, by simp⟩
  | handleRead ran =>
    obtain ⟨n, conn, _, ⟨_, rfl, _⟩ | ⟨_, rfl, _⟩ | ⟨_, rfl, _⟩⟩ := handleRead_ok ran <;>
      exact Or.inl ⟨⟨rfl, rfl, rfl⟩, by simp⟩
  | _ => exact Or.inl ⟨⟨rfl, rfl, rfl⟩, by simp⟩

theorem Step.moves {action : Action impl.Answer} (step : Step settings impl w action w') :
    Moves settings w action w' := by
  have ofAdvance {onLoop : Bool} {frame : Frame} {input : Input} {v : World σ}
      {frames : List Frame} (advance : Advance settings impl onLoop w frame input v frames)
      (runs : w.running action = some frame)
      (own : ∀ new, input = .loopCall (.newConnection new) →
        action = .loop (.loopCall (.newConnection new)))
      (same : SameRosters v w') : Moves settings w action w' := by
    obtain ⟨accepted, table, removing⟩ := same
    have only : (∀ c, frame ≠ .handleCloseRest c) →
        ∀ c, w.running action ≠ some (.handleCloseRest c) := by
      intro other c same
      rw [runs, Option.some.injEq] at same
      exact other c same
    rcases advance.rosters with ⟨same, other⟩ | ⟨new, rfl, made, fresh, rfl⟩ |
      ⟨c, rfl, unchanged, ⟨elsewhere, kept, posted⟩ | ⟨here, present, erased, kept⟩⟩
    · exact .stay ⟨accepted.trans same.accepted, table.trans same.table,
        removing.trans same.removing⟩ (only other)
    · exact .construct fresh accepted table removing (only (by simp)) (Or.inl (own new made))
    · exact .post runs elsewhere (accepted.trans unchanged) (table.trans kept)
        (removing.trans posted)
    · exact .erase (Or.inl ⟨runs, here⟩) present (accepted.trans unchanged) (table.trans erased)
        (removing.trans kept)
  cases step with
  | @loop frame rest frames input v stack advance =>
    exact ofAdvance advance (by simp [running, stack]) (fun _ made => by rw [made]) ⟨rfl, rfl, rfl⟩
  | @other frame before after frames v others advance =>
    exact ofAdvance advance (by simp [running, others]) (fun _ made => by cases made) ⟨rfl, rfl, rfl⟩
  | dispatch empty | swap empty | start empty | again empty =>
    exact .stay ⟨rfl, rfl, rfl⟩ (by simp [running, empty])
  | poll | call | destruct => exact .stay ⟨rfl, rfl, rfl⟩ (by simp [running])
  | destroy _ _ present => exact .erase (Or.inr (Or.inl rfl)) present rfl rfl rfl
  | destroyElsewhere _ present => exact .erase (Or.inr (Or.inr rfl)) present rfl rfl rfl
  | connectElsewhere elsewhere fresh =>
    exact .construct fresh rfl rfl rfl (by simp [running]) (Or.inr ⟨rfl, elsewhere⟩)
  | removeElsewhere posted present => exact .remove rfl posted present rfl rfl rfl

theorem Step.destructed_kept {action : Action impl.Answer} (step : Step settings impl w action w')
    (other : ∀ c, action ≠ .destruct c) : w'.destructed = w.destructed := by
  cases step with
  | loop _ advance | other _ advance => exact advance.control.destructed
  | destruct => exact absurd rfl (other _)
  | _ => rfl

end World

namespace Sharing

variable {σ : Type}

def start (settings : Settings) (poller : σ) : Sharing σ := ⟨.start settings poller, [], fun _ => 0, []⟩

/-- The strong references to a connection. -/
def refs (s : Sharing σ) (c : ConnId) : Nat :=
  s.world.table.count c + s.world.removing.count c +
    ((s.world.tasks ++ s.begun).filterMap Task.holds).count c +
    ((s.world.stack ++ s.world.others).filterMap Frame.holds).count c + s.kept c

/-- A functor that is taken stays until the batch is done. -/
def begunAfter {answer : Type} (s : Sharing σ) : Action answer → List Task
  | .loop _ =>
    match s.world.stack, s.world.phase with
    | [], .functors (task :: _) => s.begun ++ [task]
    | [], .functors [] => []
    | _, _ => s.begun
  | _ => s.begun

def tornAfter {answer : Type} (s : Sharing σ) (action : Action answer) : List ConnId :=
  match s.world.running action with
  | some (.connectDestroyedRest c) => s.torn ++ [c]
  | _ => s.torn

/-- `~TcpConnection`, with its channel and its socket. -/
def destructed (settings : Settings) (impl : Polling σ) (s : Sharing σ) (c : ConnId) : Sharing σ :=
  { s with
    world.destructed := s.world.destructed ++ [c]
    world.poller := impl.closed s.world.poller (settings.fdOf c) }

/-- A call goes through a reference; whose memory is read has not been destructed. -/
def Allows {answer : Type} (s : Sharing σ) : Action answer → Prop
  | .destruct _ => False
  | action => ∀ c ∈ action.callee, s.refs c ≠ 0

instance {answer : Type} (s : Sharing σ) (action : Action answer) : Decidable (s.Allows action) := by
  delta Allows
  induction action using Action.casesOn <;> infer_instance

def step (settings : Settings) (impl : Polling σ) (s : Sharing σ) :
    SharedAction impl.Answer → Except Fault (Sharing σ)
  | .run action =>
    if s.Allows action then
      if ∃ c ∈ s.world.subject action, c ∈ s.world.destructed then .error .outOfRange
      else
        match s.world.step settings impl action with
        | .ok w => .ok { s with world := w, begun := s.begunAfter action, torn := s.tornAfter action }
        | .error e => .error e
    else .error .notEnabled
  | .keep c =>
    if s.refs c ≠ 0 then .ok { s with kept := Function.update s.kept c (s.kept c + 1) }
    else .error .notEnabled
  | .drop c =>
    if s.kept c ≠ 0 then .ok { s with kept := Function.update s.kept c (s.kept c - 1) }
    else .error .notEnabled
  | .destruct c =>
    if s.world.Live c ∧ s.refs c = 0 then
      if s.world.state c = .kDisconnected then .ok (s.destructed settings impl c)
      else .error (.assertFailed .tcpConnectionDtor)
    else .error .notEnabled

/-- The outcomes of an action. -/
inductive Step (settings : Settings) (impl : Polling σ) (s : Sharing σ) :
    SharedAction impl.Answer → Sharing σ → Prop
  | run {action : Action impl.Answer} {w : World σ} : (∀ c, action ≠ .destruct c) →
      (∀ c, action.callee = some c → s.refs c ≠ 0) →
      (∀ c, s.world.subject action = some c → c ∉ s.world.destructed) →
      s.world.Step settings impl action w →
      Step settings impl s (.run action)
        { s with world := w, begun := s.begunAfter action, torn := s.tornAfter action }
  | keep {c : ConnId} : s.refs c ≠ 0 →
      Step settings impl s (.keep c) { s with kept := Function.update s.kept c (s.kept c + 1) }
  | drop {c : ConnId} : s.kept c ≠ 0 →
      Step settings impl s (.drop c) { s with kept := Function.update s.kept c (s.kept c - 1) }
  | destruct {c : ConnId} : s.world.Live c → s.refs c = 0 → s.world.state c = .kDisconnected →
      Step settings impl s (.destruct c) (s.destructed settings impl c)

variable {settings : Settings} {impl : Polling σ} {s s' : Sharing σ}

theorem step_ok {action : SharedAction impl.Answer} (ran : s.step settings impl action = .ok s') :
    Step settings impl s action s' := by
  cases action with
  | run action =>
    simp only [step] at ran
    split at ran
    · next allowed =>
      rw [check_ok] at ran
      obtain ⟨alive, ran⟩ := ran
      split at ran <;> cases ran
      next w stepped =>
      have own : ∀ c, action ≠ .destruct c := by
        rintro c rfl
        exact allowed
      have called : ∀ c, action.callee = some c → s.refs c ≠ 0 := by
        intro c callee
        cases action <;> first | exact allowed c callee | cases callee
      exact .run own called (fun c subject gone => alive ⟨c, subject, gone⟩) (World.step_ok stepped)
    · cases ran
  | keep c =>
    simp only [step] at ran
    split at ran <;> cases ran
    next held => exact .keep held
  | drop c =>
    simp only [step] at ran
    split at ran <;> cases ran
    next held => exact .drop held
  | destruct c =>
    simp only [step] at ran
    split at ran
    · next ready =>
      split at ran <;> cases ran
      next closed => exact .destruct ready.1 ready.2 closed
    · cases ran

/-- Without a reference nothing holds the connection. -/
structure Unheld (s : Sharing σ) (c : ConnId) : Prop where
  table : c ∉ s.world.table
  removing : c ∉ s.world.removing
  tasks : ∀ task, task ∈ s.world.tasks ∨ task ∈ s.begun → task.holds ≠ some c
  frames : ∀ frame, frame ∈ s.world.stack ∨ frame ∈ s.world.others → frame.holds ≠ some c

theorem unheld_of_refs {c : ConnId} (last : s.refs c = 0) : s.Unheld c := by
  unfold refs at last
  have tasks : ((s.world.tasks ++ s.begun).filterMap Task.holds).count c = 0 := by omega
  have frames : ((s.world.stack ++ s.world.others).filterMap Frame.holds).count c = 0 := by omega
  refine ⟨List.count_eq_zero.mp (by omega), List.count_eq_zero.mp (by omega), ?_, ?_⟩
  · intro task member holds
    exact List.count_eq_zero.mp tasks
      (List.mem_filterMap.mpr ⟨task, List.mem_append.mpr member, holds⟩)
  · intro frame member holds
    exact List.count_eq_zero.mp frames
      (List.mem_filterMap.mpr ⟨frame, List.mem_append.mpr member, holds⟩)

/-- Nobody who holds the connection is left to destroy it. -/
theorem Unheld.destroyers {c : ConnId} (unheld : s.Unheld c) : s.world.destroyers c = 0 := by
  refine World.destroyers_eq_zero unheld.table (fun member => unheld.tasks _ (Or.inl member) rfl)
    fun frame present destroys => unheld.frames frame (Or.inl present) ?_
  cases frame <;> first | exact destroys | cases destroys

/-- Each constructed connection is to be destroyed, or was. -/
structure Claimed (s : Sharing σ) : Prop where
  orderly : s.world.Orderly
  posts : ∀ frame, frame ∈ s.world.stack ∨ frame ∈ s.world.others → frame.postsCalls = true
  once : ∀ c, s.world.destroyers c + s.torn.count c = if c ∈ s.world.accepted then 1 else 0

theorem start_claimed (settings : Settings) (poller : σ) : (start settings poller).Claimed where
  orderly := World.start_orderly settings poller
  posts := by simp [start, World.start]
  once c := by simp [start, World.start, World.destroyers, World.tasks]

theorem Claimed.accepted_of_destroyers (claimed : s.Claimed) {c : ConnId}
    (more : s.world.destroyers c ≠ 0) : c ∈ s.world.accepted := by
  by_contra unborn
  have once := claimed.once c
  rw [if_neg unborn] at once
  omega

theorem count_tornAfter {answer : Type} (action : Action answer) (c : ConnId) :
    (s.tornAfter action).count c = s.torn.count c +
      if s.world.running action = some (.connectDestroyedRest c) then 1 else 0 := by
  unfold tornAfter
  split
  · next c' runs =>
    rw [World.count_push, runs]
    simp only [Option.some.injEq, Frame.connectDestroyedRest.injEq, eq_comm]
  · next other => rw [if_neg (other c), Nat.add_zero]

theorem Claimed.step (claimed : s.Claimed) {action : SharedAction impl.Answer}
    (step : s.Step settings impl action s') : s'.Claimed := by
  obtain ⟨orderly, posts, once⟩ := claimed
  cases step with
  | @run action w _ _ _ taken =>
    refine ⟨taken.orderly orderly, taken.postsCalls posts, fun c => ?_⟩
    have torn := count_tornAfter (s := s) action c
    have before := once c
    show w.destroyers c + (s.tornAfter action).count c = if c ∈ w.accepted then 1 else 0
    rcases taken.destroyers orderly posts with ⟨accepted, count⟩ | ⟨new, fresh, accepted, count⟩
    · have counted := count c
      rw [accepted]
      omega
    · have counted := count c
      have unended : ¬ s.world.running action = some (.connectDestroyedRest c) := by
        intro runs
        obtain ⟨_, _, v, _, _, advance, rfl⟩ := taken.on_loop orderly runs rfl
        have same : v.accepted = s.world.accepted := by
          cases advance with
          | yes tested | no tested => cases tested
          | connectDestroyedRest ran =>
            obtain ⟨_, _, _, rfl⟩ := World.operate_ok.mp ran
            rfl
        simp [same] at accepted
      by_cases own : c = new
      · subst own
        rw [if_neg (World.fresh_accepted fresh)] at before
        rw [if_neg unended] at torn
        rw [if_pos rfl] at counted
        rw [accepted, if_pos (by simp)]
        omega
      · have kept : c ∈ w.accepted ↔ c ∈ s.world.accepted := by simp [accepted, own]
        rw [if_neg unended] at torn
        rw [if_neg own] at counted
        rw [if_congr kept rfl rfl]
        omega
  | keep | drop => exact ⟨orderly, posts, once⟩
  | destruct => exact ⟨orderly.restacked rfl rfl orderly.waiting orderly.knows, posts, once⟩

end Sharing

end Muduo.Source
