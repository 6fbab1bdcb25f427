import Muduo.Source.ReactorExecution

/-!
# What the stacks of a reactor know

Only a frame that waits for a callback stands below another one, and another
thread is in one call at a time. So what a frame has read from `state_` can only
be outdated by other threads, which move an open connection to `kDisconnecting`.
-/
namespace Muduo.Source
open Muduo.Support

/-- Frames that stand below the frames of a callback. -/
def Frame.waits : Frame → Bool
  | .user | .sendInLoopRest .. | .handleCloseRest _ | .connectDestroyedRest _
  | .handleEvent .. => true
  | _ => false

/-- Frames of calls on other threads. -/
def Frame.foreign : Frame → Bool
  | .send .. | .shutdown _ | .forceClose _ | .forceCloseSecond _ | .forceCloseStore _
  | .post _ => true
  | _ => false

namespace World

variable {σ : Type} {settings : Settings} {impl : Polling σ} {w w' : World σ}

/-- `kConnected` or `kDisconnecting`. -/
def Open (w : World σ) (c : ConnId) : Prop :=
  w.state c = .kConnected ∨ w.state c = .kDisconnecting

/-- What the test in front of a frame has found, as far as it still holds. The loop
thread may have closed the connection since another thread's test. -/
def Knows (w : World σ) (onLoop : Bool) : Frame → Prop
  | .connectEstablishedStore c => w.state c = .kConnecting
  | .forceCloseStore c => if onLoop then w.Open c else w.state c ≠ .kConnecting
  | .handleCloseStore c | .connectDestroyedStore c => w.Open c
  | .sendInLoopStart c _ _ => w.state c ≠ .kDisconnected
  | _ => True

structure Orderly (w : World σ) : Prop where
  waiting : ∀ frame ∈ w.stack.tail, frame.waits = true
  calling : ∀ frame ∈ w.others, frame.foreign = true
  knows : ∀ frame ∈ w.stack, w.Knows true frame
  heard : ∀ frame ∈ w.others, w.Knows false frame

theorem start_orderly (settings : Settings) (poller : σ) : (start settings poller).Orderly :=
  ⟨by simp [start], by simp [start], by simp [start], by simp [start]⟩

theorem knows_of_waits {onLoop : Bool} {frame : Frame} (waits : frame.waits = true) :
    w.Knows onLoop frame := by
  cases frame <;> trivial

/-- A frame is replaced by one that runs and others that wait. -/
theorem Follows.tail_waits {onLoop : Bool} {frame : Frame} {frames : List Frame}
    (follows : Follows onLoop frame frames) : ∀ other ∈ frames.tail, other.waits = true := by
  cases follows with
  | yes tested => cases frame <;> cases tested <;> simp
  | no tested none => cases frame <;> cases tested <;> cases none <;> simp
  | @dispatch c event callbacks => cases event <;> simp [callback, Frame.waits]
  | _ => simp [Frame.waits]

theorem foreign_of_enters {frame : Frame} (enters : frame.enters = true) :
    frame.foreign = true := by
  cases frame <;> first | rfl | cases enters

theorem Follows.foreign {frame : Frame} {frames : List Frame} (calling : frame.foreign = true)
    (follows : Follows false frame frames) : ∀ other ∈ frames, other.foreign = true := by
  intro other member
  cases follows.leads member with
  | @user frame entrusts => cases frame <;> simp_all [Frame.entrusts, Frame.foreign]
  | sendNow onLoop | shutdownNow onLoop | forceNow onLoop => cases onLoop
  | _ => first | rfl | cases calling

theorem knows_frame (onLoop : Bool) (task : Task) : w.Knows onLoop task.frame := by
  cases task <;> trivial

theorem knows_runInLoop (onLoop : Bool) (task : Task) :
    w.Knows onLoop (runInLoop onLoop task) := by
  cases onLoop with
  | true => exact knows_frame true task
  | false => trivial

theorem enter_foreign {call : Call} {frame : Frame} (entered : w.enter call = .ok frame) :
    frame.foreign = true ∧ ∀ onLoop, w.Knows onLoop frame := by
  have enters := enter_enters entered
  refine ⟨foreign_of_enters enters, fun onLoop => ?_⟩
  cases frame <;> trivial

/-- The frames that follow a test know what it found. -/
theorem Advance.knows {onLoop : Bool} {frame : Frame} {input : Input} {frames : List Frame}
    (advance : Advance settings impl onLoop w frame input w' frames) :
    ∀ other ∈ frames, w'.Knows onLoop other := by
  cases advance with
  | yes tested same =>
    cases frame <;> cases tested <;> simp_all [Knows, Open]
  | no tested different none =>
    cases frame <;> cases tested <;> cases none <;> simp_all [Knows]
  | accept | shutdown | forceCloseStore => simp [knows_runInLoop]
  | call entered =>
    have resumed : w.Knows onLoop .user := trivial
    simp [(enter_foreign entered).2, resumed]
  | @dispatch c event callbacks => cases event <;> simp [callback, Knows]
  | sendInLoopStart sent =>
    obtain ⟨answer, _, ran⟩ := sent
    cases ran
    split
    · simp
    · split <;> simp [Knows]
  | handleWrite _ _ ran =>
    obtain ⟨start, _, ⟨_, _, rfl⟩ | ⟨_, rfl, _⟩⟩ := handleWrite_ok ran <;> simp [Knows]
  | handleRead ran =>
    obtain ⟨n, conn, _, ⟨_, _, rfl⟩ | ⟨_, _, rfl⟩ | ⟨_, _, rfl⟩⟩ := handleRead_ok ran <;>
      simp [Knows]
  | _ => simp [Knows]

/-- Other threads only move a connection to `kDisconnecting`, once it is established. -/
theorem Advance.foreign_state {running : Frame} {frames : List Frame} {input : Input}
    (calling : running.foreign = true) (known : w.Knows false running)
    (advance : Advance settings impl false w running input w' frames) (c : ConnId) :
    w'.state c = w.state c ∨ w.state c ≠ .kConnecting ∧ w'.state c = .kDisconnecting := by
  rcases advance.state with ⟨same, _⟩ | ⟨c', s, stores, same⟩
  · exact Or.inl (congrFun same c)
  · rw [same]
    split
    · next own =>
      subst own
      cases stores with
      | shutdown open_ => exact Or.inr ⟨by simp [open_], rfl⟩
      | forceClose => exact Or.inr ⟨known, rfl⟩
      | handleClose | connectEstablished | connectDestroyed => cases calling
    · exact Or.inl rfl

theorem knows_of_foreign {onLoop : Bool} {frame running : Frame} {frames : List Frame}
    {input : Input} (calling : running.foreign = true) (known : w.Knows false running)
    (advance : Advance settings impl false w running input w' frames)
    (before : w.Knows onLoop frame) : w'.Knows onLoop frame := by
  have moved := advance.foreign_state calling known
  cases frame with
  | connectEstablishedStore c | handleCloseStore c | connectDestroyedStore c
  | sendInLoopStart c _ _ =>
    rcases moved c with same | ⟨started, same⟩ <;> simp_all [Knows, Open]
  | forceCloseStore c =>
    cases onLoop <;> rcases moved c with same | ⟨started, same⟩ <;> simp_all [Knows, Open]
  | _ => trivial

/-- What a call on another thread knows stays true on whatever step. -/
theorem knows_foreign {onLoop : Bool} {frame running : Frame} {frames : List Frame} {input : Input}
    (calling : frame.foreign = true)
    (advance : Advance settings impl onLoop w running input w' frames)
    (before : w.Knows false frame) : w'.Knows false frame := by
  cases frame with
  | forceCloseStore c =>
    rcases advance.state with ⟨same, _⟩ | ⟨c, s, stores, same⟩
    · simpa [Knows, same] using before
    · simp only [Knows, same, Bool.false_eq_true, if_false] at before ⊢
      split
      · cases stores <;> simp
      · exact before
  | _ => trivial

/-- Only the state of connections matters to what frames know. -/
theorem Knows.congr {onLoop : Bool} {frame : Frame} (same : w'.state = w.state)
    (known : w.Knows onLoop frame) : w'.Knows onLoop frame := by
  cases frame <;> simp_all [Knows, Open]

/-- Nothing changes below, and what runs now waits for nothing. -/
theorem waiting_append {frames rest : List Frame}
    (top : ∀ frame ∈ frames.tail, frame.waits = true) (below : ∀ frame ∈ rest, frame.waits = true) :
    ∀ frame ∈ (frames ++ rest).tail, frame.waits = true := by
  cases frames with
  | nil => exact fun frame member => below frame (List.mem_of_mem_tail member)
  | cons first frames =>
    intro frame member
    rcases List.mem_append.mp member with member | member
    · exact top frame member
    · exact below frame member

/-- A step that leaves all states alone and the calls of other threads in place. -/
theorem Orderly.restacked (orderly : w.Orderly) (others : w'.others = w.others)
    (same : w'.state = w.state) (waiting : ∀ frame ∈ w'.stack.tail, frame.waits = true)
    (knows : ∀ frame ∈ w'.stack, w'.Knows true frame) : w'.Orderly := by
  refine ⟨waiting, by rw [others]; exact orderly.calling, knows, fun frame member => ?_⟩
  rw [others] at member
  exact Knows.congr same (orderly.heard frame member)

theorem Step.orderly {action : Action impl.Answer} (orderly : w.Orderly)
    (step : Step settings impl w action w') : w'.Orderly := by
  cases step with
  | @loop frame rest frames _ w' stack advance =>
    have below : ∀ other ∈ rest, other.waits = true := by
      intro other member
      exact orderly.waiting other (by rw [stack]; exact member)
    have others : ({ w' with stack := frames ++ rest } : World σ).others = w.others :=
      advance.control.others
    refine ⟨waiting_append advance.follows.tail_waits below, ?_, fun other member => ?_,
      fun other member => ?_⟩
    · rw [others]
      exact orderly.calling
    · rcases List.mem_append.mp member with member | member
      · exact Knows.congr rfl (advance.knows other member)
      · exact knows_of_waits (below other member)
    · rw [others] at member
      have after : w'.Knows false other := knows_foreign (orderly.calling other member) advance
        (orderly.heard other member)
      exact Knows.congr rfl after
  | @other frame before after frames w' others advance =>
    have running : frame ∈ w.others := by simp [others]
    have calling := orderly.calling frame running
    have known := orderly.heard frame running
    have kept : ∀ other, other ∈ before ∨ other ∈ after → other ∈ w.others := by
      intro other member
      rcases member with member | member <;> simp [others, member]
    refine ⟨?_, fun other member => ?_, fun other member => ?_, fun other member => ?_⟩
    · rw [show ({ w' with others := before ++ frames ++ after } : World σ).stack = w.stack from
        advance.control.stack]
      exact orderly.waiting
    · simp only [List.mem_append] at member
      rcases member with (member | member) | member
      · exact orderly.calling other (kept other (Or.inl member))
      · exact advance.follows.foreign calling other member
      · exact orderly.calling other (kept other (Or.inr member))
    · have old := orderly.knows other (advance.control.stack ▸ member)
      have after : w'.Knows true other := knows_of_foreign calling known advance old
      exact Knows.congr rfl after
    · have old : ∀ other ∈ w.others, w'.Knows false other := fun other member =>
        knows_of_foreign calling known advance (orderly.heard other member)
      refine Knows.congr rfl ?_
      simp only [List.mem_append] at member
      rcases member with (member | member) | member
      · exact old other (kept other (Or.inl member))
      · exact advance.knows other member
      · exact old other (kept other (Or.inr member))
  | dispatch empty =>
    exact orderly.restacked rfl rfl (by simp) (by simp [Knows])
  | @start task =>
    exact orderly.restacked rfl rfl (by simp) (by simpa using knows_frame true task)
  | swap | again | poll | connectElsewhere | removeElsewhere | destroyElsewhere | destruct =>
    exact orderly.restacked rfl rfl orderly.waiting orderly.knows
  | destroy _ stack =>
    exact orderly.restacked rfl rfl (by simp [Frame.waits]) (by simp [Knows])
  | call entered =>
    obtain ⟨calling, known⟩ := enter_foreign entered
    refine ⟨orderly.waiting, fun other member => ?_, orderly.knows, fun other member => ?_⟩
    · rcases List.mem_append.mp member with member | member
      · exact orderly.calling other member
      · rwa [List.mem_singleton.mp member]
    · rcases List.mem_append.mp member with member | member
      · exact orderly.heard other member
      · rw [List.mem_singleton.mp member]
        exact known false

/-- The frame whose next step an action takes. -/
def running {answer : Type} (w : World σ) : Action answer → Option Frame
  | .loop _ => w.stack.head?
  | .other position => w.others[position]?
  | _ => none

theorem running_mem {answer : Type} {action : Action answer} {frame : Frame}
    (runs : w.running action = some frame) : frame ∈ w.stack ∨ frame ∈ w.others := by
  cases action with
  | loop => exact Or.inl (List.mem_of_mem_head? runs)
  | other => exact Or.inr (List.mem_of_getElem? runs)
  | _ => cases runs

/-- The loop thread advances its top frame. -/
theorem Step.advanced {frame : Frame} {input : Input}
    (step : Step settings impl w (.loop input : Action impl.Answer) w')
    (head : w.stack.head? = some frame) :
    ∃ rest v frames, w.stack = frame :: rest ∧ Advance settings impl true w frame input v frames ∧
      { v with stack := frames ++ rest } = w' := by
  cases step with
  | loop stack advance =>
    rw [stack, List.head?_cons, Option.some.injEq] at head
    subst head
    exact ⟨_, _, _, stack, advance, rfl⟩
  | dispatch empty | swap empty | start empty | again empty => simp [empty] at head

/-- An action writes one connection's `state_`, through the frame it runs, or none. -/
theorem Step.state {action : Action impl.Answer} (step : Step settings impl w action w') :
    (w'.state = w.state ∧ ∀ frame, w.running action = some frame → ∀ c s, ¬ w.Stores frame c s) ∨
      ∃ frame c s, w.running action = some frame ∧ w.Stores frame c s ∧
        ∀ other, w'.state other = if other = c then s else w.state other := by
  have ofAdvance {onLoop : Bool} {frame : Frame} {input : Input} {v : World σ} {frames : List Frame}
      (runs : w.running action = some frame)
      (advance : Advance settings impl onLoop w frame input v frames) :
      (v.state = w.state ∧ ∀ frame, w.running action = some frame → ∀ c s, ¬ w.Stores frame c s) ∨
        ∃ frame c s, w.running action = some frame ∧ w.Stores frame c s ∧
          ∀ other, v.state other = if other = c then s else w.state other := by
    rcases advance.state with ⟨same, silent⟩ | ⟨c, s, stores, changed⟩
    · refine .inl ⟨same, fun frame run => ?_⟩
      rw [runs, Option.some.injEq] at run
      exact run ▸ silent
    · exact .inr ⟨_, c, s, runs, stores, changed⟩
  cases step with
  | loop stack advance =>
    have stored := ofAdvance (by simp [running, stack]) advance
    exact stored
  | other others advance =>
    have stored := ofAdvance (by simp [running, others]) advance
    exact stored
  | dispatch empty | swap empty | start empty | again empty =>
    exact .inl ⟨rfl, fun frame run => by simp [running, empty] at run⟩
  | _ => exact .inl ⟨rfl, fun frame run => by cases run⟩

/-- What the running frame knows at least. -/
theorem Orderly.running_knows (orderly : w.Orderly) {action : Action impl.Answer} {frame : Frame}
    (runs : w.running action = some frame) : w.Knows false frame := by
  cases action with
  | loop =>
    have known := orderly.knows frame (List.mem_of_mem_head? runs)
    cases frame with
    | forceCloseStore c =>
      rcases (known : w.Open c) with open_ | open_ <;> simp [Knows, open_]
    | _ => exact known
  | other => exact orderly.heard frame (List.mem_of_getElem? runs)
  | _ => cases runs

/-- The step is not a store of `forceClose` on a connection that is `kDisconnected`. -/
def NoLateStore {answer : Type} (w : World σ) (action : Action answer) : Prop :=
  match w.running action with
  | some (.forceCloseStore c) => w.state c ≠ .kDisconnected
  | _ => True

instance {answer : Type} (w : World σ) (action : Action answer) :
    Decidable (NoLateStore w action) := by
  delta NoLateStore
  rcases w.running action with _ | frame
  · infer_instance
  · induction frame using Frame.casesOn <;> infer_instance

theorem noLateStore_iff {answer : Type} {action : Action answer} :
    NoLateStore w action ↔
      ∀ c, w.running action = some (.forceCloseStore c) → w.state c ≠ .kDisconnected := by
  unfold NoLateStore
  split
  · next c runs => simp [runs]
  · next other => exact iff_of_true trivial fun c runs => absurd runs (other c)

theorem orderly_of_run {poller : σ} {guard : World σ → Action impl.Answer → Prop}
    {actions : List (Action impl.Answer)}
    (run : Run (Guarded guard (Graph (World.step settings impl))) (start settings poller) actions w) :
    w.Orderly :=
  run.invariant (start_orderly settings poller) fun _ _ _ orderly taken =>
    (step_ok taken.2).orderly orderly

end World

end Muduo.Source
