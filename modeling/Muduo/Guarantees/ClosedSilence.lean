import Muduo.Source.ReactorChannels
import Muduo.Source.ReactorEstablishing
import Muduo.Guarantees.CloseOnce

/-!
# A closed connection and its poller

Closing drops all interest. Two paths bring it back, or keep it: a `sendInLoop`
whose high-water callback has closed the connection goes on to enable writing, and
`connectDestroyed` on a connection in half-close goes on to `Channel::remove` with
its interest as it is. On every other path a closed connection stays silent.
-/
namespace Muduo.Guarantees
open Muduo.Support Muduo.Source Muduo.Source.World

variable {σ : Type} {settings : Settings} {impl : Polling σ} {w w' : World σ} {c : ConnId}

/-- A closed connection's channel asks for no event, nor does one that is about to be
removed. -/
structure Silent (w : World σ) : Prop where
  idle : ∀ c, w.state c = .kDisconnected → (w.heap c).isNoneEvent = true
  removed : ∀ c, w.stack.head? = some (.connectDestroyedRest c) → (w.heap c).isNoneEvent = true

/-- The step enables nothing on a closed connection's channel. -/
def NoEnable (settings : Settings) {answer : Type} (w : World σ) (action : Action answer) : Prop :=
  ∀ frame c opt, w.running action = some frame → Operates settings w frame c (.update opt) →
    w.state c = .kDisconnected → opt ≠ .enRead ∧ opt ≠ .enWrite

/-- The step neither lets a `sendInLoop` of a closed connection store its remainder, nor
begins `connectDestroyed` on one that is neither `kConnected` nor `kDisconnected`. -/
def KeepsSilent {answer : Type} (w : World σ) (action : Action answer) : Prop :=
  match w.running action with
  | some (.sendInLoopRest c _ _) => w.state c ≠ .kDisconnected
  | some (.connectDestroyed c) => w.state c = .kConnected ∨ w.state c = .kDisconnected
  | _ => True

instance {answer : Type} (w : World σ) (action : Action answer) :
    Decidable (KeepsSilent w action) := by
  delta KeepsSilent
  rcases w.running action with _ | frame
  · infer_instance
  · induction frame using Frame.casesOn <;> infer_instance

/-- What holds along silent runs on the loop thread. -/
structure Silencing (settings : Settings) (mentions : σ → ChannelId → Prop) (w : World σ) :
    Prop where
  orderly : w.Orderly
  quiet : Quiet w
  established : w.Established settings mentions
  owned : w.Owned settings
  starting : w.Starting settings
  reading : w.Reading
  idle : ∀ c, w.state c = .kDisconnected → (w.heap c).events = kNoneEvent

theorem events_of_isNoneEvent {ch : Channel} : ch.isNoneEvent = true ↔ ch.events = kNoneEvent := by
  simp [Channel.isNoneEvent]

namespace Silencing

variable {mentions : σ → ChannelId → Prop}

theorem start (settings : Settings) {poller : σ} (empty : ∀ id, ¬ mentions poller id) :
    Silencing settings mentions (World.start settings poller) where
  orderly := start_orderly settings poller
  quiet := by simp [Quiet, World.start]
  established := start_established settings empty
  owned := start_owned settings poller
  starting := start_starting settings poller
  reading c open_ := by rcases open_ with open_ | open_ <;> cases open_
  idle c closed := by cases closed

theorem silent (silencing : Silencing settings mentions w) : Silent w where
  idle c closed := events_of_isNoneEvent.mpr (silencing.idle c closed)
  removed c head := (silencing.owned.ended c (List.mem_of_mem_head? head)).idle

/-- `connectDestroyed` finds an open connection, or one without interest. -/
theorem destroyable (silencing : Silencing settings mentions w) {action : Action impl.Answer}
    (keeps : KeepsSilent w action) : w.Destroyable action := by
  unfold Destroyable
  split
  · next c runs =>
    simp only [KeepsSilent, runs] at keeps
    exact keeps.imp_right fun closed =>
      ⟨closed, events_of_isNoneEvent.mpr (silencing.idle c closed)⟩
  · trivial

/-- An operation leaves a closed connection's channel without interest. -/
theorem operated_idle (silencing : Silencing settings mentions w) {frame : Frame} {id : ChannelId}
    {op : ChannelOp} {action : Action impl.Answer} (keeps : KeepsSilent w action)
    (runs : w.running action = some frame) (operates : Operates settings w frame id op)
    (closed : w.state c = .kDisconnected) : (op.apply w.heap id c).events = kNoneEvent := by
  have none := silencing.idle c closed
  have known := silencing.orderly.running_knows runs
  by_cases own : c = id
  · subst own
    cases operates with
    | watch aux =>
      have unborn := silencing.owned.unborn c fun accepted => silencing.owned.own c accepted aux
      cases closed.symm.trans unborn
    | connectEstablished => cases closed.symm.trans known
    | handleClose | connectDestroyed => rw [ChannelOp.apply, ChannelHeap.events_change_same]; rfl
    | remove => rw [ChannelOp.apply, ChannelHeap.events_leave, none]
    | enableWriting =>
      simp only [KeepsSilent, runs] at keeps
      exact absurd closed keeps
    | disableWriting writing =>
      rw [Channel.isWriting, none] at writing
      exact absurd writing (by decide)
  · cases op with
    | update opt => rw [ChannelOp.apply, ChannelHeap.change_other _ _ _ own, none]
    | remove => rw [ChannelOp.apply, ChannelHeap.events_leave, none]

/-- The step that closes a connection drops its interest. -/
theorem idle_of_closes (silencing : Silencing settings mentions w) (lawful : impl.Lawful mentions)
    {action : Action impl.Answer} {frame : Frame} (step : Step settings impl w action w')
    (runs : w.running action = some frame) (stores : w.Stores frame c .kDisconnected) :
    (w'.heap c).events = kNoneEvent := by
  have ofDown {v : World σ} (down : w.goDown impl c = .ok v) : (v.heap c).events = kNoneEvent := by
    obtain ⟨_, _, operated, rfl⟩ := operate_ok.mp down
    have events := lawful.operate_events operated c
    rw [ChannelOp.apply, ChannelHeap.events_change_same] at events
    exact events
  cases stores with
  | handleClose =>
    obtain ⟨_, _, _, _, _, advance, rfl⟩ := step.on_loop silencing.orderly runs rfl
    cases advance with
    | yes tested | no tested => cases tested
    | handleCloseStore down =>
      have events := ofDown down
      exact events
  | connectDestroyed =>
    obtain ⟨_, _, _, _, _, advance, rfl⟩ := step.on_loop silencing.orderly runs rfl
    cases advance with
    | yes tested | no tested => cases tested
    | connectDestroyedStore down =>
      have events := ofDown down
      exact events

theorem idle_step (silencing : Silencing settings mentions w) (lawful : impl.Lawful mentions)
    {action : Action impl.Answer} (keeps : KeepsSilent w action)
    (step : Step settings impl w action w') (closed : w'.state c = .kDisconnected) :
    (w'.heap c).events = kNoneEvent := by
  have kept (before : w.state c = .kDisconnected) : (w'.heap c).events = kNoneEvent := by
    have none := silencing.idle c before
    cases step.touches silencing.orderly silencing.owned.posts with
    | quiet heap | construct _ heap | close _ _ _ heap => rw [heap, none]
    | operate runs _ operates ran =>
      rw [lawful.operate_events ran]
      exact silencing.operated_idle keeps runs operates before
    | poll _ polled => rw [lawful.poll_events polled, none]
  rcases step.state with ⟨same, _⟩ | ⟨frame, c', s, runs, stores, changed⟩
  · exact kept (same ▸ closed)
  · rw [changed] at closed
    split at closed
    · next own =>
      subst own closed
      exact silencing.idle_of_closes lawful step runs stores
    · exact kept closed

theorem onTime (silencing : Silencing settings mentions w) {answer : Type}
    (action : Action answer) : w.NoLateStore action :=
  noLateStore_of_quiet silencing.orderly silencing.quiet action

theorem step (silencing : Silencing settings mentions w) (lawful : impl.Lawful mentions)
    {action : Action impl.Answer} (own : OnLoop w action) (keeps : KeepsSilent w action)
    (step : Step settings impl w action w') : Silencing settings mentions w' := by
  have onTime := silencing.onTime action
  have owned := silencing.owned.step silencing.orderly lawful silencing.established onTime
    (silencing.destroyable keeps) step
  exact ⟨step.orderly silencing.orderly, quiet_step silencing.quiet own step,
    silencing.established.step lawful silencing.orderly step, owned,
    silencing.starting.step silencing.orderly silencing.owned step,
    silencing.reading.step lawful silencing.orderly silencing.owned onTime step,
    fun c => silencing.idle_step lawful keeps step⟩

theorem noEnable (silencing : Silencing settings mentions w) {action : Action impl.Answer}
    (keeps : KeepsSilent w action) : NoEnable settings w action := by
  intro frame c opt runs operates closed
  have after := silencing.operated_idle keeps runs operates closed
  rw [ChannelOp.apply, ChannelHeap.events_change_same] at after
  refine ⟨?_, ?_⟩
  · rintro rfl
    have wants := (Channel.wants_newEvents (w.heap c).events .enRead .read).mpr rfl
    exact Channel.not_wants_none _ (after ▸ wants)
  · rintro rfl
    have wants := (Channel.wants_newEvents (w.heap c).events .enWrite .write).mpr rfl
    exact Channel.not_wants_none _ (after ▸ wants)

/-- A step against the condition enables writing on a closed connection, or comes to
`Channel::remove` with interest left. -/
theorem keepsSilent (silencing : Silencing settings mentions w) {action : Action impl.Answer}
    (step : Step settings impl w action w') (noEnable : NoEnable settings w action)
    (silent : Silent w') : KeepsSilent w action := by
  unfold KeepsSilent
  split
  · next c id rest runs =>
    intro closed
    have idle : (w.heap c).isWriting = false := by
      rw [Channel.isWriting, silencing.idle c closed]
      rfl
    exact (noEnable _ c .enWrite runs (.enableWriting idle) closed).2 rfl
  · next c runs =>
    have head := silencing.orderly.running_head runs rfl
    have begun := silencing.starting.destroying c (List.mem_of_mem_head? head)
    by_contra neither
    rw [not_or] at neither
    obtain ⟨_, rest, v, frames, _, advance, rfl⟩ := step.on_loop silencing.orderly runs rfl
    cases advance with
    | yes tested same =>
      cases tested
      exact neither.1 same
    | no tested _ none =>
      cases tested
      cases none
      have open_ : w.Open c := open_of_ne begun neither.2
      have wants := silencing.reading c open_
      rw [events_of_isNoneEvent.mp (silent.removed c rfl)] at wants
      exact Channel.not_wants_none _ wants
  · trivial

end Silencing

theorem silencing_of_run {mentions : σ → ChannelId → Prop} (lawful : impl.Lawful mentions)
    {actions : List (Action impl.Answer)} (silencing : Silencing settings mentions w)
    (run : Run (Guarded KeepsSilent (Guarded OnLoop (Graph (step settings impl)))) w actions w') :
    Silencing settings mentions w' := by
  refine run.invariant silencing fun _ _ _ silencing taken => ?_
  obtain ⟨keeps, own, ran⟩ := taken
  exact silencing.step lawful own keeps (step_ok ran)

/-- `kDisconnected` is final on the loop thread. -/
theorem closed_of_run {mentions : σ → ChannelId → Prop} (lawful : impl.Lawful mentions)
    {actions : List (Action impl.Answer)} (silencing : Silencing settings mentions w)
    (run : Run (Guarded KeepsSilent (Guarded OnLoop (Graph (step settings impl)))) w actions w')
    (closed : w.state c = .kDisconnected) : w'.state c = .kDisconnected := by
  induction run with
  | nil => exact closed
  | @cons w w₁ _ action _ taken _ ih =>
    obtain ⟨keeps, own, ran⟩ := taken
    have next := silencing.step lawful own keeps (step_ok ran)
    exact ih next ((step_ok ran).state_final silencing.orderly (silencing.onTime action) closed)

/-- Over either poller, with calls made on the loop thread: along runs that keep silent, a
closed connection stays closed and without interest, and `Channel::remove` finds none. A
further step keeps this, and enables nothing on a closed connection, exactly when it meets
the condition. -/
theorem closed_silence_exact (kind : PollerKind) (settings : Settings)
    (actions later : List (Action kind.polling.Answer)) (w w' : World kind.State)
    (run : Run (Guarded KeepsSilent (Guarded OnLoop (Graph (step settings kind.polling))))
      (start settings kind.new) actions w)
    (on : Run (Guarded KeepsSilent (Guarded OnLoop (Graph (step settings kind.polling))))
      w later w') :
    Silent w' ∧ (∀ c, w.state c = .kDisconnected → w'.state c = .kDisconnected) ∧
      ∀ action w'', OnLoop w' action → w'.step settings kind.polling action = .ok w'' →
        (KeepsSilent w' action ↔ NoEnable settings w' action ∧ Silent w'') := by
  have silencing := silencing_of_run kind.lawful
    (Silencing.start settings kind.new_mentions) run
  have silencing' := silencing_of_run kind.lawful silencing on
  refine ⟨silencing'.silent, fun c => closed_of_run kind.lawful silencing on,
    fun action w'' own ran => ⟨fun keeps => ?_, fun silent => ?_⟩⟩
  · exact ⟨silencing'.noEnable keeps, (silencing'.step kind.lawful own keeps (step_ok ran)).silent⟩
  · exact silencing'.keepsSilent (step_ok ran) silent.1 silent.2

/-- A callback closes the connection; then its functor has begun `connectDestroyed`. -/
def closedInCallback : List (Action KqueueSystem.polling.Answer) :=
  PollerKind.opening none 5 ++
    [.loop (.call (.forceClose 5)), .loop .none, .loop .none, .loop .none, .loop .none,
      .loop .none, .loop .none, .loop .none, .loop .return, .loop .none]

def destroyedLater : List (Action KqueueSystem.polling.Answer) :=
  [.loop .return, .loop .return, .loop .none, .poll none, .loop .none, .loop .none, .loop .none]

theorem closed_silence_exact_closed_in_callback :
    ∃ w w', (Run (Guarded KeepsSilent (Guarded OnLoop
          (Graph (step PollerKind.exampleSettings KqueueSystem.polling))))
          (start PollerKind.exampleSettings .new) closedInCallback w ∧
        Run (Guarded KeepsSilent (Guarded OnLoop
          (Graph (step PollerKind.exampleSettings KqueueSystem.polling)))) w destroyedLater w') ∧
      (w.state 5 = .kDisconnected ∧ w'.stack.head? = some (.connectDestroyedRest 5)) ∧
      Silent w' ∧ w'.state 5 = .kDisconnected := by
  have weaker (w : World KqueueSystem) (action : Action KqueueSystem.polling.Answer)
      (w' : World KqueueSystem) (taken : Guarded (fun w action => KeepsSilent w action ∧
        OnLoop w action) (Graph (step PollerKind.exampleSettings KqueueSystem.polling)) w action w') :
      Guarded KeepsSilent (Guarded OnLoop
        (Graph (step PollerKind.exampleSettings KqueueSystem.polling))) w action w' :=
    ⟨taken.1.1, taken.1.2, taken.2⟩
  have ends : endsIn (fun w action => KeepsSilent w action ∧ OnLoop w action)
      (step PollerKind.exampleSettings KqueueSystem.polling) Fault.notEnabled
      (start PollerKind.exampleSettings .new) closedInCallback (fun w =>
        decide (w.state 5 = .kDisconnected) && endsIn (fun w action => KeepsSilent w action ∧
          OnLoop w action) (step PollerKind.exampleSettings KqueueSystem.polling) Fault.notEnabled
          w destroyedLater
          fun w' => decide (w'.stack.head? = some (.connectDestroyedRest 5))) = true := by
    decide +kernel
  obtain ⟨w, run, ended⟩ := run_of_endsIn _ _ ends
  obtain ⟨closed, ends⟩ := Bool.and_eq_true_iff.mp ended
  obtain ⟨w', on, removing⟩ := run_of_endsIn _ _ ends
  have run := run.mono weaker
  have on := on.mono weaker
  have holds := closed_silence_exact .kqueue _ _ _ w w' run on
  exact ⟨w, w', ⟨run, on⟩, ⟨of_decide_eq_true closed, of_decide_eq_true removing⟩, holds.1,
    holds.2.1 5 (of_decide_eq_true closed)⟩

/-- The high-water callback of a `send` closes the connection, and `sendInLoop` goes on. -/
def closedByHighWater : List (Action KqueueSystem.polling.Answer) :=
  PollerKind.opening none 5 ++
    [.loop (.loopCall (.setHighWaterMarkCallback 5 1)), .loop (.call (.send 5 ⟨[97], Message.byte_le⟩)),
      .loop .none, .loop .none, .loop (.write .wouldBlock), .loop (.call (.forceClose 5)),
      .loop .none, .loop .none, .loop .none, .loop .none, .loop .none, .loop .none, .loop .none,
      .loop .return, .loop .none, .loop .return, .loop .none]

/-- The closed connection's channel is watched for output. -/
theorem closed_by_high_water_watched :
    ∃ w, Run (Guarded OnLoop (Graph (step PollerKind.exampleSettings KqueueSystem.polling)))
        (start PollerKind.exampleSettings .new) closedByHighWater w ∧
      (w.state 5 = .kDisconnected ∧ (w.heap 5).isWriting = true) ∧ ¬ Silent w := by
  have ends : endsIn OnLoop (step PollerKind.exampleSettings KqueueSystem.polling)
      Fault.notEnabled (start PollerKind.exampleSettings .new) closedByHighWater
      (fun w => decide (w.state 5 = .kDisconnected ∧ (w.heap 5).isWriting = true)) = true := by
    decide +kernel
  obtain ⟨w, run, ended⟩ := run_of_endsIn _ _ ends
  have ended := of_decide_eq_true ended
  refine ⟨w, run, ended, fun silent => ?_⟩
  have none := events_of_isNoneEvent.mp (silent.idle 5 ended.1)
  have busy := ended.2
  rw [Channel.isWriting, none] at busy
  exact absurd busy (by decide)

end Muduo.Guarantees
