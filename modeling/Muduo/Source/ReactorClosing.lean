import Muduo.Source.ReactorPollers
import Muduo.Source.ReactorRuns

/-!
# How connections close in a reactor

The down callback runs when a connection becomes `kDisconnected`, once. A
connection has a part in dispatching, reading or sending only after
`connectEstablished`, since the poller does not know its channel before.
-/
namespace Muduo.Source
open Muduo.Support

/-- `handleRead` goes by the count of `readv`. -/
theorem TcpConnection.handleRead_count {conn conn' : TcpConnection} {answer : ReadvAnswer} {n : Int} :
    conn.handleRead answer = .ok (n, conn') → n = match answer with
      | .bytes data => (data.length : Int)
      | .error _ => -1 := by
  intro read
  unfold TcpConnection.handleRead TcpConnection.runBuffer at read
  cases ran : (Buffer.readFd answer).run conn.inputBuffer with
  | error e b => simp [ran] at read
  | ok count b =>
    simp only [ran] at read
    cases read
    cases answer <;> exact Buffer.run_readFd_count ran

namespace World

variable {σ : Type} {settings : Settings} {impl : Polling σ} {w w' : World σ} {c : ConnId}

/-- Calls of `connectionCallback_` for down, and of `closeCallback_`. -/
def downs (w : World σ) (c : ConnId) : Nat := w.callbacks.count (.down c)
def closes (w : World σ) (c : ConnId) : Nat := w.callbacks.count (.closeCallback c)

/-- Calls of `handleClose` that have not come to `closeCallback_` yet. -/
def closing (w : World σ) (c : ConnId) : Nat := w.stack.count (.handleCloseRest c)

structure Counted (w : World σ) : Prop where
  downs : ∀ c, w.downs c = if w.state c = .kDisconnected then 1 else 0
  closes : ∀ c, w.closes c + w.closing c ≤ w.downs c

theorem start_counted (settings : Settings) (poller : σ) : (start settings poller).Counted where
  downs c := by simp [downs, callbacks, start, state, TcpConnection.new]
  closes c := by simp [closes, closing, downs, callbacks, start]

/-- The callbacks of the frame that an action runs. -/
def newCallbacks {answer : Type} (w : World σ) (action : Action answer) : List Event :=
  ((w.running action).map Frame.callbacks).getD []

theorem Step.callbacks {action : Action impl.Answer} (step : Step settings impl w action w') :
    w'.callbacks = w.callbacks ++ w.newCallbacks action := by
  cases step with
  | loop stack advance =>
    simp only [newCallbacks, running, stack, List.head?_cons, Option.map_some, Option.getD_some]
    exact advance.callbacks
  | other others advance =>
    simp only [newCallbacks, running, others, List.getElem?_append_right (Nat.le_refl _),
      Nat.sub_self, List.getElem?_cons_zero, Option.map_some, Option.getD_some]
    exact advance.callbacks
  | dispatch empty | swap empty | start empty | again empty =>
    simp only [newCallbacks, running, empty, List.head?_nil, Option.map_none, Option.getD_none]
    exact (List.append_nil _).symm
  | _ => exact (List.append_nil _).symm

theorem count_down_callbacks (frame : Frame) (c : ConnId) :
    frame.callbacks.count (.down c) =
      if frame = .handleCloseStore c ∨ frame = .connectDestroyedStore c then 1 else 0 := by
  cases frame <;> simp [Frame.callbacks, List.count_singleton]

theorem count_close_callbacks (frame : Frame) (c : ConnId) :
    frame.callbacks.count (.closeCallback c) = if frame = .handleCloseRest c then 1 else 0 := by
  cases frame <;> simp [Frame.callbacks, List.count_singleton]

/-- The down callback runs with the store of `kDisconnected`. -/
theorem downs_step (orderly : w.Orderly) (counted : w.Counted) {action : Action impl.Answer}
    (onTime : w.NoLateStore action) (step : Step settings impl w action w') (c : ConnId) :
    w'.downs c = if w'.state c = .kDisconnected then 1 else 0 := by
  have before := counted.downs c
  unfold downs at before ⊢
  rw [step.callbacks, List.count_append, before]
  rcases step.state with ⟨same, silent⟩ | ⟨frame, c', s, runs, stores, changed⟩
  · rw [same]
    have none : (w.newCallbacks action).count (.down c) = 0 := by
      unfold newCallbacks
      cases runs : w.running action with
      | none => rfl
      | some frame =>
        simp only [Option.map_some, Option.getD_some, count_down_callbacks]
        refine if_neg fun closes => ?_
        rcases closes with rfl | rfl
        · exact silent _ runs c _ .handleClose
        · exact silent _ runs c _ .connectDestroyed
    omega
  · have known := orderly.running_knows runs
    have late := noLateStore_iff.mp onTime c
    simp only [newCallbacks, runs, Option.map_some, Option.getD_some, count_down_callbacks, changed]
    cases stores with
    | shutdown open_ => by_cases own : c = c' <;> simp_all
    | forceClose => by_cases own : c = c' <;> simp_all
    | connectEstablished =>
      have connecting : w.state c' = .kConnecting := known
      by_cases own : c = c' <;> simp_all
    | handleClose | connectDestroyed =>
      by_cases own : c = c'
      · subst own
        rcases (known : w.Open c) with open_ | open_ <;> simp [open_]
      · simp [own, Ne.symm own]

/-- A frame becomes a `handleClose` before its `closeCallback_` only by the store. -/
theorem Follows.count_closing {onLoop : Bool} {frame : Frame} {frames : List Frame}
    (follows : Follows onLoop frame frames) (c : ConnId) :
    frames.count (.handleCloseRest c) = if frame = .handleCloseStore c then 1 else 0 := by
  cases follows with
  | yes tested => cases frame <;> cases tested <;> simp
  | no tested none => cases frame <;> cases tested <;> cases none <;> simp
  | @call frame enters => cases frame <;> simp_all [Frame.enters]
  | stop ends => cases frame <;> simp_all [Frame.ends]
  | send | shutdown | forceClose => cases onLoop <;> simp [runInLoop, Task.frame]
  | handleClose => simp [List.count_cons]
  | @dispatch c event callbacks => cases event <;> simp [callback]
  | _ => simp

theorem foreign_callbacks {frame : Frame} (calling : frame.foreign = true) :
    frame.callbacks = [] := by
  cases frame <;> first | rfl | cases calling

theorem closes_step (orderly : w.Orderly) (counted : w.Counted) {action : Action impl.Answer}
    (step : Step settings impl w action w') (c : ConnId) :
    w'.closes c + w'.closing c ≤ w'.downs c := by
  have before := counted.closes c
  simp only [closes, closing, downs, step.callbacks, List.count_append] at before ⊢
  cases step with
  | @loop frame rest frames _ _ stack advance =>
    have follow := advance.follows.count_closing c
    simp only [newCallbacks, running, stack, List.head?_cons, Option.map_some, Option.getD_some,
      count_down_callbacks, count_close_callbacks, List.count_append, List.count_cons,
      follow] at before ⊢
    by_cases store : frame = .handleCloseStore c
    · subst store
      simp at before ⊢
      omega
    · by_cases rest : frame = .handleCloseRest c
      · subst rest
        simp at before ⊢
        omega
      · simp [store, rest] at before ⊢
        omega
  | @other frame previous after frames w' others advance =>
    have none := foreign_callbacks (orderly.calling frame (by simp [others]))
    have stack : w'.stack = w.stack := advance.control.stack
    simp only [newCallbacks, running, others, List.getElem?_append_right (Nat.le_refl _),
      Nat.sub_self, List.getElem?_cons_zero, Option.map_some, Option.getD_some, none, stack]
    simpa using before
  | dispatch empty | again empty | swap empty =>
    simp only [newCallbacks, running, empty] at before ⊢
    simpa using before
  | @start task _ empty =>
    simp only [newCallbacks, running, empty] at before ⊢
    cases task <;> simpa [Task.frame] using before
  | destroy _ stack =>
    simp only [newCallbacks, running, stack] at before ⊢
    simpa using before
  | call | connectElsewhere | removeElsewhere | destroyElsewhere | poll | destruct =>
    exact before

theorem counted_step (orderly : w.Orderly) (counted : w.Counted) {action : Action impl.Answer}
    (onTime : w.NoLateStore action) (step : Step settings impl w action w') : w'.Counted :=
  ⟨downs_step orderly counted onTime step, closes_step orderly counted step⟩

/-- The channel belongs to another component, or its connection is established. -/
def Begun (settings : Settings) (w : World σ) (id : ChannelId) : Prop :=
  id ∈ settings.aux ∨ w.state id ≠ .kConnecting

/-- Only an established connection sends, reads and closes. -/
def FrameBegun (settings : Settings) (w : World σ) : Frame → Prop
  | .handleEvent id _ => w.Begun settings id
  | .handleRead c | .handleWrite c | .handleClose c | .handleCloseSecond c | .sendInLoop c _ _
  | .sendInLoopStart c _ _ | .sendInLoopRest c _ _ | .post (.sendInLoop c _ _) =>
    w.state c ≠ .kConnecting
  | _ => True

structure Established (settings : Settings) (mentions : σ → ChannelId → Prop) (w : World σ) :
    Prop where
  stack : ∀ frame ∈ w.stack, w.FrameBegun settings frame
  others : ∀ frame ∈ w.others, w.FrameBegun settings frame
  tasks : ∀ task ∈ w.tasks, w.FrameBegun settings task.frame
  active : ∀ id ∈ w.active, w.Begun settings id
  poller : ∀ id, mentions w.poller id → w.Begun settings id

variable {mentions : σ → ChannelId → Prop}

theorem start_established (settings : Settings) {poller : σ}
    (empty : ∀ id, ¬ mentions poller id) : (start settings poller).Established settings mentions :=
  ⟨by simp [start], by simp [start], by simp [start, tasks], by simp [start, active],
    fun id mentioned => absurd mentioned (empty id)⟩

/-- No step takes a connection back to `kConnecting`. -/
theorem Step.state_ne {action : Action impl.Answer} (step : Step settings impl w action w')
    (begun : w.state c ≠ .kConnecting) : w'.state c ≠ .kConnecting := by
  rcases step.state with ⟨same, _⟩ | ⟨_, _, _, _, stores, changed⟩
  · rwa [same]
  · rw [changed]
    split
    · cases stores <;> simp
    · exact begun

theorem Begun.mono {id : ChannelId} (begun : w.Begun settings id)
    (kept : w.state id ≠ .kConnecting → w'.state id ≠ .kConnecting) : w'.Begun settings id :=
  begun.imp_right kept

theorem FrameBegun.mono {frame : Frame} (begun : w.FrameBegun settings frame)
    (kept : ∀ c, w.state c ≠ .kConnecting → w'.state c ≠ .kConnecting) :
    w'.FrameBegun settings frame := by
  cases frame with
  | handleEvent id => exact Begun.mono begun (kept id)
  | post task => cases task <;> first | trivial | exact kept _ begun
  | handleRead | handleWrite | handleClose | handleCloseSecond | sendInLoop | sendInLoopStart
  | sendInLoopRest => exact kept _ begun
  | _ => trivial

theorem enter_begun {call : Call} {frame : Frame} (entered : w.enter call = .ok frame) :
    w.FrameBegun settings frame := by
  have enters := enter_enters entered
  cases frame with
  | post task => cases task <;> trivial
  | _ => trivial

/-- The frames that follow concern established connections, as before the step. -/
theorem Advance.begun {onLoop : Bool} {frame : Frame} {input : Input} {frames : List Frame}
    (advance : Advance settings impl onLoop w frame input w' frames)
    (before : w.FrameBegun settings frame) :
    ∀ other ∈ frames, w.FrameBegun settings other := by
  cases advance with
  | yes tested same =>
    cases frame <;> cases tested <;> simp_all [FrameBegun]
  | no tested different none =>
    cases frame <;> cases tested <;> cases none <;> simp_all [FrameBegun]
  | call entered =>
    have resumed : w.FrameBegun settings .user := trivial
    simp [enter_begun entered, resumed]
  | accept open_ => cases onLoop <;> simp [runInLoop, Task.frame, FrameBegun, open_]
  | shutdown | forceCloseStore => cases onLoop <;> simp [runInLoop, Task.frame, FrameBegun]
  | dispatchAux aux => simpa [FrameBegun] using before
  | @dispatch c event callbacks own =>
    have begun : w.state c ≠ .kConnecting := before.resolve_left own
    cases event <;> simp [callback, FrameBegun, Begun, begun]
  | sendInLoopStart sent =>
    obtain ⟨answer, _, ran⟩ := sent
    obtain ⟨_, rfl⟩ := Prod.mk.inj ran
    split
    · simp
    · split <;> simpa [FrameBegun] using before
  | handleWrite _ _ ran =>
    obtain ⟨start, _, ⟨_, _, rfl⟩ | ⟨_, rfl, _⟩⟩ := handleWrite_ok ran <;> simp [FrameBegun]
  | handleRead ran =>
    obtain ⟨n, conn, _, ⟨_, _, rfl⟩ | ⟨_, _, rfl⟩ | ⟨_, _, rfl⟩⟩ := handleRead_ok ran
    · simp [FrameBegun]
    · simpa [FrameBegun] using before
    · simp
  | _ => simp [FrameBegun]

/-- A connection whose channel is operated on is established, except for a removal. -/
theorem Operates.begun {onLoop : Bool} {frame : Frame} {input : Input} {frames : List Frame}
    {id : ChannelId} {op : ChannelOp} (operates : Operates settings w frame id op)
    (stays : op ≠ .remove) (advance : Advance settings impl onLoop w frame input w' frames)
    (known : w.Knows onLoop frame) (before : w.FrameBegun settings frame)
    (kept : ∀ c, w.state c ≠ .kConnecting → w'.state c ≠ .kConnecting) :
    w'.Begun settings id := by
  cases operates with
  | watch aux => exact Or.inl aux
  | connectEstablished =>
    rcases advance.state with ⟨_, silent⟩ | ⟨c, s, stores, changed⟩
    · exact absurd .connectEstablished (silent _ _)
    · cases stores
      refine Or.inr ?_
      rw [changed, if_pos rfl]
      simp
  | handleClose | connectDestroyed =>
    refine Or.inr (kept _ ?_)
    rcases known with open_ | open_ <;> simp [open_]
  | remove => exact absurd rfl stays
  | enableWriting | disableWriting => exact Or.inr (kept _ before)

/-- The parts that a frame's step leaves established, whatever the stacks become. -/
theorem Established.advanced {v : World σ} (lawful : impl.Lawful mentions)
    (established : w.Established settings mentions) {onLoop : Bool} {frame : Frame} {input : Input}
    {frames : List Frame} (advance : Advance settings impl onLoop w frame input w' frames)
    (known : w.Knows onLoop frame) (before : w.FrameBegun settings frame)
    (kept : ∀ c, w.state c ≠ .kConnecting → w'.state c ≠ .kConnecting)
    (same : { w' with stack := v.stack, others := v.others } = v)
    (stack : ∀ other ∈ v.stack, other ∈ frames ∨ other ∈ w.stack)
    (others : ∀ other ∈ v.others, other ∈ frames ∨ other ∈ w.others) :
    v.Established settings mentions := by
  have control := advance.control
  have phase : v.phase = w.phase := by rw [← same]; exact control.phase
  have pending : v.pending = w'.pending := by rw [← same]
  have poller : v.poller = w'.poller := by rw [← same]
  have state : v.state = w'.state := by rw [← same]; rfl
  have later : ∀ c, w.state c ≠ .kConnecting → v.state c ≠ .kConnecting := by rwa [state]
  have follow := advance.begun before
  refine ⟨fun other member => ?_, fun other member => ?_, fun task member => ?_,
    fun id member => ?_, fun id mentioned => ?_⟩
  · rcases stack other member with new | old
    · exact (follow other new).mono later
    · exact (established.stack other old).mono later
  · rcases others other member with new | old
    · exact (follow other new).mono later
    · exact (established.others other old).mono later
  · obtain ⟨queued, grown, origin⟩ := advance.pending
    have split : task ∈ w.tasks ∨ task ∈ queued := by
      simp only [World.tasks, phase, pending, grown, List.mem_append] at member ⊢
      tauto
    rcases split with old | new
    · exact (established.tasks task old).mono later
    · rcases origin task new with rfl | ⟨c, _, rfl⟩ | ⟨c, rfl, rfl⟩
      · cases task <;> first | trivial | exact later _ before
      · trivial
      · trivial
  · refine (established.active id ?_).mono (later id)
    simpa only [World.active, phase] using member
  · rw [poller] at mentioned
    rcases advance.operated with ⟨_, unchanged⟩ | ⟨own, op, operates, ran⟩
    · rw [unchanged] at mentioned
      exact (established.poller id mentioned).mono (later id)
    · rcases lawful.operate_mentions ran id mentioned with ⟨stays, rfl⟩ | old
      · have begun := operates.begun stays advance known before kept
        exact begun.mono (by rw [state]; exact fun begun => begun)
      · exact (established.poller id old).mono (later id)

theorem Established.step (lawful : impl.Lawful mentions) (orderly : w.Orderly)
    (established : w.Established settings mentions) {action : Action impl.Answer}
    (step : Step settings impl w action w') : w'.Established settings mentions := by
  have kept : ∀ c, w.state c ≠ .kConnecting → w'.state c ≠ .kConnecting :=
    fun c => step.state_ne
  obtain ⟨stack, others, tasks, active, poller⟩ := established
  cases step with
  | @loop frame rest frames _ w' shape advance =>
    have running : frame ∈ w.stack := by simp [shape]
    refine Established.advanced lawful ⟨stack, others, tasks, active, poller⟩ advance
      (orderly.knows frame running) (stack frame running) kept rfl ?_ ?_
    · intro other member
      rcases List.mem_append.mp member with member | member
      · exact Or.inl member
      · exact Or.inr (by simp [shape, member])
    · intro other member
      exact Or.inr (advance.control.others ▸ member)
  | @other frame previous after frames w' shape advance =>
    have running : frame ∈ w.others := by simp [shape]
    refine Established.advanced lawful ⟨stack, others, tasks, active, poller⟩ advance
      (orderly.heard frame running) (others frame running) kept rfl ?_ ?_
    · intro other member
      exact Or.inr (advance.control.stack ▸ member)
    · intro other member
      simp only [List.mem_append] at member
      rcases member with (member | member) | member
      · exact Or.inr (by simp [shape, member])
      · exact Or.inl member
      · exact Or.inr (by simp [shape, member])
  | @dispatch id rest empty phase =>
    refine ⟨?_, others, ?_, fun other member => active other ?_, poller⟩
    · have first : w.Begun settings id := active id (by simp [World.active, phase])
      simp only [List.mem_singleton, forall_eq]
      exact first
    · intro task member
      exact tasks task (by simpa [World.tasks, phase] using member)
    · simpa [World.active, phase] using Or.inr member
  | swap empty phase =>
    refine ⟨stack, others, fun task member => tasks task ?_, by simp [World.active], poller⟩
    simpa [World.tasks, phase] using member
  | @start task batch empty phase =>
    refine ⟨?_, others, fun other member => tasks other ?_, by simp [World.active], poller⟩
    · have first : w.FrameBegun settings task.frame := tasks task (by simp [World.tasks, phase])
      simp only [List.mem_singleton, forall_eq]
      exact first.mono kept
    · simp only [World.tasks, phase, List.mem_append, List.mem_cons] at member ⊢
      tauto
  | again empty phase =>
    refine ⟨stack, others, fun task member => tasks task ?_, by simp [World.active], poller⟩
    simpa [World.tasks, phase] using member
  | poll empty phase _ polled =>
    refine ⟨stack, others, fun task member => tasks task ?_, fun id member => poller id ?_,
      fun id mentioned => poller id ?_⟩
    · simpa [World.tasks, phase] using member
    · exact lawful.poll_mentions polled id (Or.inl member)
    · exact lawful.poll_mentions polled id (Or.inr mentioned)
  | destroy _ shape =>
    exact ⟨by simp [FrameBegun], others, tasks, active, poller⟩
  | call entered =>
    refine ⟨stack, fun other member => ?_, tasks, active, poller⟩
    rcases List.mem_append.mp member with member | member
    · exact others other member
    · rw [List.mem_singleton.mp member]
      exact enter_begun entered
  | connectElsewhere | removeElsewhere | destroyElsewhere =>
    refine ⟨stack, others, fun task member => ?_, active, poller⟩
    simp only [World.tasks, queue, ← List.append_assoc] at member
    rcases List.mem_append.mp member with member | member
    · exact tasks task member
    · rw [List.mem_singleton.mp member]
      trivial
  | destruct =>
    exact ⟨stack, others, tasks, active, fun id mentioned =>
      poller id (lawful.closed_mentions mentioned)⟩

end World

end Muduo.Source
