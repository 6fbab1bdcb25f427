import Muduo.Source.ReactorEstablishing
import Muduo.Source.ReactorFaults
import Muduo.Source.TcpServerExecution

/-!
# What a reactor's records say at every step

The buffers of every connection stay within their bounds; a connection is to be
established once, while it is `kConnecting`; the server has the entry of a connection
that it is about to remove; and a completion that is queued is of a connection that
exists. Together these are what the assertions outside the poller rely on.
-/
namespace Muduo.Source
open Muduo.Support

theorem Buffer.wf_iff {b : Buffer} : b.Wf ↔ kCheapPrepend ≤ b.size ∧ b.size ≤ kMaxSize ∧
    b.readIdx ≤ b.writeIdx ∧ b.writeIdx ≤ b.size :=
  ⟨fun w => ⟨w.header, w.capacity, w.read_le_write, w.write_le_size⟩,
    fun ⟨header, capacity, ordered, inside⟩ => ⟨header, capacity, ordered, inside⟩⟩

namespace TcpConnection

variable {conn conn' : TcpConnection}

theorem handleRead_output {answer : ReadvAnswer} {n : Int}
    (read : conn.handleRead answer = .ok (n, conn')) :
    conn'.outputBuffer = conn.outputBuffer := by
  unfold handleRead at read
  split at read <;> cases read
  rfl

theorem handleRead_wf {answer : ReadvAnswer} {n : Int} (w : conn.inputBuffer.Wf)
    (valid : Buffer.Op.Valid conn.inputBuffer (.readFd answer))
    (read : conn.handleRead answer = .ok (n, conn')) : conn'.inputBuffer.Wf := by
  unfold handleRead runBuffer at read
  cases ran : (Buffer.readFd answer).run conn.inputBuffer with
  | error e input => simp [ran] at read
  | ok count input =>
    rw [ran] at read
    cases read
    have returned : (Buffer.exec (.readFd answer)).run conn.inputBuffer =
        .ok (.count n) input := by
      simp only [Buffer.exec, bind, EStateM.run, EStateM.bind] at ran ⊢
      rw [ran]
      rfl
    have after := w.after valid (by simp)
    rw [Buffer.after, returned] at after
    exact after

/-- The rest of a `std::string` joins an output buffer whose indices lie in its storage. -/
theorem sendInLoopRest_output (w : conn.outputBuffer.Wf) {rest : Message}
    (sent : conn.sendInLoopRest rest.bytes = .ok conn') :
    conn'.inputBuffer = conn.inputBuffer ∧ conn'.outputBuffer.Wf := by
  have fit : conn.outputBuffer.Fits rest.bytes.length := by
    by_contra excess
    rw [sendInLoopRest_error w excess (rest.fits_sum w)] at sent
    cases sent
  rw [sendInLoopRest_ok w fit] at sent
  cases sent
  exact ⟨rfl, w.appended fit⟩

theorem handleWriteStart_output (w : conn.outputBuffer.Wf) {answer : WriteAnswer}
    {start : WriteStart} (valid : answer.Valid conn.outputBuffer.value)
    (started : conn.handleWriteStart answer = .ok start) :
    start.conn.inputBuffer = conn.inputBuffer ∧ start.conn.outputBuffer.Wf := by
  rw [handleWriteStart_ok w valid, Except.ok.injEq] at started
  subst started
  split
  · exact ⟨rfl, w⟩
  · exact ⟨rfl, w.retrieved _⟩

end TcpConnection

namespace World

variable {σ : Type} {settings : Settings} {impl : Polling σ} {w w' : World σ} {c : ConnId}

/-- The indices of every buffer lie in its storage. -/
def Buffered (w : World σ) : Prop :=
  ∀ c, (w.conns c).inputBuffer.Wf ∧ (w.conns c).outputBuffer.Wf

theorem start_buffered (settings : Settings) (poller : σ) : (start settings poller).Buffered :=
  fun _ => ⟨Buffer.fresh_wf, Buffer.fresh_wf⟩

theorem Buffered.setConn (buffered : w.Buffered) {conn : TcpConnection}
    (input : conn.inputBuffer.Wf) (output : conn.outputBuffer.Wf) :
    (w.setConn c conn).Buffered := by
  intro other
  rw [conns_setConn, Function.update_apply]
  split
  · exact ⟨input, output⟩
  · exact buffered other

theorem Buffered.setState (buffered : w.Buffered) (s : StateE) : (w.setState c s).Buffered :=
  buffered.setConn (buffered c).1 (buffered c).2

theorem Buffered.note (buffered : w.Buffered) (event : Event) : (w.note event).Buffered := buffered

theorem Buffered.operate {id : ChannelId} {op : ChannelOp} (buffered : w.Buffered)
    (operated : w.operate impl id op = .ok w') : w'.Buffered := by
  obtain ⟨_, _, _, rfl⟩ := operate_ok.mp operated
  exact buffered

theorem Buffered.loopCall (buffered : w.Buffered) {call : LoopCall} {frames : List Frame}
    (swapped : ∀ c rhs, call = .input c (.swap rhs) → rhs.Wf)
    (ran : w.loopCall settings impl call = .ok (w', frames)) : w'.Buffered := by
  cases call with
  | setHighWaterMarkCallback c mark =>
    simp only [World.loopCall] at ran
    split at ran <;> cases ran
    exact buffered.setConn (buffered c).1 (buffered c).2
  | input c op =>
    simp only [World.loopCall] at ran
    split at ran
    · next ready =>
      have after := (buffered c).1.after ready.2 fun rhs same => swapped c rhs (by rw [same])
      split at ran <;> cases ran
      next returned =>
      rw [Buffer.after, returned] at after
      exact buffered.setConn after (buffered c).2
    · cases ran
  | newConnection c =>
    simp only [World.loopCall] at ran
    split at ran <;> cases ran
    exact buffered
  | watch id =>
    simp only [World.loopCall] at ran
    split at ran
    · split at ran <;> cases ran
      next operated => exact buffered.operate operated
    · cases ran

theorem Buffered.advance (buffered : w.Buffered) {onLoop : Bool} {frame : Frame} {input : Input}
    {frames : List Frame}
    (swapped : ∀ c rhs, input = .loopCall (.input c (.swap rhs)) → rhs.Wf)
    (ran : w.advance settings impl onLoop frame input = .ok (w', frames)) : w'.Buffered := by
  cases advance_ok ran with
  | @adjust _ call =>
    simp only [World.advance, Frame.test] at ran
    cases called : w.loopCall settings impl call with
    | error e => simp [called] at ran
    | ok result =>
      have moved := buffered.loopCall (fun c rhs same => swapped c rhs (by rw [same])) called
      simp only [called, Except.ok.injEq, Prod.mk.injEq] at ran
      exact ran.1 ▸ moved
  | watch _ operated | connectDestroyedRest operated => exact buffered.operate operated
  | shutdown | forceCloseStore => exact buffered.setState _
  | handleCloseStore operated | connectDestroyedStore operated | connectEstablishedStore operated =>
    exact ((buffered.setState _).note _).operate operated
  | closeHere _ removed =>
    obtain ⟨_, rfl⟩ := removeConnectionInLoop_ok.mp removed
    exact buffered
  | sendInLoopStart sent =>
    obtain ⟨answer, _, ran⟩ := sent
    cases ran
    exact buffered
  | @sendInLoopRest c id rest _ sent =>
    obtain ⟨conn, appended, outcome⟩ := sendInLoopRest_ok sent
    obtain ⟨input, output⟩ := TcpConnection.sendInLoopRest_output (buffered c).2 appended
    have joined := buffered.setConn (c := c) (input ▸ (buffered c).1) output
    rcases outcome with ⟨_, rfl⟩ | ⟨_, operated⟩
    · exact joined
    · exact (joined.note _).operate operated
  | @handleRead c answer =>
    simp only [World.advance, Frame.test] at ran
    split at ran
    · next valid =>
      obtain ⟨n, conn, read, outcome⟩ := handleRead_ok ran
      have input := TcpConnection.handleRead_wf (buffered c).1 valid read
      have stored := buffered.setConn (c := c) input
        (TcpConnection.handleRead_output read ▸ (buffered c).2)
      rcases outcome with ⟨_, rfl, _⟩ | ⟨_, rfl, _⟩ | ⟨_, rfl, _⟩ <;> exact stored
    · cases ran
  | @handleWrite c answer _ _ _ valid written =>
    obtain ⟨start, started, outcome⟩ := handleWrite_ok written
    obtain ⟨input, output⟩ := TcpConnection.handleWriteStart_output (buffered c).2 valid started
    have wrote : (w.wrote c start).Buffered :=
      Buffered.setConn (w := w) buffered (input ▸ (buffered c).1) output
    rcases outcome with ⟨_, rfl, _⟩ | ⟨_, _, w₁, operated, rfl⟩
    · exact wrote
    · have moved := wrote.operate operated
      exact moved
  | _ => exact buffered

/-- An operation that the user makes on an input buffer swaps it with a proper one. -/
def Swaps {answer : Type} (_ : World σ) : Action answer → Prop
  | .loop (.loopCall (.input _ (.swap rhs))) => rhs.Wf
  | _ => True

instance {answer : Type} (w : World σ) (action : Action answer) : Decidable (Swaps w action) := by
  delta Swaps
  induction action using Action.casesOn with
  | loop input =>
    induction input using Input.casesOn with
    | loopCall call =>
      induction call using LoopCall.casesOn with
      | input _ op =>
        induction op using Buffer.Op.casesOn with
        | swap rhs => exact decidable_of_iff (_ ∧ _ ∧ _ ∧ _) Buffer.wf_iff.symm
        | _ => infer_instance
      | _ => infer_instance
    | _ => infer_instance
  | _ => infer_instance

theorem Buffered.step (buffered : w.Buffered) {action : Action impl.Answer}
    (swaps : w.Swaps action) (ran : w.step settings impl action = .ok w') : w'.Buffered := by
  cases action with
  | loop input =>
    simp only [World.step] at ran
    split at ran
    · unfold continueLoop at ran
      split at ran <;> cases ran
      all_goals exact buffered
    · split at ran <;> cases ran
      next advanced =>
      have moved := buffered.advance (fun c rhs same => by subst same; exact swaps) advanced
      exact moved
  | other position =>
    simp only [World.step] at ran
    split at ran
    · cases ran
    · split at ran <;> cases ran
      next advanced =>
      have moved := buffered.advance (by simp) advanced
      exact moved
  | _ =>
    cases step_ok ran
    exact buffered

end World

/-- `connectEstablished` has its store still to make. -/
def Frame.establishesOn : Frame → Option ConnId
  | .connectEstablished c => some c
  | _ => none

namespace World

variable {σ : Type} {settings : Settings} {impl : Polling σ} {w w' : World σ} {c : ConnId}

/-- The calls of `connectEstablished` still to come or to end. -/
def establishers (w : World σ) : List ConnId :=
  w.stack.filterMap Frame.establishes ++ w.tasks.filterMap fun task => task.frame.establishes

/-- What a step does to the calls of `connectEstablished`. -/
inductive Establishes (settings : Settings) (w w' : World σ) (running : Option Frame) : Prop
  | stay : w'.establishers = w.establishers →
      (∀ c, running ≠ some (.connectEstablishedStore c)) → Establishes settings w w' running
  | finish {c : ConnId} : running = some (.connectEstablishedStore c) →
      w.establishers = c :: w'.establishers → Establishes settings w w' running
  | begin {new : ConnId} : w.Fresh settings new → new ∈ w'.accepted →
      w'.establishers = new :: w.establishers ∨ w'.establishers = w.establishers ++ [new] →
      (∀ c, running ≠ some (.connectEstablishedStore c)) → Establishes settings w w' running

theorem Follows.establishers {onLoop : Bool} {frame : Frame} {frames : List Frame}
    (follows : Follows onLoop frame frames) :
    frames.filterMap Frame.establishes = frame.establishesOn.toList ∨
      ∃ c, frame = .user ∧ frames = [.connectEstablished c, .user] := by
  cases follows with
  | connect => exact Or.inr ⟨_, rfl, rfl⟩
  | yes tested => cases frame <;> cases tested <;> exact Or.inl rfl
  | no tested none => cases frame <;> cases tested <;> cases none <;> exact Or.inl rfl
  | @call frame enters => cases frame <;> first | exact Or.inl rfl | cases enters
  | stop ends => cases frame <;> first | exact Or.inl rfl | cases ends
  | send | shutdown | forceClose => cases onLoop <;> exact Or.inl rfl
  | @dispatch c event callbacks => cases event <;> exact Or.inl rfl
  | _ => exact Or.inl rfl

/-- A frame's step queues no `connectEstablished`. -/
theorem Advance.tasks_established {onLoop : Bool} {frame : Frame} {input : Input}
    {frames : List Frame} (advance : Advance settings impl onLoop w frame input w' frames)
    (posts : frame.postsCalls = true) :
    w'.tasks.filterMap (fun task => task.frame.establishes) =
      w.tasks.filterMap fun task => task.frame.establishes := by
  obtain ⟨queued, grown, origin⟩ := advance.pending
  have none : queued.filterMap (fun task => task.frame.establishes) = [] := by
    refine List.filterMap_eq_nil_iff.mpr fun task member => ?_
    rcases origin task member with rfl | ⟨c, _, rfl⟩ | ⟨c, _, rfl⟩
    · cases task <;> first | rfl | cases posts
    · rfl
    · rfl
  simp only [World.tasks, advance.control.phase, grown, ← List.append_assoc]
  rw [List.filterMap_append, none, List.append_nil]

theorem Step.establishers {action : Action impl.Answer} (step : Step settings impl w action w')
    (orderly : w.Orderly) (posts : ∀ frame, frame ∈ w.stack ∨ frame ∈ w.others →
      frame.postsCalls = true) : Establishes settings w w' (w.running action) := by
  cases step with
  | @loop frame rest frames input v stack advance =>
    have runs : w.running (.loop input : Action impl.Answer) = some frame := by
      simp [running, stack]
    have tasks := advance.tasks_established (posts frame (Or.inl (by simp [stack])))
    have before : w.establishers = (frame :: rest).filterMap Frame.establishes ++
        w.tasks.filterMap fun task => task.frame.establishes := by rw [establishers, stack]
    have after : World.establishers { v with stack := frames ++ rest } =
        (frames ++ rest).filterMap Frame.establishes ++
          w.tasks.filterMap fun task => task.frame.establishes := by
      rw [← tasks]
      rfl
    rw [runs]
    rcases advance.follows.establishers with handed | ⟨new, rfl, rfl⟩
    · rw [List.filterMap_append, handed] at after
      cases frame with
      | connectEstablishedStore c => exact .finish rfl (before.trans (congrArg _ after.symm))
      | _ => exact .stay (after.trans before.symm) (by simp)
    · have fresh : w.Fresh settings new ∧ v = w.construct new := by
        generalize shape : [Frame.connectEstablished new, .user] = frames at advance
        cases advance with
        | yes tested | no tested => cases tested
        | call entered =>
          cases shape
          cases enter_enters entered
        | construct _ fresh =>
          cases shape
          exact ⟨fresh, rfl⟩
        | adjust | watch | «return» => simp at shape
      obtain ⟨fresh, rfl⟩ := fresh
      have begun : World.establishers { w.construct new with
          stack := [.connectEstablished new, .user] ++ rest } = new :: w.establishers :=
        after.trans (congrArg (new :: ·) before.symm)
      exact .begin fresh (List.mem_append_right _ (List.mem_singleton.mpr rfl)) (Or.inl begun)
        (by simp)
  | @other frame before after frames v others advance =>
    have present : frame ∈ w.others := by simp [others]
    have runs : w.running (.other before.length : Action impl.Answer) = some frame := by
      simp [running, others]
    have tasks := advance.tasks_established (posts frame (Or.inr present))
    have same : World.establishers { v with others := before ++ frames ++ after } =
        w.establishers := by
      rw [establishers, establishers, ← tasks, ← advance.control.stack]
      rfl
    refine .stay same fun c store => ?_
    rw [runs, Option.some.injEq] at store
    subst store
    cases orderly.calling _ present
  | dispatch empty phase | swap empty phase | again empty phase =>
    refine .stay ?_ (by simp [running, empty])
    simp [establishers, World.tasks, empty, phase, List.filterMap_cons, Frame.establishes]
  | @start task batch empty phase =>
    refine .stay ?_ (by simp [running, empty])
    cases same : task.frame.establishes <;>
      simp [establishers, World.tasks, empty, phase, same]
  | poll empty phase => exact .stay (by simp [establishers, World.tasks, phase]) (by simp [running])
  | destroy _ stack =>
    exact .stay (by simp [establishers, World.tasks, stack, Frame.establishes,
      List.filterMap_cons]) (by simp [running])
  | call | destruct => exact .stay rfl (by simp [running])
  | @connectElsewhere new _ fresh =>
    refine .begin fresh (List.mem_append_right _ (List.mem_singleton.mpr rfl)) (Or.inr ?_)
      (by simp [running])
    rw [establishers, tasks_queue, List.filterMap_append, ← List.append_assoc]
    rfl
  | removeElsewhere | destroyElsewhere =>
    refine .stay ?_ (by simp [running])
    rw [establishers, tasks_queue, List.filterMap_append]
    simp [establishers, World.tasks, Task.frame, Frame.establishes, queue]

/-- Each connection is to be established at most once, and is `kConnecting` until then. -/
structure Establishable (w : World σ) : Prop where
  once : w.establishers.Nodup
  accepted : ∀ c ∈ w.establishers, c ∈ w.accepted
  connecting : ∀ c ∈ w.establishers, w.state c = .kConnecting

theorem start_establishable (settings : Settings) (poller : σ) :
    (start settings poller).Establishable := by
  constructor <;> simp [start, establishers, World.tasks]

theorem Establishable.step (establishable : w.Establishable) (orderly : w.Orderly)
    (owned : w.Owned settings) {action : Action impl.Answer}
    (step : Step settings impl w action w') : w'.Establishable := by
  obtain ⟨once, accepted, connecting⟩ := establishable
  cases step.establishers orderly owned.posts with
  | stay same other =>
    refine ⟨same ▸ once, fun c member => ?_, fun c member => ?_⟩
    · exact step.accepted_mono (accepted c (same ▸ member))
    · exact step.connecting orderly (connecting c (same ▸ member)) (other c)
  | @finish own runs taken =>
    rw [taken] at once accepted connecting
    obtain ⟨apart, once⟩ := List.nodup_cons.mp once
    refine ⟨once, fun c member => ?_, fun c member => ?_⟩
    · exact step.accepted_mono (accepted c (List.mem_cons_of_mem _ member))
    · refine step.connecting orderly (connecting c (List.mem_cons_of_mem _ member)) fun store => ?_
      cases runs.symm.trans store
      exact apart member
  | @begin new fresh born grown other =>
    have unborn : new ∉ w.accepted := fresh_accepted fresh
    have absent : new ∉ w.establishers := fun member => unborn (accepted new member)
    have members : ∀ c, c ∈ w'.establishers → c = new ∨ c ∈ w.establishers := by
      rcases grown with grown | grown <;> rw [grown] <;> simp [or_comm]
    refine ⟨?_, fun c member => ?_, fun c member => ?_⟩
    · rcases grown with grown | grown <;> rw [grown]
      · exact List.nodup_cons.mpr ⟨absent, once⟩
      · exact List.concat_eq_append ▸ once.concat absent
    · rcases members c member with rfl | old
      · exact born
      · exact step.accepted_mono (accepted c old)
    · refine step.connecting orderly ?_ (other c)
      rcases members c member with rfl | old
      · exact owned.unborn c unborn
      · exact connecting c old

/-- A functor that is new was queued by the running frame, or by the server's own loop. -/
theorem Step.queues {action : Action impl.Answer} (step : Step settings impl w action w')
    {task : Task} (member : task ∈ w'.tasks) :
    task ∈ w.tasks ∨
      (∃ onLoop frame input v frames, w.running action = some frame ∧
        Advance settings impl onLoop w frame input v frames ∧ task ∈ v.tasks) ∨
      (∃ c, action = .connectElsewhere c ∧ task = .connectEstablished c) ∨
      ∃ c, (action = .removeElsewhere c ∧ c ∈ w.removing ∨ action = .destroyElsewhere c) ∧
        task = .connectDestroyed c := by
  cases step with
  | @loop frame rest frames input v stack advance =>
    exact Or.inr (Or.inl ⟨_, frame, _, v, _, by simp [running, stack], advance, member⟩)
  | @other frame before after frames v others advance =>
    exact Or.inr (Or.inl ⟨_, frame, _, v, _, by simp [running, others], advance, member⟩)
  | dispatch _ phase | swap _ phase | again _ phase | poll _ phase =>
    exact Or.inl (by simpa [World.tasks, phase] using member)
  | start _ phase =>
    refine Or.inl ?_
    simp only [World.tasks, phase, List.mem_append, List.mem_cons] at member ⊢
    tauto
  | destroy | call | destruct => exact Or.inl member
  | @connectElsewhere c =>
    rw [tasks_queue, List.mem_append, List.mem_singleton] at member
    exact member.imp_right fun new => Or.inr (Or.inl ⟨c, rfl, new⟩)
  | @removeElsewhere c posted =>
    rw [tasks_queue, List.mem_append, List.mem_singleton] at member
    exact member.imp_right fun new => Or.inr (Or.inr ⟨c, Or.inl ⟨rfl, posted⟩, new⟩)
  | @destroyElsewhere c =>
    rw [tasks_queue, List.mem_append, List.mem_singleton] at member
    exact member.imp_right fun new => Or.inr (Or.inr ⟨c, Or.inr rfl, new⟩)

/-- What a frame queues, it queues behind the functors there are. -/
theorem Advance.queues {onLoop : Bool} {frame : Frame} {input : Input} {frames : List Frame}
    (advance : Advance settings impl onLoop w frame input w' frames) {task : Task}
    (member : task ∈ w'.tasks) : task ∈ w.tasks ∨ frame = .post task ∨
      (∃ c, frame.conn = some c ∧ task = .writeComplete c) ∨
        ∃ c, frame = .handleCloseRest c ∧ task = .connectDestroyed c := by
  obtain ⟨queued, grown, origin⟩ := advance.pending
  simp only [World.tasks, advance.control.phase, grown, ← List.append_assoc] at member
  exact (List.mem_append.mp member).imp_right (origin task)

/-- `connectDestroyed` is queued by a removal, or with the destruction of the server. -/
theorem Step.destroying_queued {action : Action impl.Answer}
    (step : Step settings impl w action w')
    (posts : ∀ frame, frame ∈ w.stack ∨ frame ∈ w.others → frame.postsCalls = true)
    (member : .connectDestroyed c ∈ w'.tasks) :
    .connectDestroyed c ∈ w.tasks ∨ w.running action = some (.handleCloseRest c) ∨
      action = .removeElsewhere c ∧ c ∈ w.removing ∨ action = .destroyElsewhere c := by
  rcases step.queues member with old | ⟨_, frame, _, _, _, runs, advance, new⟩ |
    ⟨_, _, same⟩ | ⟨_, called, same⟩
  · exact Or.inl old
  · rcases advance.queues new with old | rfl | ⟨_, _, same⟩ | ⟨_, rfl, same⟩
    · exact Or.inl old
    · cases posts _ (running_mem runs)
    · cases same
    · cases same
      exact Or.inr (Or.inl runs)
  · cases same
  · cases same
    exact Or.inr (Or.inr called)

/-- The server's entries of connections that close; a server on another loop is not
destroyed meanwhile. -/
structure Listing (settings : Settings) (w : World σ) : Prop where
  closing : ∀ c, .handleCloseRest c ∈ w.stack → c ∈ w.table
  posted : ∀ c ∈ w.removing, c ∈ w.table
  counted : ∀ c, w.removing.count c ≤ w.closes c
  here : settings.serverHere = true → w.removing = []
  destroying : ∀ c, .connectDestroyed c ∈ w.tasks → w.closes c ≠ 0

theorem start_listing (settings : Settings) (poller : σ) :
    (start settings poller).Listing settings := by
  constructor <;> simp [start, World.tasks]

theorem Counted.closes_le (counted : w.Counted) (c : ConnId) :
    w.closes c + w.closing c ≤ 1 := by
  have closes := counted.closes c
  have downs := counted.downs c
  split at downs <;> omega

theorem Counted.closed (counted : w.Counted) (closes : w.closes c ≠ 0) :
    w.state c = .kDisconnected := by
  have bound := counted.closes c
  have downs := counted.downs c
  by_contra open_
  rw [if_neg open_] at downs
  omega

namespace Listing

/-- A connection that is still open has its entry. -/
theorem open_entry (listing : w.Listing settings) (orderly : w.Orderly) (counted : w.Counted)
    (owned : w.Owned settings) (head : w.stack.head? = some (.handleCloseStore c)) :
    c ∈ w.table := by
  have open_ : w.Open c := orderly.knows _ (List.mem_of_mem_head? head)
  have begun : w.state c ≠ .kConnecting := by rcases open_ with h | h <;> simp [h]
  have unclosed : w.state c ≠ .kDisconnected := by rcases open_ with h | h <;> simp [h]
  by_contra absent
  refine owned.open_owned begun unclosed (destroyers_eq_zero absent (fun queued => ?_) ?_)
  · exact unclosed (counted.closed (listing.destroying c queued))
  · intro frame member destroys
    obtain ⟨rest, stack⟩ := List.head?_eq_some_iff.mp head
    rw [stack, List.mem_cons] at member
    rcases member with rfl | below
    · cases destroys
    · have waits := orderly.waiting frame (by rwa [stack])
      cases frame with
      | connectDestroyedRest other =>
        cases destroys
        exact unclosed (owned.ended c (by simp [stack, below])).closed
      | connectDestroyed | connectDestroyedStore => cases waits
      | _ => cases destroys

/-- An entry stays until the connection is removed, or destroyed with its server. -/
theorem entry_step (listing : w.Listing settings) {action : Action impl.Answer}
    (step : Step settings impl w action w') (stays : ∀ own, action ≠ .destroy own)
    (remains : ∀ own, action ≠ .destroyElsewhere own) (open_ : w'.closes c = 0)
    (entry : c ∈ w.table) : c ∈ w'.table := by
  have closes := step.closes c
  cases step.moves with
  | stay same => exact same.table ▸ entry
  | construct _ _ table => exact table ▸ List.mem_append_left _ entry
  | post _ _ _ table => exact table ▸ entry
  | @erase own cause _ _ table =>
    rw [table]
    refine (List.mem_erase_of_ne ?_).mpr entry
    rintro rfl
    rcases cause with ⟨runs, _⟩ | rfl | rfl
    · rw [if_pos runs] at closes
      omega
    · exact stays _ rfl
    · exact remains _ rfl
  | @remove own _ posted _ _ table =>
    rw [table]
    refine (List.mem_erase_of_ne ?_).mpr entry
    rintro rfl
    have counted := listing.counted c
    have held := List.count_pos_iff.mpr posted
    omega

theorem closing_step (listing : w.Listing settings) (orderly : w.Orderly) (counted : w.Counted)
    (owned : w.Owned settings) (counted' : w'.Counted) {action : Action impl.Answer}
    (remains : ∀ own, action ≠ .destroyElsewhere own) (step : Step settings impl w action w')
    (member : .handleCloseRest c ∈ w'.stack) : c ∈ w'.table := by
  have entry : c ∈ w.table := by
    generalize shape : Frame.handleCloseRest c = frame at member
    cases step.origin frame member with
    | kept old => exact listing.closing c (shape ▸ old)
    | advanced head advance _ _ new =>
      subst shape
      cases advance.follows.leads new with
      | call enters => cases enters
      | closeRest => exact listing.open_entry orderly counted owned head
    | @started task => cases task <;> cases shape
    | dispatched | resumed | destroyed => cases shape
  refine listing.entry_step step (fun own destroy => ?_) remains ?_ entry
  · subst destroy
    cases step
    simp at member
  · have once := counted'.closes_le c
    have held : 0 < w'.closing c := List.count_pos_iff.mpr member
    omega

theorem posted_step (listing : w.Listing settings) (orderly : w.Orderly) (counted : w.Counted)
    {action : Action impl.Answer} (remains : ∀ own, action ≠ .destroyElsewhere own)
    (step : Step settings impl w action w') (member : c ∈ w'.removing) : c ∈ w'.table := by
  cases step.moves with
  | stay same => exact same.table ▸ listing.posted c (same.removing ▸ member)
  | construct _ _ table removing =>
    exact table ▸ List.mem_append_left _ (listing.posted c (removing ▸ member))
  | @post own runs _ _ table removing =>
    rw [removing, List.mem_append, List.mem_singleton] at member
    rw [table]
    rcases member with old | rfl
    · exact listing.posted c old
    · exact listing.closing c (List.mem_of_mem_head? (orderly.running_head runs rfl))
  | @erase own cause _ _ _ removing =>
    have here : settings.serverHere = true := by
      rcases cause with ⟨_, here⟩ | rfl | rfl
      · exact here
      · cases step with
        | destroy here => exact here
      · exact absurd rfl (remains own)
    rw [removing, listing.here here] at member
    cases member
  | @remove own _ posted _ _ table removing =>
    rw [removing] at member
    rw [table]
    refine (List.mem_erase_of_ne ?_).mpr (listing.posted c (List.mem_of_mem_erase member))
    rintro rfl
    have once := counted.closes_le c
    have bound := listing.counted c
    have erased := World.count_erase posted c
    have held := List.count_pos_iff.mpr member
    rw [if_pos rfl] at erased
    omega

theorem step (listing : w.Listing settings) (orderly : w.Orderly) (counted : w.Counted)
    (owned : w.Owned settings) (counted' : w'.Counted) {action : Action impl.Answer}
    (remains : ∀ own, action ≠ .destroyElsewhere own) (step : Step settings impl w action w') :
    w'.Listing settings where
  closing c member := listing.closing_step orderly counted owned counted' remains step member
  posted c member := listing.posted_step orderly counted remains step member
  counted c := by
    have closes := step.closes c
    have before := listing.counted c
    cases step.moves with
    | stay same =>
      rw [same.removing]
      omega
    | construct _ _ _ removing =>
      rw [removing]
      omega
    | @post own runs _ _ _ removing =>
      rw [removing, World.count_push]
      rw [runs] at closes
      simp only [Option.some.injEq, Frame.handleCloseRest.injEq, eq_comm (a := own)] at closes
      omega
    | erase _ _ _ _ removing =>
      rw [removing]
      omega
    | @remove own _ posted _ _ _ removing =>
      have erased := World.count_erase posted c
      rw [removing]
      omega
  here here := by
    have none := listing.here here
    cases step.moves with
    | stay same => rw [same.removing, none]
    | construct _ _ _ removing => rw [removing, none]
    | post _ elsewhere => cases here.symm.trans elsewhere
    | erase _ _ _ _ removing => rw [removing, none]
    | remove _ posted => simp [none] at posted
  destroying c member := by
    have closes := step.closes c
    rcases step.destroying_queued owned.posts member with old | runs | ⟨_, posted⟩ | destroyed
    · have before := listing.destroying c old
      omega
    · rw [if_pos runs] at closes
      omega
    · have bound := listing.counted c
      have held := List.count_pos_iff.mpr posted
      omega
    · exact absurd destroyed (remains c)

end Listing

/-- A completion is queued by a `sendInLoop` under way, or by a channel that is writing. -/
theorem Advance.completions {onLoop : Bool} {frame : Frame} {input : Input} {frames : List Frame}
    (advance : Advance settings impl onLoop w frame input w' frames)
    (posts : frame.postsCalls = true) (member : .writeComplete c ∈ w'.tasks) :
    .writeComplete c ∈ w.tasks ∨ frame.sends = some c ∨ (w.heap c).isWriting = true := by
  rcases advance.queues member with old | rfl | ⟨own, conn, same⟩ | ⟨_, _, same⟩
  · exact Or.inl old
  · cases posts
  · cases same
    cases advance with
    | sendInLoopStart | sendInLoopRest => exact Or.inr (Or.inl conn)
    | handleWrite writing =>
      cases conn
      exact Or.inr (Or.inr writing)
    | closeHere _ removed =>
      obtain ⟨_, rfl⟩ := removeConnectionInLoop_ok.mp removed
      rw [tasks_queue, List.mem_append, List.mem_singleton] at member
      exact Or.inl (member.resolve_right (by simp))
    | handleCloseStore ran | connectEstablishedStore ran | connectDestroyedStore ran
    | connectDestroyedRest ran =>
      obtain ⟨_, _, _, rfl⟩ := operate_ok.mp ran
      exact Or.inl member
    | handleRead ran =>
      obtain ⟨n, conn, _, ⟨_, rfl, _⟩ | ⟨_, rfl, _⟩ | ⟨_, rfl, _⟩⟩ := handleRead_ok ran <;>
        exact Or.inl member
    | @post task =>
      rw [tasks_queue, List.mem_append, List.mem_singleton] at member
      refine Or.inl (member.resolve_right ?_)
      rintro rfl
      cases posts
    | call | adjust | construct | watch | «return» => cases conn
    | _ => exact Or.inl member
  · cases same

/-- Completions that are queued, or run, are of connections that exist. -/
def Completing (w : World σ) : Prop :=
  ∀ c, .writeComplete c ∈ w.tasks ∨ .writeComplete c ∈ w.stack → w.Live c

theorem start_completing (settings : Settings) (poller : σ) :
    (start settings poller).Completing := by
  simp [Completing, start, World.tasks]

/-- `writeCompleteCallback_` is called from the queue only. -/
theorem Step.completion_frame {action : Action impl.Answer}
    (step : Step settings impl w action w') (member : .writeComplete c ∈ w'.stack) :
    .writeComplete c ∈ w.stack ∨ .writeComplete c ∈ w.tasks := by
  generalize shape : Frame.writeComplete c = frame at member
  cases step.origin frame member with
  | kept old => exact Or.inl old
  | advanced _ advance _ _ new =>
    subst shape
    cases advance.follows.leads new with
    | call enters => cases enters
  | @started task queued =>
    cases task <;> cases shape
    exact Or.inr queued
  | dispatched | resumed | destroyed => cases shape

/-- A connection is not let go while a completion of it is queued. -/
theorem Completing.step (completing : w.Completing) (orderly : w.Orderly)
    (owned : w.Owned settings) (idle : ∀ id, ¬ w.Live id → (w.heap id).isWriting = false)
    {action : Action impl.Answer}
    (completed : ∀ own, action = .destruct own → .writeComplete own ∉ w.tasks)
    (step : Step settings impl w action w') : w'.Completing := by
  intro c member
  have live : w.Live c := by
    rcases member with member | member
    · rcases step.queues member with old | ⟨_, frame, _, _, _, runs, advance, new⟩ |
        ⟨_, _, same⟩ | ⟨_, _, same⟩
      · exact completing c (Or.inl old)
      · have present := running_mem runs
        rcases advance.completions (owned.posts _ present) new with old | sends | writing
        · exact completing c (Or.inl old)
        · have own : frame.foreign = false := by cases frame <;> first | rfl | cases sends
          have stacked := List.mem_of_mem_head? (orderly.running_head runs own)
          exact owned.owned c (owned.sending frame stacked c sends)
        · by_contra dead
          cases writing.symm.trans (idle c dead)
      · cases same
      · cases same
    · rcases step.completion_frame member with old | queued
      · exact completing c (Or.inr old)
      · exact completing c (Or.inl queued)
  refine ⟨step.accepted_mono live.1, ?_⟩
  cases step with
  | loop _ advance | other _ advance =>
    have same := advance.control.destructed
    exact fun gone => live.2 (same ▸ gone)
  | @destruct own _ unreferenced =>
    intro gone
    rcases List.mem_append.mp gone with old | new
    · exact live.2 old
    · cases List.mem_singleton.mp new
      rcases member with queued | running
      · exact completed c rfl queued
      · exact unreferenced.2.2.2.1 _ running rfl
  | _ => exact live.2

end World

end Muduo.Source
