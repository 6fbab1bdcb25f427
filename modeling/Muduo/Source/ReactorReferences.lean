import Muduo.Source.ReactorCluster
import Muduo.Source.ReactorRecords

/-!
# References that outlast the running functions

A call lets go of its connection when it returns, and the functors of a batch are
released together at its end. The server, the queue, the calls on other threads and the
users hold a connection for longer, until they hand it on or let go of it.
-/
namespace Muduo.Source
open Muduo.Support

namespace World

variable {σ : Type} {settings : Settings} {impl : Polling σ} {w w' : World σ} {c : ConnId}

/-- What is left of the running batch. -/
def batch (w : World σ) : List Task :=
  match w.phase with
  | .functors batch => batch
  | .polling | .dispatching _ => []

/-- The references of the server and of the queue. -/
def entrusted (w : World σ) (c : ConnId) : Nat :=
  w.table.count c + w.removing.count c + (w.pending.filterMap Task.holds).count c

/-- The connection that a call on another thread returns from without posting a functor. -/
def declined (w : World σ) : Frame → Option ConnId
  | .send c _ | .shutdown c => if w.state c = .kConnected then none else some c
  | .forceCloseSecond c => if w.state c = .kDisconnecting then none else some c
  | _ => none

/-- The connection of which `::write` takes all that there is, and whose user wants to know. -/
def emptied (w : World σ) (taken : Nat) : Frame → Option ConnId
  | .sendInLoopStart c _ message =>
    if message.bytes.length ≤ taken ∧ (w.conns c).writeCompleteCallback then some c else none
  | .handleWrite c =>
    if 0 < taken ∧ (w.conns c).outputBuffer.readableBytes ≤ taken ∧
      (w.conns c).writeCompleteCallback then some c else none
  | _ => none

/-- The connection whose write-complete functor an action queues. -/
def completing {answer : Type} (w : World σ) : Action answer → Option ConnId
  | .loop (.write (.accepted taken)) => w.stack.head?.bind (w.emptied taken)
  | _ => none

/-- A write-complete functor for the connection is queued, or runs. -/
def CompletionDue (w : World σ) (c : ConnId) : Prop :=
  .writeComplete c ∈ w.tasks ∨ .writeComplete c ∈ w.stack

instance (w : World σ) (c : ConnId) : Decidable (w.CompletionDue c) := instDecidableOr

/-- The indices of every output buffer lie in its storage. -/
def OutputSound (w : World σ) : Prop := ∀ c, (w.conns c).outputBuffer.Wf

theorem start_outputSound (settings : Settings) (poller : σ) :
    (start settings poller).OutputSound := fun _ => Buffer.fresh_wf

theorem OutputSound.setConn (sound : w.OutputSound) {conn : TcpConnection}
    (output : conn.outputBuffer.Wf) : (w.setConn c conn).OutputSound := by
  intro other
  rw [conns_setConn, Function.update_apply]
  split
  · exact output
  · exact sound other

theorem OutputSound.setState (sound : w.OutputSound) (s : StateE) :
    (w.setState c s).OutputSound := sound.setConn (sound c)

theorem OutputSound.note (sound : w.OutputSound) (event : Event) : (w.note event).OutputSound :=
  sound

theorem OutputSound.operate {id : ChannelId} {op : ChannelOp} (sound : w.OutputSound)
    (operated : w.operate impl id op = .ok w') : w'.OutputSound := by
  obtain ⟨_, _, _, rfl⟩ := operate_ok.mp operated
  exact sound

theorem OutputSound.advance (sound : w.OutputSound) {onLoop : Bool} {frame : Frame}
    {input : Input} {frames : List Frame}
    (advance : Advance settings impl onLoop w frame input w' frames) : w'.OutputSound := by
  cases advance with
  | @adjust own _ _ _ same => exact sound.setConn (same ▸ sound own)
  | watch _ operated | connectDestroyedRest operated => exact sound.operate operated
  | shutdown | forceCloseStore => exact sound.setState _
  | handleCloseStore operated | connectDestroyedStore operated | connectEstablishedStore operated =>
    exact ((sound.setState _).note _).operate operated
  | closeHere _ removed =>
    obtain ⟨_, rfl⟩ := removeConnectionInLoop_ok.mp removed
    exact sound
  | sendInLoopStart sent =>
    obtain ⟨answer, _, ran⟩ := sent
    cases ran
    exact sound
  | @sendInLoopRest own id rest _ sent =>
    obtain ⟨conn, appended, outcome⟩ := sendInLoopRest_ok sent
    have joined := sound.setConn (c := own)
      (TcpConnection.sendInLoopRest_output (sound own) appended).2
    rcases outcome with ⟨_, rfl⟩ | ⟨_, operated⟩
    · exact joined
    · exact (joined.note _).operate operated
  | @handleRead own _ _ _ ran =>
    obtain ⟨n, conn, read, outcome⟩ := handleRead_ok ran
    have stored : (w.setConn own conn).OutputSound :=
      sound.setConn (TcpConnection.handleRead_output read ▸ sound own)
    rcases outcome with ⟨_, rfl, _⟩ | ⟨_, rfl, _⟩ | ⟨_, rfl, _⟩ <;> exact stored
  | @handleWrite own _ _ _ _ valid written =>
    obtain ⟨start, started, outcome⟩ := handleWrite_ok written
    have wrote : (w.wrote own start).OutputSound :=
      OutputSound.setConn (w := w) sound
        (TcpConnection.handleWriteStart_output (sound own) valid started).2
    rcases outcome with ⟨_, rfl, _⟩ | ⟨_, _, w₁, operated, rfl⟩
    · exact wrote
    · have moved := wrote.operate operated
      exact moved
  | _ => exact sound

theorem OutputSound.step (sound : w.OutputSound) {action : Action impl.Answer}
    (step : Step settings impl w action w') : w'.OutputSound := by
  cases step with
  | loop _ advance | other _ advance =>
    have moved := sound.advance advance
    exact moved
  | _ => exact sound

theorem declined_holds {frame : Frame} (declined : w.declined frame = some c) :
    frame.holds = some c := by
  cases frame <;> simp_all [World.declined, Frame.holds]

theorem completing_eq {answer : Type} {action : Action answer}
    (completing : w.completing action = some c) :
    ∃ taken frame, action = .loop (.write (.accepted taken)) ∧ w.stack.head? = some frame ∧
      w.emptied taken frame = some c := by
  unfold World.completing at completing
  split at completing
  · next taken =>
    obtain ⟨frame, head, emptied⟩ := Option.bind_eq_some_iff.mp completing
    exact ⟨taken, frame, rfl, head, emptied⟩
  · cases completing

theorem emptied_conn {taken : Nat} {frame : Frame} (emptied : w.emptied taken frame = some c) :
    frame.conn = some c := by
  cases frame <;> simp_all [World.emptied, Frame.conn]

/-- A write is one of the connection whose function runs. -/
theorem subject_of_completing {answer : Type} {action : Action answer}
    (completing : w.completing action = some c) : w.subject action = some c := by
  obtain ⟨_, frame, rfl, head, emptied⟩ := completing_eq completing
  obtain ⟨rest, stack⟩ := List.head?_eq_some_iff.mp head
  simp only [subject, stack, emptied_conn emptied]

/-- Only an established connection writes. -/
theorem Placed.accepted_of_completing {mentions : σ → ChannelId → Prop} {answer : Type}
    (placed : w.Placed settings mentions) {action : Action answer}
    (completing : w.completing action = some c) : c ∈ w.accepted := by
  by_contra unborn
  have connecting := placed.unborn c unborn
  obtain ⟨taken, frame, _, head, emptied⟩ := completing_eq completing
  have begun := placed.established.stack frame (List.mem_of_mem_head? head)
  cases frame with
  | sendInLoopStart | handleWrite =>
    simp only [World.emptied, Option.ite_none_right_eq_some, Option.some.injEq] at emptied
    cases emptied.2
    exact begun connecting
  | _ => cases emptied

/-- All that is left in the output buffer is taken exactly when the buffer drains. -/
theorem drained_iff {own : ConnId} {answer : WriteAnswer} {start : TcpConnection.WriteStart}
    (sound : w.OutputSound) (valid : answer.Valid (w.conns own).outputBuffer.value)
    (started : (w.conns own).handleWriteStart answer = .ok start) :
    start.conn.writeCompleteCallback = (w.conns own).writeCompleteCallback ∧
      (start.drained = true ↔ 0 < answer.count ∧
        (w.conns own).outputBuffer.readableBytes ≤ answer.count) := by
  rw [TcpConnection.handleWriteStart_ok (sound own) valid, Except.ok.injEq] at started
  subst started
  rw [(sound own).readableBytes_value]
  split
  · next none => simp [none]
  · next some => simp [Nat.pos_iff_ne_zero, some, List.drop_eq_nil_iff]

/-- A write-complete functor is queued by a write that leaves nothing. -/
theorem Advance.completes {onLoop : Bool} {frame : Frame} {input : Input} {frames : List Frame}
    (advance : Advance settings impl onLoop w frame input w' frames)
    (posts : frame.postsCalls = true) (sound : w.OutputSound)
    (queued : .writeComplete c ∈ w'.pending) : .writeComplete c ∈ w.pending ∨
      ∃ taken, input = .write (.accepted taken) ∧ w.emptied taken frame = some c := by
  cases advance with
  | @post task =>
    refine Or.inl ((List.mem_append.mp queued).resolve_right fun new => ?_)
    cases List.mem_singleton.mp new
    cases posts
  | closeHere _ removed =>
    obtain ⟨_, rfl⟩ := removeConnectionInLoop_ok.mp removed
    exact Or.inl ((List.mem_append.mp queued).resolve_right (by simp))
  | watch _ ran | connectDestroyedRest ran | handleCloseStore ran | connectEstablishedStore ran
  | connectDestroyedStore ran =>
    obtain ⟨_, _, _, rfl⟩ := operate_ok.mp ran
    exact Or.inl queued
  | @sendInLoopStart own id message _ _ _ sent =>
    obtain ⟨answer, ⟨_, given⟩, ran⟩ := sent
    cases ran
    refine (List.mem_append.mp queued).imp_right fun new => ?_
    split at new
    · next complete =>
      cases List.mem_singleton.mp new
      cases answer with
      | accepted taken =>
        simp only [TcpConnection.sendInLoopStart, Bool.and_eq_true, decide_eq_true_eq] at complete
        rw [if_pos complete.1.1] at given
        exact ⟨taken, given, if_pos ⟨complete.1.2, complete.2⟩⟩
      | wouldBlock | failed => cases complete
    · cases new
  | sendInLoopRest ran =>
    obtain ⟨conn, _, ⟨_, rfl⟩ | ⟨_, operated⟩⟩ := sendInLoopRest_ok ran
    · exact Or.inl queued
    · exact Or.inl (operate_pending operated ▸ queued)
  | handleRead ran =>
    obtain ⟨n, conn, _, ⟨_, rfl, _⟩ | ⟨_, rfl, _⟩ | ⟨_, rfl, _⟩⟩ := handleRead_ok ran <;>
      exact Or.inl queued
  | @handleWrite own answer _ _ _ valid ran =>
    obtain ⟨start, started, ⟨_, rfl, _⟩ | ⟨drained, _, w₁, operated, rfl⟩⟩ := handleWrite_ok ran
    · exact Or.inl queued
    · rw [operate_pending operated] at queued
      refine (List.mem_append.mp queued).imp_right fun new => ?_
      obtain ⟨callback, all⟩ := drained_iff sound valid started
      split at new
      · next complete =>
        cases List.mem_singleton.mp new
        have taken := all.mp drained
        cases answer with
        | accepted n => exact ⟨n, rfl, if_pos ⟨taken.1, taken.2, callback ▸ complete⟩⟩
        | wouldBlock | failed => cases taken.1
      · cases new
  | _ => exact Or.inl queued

/-- A write that leaves nothing queues the functor, and nothing else. -/
theorem Advance.completed {onLoop : Bool} {frame : Frame} {frames : List Frame} {taken : Nat}
    (advance : Advance settings impl onLoop w frame (.write (.accepted taken)) w' frames)
    (sound : w.OutputSound) (emptied : w.emptied taken frame = some c) :
    w'.pending = w.pending ++ [.writeComplete c] := by
  cases advance with
  | @sendInLoopStart own id message _ _ _ sent =>
    simp only [World.emptied, Option.ite_none_right_eq_some, Option.some.injEq] at emptied
    obtain ⟨⟨all, callback⟩, rfl⟩ := emptied
    obtain ⟨answer, ⟨_, given⟩, ran⟩ := sent
    split at given
    · next direct =>
      cases given
      cases ran
      simp only [TcpConnection.sendInLoopStart, direct, all, callback, decide_true, Bool.and_self,
        if_true]
    · cases given.1
  | @handleWrite own answer _ _ _ valid ran =>
    simp only [World.emptied, Option.ite_none_right_eq_some, Option.some.injEq] at emptied
    obtain ⟨⟨some, all, callback⟩, rfl⟩ := emptied
    obtain ⟨start, started, ⟨kept, _⟩ | ⟨_, _, w₁, operated, rfl⟩⟩ := handleWrite_ok ran
    · have drained := (drained_iff sound valid started).2.mpr ⟨some, all⟩
      cases kept.symm.trans drained
    · rw [← (drained_iff sound valid started).1] at callback
      simp only [operate_pending operated, callback, if_true]
      rfl

theorem count_filterMap_push {α : Type} (f : α → Option ConnId) (list : List α) (new : α) (c : ConnId) :
    ((list ++ [new]).filterMap f).count c =
      (list.filterMap f).count c + if f new = some c then 1 else 0 := by
  cases held : f new with
  | none => simp [List.filterMap_append, held]
  | some own =>
    have pushed := count_push (list.filterMap f) own c
    simpa [List.filterMap_append, held, eq_comm] using pushed

/-- One item gives way to others. -/
theorem count_filterMap_splice {α : Type} (f : α → Option ConnId) (before : List α) (old : α)
    (new after : List α) (c : ConnId) :
    ((before ++ new ++ after).filterMap f).count c + (if f old = some c then 1 else 0) =
      ((before ++ old :: after).filterMap f).count c + (new.filterMap f).count c := by
  have pushed := count_filterMap_push f before old c
  rw [List.append_cons]
  simp only [List.filterMap_append, List.count_append] at pushed ⊢
  omega

/-- The reference of the table goes to the queue. -/
theorem entrusted_queue {own : ConnId} (present : own ∈ w.table) :
    ({ w with table := w.table.erase own }.queue (.connectDestroyed own)).entrusted c =
      w.entrusted c := by
  have erased := count_erase present c
  have queued := count_filterMap_push Task.holds w.pending (.connectDestroyed own) c
  simp only [Task.holds, Option.some.injEq, eq_comm (a := own)] at queued
  show (w.table.erase own).count c + w.removing.count c +
    ((w.pending ++ [Task.connectDestroyed own]).filterMap Task.holds).count c =
      w.table.count c + w.removing.count c + (w.pending.filterMap Task.holds).count c
  omega

/-- On any thread a step hands on what the table and the queue hold. -/
theorem Advance.entrusted {onLoop : Bool} {frame : Frame} {input : Input} {frames : List Frame}
    (advance : Advance settings impl onLoop w frame input w' frames) :
    w.entrusted c ≤ w'.entrusted c := by
  obtain ⟨queued, grown, _⟩ := advance.pending
  have more : (w.pending.filterMap Task.holds).count c ≤
      (w'.pending.filterMap Task.holds).count c := by
    rw [grown, List.filterMap_append, List.count_append]
    omega
  rcases advance.rosters with ⟨same, _⟩ | ⟨new, _, _, _, rfl⟩ | ⟨own, rfl, _⟩
  · unfold World.entrusted
    rw [same.table, same.removing]
    omega
  · have table : (w.construct new).table = w.table ++ [new] := rfl
    have listed := count_push w.table new c
    unfold World.entrusted
    rw [table]
    show _ ≤ _ + w.removing.count c + _
    omega
  · cases advance with
    | yes tested | no tested => cases tested
    | closeHere _ removed =>
      obtain ⟨present, rfl⟩ := removeConnectionInLoop_ok.mp removed
      exact le_of_eq (entrusted_queue (w := w.note (.closeCallback own)) present).symm
    | closeElsewhere =>
      have posted := count_push w.removing own c
      show w.table.count c + w.removing.count c + _ ≤
        w.table.count c + (w.removing ++ [own]).count c + _
      exact Nat.add_le_add (by omega) more

/-- A call on another thread hands on its reference, unless it returns. -/
theorem Advance.handed {frame : Frame} {frames : List Frame}
    (advance : Advance settings impl false w frame .none w' frames)
    (calling : frame.foreign = true) :
    w.entrusted c + (if frame.holds = some c then 1 else 0) =
      w'.entrusted c + (frames.filterMap Frame.holds).count c +
        if w.declined frame = some c then 1 else 0 := by
  cases advance with
  | yes tested same =>
    cases frame with
    | forceClose own =>
      cases tested
      simp [List.count_singleton, Frame.holds, declined]
    | forceCloseSecond own =>
      cases tested
      have disconnecting : w.state own = .kDisconnecting := same
      simp [List.count_singleton, Frame.holds, declined, disconnecting]
    | _ => first | (cases tested; done) | cases calling
  | no tested other none =>
    cases frame with
    | forceClose own =>
      cases tested
      cases none
      simp [List.count_singleton, Frame.holds, declined]
    | forceCloseSecond own =>
      cases tested
      cases none
      have elsewhere : w.state own ≠ .kDisconnecting := other
      simp [Frame.holds, declined, elsewhere]
    | _ => first | (cases tested; done) | cases calling
  | accept open_ | shutdown open_ =>
    simp [List.count_singleton, Frame.holds, runInLoop, Task.holds, declined, open_]
    rfl
  | reject closed | shutdownLate closed => simp [Frame.holds, declined, closed]
  | forceCloseStore =>
    simp [List.count_singleton, Frame.holds, runInLoop, Task.holds, declined]
    rfl
  | @post task =>
    have queued := count_filterMap_push Task.holds w.pending task c
    show w.table.count c + w.removing.count c + (w.pending.filterMap Task.holds).count c +
        (if task.holds = some c then 1 else 0) = w.table.count c + w.removing.count c +
          ((w.pending ++ [task]).filterMap Task.holds).count c + 0 + 0
    omega
  | _ => cases calling

theorem mem_tasks {task : Task} : task ∈ w.tasks ↔ task ∈ w.batch ∨ task ∈ w.pending :=
  List.mem_append

/-- The running batch was queued before. -/
theorem Step.batch {action : Action impl.Answer} (step : Step settings impl w action w')
    {task : Task} (member : task ∈ w'.batch) : task ∈ w.tasks := by
  cases step with
  | loop _ advance | other _ advance =>
    have phase := advance.control.phase
    refine mem_tasks.mpr (Or.inl ?_)
    simpa only [World.batch, phase] using member
  | swap _ phase => exact mem_tasks.mpr (Or.inr member)
  | start _ phase =>
    refine mem_tasks.mpr (Or.inl ?_)
    simp only [World.batch, phase] at member ⊢
    exact List.mem_cons_of_mem _ member
  | dispatch | again | poll => cases member
  | _ => exact mem_tasks.mpr (Or.inl member)

theorem Step.completes {action : Action impl.Answer} (step : Step settings impl w action w')
    (posts : ∀ frame, frame ∈ w.stack ∨ frame ∈ w.others → frame.postsCalls = true)
    (sound : w.OutputSound) (queued : .writeComplete c ∈ w'.pending) :
    .writeComplete c ∈ w.pending ∨ w.completing action = some c := by
  cases step with
  | @loop frame rest _ _ _ stack advance =>
    refine (advance.completes (posts frame (Or.inl (by simp [stack]))) sound queued).imp_right ?_
    rintro ⟨taken, rfl, emptied⟩
    simp [completing, stack, emptied]
  | @other frame before after _ _ others advance =>
    have calls := posts frame (Or.inr (by simp [others]))
    exact (advance.completes calls sound queued).imp_right fun ⟨_, same, _⟩ => by cases same
  | swap => cases queued
  | connectElsewhere | removeElsewhere | destroyElsewhere =>
    exact Or.inl ((List.mem_append.mp queued).resolve_right (by simp))
  | _ => exact Or.inl queued

/-- A completion that is due was due before, or this action makes it so. -/
theorem Step.completionDue {action : Action impl.Answer} (step : Step settings impl w action w')
    (posts : ∀ frame, frame ∈ w.stack ∨ frame ∈ w.others → frame.postsCalls = true)
    (sound : w.OutputSound) (due : w'.CompletionDue c) :
    w.CompletionDue c ∨ w.completing action = some c := by
  rcases due with member | member
  · rcases mem_tasks.mp member with running | queued
    · exact Or.inl (Or.inl (step.batch running))
    · rcases step.completes posts sound queued with old | new
      · exact Or.inl (Or.inl (mem_tasks.mpr (Or.inr old)))
      · exact Or.inr new
  · exact Or.inl (step.completion_frame member).symm

end World

namespace Sharing

variable {σ : Type} {settings : Settings} {impl : Polling σ} {s s' : Sharing σ} {c : ConnId}

/-- The references to a connection that are still there when the batch is done. -/
def outlasting (s : Sharing σ) (c : ConnId) : Nat :=
  s.world.entrusted c + (s.world.others.filterMap Frame.holds).count c + s.kept c

/-- The references of the running batch. -/
def batched (s : Sharing σ) (c : ConnId) : Nat :=
  ((s.world.batch ++ s.begun).filterMap Task.holds).count c

/-- The references that last until the write-complete functor has run: what is queued runs
when the batch is done. -/
def securing (s : Sharing σ) (c : ConnId) : Nat :=
  if .writeComplete c ∈ s.world.pending then s.outlasting c else s.outlasting c + s.batched c

theorem outlasting_le_securing : s.outlasting c ≤ s.securing c := by
  unfold securing
  split <;> omega

theorem securing_le_total : s.securing c ≤ s.outlasting c + s.batched c := by
  unfold securing
  split <;> omega

theorem securing_le_refs : s.securing c ≤ s.refs c := by
  refine le_trans securing_le_total ?_
  have tasks : s.world.tasks = s.world.batch ++ s.world.pending := rfl
  simp only [outlasting, World.entrusted, batched, refs, tasks, List.filterMap_append,
    List.count_append]
  omega

/-- `connectDestroyed` has left the queue: it waits in the running batch, runs, or has run. -/
def Taken (s : Sharing σ) (c : ConnId) : Prop :=
  .connectDestroyed c ∈ s.world.batch ∨ (∃ frame ∈ s.world.stack, frame.destroys = some c) ∨
    c ∈ s.torn

instance (s : Sharing σ) (c : ConnId) : Decidable (s.Taken c) := by
  unfold Taken; infer_instance

/-- Before that its reference, or that of the table, outlasts every batch that runs. -/
theorem Claimed.outlasting (claimed : s.Claimed) (born : c ∈ s.world.accepted)
    (waits : ¬ s.Taken c) : s.outlasting c ≠ 0 := by
  simp only [Taken, not_or, not_exists, not_and] at waits
  obtain ⟨batch, stack, torn⟩ := waits
  have once := claimed.once c
  rw [if_pos born, List.count_eq_zero.mpr torn, Nat.add_zero] at once
  intro none
  have table : c ∉ s.world.table := fun listed => by
    have held := List.count_pos_iff.mpr listed
    unfold Sharing.outlasting World.entrusted at none
    omega
  have queued : .connectDestroyed c ∉ s.world.pending := fun member => by
    have held : 0 < (s.world.pending.filterMap Task.holds).count c :=
      List.count_pos_iff.mpr (List.mem_filterMap.mpr ⟨_, member, rfl⟩)
    unfold Sharing.outlasting World.entrusted at none
    omega
  have spent := World.destroyers_eq_zero table
    (fun member => (World.mem_tasks.mp member).elim batch queued) stack
  omega

/-- The connection that an action lets go of, without handing its reference on. -/
def releases {answer : Type} (s : Sharing σ) : SharedAction answer → Option ConnId
  | .drop c | .run (.destroy c) => some c
  | .run (.other position) => s.world.others[position]?.bind s.world.declined
  | _ => none

/-- What a step leaves of the references that outlast the batch, and of those of the batch. -/
inductive Retains (s s' : Sharing σ) (released : Option ConnId) (c : ConnId) : Prop
  | stays : s.outlasting c ≤ s'.outlasting c + (if released = some c then 1 else 0) →
      s'.batched c = s.batched c → Retains s s' released c
  | holds : s'.outlasting c ≠ 0 → Retains s s' released c
  | swaps : s'.world.pending = [] →
      s'.outlasting c + s'.batched c = s.outlasting c + s.batched c → Retains s s' released c
  | ends : s'.world.stack = [] → s'.world.batch = [] → s'.outlasting c = s.outlasting c →
      Retains s s' released c

theorem retains_of_step {action : Action impl.Answer} {w : World σ} (orderly : s.world.Orderly)
    (other : ∀ c, action ≠ .destruct c) (step : s.world.Step settings impl action w) :
    Retains s { s with world := w, begun := s.begunAfter action, torn := s.tornAfter action }
      (s.releases (.run action)) c := by
  cases step with
  | @loop frame rest frames input v stack advance =>
    have grown := advance.entrusted (c := c)
    refine .stays ?_ ?_
    · show s.world.entrusted c + _ + _ ≤
        v.entrusted c + (v.others.filterMap Frame.holds).count c + s.kept c + _
      rw [advance.control.others]
      omega
    · simp only [batched, World.batch, advance.control.phase, begunAfter, stack]
  | @other frame before after frames v others advance =>
    have handed := advance.handed (c := c) (orderly.calling frame (by simp [others]))
    refine .stays ?_ ?_
    · show s.world.entrusted c + (s.world.others.filterMap Frame.holds).count c + s.kept c ≤
        v.entrusted c + ((before ++ frames ++ after).filterMap Frame.holds).count c + s.kept c + _
      have spliced := World.count_filterMap_splice Frame.holds before frame frames after c
      have released : s.releases (.run (.other before.length) : SharedAction impl.Answer) =
          s.world.declined frame := by simp [releases, others]
      rw [released, others]
      omega
    · simp only [batched, World.batch, advance.control.phase, begunAfter]
  | dispatch stack phase =>
    refine .stays (Nat.le_add_right ..) ?_
    simp only [batched, World.batch, phase, begunAfter, stack]
  | swap stack phase =>
    refine .swaps rfl ?_
    simp [outlasting, World.entrusted, batched, World.batch, phase, begunAfter, stack]
    omega
  | @start task batch stack phase =>
    refine .stays (Nat.le_add_right ..) ?_
    have taken := ((List.perm_append_singleton task (batch ++ s.begun)).filterMap Task.holds).count_eq c
    simpa only [batched, World.batch, phase, begunAfter, stack, List.append_assoc,
      List.cons_append] using taken
  | again stack phase => exact .ends stack rfl rfl
  | poll stack phase =>
    refine .stays (Nat.le_add_right ..) ?_
    simp only [batched, World.batch, phase, begunAfter]
  | @destroy own _ _ present =>
    have erased := World.count_erase present c
    refine .stays ?_ rfl
    simp only [outlasting, World.entrusted, releases, Option.some.injEq, eq_comm (a := own)]
    omega
  | @call made frame =>
    have entered := World.count_filterMap_push Frame.holds s.world.others frame c
    refine .stays ?_ rfl
    simp only [outlasting, World.entrusted]
    omega
  | @connectElsewhere own =>
    have listed := World.count_push s.world.table own c
    have queued := World.count_filterMap_push Task.holds s.world.pending (.connectEstablished own) c
    refine .stays ?_ rfl
    show s.outlasting c ≤ (s.world.table ++ [own]).count c + s.world.removing.count c +
      ((s.world.pending ++ [Task.connectEstablished own]).filterMap Task.holds).count c +
        (s.world.others.filterMap Frame.holds).count c + s.kept c + _
    unfold outlasting World.entrusted
    omega
  | @removeElsewhere own posted present =>
    have erased := World.count_erase posted c
    have handed : (({ s.world with
          removing := s.world.removing.erase own
          table := s.world.table.erase own } : World σ).queue (.connectDestroyed own)).entrusted c =
        s.world.table.count c + (s.world.removing.erase own).count c +
          (s.world.pending.filterMap Task.holds).count c :=
      World.entrusted_queue (w := { s.world with removing := s.world.removing.erase own }) present
    by_cases same : c = own
    · subst same
      have held := List.count_pos_iff.mpr present
      refine .holds ?_
      show World.entrusted (World.queue _ _) c + (s.world.others.filterMap Frame.holds).count c +
        s.kept c ≠ 0
      rw [handed]
      omega
    · rw [if_neg same, Nat.add_zero] at erased
      refine .stays ?_ rfl
      show s.outlasting c ≤ World.entrusted (World.queue _ _) c +
        (s.world.others.filterMap Frame.holds).count c + s.kept c + _
      rw [handed]
      unfold outlasting World.entrusted
      omega
  | @destroyElsewhere own _ present =>
    have handed := World.entrusted_queue (c := c) present
    refine .stays ?_ rfl
    show s.outlasting c ≤ World.entrusted (World.queue _ _) c +
      (s.world.others.filterMap Frame.holds).count c + s.kept c + _
    rw [handed]
    exact Nat.le_add_right ..
  | destruct => exact absurd rfl (other _)

/-- The connection whose write-complete functor an action queues. -/
def completes {answer : Type} (s : Sharing σ) : SharedAction answer → Option ConnId
  | .run action => s.world.completing action
  | _ => none

/-- A write-complete functor is due, and nothing holds its connection until it has run but the
functions that run now. -/
def Forsaken (s : Sharing σ) (c : ConnId) : Prop := s.world.CompletionDue c ∧ s.securing c = 0

/-- Once these functions are done, nothing holds the connection. -/
theorem Forsaken.refs (forsaken : s.Forsaken c) (stack : s.world.stack = [])
    (batch : s.world.batch = []) (begun : s.begun = []) : s.refs c = 0 := by
  have none := Nat.le_zero.mp (forsaken.2 ▸ outlasting_le_securing)
  have tasks : s.world.tasks = s.world.pending := by
    rw [show s.world.tasks = s.world.batch ++ s.world.pending from rfl, batch, List.nil_append]
  simp only [Sharing.outlasting, World.entrusted] at none
  simp only [Sharing.refs, tasks, stack, begun, List.append_nil, List.nil_append]
  omega

theorem forsaken_of_release (due : s'.world.CompletionDue c)
    (queued : .writeComplete c ∈ s.world.pending → .writeComplete c ∈ s'.world.pending)
    (lost : s.outlasting c = s'.outlasting c + 1) (same : s'.batched c = s.batched c)
    (last : s.securing c ≤ 1) : s'.Forsaken c := by
  refine ⟨due, ?_⟩
  unfold securing at last ⊢
  split at last <;> split <;> first | omega | exact absurd (queued ‹_›) ‹_›

/-- Whoever lets go of the last reference that lasts forsakes the completion. -/
theorem forsaken_of_releases {action : SharedAction impl.Answer} (claimed : s.Claimed)
    (step : s.Step settings impl action s') (released : s.releases action = some c)
    (due : s.world.CompletionDue c) (last : s.securing c ≤ 1) : s'.Forsaken c := by
  cases step with
  | @run own w _ _ _ taken =>
    cases taken with
    | destroy _ stack present =>
      cases released
      have erased := World.count_erase present c
      rw [if_pos rfl] at erased
      have queued : .writeComplete c ∈ s.world.tasks := due.resolve_right (by simp [stack])
      refine forsaken_of_release (s := s) (Or.inl queued) id ?_ rfl last
      simp only [Sharing.outlasting, World.entrusted]
      omega
    | @other frame before after frames v others advance =>
      have declined : s.world.declined frame = some c := by
        simpa [releases, others] using released
      have handed := advance.handed (c := c) (claimed.orderly.calling frame (by simp [others]))
      rw [if_pos declined, if_pos (World.declined_holds declined)] at handed
      obtain ⟨queued, grown, _⟩ := advance.pending
      have phase := advance.control.phase
      have tasks : v.tasks = s.world.tasks ++ queued := by simp [World.tasks, phase, grown]
      have due' : v.CompletionDue c := by
        refine due.imp (fun member => ?_) fun member => ?_
        · rw [tasks]
          exact List.mem_append_left _ member
        · rwa [advance.control.stack]
      refine forsaken_of_release (s := s) due' (fun member => ?_) ?_ ?_ last
      · show _ ∈ v.pending
        rw [grown]
        exact List.mem_append_left _ member
      · show s.world.entrusted c + (s.world.others.filterMap Frame.holds).count c + s.kept c =
          v.entrusted c + ((before ++ frames ++ after).filterMap Frame.holds).count c + s.kept c + 1
        have spliced := World.count_filterMap_splice Frame.holds before frame frames after c
        rw [if_pos (World.declined_holds declined)] at spliced
        rw [others]
        omega
      · simp only [batched, World.batch, phase, begunAfter]
    | _ => cases released
  | @drop gone held =>
    cases released
    refine forsaken_of_release (s := s) due id ?_ rfl last
    simp only [Sharing.outlasting, Function.update_self]
    omega
  | keep | destruct => cases released

/-- So does a write that completes when nothing outlasts the batch. -/
theorem forsaken_of_completes {action : SharedAction impl.Answer} (sound : s.world.OutputSound)
    (step : s.Step settings impl action s') (completes : s.completes action = some c)
    (none : s.outlasting c = 0) : s'.Forsaken c := by
  cases step with
  | @run own w _ _ _ taken =>
    obtain ⟨count, frame, rfl, head, emptied⟩ := World.completing_eq completes
    cases taken with
    | @loop running rest frames _ v stack advance =>
      rw [stack, List.head?_cons, Option.some.injEq] at head
      subst head
      have grown := advance.completed sound emptied
      have queued : .writeComplete c ∈ v.pending := by simp [grown]
      have same : v.entrusted c = s.world.entrusted c := by
        rcases advance.rosters with ⟨same, _⟩ | ⟨_, rfl, _⟩ | ⟨_, rfl, _⟩
        · have queued := World.count_filterMap_push Task.holds s.world.pending (.writeComplete c) c
          simp only [World.entrusted, same.table, same.removing, grown, queued, Task.holds,
            reduceCtorEq, if_false, Nat.add_zero]
        · cases emptied
        · cases emptied
      have outlasting : v.entrusted c + (v.others.filterMap Frame.holds).count c + s.kept c = 0 := by
        rw [same, advance.control.others]
        exact none
      exact ⟨Or.inl (World.mem_tasks.mpr (Or.inr queued)), (if_pos queued).trans outlasting⟩
  | keep | drop | destruct => cases completes

end Sharing

end Muduo.Source
