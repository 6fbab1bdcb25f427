import Muduo.Guarantees.HalfClose
import Muduo.Guarantees.WriteInterest

/-!
# Who half-closes

After `shutdown` has stored `kDisconnecting` the half-close is up to its functor. If the
channel is writing when the functor runs, it is up to the `handleWrite` that drains the
output. Between the drain and the store nothing gets lost: the functor comes later and
finds the channel idle.
-/
namespace Muduo.Guarantees
open Muduo.Support Muduo.Source Muduo.Source.World

variable {σ : Type} {settings : Settings} {impl : Polling σ} {w w' : World σ} {c : ConnId}

/-- `forceClose` of the connection is never called. -/
def NeverForced {answer : Type} (c : ConnId) (_ : World σ) : Action answer → Prop
  | .call (.forceClose c') | .loop (.call (.forceClose c')) => c' ≠ c
  | _ => True

instance {answer : Type} (c : ConnId) (w : World σ) (action : Action answer) :
    Decidable (NeverForced c w action) := by
  delta NeverForced
  induction action using Source.Action.casesOn with
  | call call => induction call using Call.casesOn <;> infer_instance
  | loop input =>
    induction input using Input.casesOn with
    | call call => induction call using Call.casesOn <;> infer_instance
    | _ => infer_instance
  | _ => infer_instance

theorem NeverForced.apart {answer : Type} {action : Action answer} (never : NeverForced c w action) :
    ∀ c', action = .call (.forceClose c') ∨ action = .loop (.call (.forceClose c')) → c' ≠ c := by
  rintro c' (rfl | rfl) <;> exact never

/-- A connection in half-close is on its way to `shutdownWrite`, which comes with the end of
its output and not before. -/
structure HalfCloseKept (settings : Settings) (impl : Polling σ) (c : ConnId) (w : World σ) : Prop where
  /-- in `kDisconnecting`, unless `shutdownInLoop` or the end of `handleWrite` is running -/
  kept : w.state c = .kDisconnecting → .shutdownInLoop c ∉ w.stack → .handleWriteState c ∉ w.stack →
    (.post (.shutdownInLoop c) ∈ w.others ∨ .shutdownInLoop c ∈ w.tasks) ∨
      .shutdownWrite c ∈ w.trace ∨
      0 < (w.conns c).outputBuffer.readableBytes ∧ (w.heap c).isWriting = true
  /-- the `handleWrite` that drains the output issues it -/
  drained : ∀ answer w₁, w.state c = .kDisconnecting → w.stack.head? = some (.handleWrite c) →
    w.step settings impl (.loop (.write answer)) = .ok w₁ →
    (w₁.conns c).outputBuffer.readableBytes = 0 →
    ∃ w₂ w₃, w₁.step settings impl (.loop .none) = .ok w₂ ∧
      w₂.step settings impl (.loop .none) = .ok w₃ ∧ .shutdownWrite c ∈ w₃.trace
  /-- it is not issued before the output -/
  early : ∀ action w', w.step settings impl action = .ok w' →
    w'.trace = w.trace ++ [.shutdownWrite c] → w.state c ≠ .kDisconnected →
    (w.conns c).outputBuffer.readableBytes = 0

/-- Where the half-close of a connection is. -/
inductive Assured (c : ConnId) (w : World σ) : Prop
  | posting : .post (.shutdownInLoop c) ∈ w.others → Assured c w
  | queued : .shutdownInLoop c ∈ w.tasks → Assured c w
  | running : .shutdownInLoop c ∈ w.stack → Assured c w
  | waiting : (w.heap c).isWriting = true → Assured c w
  | drained : .handleWriteState c ∈ w.stack → Assured c w
  | issued : .shutdownWrite c ∈ w.trace → Assured c w

/-- `shutdown` has its functor posted, or runs it at once. -/
theorem assured_of_shutdown {action : Action impl.Answer}
    (step : Step settings impl w action w') (runs : w.running action = some (.shutdown c))
    (open_ : w.state c = .kConnected) : Assured c w' := by
  cases step with
  | @loop frame rest frames input v stack advance =>
    have head : frame = .shutdown c := by simpa [World.running, stack] using runs
    subst head
    refine .running (List.mem_append_left _ ?_)
    cases advance with
    | yes tested | no tested => cases tested
    | shutdown => exact List.mem_singleton.mpr rfl
    | shutdownLate closed => exact absurd open_ closed
  | @other frame before after frames v others advance =>
    have own : frame = .shutdown c := by simpa [World.running, others] using runs
    subst own
    refine .posting (List.mem_append_left _ (List.mem_append_right _ ?_))
    cases advance with
    | yes tested | no tested => cases tested
    | shutdown => exact List.mem_singleton.mpr rfl
    | shutdownLate closed => exact absurd open_ closed
  | dispatch empty | swap empty | start empty | again empty =>
    simp [World.running, empty] at runs
  | _ => cases runs

/-- The half-close is handed on, but not lost, as long as the connection is not closed. -/
theorem Assured.step (assured : Assured c w) {mentions : σ → ChannelId → Prop}
    (lawful : impl.Lawful mentions) (orderly : w.Orderly) {action : Action impl.Answer}
    (step : Step settings impl w action w') (closing : w.state c = .kDisconnecting)
    (up : .down c ∉ w'.trace) : Assured c w' := by
  cases assured with
  | posting posting =>
    rcases step.posting posting with stays | queued
    · exact .posting stays
    · exact .queued queued
  | queued queued =>
    rcases step.queued queued with stays | ⟨_, _, _, stack⟩
    · exact .queued stays
    · exact .running (by simp [stack, Task.frame])
  | running present =>
    rcases step.top orderly present rfl (by simp) with
      stays | ⟨_, _, rest, v, frames, _, advance, rfl⟩
    · exact .running stays
    · cases advance with
      | yes tested | no tested => cases tested
      | shutdownDeferred busy => exact .waiting busy
      | shutdownWrite => exact .issued (List.mem_append_right _ (List.mem_singleton.mpr rfl))
  | drained present =>
    rcases step.top orderly present rfl (by simp) with
      stays | ⟨_, _, rest, v, frames, _, advance, rfl⟩
    · exact .drained stays
    · cases advance with
      | yes tested =>
        cases tested
        exact .running List.mem_cons_self
      | no tested different =>
        cases tested
        exact absurd closing different
  | waiting busy =>
    cases idle : (w'.heap c).isWriting with
    | true => exact .waiting idle
    | false =>
      cases step with
      | loop _ advance =>
        rcases advance.disables lawful busy idle with drained | down
        · exact .drained (List.mem_append_left _ drained)
        · exact absurd down up
      | other others advance =>
        rcases advance.disables lawful busy idle with drained | down
        · have calling := advance.follows.foreign (orderly.calling _ (by simp [others])) _ drained
          cases calling
        · exact absurd down up
      | poll _ _ _ polled =>
        rw [Channel.isWriting, lawful.poll_events polled c] at idle
        cases busy.symm.trans idle
      | _ => cases busy.symm.trans idle
  | issued member =>
    obtain ⟨_, _, _, sends⟩ := step.sending
    exact .issued (sends.trace ▸ List.mem_append_left _ member)

/-- What holds while `forceClose` of the connection is never called. -/
structure Dutiful (c : ConnId) (w : World σ) : Prop where
  forcedHere : ForcedHere c w
  unforced : ∀ frame ∈ w.stack, frame.forces ≠ some c
  assured : w.state c = .kDisconnecting → Assured c w

theorem start_dutiful (settings : Settings) (poller : σ) (c : ConnId) :
    Dutiful c (start settings poller) where
  forcedHere := start_forcedHere settings poller c
  unforced := by simp [start]
  assured closing := by cases closing

theorem unforced_step {action : Action impl.Answer} (never : NeverForced c w action)
    (step : Step settings impl w action w') (unforced : ∀ frame ∈ w.stack, frame.forces ≠ some c) :
    ∀ frame ∈ w'.stack, frame.forces ≠ some c := by
  intro frame member forces
  cases step with
  | @loop running rest frames input v stack advance =>
    rcases List.mem_append.mp member with new | old
    · rcases advance.forces new forces with before | rfl
      · exact unforced running (by simp [stack]) before
      · exact never.apart c (Or.inr rfl) rfl
    · exact unforced frame (by simp [stack, old]) forces
  | other _ advance => exact unforced frame (advance.control.stack ▸ member) forces
  | dispatch =>
    rw [List.mem_singleton.mp member] at forces
    cases forces
  | @start task =>
    rw [List.mem_singleton.mp member] at forces
    cases task <;> cases forces
  | destroy =>
    simp only [List.mem_cons, List.not_mem_nil, or_false] at member
    rcases member with rfl | rfl <;> cases forces
  | swap | again | poll | call | connectElsewhere | removeElsewhere | destroyElsewhere | destruct =>
    exact unforced frame member forces

theorem Dutiful.step (dutiful : Dutiful c w) {mentions : σ → ChannelId → Prop}
    (lawful : impl.Lawful mentions) {action : Action impl.Answer} (never : NeverForced c w action)
    (step : Step settings impl w action w') : Dutiful c w' := by
  obtain ⟨forcedHere, unforced, assured⟩ := dutiful
  have orderly := forcedHere.delivering.orderly
  have after : ForcedHere c w' := forcedHere.step lawful (fun c' same => never.apart c' (Or.inl same)) step
  refine ⟨after, unforced_step never step unforced, fun closing => ?_⟩
  by_cases before : w.state c = .kDisconnecting
  · exact (assured before).step lawful orderly step before (after.up (by simp [closing]))
  · -- only `shutdown` stores `kDisconnecting`
    rcases step.state with ⟨same, _⟩ | ⟨frame, own, s, runs, stores, changed⟩
    · exact absurd (same ▸ closing) before
    · rw [changed] at closing
      split at closing
      · next same =>
        subst same
        cases stores with
        | shutdown open_ => exact assured_of_shutdown step runs open_
        | forceClose =>
          rcases World.running_mem runs with member | member
          · exact absurd rfl (unforced _ member)
          · exact absurd rfl (forcedHere.unforced _ member)
        | handleClose | connectEstablished | connectDestroyed => cases closing
      · exact absurd closing before

theorem dutiful_of_run {mentions : σ → ChannelId → Prop} (lawful : impl.Lawful mentions)
    {poller : σ} {actions : List (Action impl.Answer)}
    (run : Run (Guarded (NeverForced c) (Graph (step settings impl))) (start settings poller)
      actions w) : Dutiful c w :=
  run.invariant (start_dutiful settings poller c) fun _ _ _ dutiful taken =>
    dutiful.step lawful taken.1 (step_ok taken.2)

theorem Dutiful.kept (dutiful : Dutiful c w) (closing : w.state c = .kDisconnecting)
    (idle : .shutdownInLoop c ∉ w.stack) (tested : .handleWriteState c ∉ w.stack) :
    (.post (.shutdownInLoop c) ∈ w.others ∨ .shutdownInLoop c ∈ w.tasks) ∨
      .shutdownWrite c ∈ w.trace ∨
      0 < (w.conns c).outputBuffer.readableBytes ∧ (w.heap c).isWriting = true := by
  cases dutiful.assured closing with
  | posting member => exact Or.inl (Or.inl member)
  | queued member => exact Or.inl (Or.inr member)
  | issued member => exact Or.inr (Or.inl member)
  | waiting busy =>
    have interest := dutiful.forcedHere.interest (by simp [closing])
    exact Or.inr (Or.inr ⟨interest.mp busy, busy⟩)
  | running member => exact absurd member idle
  | drained member => exact absurd member tested

/-- An idle channel of an open connection has no output left. -/
theorem Dutiful.empty (dutiful : Dutiful c w) (unclosed : w.state c ≠ .kDisconnected)
    (idle : (w.heap c).isWriting = false) : (w.conns c).outputBuffer.readableBytes = 0 := by
  by_contra left
  have busy := (dutiful.forcedHere.interest unclosed).mpr (Nat.pos_of_ne_zero left)
  cases idle.symm.trans busy

theorem Dutiful.early (dutiful : Dutiful c w) {action : Action impl.Answer}
    (ran : w.step settings impl action = .ok w')
    (issued : w'.trace = w.trace ++ [.shutdownWrite c]) (unclosed : w.state c ≠ .kDisconnected) :
    (w.conns c).outputBuffer.readableBytes = 0 := by
  obtain ⟨old, new, events, sends⟩ := (step_ok ran).sending
  have noted : events = [.shutdownWrite c] := List.append_cancel_left (sends.trace.symm.trans issued)
  exact dutiful.empty unclosed (sends.shut c (by simp [noted])).2

/-- `shutdownInLoop` on an idle channel. -/
theorem shutdownWrite_of_idle {rest : List Frame} (stack : w.stack = .shutdownInLoop c :: rest)
    (idle : (w.heap c).isWriting = false) :
    ∃ w', w.step settings impl (.loop .none) = .ok w' ∧ .shutdownWrite c ∈ w'.trace := by
  refine ⟨{ (w.setSocket c { w.sockets c with writeShut := true }).note (.shutdownWrite c) with
    stack := rest }, ?_, List.mem_append_right _ (List.mem_singleton.mpr rfl)⟩
  simp [World.step, stack, advance, Frame.test, idle]

/-- The last part of `handleWrite`, on an idle channel in `kDisconnecting`. -/
theorem shutdownWrite_of_drained {rest : List Frame} (stack : w.stack = .handleWriteState c :: rest)
    (closing : w.state c = .kDisconnecting) (idle : (w.heap c).isWriting = false) :
    ∃ w₁ w₂, w.step settings impl (.loop .none) = .ok w₁ ∧
      w₁.step settings impl (.loop .none) = .ok w₂ ∧ .shutdownWrite c ∈ w₂.trace := by
  have tested : w.step settings impl (.loop .none) =
      .ok { w with stack := .shutdownInLoop c :: rest } := by
    simp [World.step, stack, advance, Frame.test, closing]
  obtain ⟨w₂, ran, issued⟩ := shutdownWrite_of_idle
    (show ({ w with stack := .shutdownInLoop c :: rest } : World σ).stack = _ from rfl) idle
  exact ⟨_, w₂, tested, ran, issued⟩

theorem Dutiful.drained (dutiful : Dutiful c w) {mentions : σ → ChannelId → Prop}
    (lawful : impl.Lawful mentions) {answer : WriteAnswer} (closing : w.state c = .kDisconnecting)
    (top : w.stack.head? = some (.handleWrite c))
    (ran : w.step settings impl (.loop (.write answer)) = .ok w')
    (empty : (w'.conns c).outputBuffer.readableBytes = 0) :
    ∃ w₁ w₂, w'.step settings impl (.loop .none) = .ok w₁ ∧
      w₁.step settings impl (.loop .none) = .ok w₂ ∧ .shutdownWrite c ∈ w₂.trace := by
  have never : NeverForced c w (.loop (.write answer) : Action impl.Answer) := trivial
  have after : Dutiful c w' := dutiful.step lawful never (step_ok ran)
  obtain ⟨rest, shape⟩ := List.head?_eq_some_iff.mp top
  have idle (closing : w'.state c = .kDisconnecting) : (w'.heap c).isWriting = false := by
    have interest := after.forcedHere.interest (by simp [closing])
    by_contra busy
    have left := interest.mp (Bool.eq_true_of_not_eq_false busy)
    omega
  cases step_ok ran with
  | loop stack advance =>
    rw [shape] at stack
    cases stack
    cases advance with
    | handleWrite busy _ ran =>
      have still := congrFun (handleWrite_state ran) c
      have closing := still.trans closing
      obtain ⟨start, _, ⟨_, rfl, _⟩ | ⟨_, rfl, _⟩⟩ := World.handleWrite_ok ran
      · have unwatched := idle closing
        cases busy.symm.trans unwatched
      · exact shutdownWrite_of_drained rfl closing (idle closing)

/-- For any other connections, threads, calls, callbacks and answers of the kernel: on a
connection that is never closed by force the half-close is not forgotten, and not issued
before the output. -/
theorem half_close_kept (kind : PollerKind) (settings : Settings) (c : ConnId)
    (actions : List (Action kind.polling.Answer)) (w : World kind.State)
    (run : Run (Guarded (NeverForced c) (Graph (step settings kind.polling)))
      (start settings kind.new) actions w) : HalfCloseKept settings kind.polling c w :=
  have dutiful := dutiful_of_run kind.lawful run
  ⟨dutiful.kept, fun _ _ closing top ran empty => dutiful.drained kind.lawful closing top ran empty,
    fun _ _ ran issued unclosed => dutiful.early ran issued unclosed⟩

/-- Two bytes are sent, one is taken, and the loop thread shuts down; its functor finds the
channel writing. -/
def leftToWriter : List (Action KqueueSystem.polling.Answer) :=
  PollerKind.opening none 5 ++
    [.loop (.call (.send 5 ⟨[97, 98], Message.two_bytes_le⟩)), .loop .none, .loop .none,
      .loop (.write (.accepted 1)), .loop .none, .loop (.call (.shutdown 5)), .loop .none,
      .loop .none]

theorem half_close_kept_left_to_writer :
    ∃ w, Run (Guarded (NeverForced 5) (Graph (step PollerKind.exampleSettings KqueueSystem.polling)))
        (start PollerKind.exampleSettings .new) leftToWriter w ∧
      (w.state 5 = .kDisconnecting ∧ .shutdownWrite 5 ∉ w.trace) ∧
      HalfCloseKept PollerKind.exampleSettings KqueueSystem.polling 5 w := by
  have ends : endsIn (NeverForced 5) (step PollerKind.exampleSettings KqueueSystem.polling)
      Fault.notEnabled (start PollerKind.exampleSettings .new) leftToWriter
      (fun w => decide (w.state 5 = .kDisconnecting ∧ .shutdownWrite 5 ∉ w.trace)) = true := by
    decide +kernel
  obtain ⟨w, run, waits⟩ := run_of_endsIn _ _ ends
  exact ⟨w, run, of_decide_eq_true waits, half_close_kept .kqueue _ 5 _ w run⟩

end Muduo.Guarantees
