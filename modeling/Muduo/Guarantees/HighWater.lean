import Muduo.Guarantees.SendNotices

/-!
# High-water notifications

`sendInLoop` announces the crossing of `high_water_mark_` from a predicted length:
the length it found plus the remainder. The length after `append` is larger when
`makeSpace` compacts, since the stale bytes join the buffer. The prediction agrees
with the crossing unless these bytes decide it or change the announced length.
-/
namespace Muduo.Guarantees
open Muduo.Support Muduo.Source Muduo.Source.Buffer

/-- The lengths with which a step calls the high-water callback. -/
def announced (s s' : Sender) : List Nat :=
  (added s s').filterMap fun
    | .highWater n => some n
    | .writeComplete | .shutdownWrite => none

/-- The new length if a step takes the buffer from below the mark to the mark or above. -/
def crossing (mark : Nat) (s s' : Sender) : List Nat :=
  if s.readable.length < mark ∧ mark ≤ s'.readable.length then [s'.readable.length] else []

/-- The step calls the callback once, with the new length, if it crosses the mark. -/
def Notified (mark : Nat) (s s' : Sender) : Prop := announced s s' = crossing mark s s'

/-- The `append` of the step leaves no stale bytes, or the mark was reached before,
or it stays out of reach with the message and the `read_idx_ - kCheapPrepend`
stale bytes. -/
def PredictsLength (mark : Nat) (s : Sender) : SendAction → Prop
  | .sendInLoop message _ =>
    ¬ s.conn.outputBuffer.Compacts message.bytes.length ∨ mark ≤ s.conn.outputBuffer.readableBytes ∨
      s.conn.outputBuffer.readableBytes + (s.conn.outputBuffer.readIdx - kCheapPrepend) +
        message.bytes.length < mark
  | .handleWrite _ | .setDisconnecting | .shutdownInLoop => True

instance (mark : Nat) (s : Sender) (action : SendAction) :
    Decidable (PredictsLength mark s action) := by
  delta PredictsLength
  induction action using SendAction.casesOn <;> infer_instance

section Steps

variable {s s' : Sender}

/-- Steps that announce nothing and add no bytes are notified. -/
theorem notified_of_quiet {mark : Nat} {new : List SendEvent} (log : s'.log = s.log ++ new)
    (quiet : ∀ n, .highWater n ∉ new) (shorter : s'.readable.length ≤ s.readable.length) :
    Notified mark s s' := by
  have silent : announced s s' = [] := by
    rw [announced, added_append log, List.filterMap_eq_nil_iff]
    intro event mem
    cases event with
    | highWater n => exact absurd mem (quiet n)
    | writeComplete | shutdownWrite => rfl
  rw [Notified, silent, crossing, if_neg (by omega)]

theorem announced_sendInLoop (inv : Sending s) {message : Message} {answer : WriteAnswer}
    (ran : s.sendInLoop message.bytes answer = .ok s') :
    announced s s' = (messageStart s message answer).highWater.toList := by
  rw [announced, added_append (log_sendInLoop inv ran)]
  cases (messageStart s message answer).complete <;>
    cases (messageStart s message answer).highWater <;> rfl

/-- The announced length is the old length and the remainder. -/
theorem highWater_start (inv : Sending s) (callback : s.conn.highWaterMarkCallback = true)
    (message : Message) (answer : WriteAnswer) :
    (messageStart s message answer).highWater =
      let rest := (messageStart s message answer).rest
      if rest ≠ [] ∧ s.readable.length < s.conn.highWaterMark ∧
          s.conn.highWaterMark ≤ s.readable.length + rest.length then
        some (s.readable.length + rest.length)
      else none := by
  have length : (messageStart s message answer).rest.length =
      message.bytes.length - s.conn.nWrote s.channel answer := List.length_drop
  have exact_sum : sizeAdd s.conn.outputBuffer.readableBytes
      (messageStart s message answer).rest.length =
        s.readable.length + (messageStart s message answer).rest.length := by
    have bound := message.fits_sum inv.output.wf
    have value := inv.output.wf.readableBytes_value
    have whole := inv.output.wf.readableBytes_eq
    rw [sizeAdd_eq (by omega), value]
    rfl
  have short : (messageStart s message answer).rest ≠ [] ↔
      s.conn.nWrote s.channel answer < message.bytes.length := by
    rw [← List.length_pos_iff, length]
    omega
  have value : s.conn.outputBuffer.readableBytes = s.readable.length :=
    inv.output.wf.readableBytes_value
  simp only [short]
  rw [← exact_sum, length, ← value]
  simp only [messageStart, TcpConnection.sendInLoopStart, TcpConnection.crossesHighWater, callback,
    Bool.and_true, Bool.and_eq_true, decide_eq_true_eq]
  congr 1
  exact propext (and_congr_right fun _ => and_comm)

/-- A compaction adds stale bytes, and keeps the whole message back. -/
theorem rest_of_compacts (inv : Sending s) {message : Message}
    (compacts : s.conn.outputBuffer.Compacts message.bytes.length) (answer : WriteAnswer) :
    (messageStart s message answer).rest = message.bytes ∧ message.bytes ≠ [] ∧
      (staleIn s (.sendInLoop message answer)).length =
        s.conn.outputBuffer.readIdx - kCheapPrepend := by
  refine ⟨(rest_of_waiting inv (inv.output.unconsumed compacts.2) message answer).1, ?_, ?_⟩
  · intro none
    rw [none] at compacts
    exact absurd compacts.1 (Nat.not_lt_zero _)
  · rw [staleIn, spill, if_pos compacts, inv.output.wf.length_stale]

theorem notified_sendInLoop (inv : Sending s) (callback : s.conn.highWaterMarkCallback = true)
    {message : Message} {answer : WriteAnswer}
    (ran : s.sendInLoop message.bytes answer = .ok s') :
    Notified s.conn.highWaterMark s s' ↔
      PredictsLength s.conn.highWaterMark s (.sendInLoop message answer) := by
  have length : s'.readable.length = s.readable.length +
      (staleIn s (.sendInLoop message answer)).length +
        (messageStart s message answer).rest.length := by
    rw [readable_sendInLoop inv ran, List.length_append, List.length_append]
  have value : s.conn.outputBuffer.readableBytes = s.readable.length :=
    inv.output.wf.readableBytes_value
  rw [Notified, announced_sendInLoop inv ran, highWater_start inv callback, crossing, length,
    PredictsLength, value]
  by_cases compacts : s.conn.outputBuffer.Compacts message.bytes.length
  · -- the stale bytes lie between the predicted and the real length
    obtain ⟨whole, nonempty, stale⟩ := rest_of_compacts inv compacts answer
    have consumed := compacts.2
    rw [stale, whole]
    simp only [ne_eq, nonempty, not_false_eq_true, true_and, compacts, not_true_eq_false, false_or]
    split <;> split
    · next predicted reached =>
      simp only [Option.toList_some, List.cons.injEq, and_true]
      omega
    · next predicted missed => exact ⟨fun h => (nomatch h), fun h => absurd h (by omega)⟩
    · next missed reached => exact ⟨fun h => (nomatch h), fun h => absurd h (by omega)⟩
    · next missed missed' =>
      simp only [Option.toList_none, true_iff]
      omega
  · have stale : staleIn s (.sendInLoop message answer) = [] := if_neg compacts
    simp only [compacts, not_false_eq_true, true_or, iff_true, stale, List.length_nil,
      Nat.add_zero]
    by_cases whole : (messageStart s message answer).rest = []
    · simp only [whole, ne_eq, not_true_eq_false, false_and, if_false, List.length_nil,
        Nat.add_zero, Option.toList_none]
      exact (if_neg (by omega)).symm
    · simp only [ne_eq, whole, not_false_eq_true, true_and]
      split <;> rfl

theorem notified_handleWrite (inv : Sending s) {mark : Nat} {answer : WriteAnswer}
    (valid : answer.Valid s.readable) (ran : s.handleWrite answer = .ok s') :
    Notified mark s s' := by
  obtain rfl | ⟨_, rfl⟩ | ⟨_, empty, rfl⟩ := handleWrite_cases inv valid ran
  · exact notified_of_quiet (List.append_nil _).symm (by simp) (Nat.le_refl _)
  · refine notified_of_quiet (List.append_nil _).symm (by simp) ?_
    rw [readable_written inv, List.length_drop]
    exact Nat.sub_le _ _
  · obtain ⟨new, log, only⟩ := log_drained s answer.count
    refine notified_of_quiet log (fun n mem => ?_) ?_
    · obtain completion | shut := List.mem_append.mp mem
      · split at completion <;> simp at completion
      · exact nomatch only _ shut
    · rw [readable_drained inv empty]
      exact Nat.zero_le _

/-- One step calls the callback as the mark is crossed exactly when it predicts the length. -/
theorem notified_step (inv : Sending s) (callback : s.conn.highWaterMarkCallback = true)
    {action : SendAction} (ran : s.step action = .ok s') :
    Notified s.conn.highWaterMark s s' ↔ PredictsLength s.conn.highWaterMark s action := by
  have answered := step_inner ran
  simp only [Sender.step, if_pos answered] at ran
  cases action with
  | sendInLoop message answer => exact notified_sendInLoop inv callback ran
  | handleWrite answer => exact iff_of_true (notified_handleWrite inv answered ran) trivial
  | setDisconnecting =>
    cases ran
    refine iff_of_true (notified_of_quiet (List.append_nil _).symm (by simp) ?_) trivial
    exact Nat.le_refl _
  | shutdownInLoop =>
    cases ran
    obtain ⟨new, log, only⟩ := log_shutdownInLoop s
    refine iff_of_true (notified_of_quiet log (fun n mem => ?_) ?_) trivial
    · cases only _ mem
    · rw [readable_shutdownInLoop]

end Steps

/-- The steps that call the callback as the mark is crossed. -/
def NotifiedStep (mark : Nat) (s : Sender) (action : SendAction) (s' : Sender) : Prop :=
  s.step action = .ok s' ∧ Notified mark s s'

theorem notified_run_iff {mark : Nat} {s s' : Sender} {actions : List SendAction}
    (inv : Sending s) (marked : s.conn.highWaterMark = mark)
    (callback : s.conn.highWaterMarkCallback = true)
    (run : Run (Graph Sender.step) s actions s') :
    Run (NotifiedStep mark) s actions s' ↔
      Run (Guarded (PredictsLength mark) (Graph Sender.step)) s actions s' := by
  induction run with
  | nil s => exact iff_of_true (.nil s) (.nil s)
  | @cons s s₁ s' action rest taken run ih =>
    subst marked
    have kept := settings_step inv taken
    have later := ih (step_of_ok inv taken).1 (congrArg (·.1) kept)
      ((congrArg (·.2.1) kept).trans callback)
    have now := notified_step inv callback taken
    constructor
    · rintro (_ | ⟨⟨ran, notified⟩, tail⟩)
      cases Except.ok.inj (ran.symm.trans taken)
      exact .cons ⟨now.mp notified, taken⟩ (later.mp tail)
    · rintro (_ | ⟨⟨predicts, ran⟩, tail⟩)
      cases Except.ok.inj (ran.symm.trans taken)
      exact .cons ⟨taken, now.mpr predicts⟩ (later.mpr tail)

/-- In every state a run reaches, a step calls the callback as the mark is crossed
exactly when it predicts the length; a run does so throughout exactly when every
one of its steps predicts the length. -/
theorem high_water_exact (fd : Int) (mark : Nat) (writeComplete : Bool)
    (actions : List SendAction) (s : Sender)
    (run : Run (Graph Sender.step) (.opened fd mark true writeComplete) actions s) :
    (∀ action s', s.step action = .ok s' → (Notified mark s s' ↔ PredictsLength mark s action)) ∧
    (Run (NotifiedStep mark) (.opened fd mark true writeComplete) actions s ↔
      Run (Guarded (PredictsLength mark) (Graph Sender.step))
        (.opened fd mark true writeComplete) actions s) := by
  have start := opened_sending fd mark true writeComplete
  have kept := settings_run start run
  have marked : s.conn.highWaterMark = mark := congrArg (·.1) kept
  have callback : s.conn.highWaterMarkCallback = true := congrArg (·.2.1) kept
  refine ⟨fun action s' ran => ?_, notified_run_iff start rfl rfl run⟩
  rw [← marked]
  exact notified_step (sending_of_run start run) callback ran

/-- The two bytes that the kernel leaves of the first message reach the mark. -/
theorem high_water_exact_crossed :
    ∃ s, Run (Graph Sender.step) (.opened 3 2 true true) bufferedThenDrained s ∧
      s.log = [.highWater 2, .writeComplete] ∧
      Run (NotifiedStep 2) (.opened 3 2 true true) bufferedThenDrained s := by
  have ends : endsIn (PredictsLength 2) Sender.step Fault.notEnabled (.opened 3 2 true true)
      bufferedThenDrained (fun s => decide (s.log = [.highWater 2, .writeComplete])) = true := by
    decide +kernel
  obtain ⟨s, run, log⟩ := run_of_endsIn _ _ ends
  exact ⟨s, run.unguarded, of_decide_eq_true log,
    (high_water_exact 3 2 true _ s run.unguarded).2.mpr run⟩

/-- With the mark at 1025, the last step of `refill` takes the buffer from 1023 to
1025 bytes and predicts 1024: the callback is never called. -/
theorem refill_crosses_unannounced :
    ∃ s s', Run (Graph Sender.step) (.opened 3 1025 true false) (refill.take 2) s ∧
      s.step (.sendInLoop ⟨[98], Message.byte_le⟩ .wouldBlock) = .ok s' ∧
      s.readable.length = 1023 ∧ s'.readable.length = 1025 ∧ s'.log = [] ∧
      ¬ Notified 1025 s s' := by
  have evaluated :
      ((exec Sender.step (.opened 3 1025 true false) (refill.take 2)).bind fun s =>
        (s.step (.sendInLoop ⟨[98], Message.byte_le⟩ .wouldBlock)).map fun s' =>
          (s.readable.length, s'.readable.length, s'.log)) = .ok (1023, 1025, []) := by
    decide +kernel
  cases ran : exec Sender.step (.opened 3 1025 true false) (refill.take 2) with
  | error e => rw [ran] at evaluated; cases evaluated
  | ok s =>
    rw [ran] at evaluated
    cases sent : s.step (.sendInLoop ⟨[98], Message.byte_le⟩ .wouldBlock) with
    | error e => simp only [Except.bind, sent] at evaluated; cases evaluated
    | ok s' =>
      simp only [Except.bind, sent, Except.map, Except.ok.injEq, Prod.mk.injEq] at evaluated
      obtain ⟨before, after, silent⟩ := evaluated
      refine ⟨s, s', run_of_exec ran, sent, before, after, silent, fun notified => ?_⟩
      simp [Notified, announced, added, silent, crossing, before, after] at notified

end Muduo.Guarantees
