import Muduo.Guarantees.OutgoingStream

/-!
# Notifications of the sending path

A step adds its notifications to the end of the log. Completion is queued by
`sendInLoop` when `::write` took the whole message and by `handleWrite` when it
drained the buffer; in both cases the buffer is empty afterwards. The high-water
callback is decided from the length the buffer had plus the remainder, before
`append` runs, and so misses the stale bytes that a compaction adds.
-/
namespace Muduo.Guarantees
open Muduo.Support Muduo.Source Muduo.Source.Buffer

/-- `high_water_mark_` and whether the two callbacks are set. -/
def settings (s : Sender) : Nat × Bool × Bool :=
  (s.conn.highWaterMark, s.conn.highWaterMarkCallback, s.conn.writeCompleteCallback)

/-- The notifications a step adds. -/
def added (s s' : Sender) : List SendEvent := s'.log.drop s.log.length

theorem added_append {s s' : Sender} {new : List SendEvent} (log : s'.log = s.log ++ new) :
    added s s' = new := by
  rw [added, log, List.drop_left]

section Steps

variable {s s' : Sender}

/-- What `sendInLoop` does before it buffers anything. -/
def messageStart (s : Sender) (message : Message) (answer : WriteAnswer) : TcpConnection.SendStart :=
  s.conn.sendInLoopStart s.channel message.bytes answer

theorem fits_of_sendInLoop (inv : Sending s) {message : Message} {answer : WriteAnswer}
    (ran : s.sendInLoop message.bytes answer = .ok s') : GrowthFits s (.sendInLoop message answer) := by
  by_contra excess
  rw [sendInLoop_error inv excess] at ran
  cases ran

theorem sendInLoop_eq (inv : Sending s) {message : Message} {answer : WriteAnswer}
    (ran : s.sendInLoop message.bytes answer = .ok s') :
    s' = if (messageStart s message answer).rest = [] then s.sendStart (messageStart s message answer)
      else buffered s (messageStart s message answer) := by
  have fit := fits_of_sendInLoop inv ran
  simp only [Sender.sendInLoop, if_neg inv.live] at ran
  unfold messageStart
  split at ran
  · next whole => rw [if_pos whole]; exact (Except.ok.inj ran).symm
  · next short =>
    rw [sendRest_ok inv fit] at ran
    rw [if_neg short]
    exact (Except.ok.inj ran).symm

/-- Bytes that wait keep the whole message back. -/
theorem rest_of_waiting (inv : Sending s) (waiting : s.readable ≠ []) (message : Message)
    (answer : WriteAnswer) :
    (messageStart s message answer).rest = message.bytes ∧
      (messageStart s message answer).complete = false := by
  have waiting' : s.conn.outputBuffer.value ≠ [] := waiting
  have direct := TcpConnection.writesDirectly_eq inv.output
  constructor
  · simp [messageStart, TcpConnection.sendInLoopStart, TcpConnection.nWrote, direct, waiting']
  · cases answer <;> simp [messageStart, TcpConnection.sendInLoopStart, direct, waiting']

theorem spill_rest (inv : Sending s) (message : Message) (answer : WriteAnswer) :
    s.conn.outputBuffer.spill (messageStart s message answer).rest.length =
      staleIn s (.sendInLoop message answer) := by
  by_cases empty : s.readable = []
  · rw [staleIn, spill_of_empty inv empty, spill_of_empty inv empty]
  · rw [(rest_of_waiting inv empty message answer).1, staleIn]

theorem spill_zero (b : Buffer) : b.spill 0 = [] :=
  if_neg fun compacts => absurd compacts.1 (Nat.not_lt_zero _)

theorem readable_sendInLoop (inv : Sending s) {message : Message} {answer : WriteAnswer}
    (ran : s.sendInLoop message.bytes answer = .ok s') :
    s'.readable = s.readable ++ staleIn s (.sendInLoop message answer) ++
      (messageStart s message answer).rest := by
  have fit := fits_of_sendInLoop inv ran
  have state := sendInLoop_eq inv ran
  rw [← spill_rest inv message answer]
  split at state
  · next whole =>
    rw [whole, List.length_nil, spill_zero, state]
    simp [Sender.readable, Sender.sendStart]
  · next short =>
    rw [state]
    exact inv.output.wf.value_appended fit

theorem log_sendInLoop (inv : Sending s) {message : Message} {answer : WriteAnswer}
    (ran : s.sendInLoop message.bytes answer = .ok s') :
    s'.log = s.log ++ ((if (messageStart s message answer).complete then [.writeComplete] else []) ++
      ((messageStart s message answer).highWater.map SendEvent.highWater).toList) := by
  have state := sendInLoop_eq inv ran
  rw [← List.append_assoc]
  split at state <;> rw [state] <;> rfl

/-- The state in which a draining `handleWrite` reads `state_`. -/
def drained (s : Sender) (n : Nat) : Sender :=
  { written s n with
    channel := s.channel.disableWriting
    log := s.log ++ (if s.conn.writeCompleteCallback then [.writeComplete] else []) }

/-- `handleWrite` writes nothing, or a part of the buffer, or drains it. -/
theorem handleWrite_cases (inv : Sending s) {answer : WriteAnswer}
    (valid : answer.Valid s.readable) (ran : s.handleWrite answer = .ok s') :
    s' = s ∨
    (s.readable.drop answer.count ≠ [] ∧ s' = written s answer.count) ∨
    (s.readable ≠ [] ∧ s.readable.drop answer.count = [] ∧
      s' = if s.conn.state = .kDisconnecting then (drained s answer.count).shutdownInLoop
        else drained s answer.count) := by
  have start := TcpConnection.handleWriteStart_ok inv.output.wf valid
  by_cases writing : s.channel.isWriting = true
  · simp only [Sender.handleWrite, if_pos writing, start] at ran
    by_cases none : answer.count = 0
    · refine .inl ?_
      simp only [if_pos none, Bool.false_eq_true, if_false, List.append_nil] at ran
      exact (Except.ok.inj ran).symm
    · simp only [if_neg none] at ran
      refine .inr ?_
      by_cases empty : s.conn.outputBuffer.value.drop answer.count = []
      · simp only [empty, beq_self_eq_true, if_true] at ran
        exact .inr ⟨inv.output.interest.mp writing, empty, (Except.ok.inj ran).symm⟩
      · simp only [beq_eq_false_iff_ne.mpr empty, Bool.false_eq_true, if_false] at ran
        exact .inl ⟨empty, (Except.ok.inj ran).symm⟩
  · refine .inl ?_
    simp only [Sender.handleWrite, if_neg writing] at ran
    exact (Except.ok.inj ran).symm

theorem readable_written (inv : Sending s) (n : Nat) :
    (written s n).readable = s.readable.drop n :=
  inv.output.wf.value_retrieved n

theorem readable_shutdownInLoop (s : Sender) : s.shutdownInLoop.readable = s.readable := by
  unfold Sender.shutdownInLoop; split <;> rfl

/-- `shutdownInLoop` adds a `shutdownWrite` at most. -/
theorem log_shutdownInLoop (s : Sender) :
    ∃ new, s.shutdownInLoop.log = s.log ++ new ∧ ∀ event ∈ new, event = .shutdownWrite := by
  unfold Sender.shutdownInLoop
  split
  · exact ⟨[], (List.append_nil _).symm, fun _ h => absurd h (by simp)⟩
  · exact ⟨[.shutdownWrite], rfl, fun _ h => List.mem_singleton.mp h⟩

theorem settings_shutdownInLoop (s : Sender) : settings s.shutdownInLoop = settings s := by
  unfold Sender.shutdownInLoop; split <;> rfl

/-- No step changes the mark or sets a callback. -/
theorem settings_step (inv : Sending s) {action : SendAction} (ran : s.step action = .ok s') :
    settings s' = settings s := by
  unfold Sender.step at ran
  split at ran
  · next answered =>
    cases action with
    | sendInLoop message answer =>
      have state := sendInLoop_eq inv ran
      split at state <;> rw [state] <;> rfl
    | handleWrite answer =>
      obtain rfl | ⟨_, rfl⟩ | ⟨_, _, rfl⟩ := handleWrite_cases inv answered ran
      · rfl
      · rfl
      · split
        · rw [settings_shutdownInLoop]; rfl
        · rfl
    | setDisconnecting => cases ran; rfl
    | shutdownInLoop => cases ran; exact settings_shutdownInLoop s
  · cases ran

theorem writesDirectly_of_empty (inv : Sending s) (empty : s.readable = []) :
    s.conn.writesDirectly s.channel = true := by
  have empty' : s.conn.outputBuffer.value = [] := empty
  rw [TcpConnection.writesDirectly_eq inv.output, decide_eq_true empty']

/-- Past an empty buffer the remainder is what `::write` left. -/
theorem rest_of_empty (inv : Sending s) (empty : s.readable = []) (message : Message)
    (answer : WriteAnswer) :
    (messageStart s message answer).rest = [] ↔ message.bytes.length ≤ answer.count := by
  have direct := writesDirectly_of_empty inv empty
  simp only [messageStart, TcpConnection.sendInLoopStart, TcpConnection.nWrote, direct, if_true,
    List.drop_eq_nil_iff]

theorem readable_sendInLoop_eq_nil (inv : Sending s) {message : Message} {answer : WriteAnswer}
    (ran : s.sendInLoop message.bytes answer = .ok s') :
    s'.readable = [] ↔ s.readable = [] ∧ (messageStart s message answer).rest = [] := by
  rw [readable_sendInLoop inv ran, List.append_eq_nil_iff, List.append_eq_nil_iff]
  constructor
  · rintro ⟨⟨empty, _⟩, whole⟩
    exact ⟨empty, whole⟩
  · rintro ⟨empty, whole⟩
    exact ⟨⟨empty, spill_of_empty inv empty _⟩, whole⟩

/-- The entries of the log after a step are the old ones and those the step adds. -/
def Extends (s s' : Sender) : Prop := s'.log = s.log ++ added s s'

theorem extends_of_append {new : List SendEvent} (log : s'.log = s.log ++ new) : Extends s s' := by
  rw [Extends, added_append log, log]

theorem added_trans {s'' : Sender} (first : Extends s s') (second : Extends s' s'') :
    s''.log = s.log ++ (added s s' ++ added s' s'') := by
  rw [← List.append_assoc, ← first, ← second]

/-- What one step reports: at most one completion, and only of an empty buffer. -/
structure Reports (s s' : Sender) : Prop where
  grows : Extends s s'
  once : (added s s').count .writeComplete ≤ 1
  drained : .writeComplete ∈ added s s' → s'.readable = []

theorem mem_added_sendInLoop (inv : Sending s) {message : Message} {answer : WriteAnswer}
    (ran : s.sendInLoop message.bytes answer = .ok s') :
    .writeComplete ∈ added s s' ↔ (messageStart s message answer).complete = true := by
  rw [added_append (log_sendInLoop inv ran)]
  cases (messageStart s message answer).complete <;>
    cases (messageStart s message answer).highWater <;> simp

/-- Completion is flagged only when the whole message went out past an empty buffer. -/
theorem drained_of_complete (inv : Sending s) {message : Message} {answer : WriteAnswer}
    (complete : (messageStart s message answer).complete = true) :
    s.readable = [] ∧ (messageStart s message answer).rest = [] := by
  have empty : s.readable = [] := by
    by_contra waiting
    rw [(rest_of_waiting inv waiting message answer).2] at complete
    cases complete
  refine ⟨empty, (rest_of_empty inv empty message answer).mpr ?_⟩
  cases answer with
  | accepted k =>
    simp only [messageStart, TcpConnection.sendInLoopStart, Bool.and_eq_true,
      decide_eq_true_eq] at complete
    exact complete.1.2
  | wouldBlock | failed => cases complete

/-- A non-empty message that went out whole is flagged. -/
theorem complete_of_drained (inv : Sending s) (callback : s.conn.writeCompleteCallback = true)
    {message : Message} (nonempty : message.bytes ≠ []) {answer : WriteAnswer}
    (empty : s.readable = []) (whole : (messageStart s message answer).rest = []) :
    (messageStart s message answer).complete = true := by
  have long : 0 < message.bytes.length := List.length_pos_iff.mpr nonempty
  have taken := (rest_of_empty inv empty message answer).mp whole
  have direct := writesDirectly_of_empty inv empty
  cases answer with
  | accepted k =>
    rw [WriteAnswer.count] at taken
    simp only [messageStart, TcpConnection.sendInLoopStart, direct, callback, decide_eq_true taken,
      Bool.and_self]
  | wouldBlock | failed => exact absurd taken (Nat.not_le.mpr long)

theorem reports_sendInLoop (inv : Sending s) {message : Message} {answer : WriteAnswer}
    (ran : s.sendInLoop message.bytes answer = .ok s') : Reports s s' where
  grows := extends_of_append (log_sendInLoop inv ran)
  once := by
    rw [added_append (log_sendInLoop inv ran)]
    cases (messageStart s message answer).complete <;>
      cases (messageStart s message answer).highWater <;> simp
  drained reported := (readable_sendInLoop_eq_nil inv ran).mpr
    (drained_of_complete inv ((mem_added_sendInLoop inv ran).mp reported))

/-- The step of a non-empty message reports exactly when it leaves the buffer empty. -/
theorem reported_sendInLoop (inv : Sending s) (callback : s.conn.writeCompleteCallback = true)
    {message : Message} (nonempty : message.bytes ≠ []) {answer : WriteAnswer}
    (ran : s.sendInLoop message.bytes answer = .ok s') :
    .writeComplete ∈ added s s' ↔ s'.readable = [] := by
  rw [mem_added_sendInLoop inv ran, readable_sendInLoop_eq_nil inv ran]
  constructor
  · exact drained_of_complete inv
  · rintro ⟨empty, whole⟩
    exact complete_of_drained inv callback nonempty empty whole

/-- What a step other than `sendInLoop` adds: a completion exactly when it drains. -/
structure Drains (s s' : Sender) : Prop where
  reported : .writeComplete ∈ added s s' ↔ s.readable ≠ [] ∧ s'.readable = []
  stays_empty : s.readable = [] → s'.readable = []

section Quiet

variable {new : List SendEvent} (log : s'.log = s.log ++ new) (quiet : .writeComplete ∉ new)
include log quiet

theorem reports_of_quiet : Reports s s' where
  grows := extends_of_append log
  once := by
    rw [added_append log, List.count_eq_zero.mpr quiet]
    exact Nat.zero_le 1
  drained reported := by
    rw [added_append log] at reported
    exact absurd reported quiet

/-- A step that reports nothing may still take bytes off a buffer it does not drain. -/
theorem drains_of_quiet (empty_iff : s'.readable = [] ↔ s.readable = []) : Drains s s' where
  reported := by
    rw [added_append log, empty_iff]
    simp [quiet]
  stays_empty := empty_iff.mpr

end Quiet

theorem quiet_of_shutdown {new : List SendEvent} (only : ∀ event ∈ new, event = .shutdownWrite) :
    .writeComplete ∉ new :=
  fun reported => nomatch only _ reported

/-- The draining branch queues one completion and may go on to `shutdownWrite`. -/
theorem log_drained (s : Sender) (n : Nat) :
    ∃ new, (if s.conn.state = .kDisconnecting then (drained s n).shutdownInLoop
        else drained s n).log =
      s.log ++ ((if s.conn.writeCompleteCallback then [.writeComplete] else []) ++ new) ∧
      ∀ event ∈ new, event = .shutdownWrite := by
  split
  · obtain ⟨new, log, only⟩ := log_shutdownInLoop (drained s n)
    exact ⟨new, by rw [log, drained, List.append_assoc], only⟩
  · exact ⟨[], by simp [drained], fun _ h => absurd h (by simp)⟩

theorem readable_drained (inv : Sending s) {n : Nat} (empty : s.readable.drop n = []) :
    (if s.conn.state = .kDisconnecting then (drained s n).shutdownInLoop
      else drained s n).readable = [] := by
  have value : (drained s n).readable = [] := (readable_written inv n).trans empty
  split
  · rw [readable_shutdownInLoop, value]
  · exact value

theorem reports_handleWrite (inv : Sending s) {answer : WriteAnswer}
    (valid : answer.Valid s.readable) (ran : s.handleWrite answer = .ok s') : Reports s s' := by
  obtain rfl | ⟨_, rfl⟩ | ⟨_, empty, rfl⟩ := handleWrite_cases inv valid ran
  · exact reports_of_quiet (List.append_nil _).symm (by simp)
  · exact reports_of_quiet (List.append_nil _).symm (by simp)
  · obtain ⟨new, log, only⟩ := log_drained s answer.count
    refine ⟨extends_of_append log, ?_, fun _ => readable_drained inv empty⟩
    rw [added_append log, List.count_append, List.count_eq_zero.mpr (quiet_of_shutdown only)]
    cases s.conn.writeCompleteCallback <;> simp

theorem drains_handleWrite (inv : Sending s) (callback : s.conn.writeCompleteCallback = true)
    {answer : WriteAnswer} (valid : answer.Valid s.readable)
    (ran : s.handleWrite answer = .ok s') : Drains s s' := by
  obtain rfl | ⟨partly, rfl⟩ | ⟨waiting, empty, rfl⟩ := handleWrite_cases inv valid ran
  · exact drains_of_quiet (List.append_nil _).symm (by simp) Iff.rfl
  · have kept : s.readable ≠ [] := fun empty => partly (by rw [empty, List.drop_nil])
    refine drains_of_quiet (List.append_nil _).symm (by simp) ?_
    rw [readable_written inv]
    exact ⟨fun none => absurd none partly, fun none => absurd none kept⟩
  · obtain ⟨new, log, _⟩ := log_drained s answer.count
    have value := readable_drained inv empty
    refine ⟨?_, fun _ => value⟩
    rw [added_append log, if_pos callback]
    simp [waiting, value]

theorem step_inner {action : SendAction} (ran : s.step action = .ok s') :
    s.Answered action := by
  by_contra unanswered
  simp [Sender.step, unanswered] at ran

/-- Every step reports at most one completion, and only of an empty buffer. -/
theorem reports_step (inv : Sending s) {action : SendAction} (ran : s.step action = .ok s') :
    Reports s s' := by
  have answered := step_inner ran
  simp only [Sender.step, if_pos answered] at ran
  cases action with
  | sendInLoop message answer => exact reports_sendInLoop inv ran
  | handleWrite answer => exact reports_handleWrite inv answered ran
  | setDisconnecting =>
    cases ran
    exact reports_of_quiet (List.append_nil _).symm (by simp)
  | shutdownInLoop =>
    cases ran
    obtain ⟨new, log, only⟩ := log_shutdownInLoop s
    exact reports_of_quiet log (quiet_of_shutdown only)

/-- The actions that send nothing. -/
def SendsNothing : SendAction → Bool
  | .sendInLoop _ _ => false
  | .handleWrite _ | .setDisconnecting | .shutdownInLoop => true

theorem drains_step (inv : Sending s) (callback : s.conn.writeCompleteCallback = true)
    {action : SendAction} (no_send : SendsNothing action = true)
    (ran : s.step action = .ok s') : Drains s s' := by
  have answered := step_inner ran
  simp only [Sender.step, if_pos answered] at ran
  cases action with
  | sendInLoop message answer => cases no_send
  | handleWrite answer => exact drains_handleWrite inv callback answered ran
  | setDisconnecting =>
    cases ran
    exact drains_of_quiet (List.append_nil _).symm (by simp) Iff.rfl
  | shutdownInLoop =>
    cases ran
    obtain ⟨new, log, only⟩ := log_shutdownInLoop s
    refine drains_of_quiet log (quiet_of_shutdown only) ?_
    rw [readable_shutdownInLoop]

end Steps

theorem extends_run {s s' : Sender} {actions : List SendAction} (inv : Sending s)
    (run : Run (Graph Sender.step) s actions s') : Extends s s' := by
  induction run with
  | nil s => exact extends_of_append (List.append_nil _).symm
  | cons taken _ ih =>
    exact extends_of_append (added_trans (reports_step inv taken).grows
      (ih (step_of_ok inv taken).1))

/-- Between two sends a completion is reported exactly when the buffer drains. -/
theorem drains_run {s s' : Sender} {actions : List SendAction} (inv : Sending s)
    (callback : s.conn.writeCompleteCallback = true)
    (no_sends : ∀ action ∈ actions, SendsNothing action = true)
    (run : Run (Graph Sender.step) s actions s') : Drains s s' := by
  induction run with
  | nil s => exact drains_of_quiet (List.append_nil _).symm (by simp) Iff.rfl
  | @cons s s₁ s' action rest taken run ih =>
    obtain ⟨inv₁, _⟩ := step_of_ok inv taken
    have callback₁ : s₁.conn.writeCompleteCallback = true := by
      have kept := congrArg (·.2.2) (settings_step inv taken)
      exact kept.trans callback
    have first := drains_step inv callback (no_sends action (by simp)) taken
    have later := ih inv₁ callback₁ fun a mem => no_sends a (List.mem_cons_of_mem _ mem)
    refine ⟨?_, later.stays_empty ∘ first.stays_empty⟩
    rw [added_append (added_trans (reports_step inv taken).grows (extends_run inv₁ run)),
      List.mem_append, first.reported, later.reported]
    have kept := first.stays_empty
    have stays := later.stays_empty
    tauto

theorem settings_run {s s' : Sender} {actions : List SendAction} (inv : Sending s)
    (run : Run (Graph Sender.step) s actions s') : settings s' = settings s := by
  induction run with
  | nil => rfl
  | cons taken _ ih =>
    exact (ih (step_of_ok inv taken).1).trans (settings_step inv taken)

/-- In every state a run reaches, a step reports at most one completion, and only
with the buffer empty behind it; and from the latest message on, the buffer is
empty exactly when a completion has been reported since. -/
theorem completion_reported (fd : Int) (highWaterMark : Nat) (highWater : Bool)
    (actions : List SendAction) (s : Sender)
    (run : Run (Graph Sender.step) (.opened fd highWaterMark highWater true) actions s) :
    (∀ action s', s.step action = .ok s' →
      (added s s').count .writeComplete ≤ 1 ∧ (.writeComplete ∈ added s s' → s'.readable = [])) ∧
    (∀ message answer rest s₁ s₂, message.bytes ≠ [] →
      s.step (.sendInLoop message answer) = .ok s₁ →
      (∀ action ∈ rest, SendsNothing action = true) → Run (Graph Sender.step) s₁ rest s₂ →
      (s₂.readable = [] ↔ .writeComplete ∈ added s s₂)) := by
  have start := opened_sending fd highWaterMark highWater true
  have inv := sending_of_run start run
  have callback : s.conn.writeCompleteCallback = true :=
    congrArg (·.2.2) (settings_run start run)
  constructor
  · intro action s' ran
    have reports := reports_step inv ran
    exact ⟨reports.once, reports.drained⟩
  · intro message answer rest s₁ s₂ nonempty sent no_sends later
    have inv₁ := (step_of_ok inv sent).1
    have callback₁ : s₁.conn.writeCompleteCallback = true := by
      have kept := congrArg (·.2.2) (settings_step inv sent)
      exact kept.trans callback
    have drains := drains_run inv₁ callback₁ no_sends later
    have grows := (reports_step inv sent).grows
    have ran := sent
    simp only [Sender.step, if_pos (step_inner sent)] at ran
    rw [added_append (added_trans grows (extends_run inv₁ later)), List.mem_append,
      reported_sendInLoop inv callback nonempty ran, drains.reported]
    have stays := drains.stays_empty
    tauto

/-- The two bytes that the kernel leaves of three are drained after a `shutdown`; then the
completion is reported. -/
theorem completion_reported_drained :
    ∃ s₁ s₂, Sender.step (.opened 3 16 true true)
        (.sendInLoop ⟨[97, 98, 99], Message.three_bytes_le⟩ (.accepted 1)) = .ok s₁ ∧
      Run (Graph Sender.step) s₁ [.setDisconnecting, .handleWrite (.accepted 2)] s₂ ∧
      s₂.socket.sent = [97, 98, 99] ∧ .writeComplete ∈ added (.opened 3 16 true true) s₂ := by
  have evaluated : (exec Sender.step (.opened 3 16 true true)
      [.sendInLoop ⟨[97, 98, 99], Message.three_bytes_le⟩ (.accepted 1), .setDisconnecting,
        .handleWrite (.accepted 2)]).map (fun s => (s.socket.sent, s.readable)) =
      .ok ([97, 98, 99], []) := by decide +kernel
  obtain ⟨s₂, run, ended⟩ := run_of_map _ evaluated
  obtain ⟨taken, drained⟩ := Prod.mk.inj ended
  cases run with
  | @cons _ s₁ _ _ _ sent later =>
    obtain ⟨_, reported⟩ := completion_reported 3 16 true [] _ (.nil _)
    have exactly := reported _ _ _ s₁ s₂ (by simp) sent (by decide) later
    exact ⟨s₁, s₂, sent, later, taken, exactly.mp drained⟩

end Muduo.Guarantees
