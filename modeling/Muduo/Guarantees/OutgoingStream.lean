import Muduo.Source.SendingExecution

/-!
# The outgoing byte stream

What the kernel has accepted followed by what waits in `output_buffer_` is
compared with the messages passed to `sendInLoop`. Each step adds exactly its
message, preceded by the stale bytes of a compaction if `append` enters one.
-/
namespace Muduo.Guarantees
open Muduo.Support Muduo.Source Muduo.Source.Buffer

/-- The bytes that have left `sendInLoop`: accepted by the kernel, then waiting. -/
def handed (s : Sender) : Bytes := s.socket.sent ++ s.readable

/-- A connection that still sends: open, with its buffer and interest in step. -/
structure Sending (s : Sender) : Prop where
  output : Outgoing s.conn.outputBuffer s.channel.isWriting
  live : s.conn.state ≠ .kDisconnected

/-- The stale bytes a step lets into the stream. -/
def staleIn (s : Sender) : SendAction → Bytes
  | .sendInLoop message _ => s.conn.outputBuffer.spill message.bytes.length
  | _ => []

/-- The bytes a step is asked to send. -/
def messageOf : SendAction → Bytes
  | .sendInLoop message _ => message.bytes
  | _ => []

/-- The bytes `sendInLoop` hands to `append`. -/
def remainder (s : Sender) : SendAction → Bytes
  | .sendInLoop message answer => (s.conn.sendInLoopStart s.channel message.bytes answer).rest
  | _ => []

/-- The output buffer can grow to hold the remainder. -/
def GrowthFits (s : Sender) (action : SendAction) : Prop :=
  s.conn.outputBuffer.Fits (remainder s action).length

instance (s : Sender) (action : SendAction) : Decidable (GrowthFits s action) :=
  inferInstanceAs (Decidable (s.conn.outputBuffer.Fits _))

/-- `append` does not enter the compaction branch of `makeSpace`. -/
def NoCompaction (s : Sender) : SendAction → Prop
  | .sendInLoop message _ => ¬ s.conn.outputBuffer.Compacts message.bytes.length
  | _ => True

theorem opened_sending (fd : Int) (highWaterMark : Nat) (highWater writeComplete : Bool) :
    Sending (.opened fd highWaterMark highWater writeComplete) where
  output := by
    have idle : (Sender.opened fd highWaterMark highWater writeComplete).channel.isWriting =
        false := (by decide : (Channel.new 0).enableReading.isWriting = false)
    rw [idle]
    exact Outgoing.fresh
  live := by simp [Sender.opened]

theorem messages_cons (action : SendAction) (rest : List SendAction) :
    Sender.messages (action :: rest) = messageOf action ++ Sender.messages rest := by
  cases action <;> rfl

section Steps

variable {s s' : Sender}

/-- An empty buffer is never compacted, whatever is appended. -/
theorem spill_of_empty (inv : Sending s) (empty : s.conn.outputBuffer.value = []) (len : Nat) :
    s.conn.outputBuffer.spill len = [] := by
  have front := inv.output.readIdx_le_of_empty empty
  exact if_neg fun compacts => absurd compacts.2 (Nat.not_lt.mpr front)

theorem shutdownInLoop_conn (s : Sender) : s.shutdownInLoop.conn = s.conn := by
  unfold Sender.shutdownInLoop; split <;> rfl

theorem shutdownInLoop_channel (s : Sender) : s.shutdownInLoop.channel = s.channel := by
  unfold Sender.shutdownInLoop; split <;> rfl

theorem handed_shutdownInLoop (s : Sender) : handed s.shutdownInLoop = handed s := by
  unfold Sender.shutdownInLoop; split <;> rfl

theorem Sending.shutdownInLoop (inv : Sending s) : Sending s.shutdownInLoop where
  output := by rw [shutdownInLoop_conn, shutdownInLoop_channel]; exact inv.output
  live := by rw [shutdownInLoop_conn]; exact inv.live

/-- The state after `sendInLoop` has buffered a remainder. -/
def buffered (s : Sender) (start : TcpConnection.SendStart) : Sender :=
  { s.sendStart start with
    conn := { s.conn with outputBuffer := s.conn.outputBuffer.appended start.rest }
    channel := if s.channel.isWriting then s.channel else s.channel.enableWriting }

theorem sendRest_ok (inv : Sending s) {start : TcpConnection.SendStart}
    (fit : s.conn.outputBuffer.Fits start.rest.length) :
    (s.sendStart start).sendRest start.rest = .ok (buffered s start) := by
  have rest := TcpConnection.sendInLoopRest_ok inv.output.wf fit
  unfold Sender.sendRest
  rw [show (s.sendStart start).conn = s.conn from rfl, rest]
  rfl

theorem Sending.buffered (inv : Sending s) {start : TcpConnection.SendStart}
    (fit : s.conn.outputBuffer.Fits start.rest.length) (nonempty : start.rest ≠ []) :
    Sending (buffered s start) := by
  have writing : (Guarantees.buffered s start).channel.isWriting = true := by
    simp only [Guarantees.buffered]
    split
    · assumption
    · exact Channel.isWriting_enableWriting _
  refine ⟨?_, inv.live⟩
  rw [writing]
  exact inv.output.appended fit nonempty

theorem handed_buffered (inv : Sending s) {start : TcpConnection.SendStart}
    (fit : s.conn.outputBuffer.Fits start.rest.length) :
    handed (buffered s start) = s.socket.sent ++ start.written ++ s.readable ++
      s.conn.outputBuffer.spill start.rest.length ++ start.rest := by
  simp only [handed, Sender.readable, buffered, Sender.sendStart,
    inv.output.wf.value_appended fit, List.append_assoc]

theorem sendInLoop_ok (inv : Sending s) {message : Message} {answer : WriteAnswer}
    (fit : GrowthFits s (.sendInLoop message answer)) :
    ∃ s', s.sendInLoop message.bytes answer = .ok s' ∧ Sending s' ∧
      handed s' = handed s ++ staleIn s (.sendInLoop message answer) ++ message.bytes := by
  have direct := TcpConnection.writesDirectly_eq inv.output
  have parts : (s.conn.sendInLoopStart s.channel message.bytes answer).written ++
      (s.conn.sendInLoopStart s.channel message.bytes answer).rest = message.bytes :=
    List.take_append_drop _ _
  simp only [Sender.sendInLoop, if_neg inv.live]
  by_cases empty : s.conn.outputBuffer.value = []
  · -- nothing waits in front: what `::write` takes leaves before the remainder
    have stale := spill_of_empty inv empty
    split
    · next whole =>
      refine ⟨_, rfl, ⟨inv.output, inv.live⟩, ?_⟩
      rw [whole, List.append_nil] at parts
      simp [handed, Sender.sendStart, Sender.readable, empty, staleIn, stale, parts]
    · next short =>
      refine ⟨_, sendRest_ok inv fit, inv.buffered fit short, ?_⟩
      rw [handed_buffered inv fit]
      simp only [handed, Sender.readable, empty, staleIn, stale, List.append_nil,
        List.append_assoc, parts]
  · -- bytes are waiting: the whole message goes behind them
    have nothing : s.conn.nWrote s.channel answer = 0 := by
      simp [TcpConnection.nWrote, direct, empty]
    have written : (s.conn.sendInLoopStart s.channel message.bytes answer).written = [] := by
      simp [TcpConnection.sendInLoopStart, nothing]
    have rest : (s.conn.sendInLoopStart s.channel message.bytes answer).rest = message.bytes := by
      simp [TcpConnection.sendInLoopStart, nothing]
    split
    · next whole =>
      refine ⟨_, rfl, ⟨inv.output, inv.live⟩, ?_⟩
      have none : message.bytes = [] := rest.symm.trans whole
      rw [none] at written
      have stale : s.conn.outputBuffer.spill 0 = [] :=
        if_neg fun compacts => absurd compacts.1 (Nat.not_lt_zero _)
      simp only [handed, Sender.sendStart, Sender.readable, written, staleIn, none,
        List.length_nil, stale, List.append_nil]
    · next short =>
      refine ⟨_, sendRest_ok inv fit, inv.buffered fit short, ?_⟩
      rw [handed_buffered inv fit, written, rest]
      simp only [handed, staleIn, List.append_nil]

theorem sendInLoop_error (inv : Sending s) {message : Message} {answer : WriteAnswer}
    (excess : ¬ GrowthFits s (.sendInLoop message answer)) :
    s.sendInLoop message.bytes answer = .error .lengthError := by
  have nonempty : (s.conn.sendInLoopStart s.channel message.bytes answer).rest ≠ [] := by
    intro none
    refine excess fun short => ?_
    rw [remainder, none] at short
    exact absurd short (Nat.not_lt_zero _)
  have exact_sum : s.conn.outputBuffer.writeIdx +
      (s.conn.sendInLoopStart s.channel message.bytes answer).rest.length < sizeModulus := by
    have bound := message.fits_sum inv.output.wf
    have shorter : (s.conn.sendInLoopStart s.channel message.bytes answer).rest.length ≤
        message.bytes.length := by
      simp [TcpConnection.sendInLoopStart]
    omega
  have failed : s.conn.sendInLoopRest (s.conn.sendInLoopStart s.channel message.bytes answer).rest =
      .error .lengthError := TcpConnection.sendInLoopRest_error inv.output.wf excess exact_sum
  simp only [Sender.sendInLoop, if_neg inv.live, if_neg nonempty, Sender.sendRest]
  rw [show (s.sendStart _).conn = s.conn from rfl, failed]

/-- The state after `handleWrite` has written and retrieved `n > 0` bytes. -/
def written (s : Sender) (n : Nat) : Sender :=
  { s with
    conn := { s.conn with outputBuffer := s.conn.outputBuffer.retrieved n }
    socket.sent := s.socket.sent ++ s.readable.take n }

theorem handed_written (inv : Sending s) (n : Nat) : handed (written s n) = handed s := by
  simp only [handed, written, Sender.readable, inv.output.wf.value_retrieved, List.append_assoc,
    List.take_append_drop]

/-- `written` and, when the buffer has drained, the rest of `handleWrite`. -/
theorem handleWrite_ok (inv : Sending s) {answer : WriteAnswer} (valid : answer.Valid s.readable) :
    ∃ s', s.handleWrite answer = .ok s' ∧ Sending s' ∧ handed s' = handed s := by
  have start := TcpConnection.handleWriteStart_ok inv.output.wf valid
  by_cases writing : s.channel.isWriting = true
  · have retrieved := Outgoing.retrieved (writing ▸ inv.output) (n := answer.count)
    have value := handed_written inv answer.count
    simp only [Sender.handleWrite, if_pos writing, start]
    by_cases none : answer.count = 0
    · simp only [if_pos none]
      exact ⟨_, rfl, ⟨inv.output, inv.live⟩, by simp [handed, Sender.readable]⟩
    · simp only [if_neg none]
      by_cases drained : s.conn.outputBuffer.value.drop answer.count = []
      · -- nothing is left: interest is dropped, and a closing connection is shut
        have idle : (s.conn.outputBuffer.value.drop answer.count != []) = false := by simp [drained]
        have kept : ∀ log, Sending { written s answer.count with
            channel := s.channel.disableWriting, log := log } := fun log =>
          ⟨by rw [Channel.isWriting_disableWriting]; exact idle ▸ retrieved, inv.live⟩
        simp only [drained, beq_self_eq_true, if_true]
        refine ⟨_, rfl, ?_, ?_⟩
        · split
          · exact (kept _).shutdownInLoop
          · exact kept _
        · split
          · rw [handed_shutdownInLoop]
            exact value
          · exact value
      · have busy : (s.conn.outputBuffer.value.drop answer.count != []) = true := by
          simp [drained]
        simp only [beq_eq_false_iff_ne.mpr drained, Bool.false_eq_true, if_false]
        exact ⟨_, rfl, ⟨by rw [writing]; exact busy ▸ retrieved, inv.live⟩, value⟩
  · exact ⟨s, by simp [Sender.handleWrite, writing], inv, rfl⟩

/-- A step whose growth fits returns and adds its message, behind stale bytes if any. -/
theorem sending_step_ok (inv : Sending s) {action : SendAction} (answered : s.Answered action)
    (fit : GrowthFits s action) :
    ∃ s', s.step action = .ok s' ∧ Sending s' ∧
      handed s' = handed s ++ staleIn s action ++ messageOf action := by
  simp only [Sender.step, if_pos answered]
  cases action with
  | sendInLoop message answer => exact sendInLoop_ok inv fit
  | handleWrite answer =>
    obtain ⟨s', ran, kept, value⟩ := handleWrite_ok inv answered
    exact ⟨s', ran, kept, by rw [value]; simp [staleIn, messageOf]⟩
  | setDisconnecting =>
    exact ⟨_, rfl, ⟨inv.output, by simp⟩, by simp [handed, Sender.readable, staleIn, messageOf]⟩
  | shutdownInLoop =>
    refine ⟨_, rfl, inv.shutdownInLoop, ?_⟩
    rw [handed_shutdownInLoop]
    simp [staleIn, messageOf]

theorem growthFits_of_step (inv : Sending s) {action : SendAction}
    (ran : s.step action = .ok s') : GrowthFits s action := by
  by_contra excess
  unfold Sender.step at ran
  split at ran
  · cases action with
    | sendInLoop message answer =>
      simp only [sendInLoop_error inv excess] at ran
      cases ran
    | handleWrite _ | setDisconnecting | shutdownInLoop =>
      exact excess fun short => absurd short (Nat.not_lt_zero _)
  · cases ran

theorem step_of_ok (inv : Sending s) {action : SendAction} (ran : s.step action = .ok s') :
    Sending s' ∧ handed s' = handed s ++ staleIn s action ++ messageOf action := by
  have answered : s.Answered action := by
    by_contra unanswered
    simp [Sender.step, unanswered] at ran
  obtain ⟨s'', ran', kept, value⟩ := sending_step_ok inv answered (growthFits_of_step inv ran)
  rw [ran] at ran'
  cases ran'
  exact ⟨kept, value⟩

/-- A step adds stale bytes exactly when it compacts. -/
theorem noCompaction_iff (inv : Sending s) (action : SendAction) :
    NoCompaction s action ↔ staleIn s action = [] := by
  cases action with
  | sendInLoop message answer =>
    simp only [NoCompaction, staleIn, spill]
    constructor
    · intro clean
      exact if_neg clean
    · intro none compacts
      rw [if_pos compacts] at none
      have added := inv.output.wf.length_stale
      have consumed := compacts.2
      rw [none] at added
      simp only [List.length_nil] at added
      omega
  | handleWrite _ | setDisconnecting | shutdownInLoop => simp [NoCompaction, staleIn]

end Steps

/-- A run keeps the sending state, and the stream is never shorter than the messages. -/
theorem length_handed_run {s s' : Sender} {actions : List SendAction} (inv : Sending s)
    (run : Run (Graph Sender.step) s actions s') :
    (handed s).length + (Sender.messages actions).length ≤ (handed s').length := by
  induction run with
  | nil => simp [Sender.messages]
  | cons taken _ ih =>
    obtain ⟨kept, value⟩ := step_of_ok inv taken
    have later := ih kept
    rw [value] at later
    rw [messages_cons]
    simp only [List.length_append] at later ⊢
    omega

theorem handed_run_iff {s s' : Sender} {actions : List SendAction} (inv : Sending s)
    (run : Run (Graph Sender.step) s actions s') :
    handed s' = handed s ++ Sender.messages actions ↔
      Run (Guarded NoCompaction (Graph Sender.step)) s actions s' := by
  induction run with
  | nil s => simpa [Sender.messages] using Run.nil s
  | @cons s s₁ s' action rest taken run ih =>
    obtain ⟨kept, value⟩ := step_of_ok inv taken
    rw [messages_cons]
    constructor
    · intro whole
      -- the lengths leave no room for stale bytes in this step
      have none : staleIn s action = [] := by
        have later := length_handed_run kept run
        rw [whole, value] at later
        simp only [List.length_append] at later
        exact List.eq_nil_of_length_eq_zero (by omega)
      rw [none, List.append_nil] at value
      refine .cons ⟨(noCompaction_iff inv action).mpr none, taken⟩ ((ih kept).mp ?_)
      rw [whole, value, List.append_assoc]
    · rintro (_ | ⟨⟨clean, ran⟩, guarded⟩)
      cases Except.ok.inj (ran.symm.trans taken)
      rw [(ih kept).mpr guarded, value, (noCompaction_iff inv action).mp clean]
      simp

theorem sending_of_run {s s' : Sender} {actions : List SendAction} (inv : Sending s)
    (run : Run (Graph Sender.step) s actions s') : Sending s' :=
  run.invariant inv fun _ _ _ inv taken => (step_of_ok inv taken).1

/-- In every run the accepted bytes followed by the waiting ones are the messages
sent, exactly when no `append` of the run compacts; and in every state reached,
each call returns unless the vector would exceed `max_size()`. -/
theorem outgoing_stream_exact (fd : Int) (highWaterMark : Nat) (highWater writeComplete : Bool)
    (actions : List SendAction) (s : Sender)
    (run : Run (Graph Sender.step) (.opened fd highWaterMark highWater writeComplete) actions s) :
    (s.socket.sent ++ s.readable = Sender.messages actions ↔
      Run (Guarded NoCompaction (Graph Sender.step))
        (.opened fd highWaterMark highWater writeComplete) actions s) ∧
    ∀ action, s.Answered action →
      if GrowthFits s action then ∃ s', s.step action = .ok s'
      else s.step action = .error .lengthError := by
  have start := opened_sending fd highWaterMark highWater writeComplete
  have inv := sending_of_run start run
  refine ⟨handed_run_iff start run, fun action answered => ?_⟩
  split
  · next fit =>
    obtain ⟨s', ran, _⟩ := sending_step_ok inv answered fit
    exact ⟨s', ran⟩
  · next excess =>
    cases action with
    | sendInLoop message answer =>
      simp only [Sender.step, if_pos answered]
      exact sendInLoop_error inv excess
    | _ => exact absurd (fun short => absurd short (Nat.not_lt_zero _)) excess

/-- The kernel takes one byte of three; a fourth one joins the two that wait, and two calls
of `handleWrite` drain them. -/
def bufferedThenDrained : List SendAction :=
  [.sendInLoop ⟨[97, 98, 99], Message.three_bytes_le⟩ (.accepted 1),
    .sendInLoop ⟨[100], Message.byte_le⟩ .wouldBlock,
    .handleWrite (.accepted 1), .handleWrite (.accepted 2)]

theorem outgoing_stream_exact_drained :
    ∃ s, Run (Graph Sender.step) (.opened 3 16 false true) bufferedThenDrained s ∧
      s.socket.sent = [97, 98, 99, 100] ∧ s.readable = [] ∧
      Run (Guarded NoCompaction (Graph Sender.step)) (.opened 3 16 false true)
        bufferedThenDrained s := by
  have evaluated : (exec Sender.step (.opened 3 16 false true) bufferedThenDrained).map
      (fun s => (s.socket.sent, s.readable)) = .ok ([97, 98, 99, 100], []) := by decide +kernel
  obtain ⟨s, run, ended⟩ := run_of_map _ evaluated
  obtain ⟨sent, drained⟩ := Prod.mk.inj ended
  have whole : s.socket.sent ++ s.readable = Sender.messages bufferedThenDrained := by
    rw [sent, drained]
    rfl
  exact ⟨s, run, sent, drained, (outgoing_stream_exact 3 16 false true _ s run).1.mp whole⟩

/-- A full buffer is drained by one byte, then another message is sent. -/
def refill : List SendAction :=
  [.sendInLoop ⟨List.replicate 1024 97, by rw [List.length_replicate]; decide⟩ .wouldBlock,
    .handleWrite (.accepted 1), .sendInLoop ⟨[98], Message.byte_le⟩ .wouldBlock]

/-- One of the 1024 bytes of the first message is in the stream twice. -/
theorem refill_repeats_a_byte :
    ∃ s, Run (Graph Sender.step) (.opened 3 (64 * 1024 * 1024) false false) refill s ∧
      s.socket.sent ++ s.readable = List.replicate 1025 97 ++ [98] ∧
      Sender.messages refill = List.replicate 1024 97 ++ [98] := by
  have evaluated :
      (exec Sender.step (.opened 3 (64 * 1024 * 1024) false false) refill).map handed =
        .ok (List.replicate 1025 97 ++ [98]) := by decide +kernel
  obtain ⟨s, run, repeated⟩ := run_of_map _ evaluated
  exact ⟨s, run, repeated, rfl⟩

end Muduo.Guarantees
