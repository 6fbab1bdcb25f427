import Muduo.Support.Queue
import Muduo.Source.BufferRuns

/-!
# The buffer as a byte queue

Each operation of `Buffer` is compared with the queue operation it stands for.
They agree exactly when the operation does not take the compaction branch of
`makeSpace` and the vector can hold the result. In the compaction branch
`write_idx_` keeps its old value, so `read_idx_ - kCheapPrepend` stale bytes
join the value.
-/
namespace Muduo.Guarantees
open Muduo.Support Muduo.Source Muduo.Source.Buffer

/-- The queue operation an operation of `Buffer` stands for. -/
def queueOp : Op → QueueOp Byte
  | .append data | .readFd (.bytes data) => .enqueue data
  | .retrieve k | .retrieveAsString k => .dequeue k
  | .retrieveAllAsString | .retrieveAll => .clear
  | .prepend data => .putBack data
  | .swap rhs => .replace rhs.value
  | .readFd (.error _) | .ensureWritableBytes _ | .makeSpace _ | .shrink _ => .keep

/-- The bytes a caller receives: a string, or the other buffer after `swap`. -/
def received : Output → Bytes
  | .bytes data => data
  | .buffer rhs => rhs.value
  | .unit | .count _ => []

/-- The bytes the queue hands out to that caller. -/
def handedOut (op : Op) (value : Bytes) : Bytes :=
  match op with
  | .retrieveAsString _ | .retrieveAllAsString | .swap _ => (queueOp op).result value
  | _ => []

/-- The operation returns, and acts on the value as the queue operation does. -/
def ActsAsQueue (b : Buffer) (op : Op) : Prop :=
  ∃ out b', (exec op).run b = .ok out b' ∧
    b'.value = (queueOp op).apply b.value ∧ received out = handedOut op b.value

/-- Bytes that an operation adds to the value on top of its queue operation. -/
def staleBytes (b : Buffer) : Op → Bytes
  | .append data => b.spill data.length
  | .readFd (.bytes data) =>
    if data.length ≤ b.size - b.writeIdx then []
    else (b.stored (b.inPlace data)).spill (b.extra data).length
  | .ensureWritableBytes len => b.spill len
  | .makeSpace _ => b.stale
  | _ => []

/-- Where the stale bytes end up: in front of the bytes written behind the value. -/
def valueAfter (b : Buffer) (op : Op) : Bytes :=
  match op with
  | .append data => b.value ++ staleBytes b op ++ data
  | .readFd (.bytes data) =>
    if data.length ≤ b.size - b.writeIdx then b.value ++ data
    else b.value ++ b.inPlace data ++ staleBytes b op ++ b.extra data
  | .ensureWritableBytes _ | .makeSpace _ => b.value ++ staleBytes b op
  | _ => (queueOp op).apply b.value

theorem value_outcome {b : Buffer} (w : b.Wf) {op : Op} (valid : op.Valid b) (fit : op.Fits b) :
    (op.outcome b).2.value = valueAfter b op := by
  cases op with
  | append data => exact w.value_appended fit
  | readFd answer =>
    cases answer with
    | error errno => rfl
    | bytes data =>
      simp only [Op.outcome, valueAfter]
      by_cases room : data.length ≤ b.size - b.writeIdx
      · have hs := w.write_le_size
        rw [if_pos room, if_pos room, Wf.value_stored (by omega) w]
      · have stored := Wf.stored (w.room_inPlace data) w
        have fit' := (w.fits_stored_inPlace (by omega)).mpr fit
        rw [if_neg room, if_neg room, stored.value_appended fit',
          Wf.value_stored (w.room_inPlace data) w, staleBytes, if_neg room]
  | retrieve k => exact w.value_retrieved k
  | retrieveAsString k => exact w.value_retrieved k
  | retrieveAllAsString =>
    exact (w.value_retrieved _).trans (List.drop_length ..)
  | retrieveAll => exact value_cleared
  | prepend data => exact w.value_prepended valid
  | ensureWritableBytes len => exact w.value_reserved len
  | makeSpace len => exact (w.compacted.value_grown len).trans w.value_compacted
  | shrink reserve => exact Wf.value_shrunk fit
  | swap rhs => rfl

theorem received_outcome (b : Buffer) (op : Op) :
    received (op.outcome b).1 = handedOut op b.value := by
  cases op with
  | readFd answer => cases answer <;> rfl
  | _ => rfl

theorem length_valueAfter (b : Buffer) (op : Op) :
    (valueAfter b op).length = ((queueOp op).apply b.value).length + (staleBytes b op).length := by
  cases op with
  | append data =>
    simp only [valueAfter, queueOp, QueueOp.apply, List.length_append]
    omega
  | readFd answer =>
    cases answer with
    | error errno => rfl
    | bytes data =>
      simp only [valueAfter, staleBytes, queueOp, QueueOp.apply]
      split
      · simp
      · have hsplit := congrArg List.length (b.inPlace_append_extra data)
        simp only [List.length_append] at hsplit ⊢
        omega
  | _ => simp [valueAfter, staleBytes, queueOp, QueueOp.apply]

/-- Compaction is exactly what adds stale bytes. -/
theorem length_staleBytes {b : Buffer} (w : b.Wf) (op : Op) :
    (op.Compacts b → (staleBytes b op).length = b.readIdx - kCheapPrepend) ∧
      (¬ op.Compacts b → staleBytes b op = []) := by
  have spill (len : Nat) : (b.Compacts len → (b.spill len).length = b.readIdx - kCheapPrepend) ∧
      (¬ b.Compacts len → b.spill len = []) :=
    ⟨fun h => by rw [Buffer.spill, if_pos h, w.length_stale], fun h => if_neg h⟩
  cases op with
  | append data => exact spill data.length
  | readFd answer =>
    cases answer with
    | error errno => exact ⟨fun h => h.elim, fun _ => rfl⟩
    | bytes data =>
      simp only [staleBytes]
      by_cases room : data.length ≤ b.size - b.writeIdx
      · rw [if_pos room]
        exact ⟨fun h => absurd h.1 (by omega), fun _ => rfl⟩
      · have stored := Wf.stored (w.room_inPlace data) w
        have hextra : 0 < (b.extra data).length := by
          simp only [extra, List.length_drop]
          omega
        have hfull : (b.stored (b.inPlace data)).size - (b.stored (b.inPlace data)).writeIdx = 0 := by
          have hs := w.write_le_size
          rw [size_stored (w.room_inPlace data)]
          simp only [Buffer.stored, inPlace, List.length_take]
          omega
        rw [if_neg room]
        constructor
        · intro h
          rw [Buffer.spill, if_pos ⟨by omega, h.2⟩, stored.length_stale]
          rfl
        · intro h
          exact if_neg fun h' => h ⟨by omega, h'.2⟩
  | ensureWritableBytes len => exact spill len
  | makeSpace len =>
    exact ⟨fun _ => w.length_stale, fun h => if_neg h⟩
  | _ => exact ⟨fun h => h.elim, fun _ => rfl⟩

theorem valueAfter_of_not_compacts {b : Buffer} (w : b.Wf) {op : Op} (clean : ¬ op.Compacts b) :
    valueAfter b op = (queueOp op).apply b.value := by
  have none := (length_staleBytes w op).2 clean
  cases op with
  | readFd answer =>
    cases answer with
    | error errno => rfl
    | bytes data =>
      simp only [valueAfter, none, List.append_nil, List.append_assoc, inPlace_append_extra,
        ite_self]
      rfl
  | append data => simp only [valueAfter, none, List.append_nil]; rfl
  | ensureWritableBytes len | makeSpace len => simp only [valueAfter, none, List.append_nil]; rfl
  | _ => rfl

theorem actsAsQueue_of_outcome {b : Buffer} {op : Op} (acts : ActsAsQueue b op)
    {out : Output} {b' : Buffer} (ran : (exec op).run b = .ok out b') :
    b'.value = (queueOp op).apply b.value := by
  obtain ⟨out', b'', ran', value, _⟩ := acts
  rw [ran] at ran'
  cases ran'
  exact value

/-- The condition of one step: compaction is not entered, the vector can grow. -/
def StaysInPlace (b : Buffer) (op : Op) : Prop := ¬ op.Compacts b ∧ op.Fits b

theorem actsAsQueue_iff {b : Buffer} (w : b.Wf) {op : Op} (valid : op.Valid b) :
    ActsAsQueue b op ↔ StaysInPlace b op := by
  constructor
  · intro acts
    have fit : op.Fits b := by
      obtain ⟨out, b', ran, _⟩ := acts
      exact w.fits_of_exec valid ran
    refine ⟨fun compacts => ?_, fit⟩
    have value := actsAsQueue_of_outcome acts (w.run_exec_ok valid fit)
    rw [value_outcome w valid fit] at value
    have added := (length_staleBytes w op).1 compacts
    have total := length_valueAfter b op
    rw [value] at total
    have consumed : kCheapPrepend < b.readIdx := by
      cases op with
      | append data | ensureWritableBytes len => exact compacts.2
      | readFd answer =>
        cases answer with
        | error errno => exact compacts.elim
        | bytes data => exact compacts.2
      | makeSpace len => exact compacts
      | _ => exact compacts.elim
    omega
  · rintro ⟨clean, fit⟩
    refine ⟨_, _, w.run_exec_ok valid fit, ?_, received_outcome b op⟩
    rw [value_outcome w valid fit, valueAfter_of_not_compacts w clean]

/-- One call with valid arguments that returns. -/
def Call (b : Buffer) (op : Op) (b' : Buffer) : Prop :=
  op.Valid b ∧ (∀ rhs, op = .swap rhs → Reachable rhs) ∧ ∃ out, (exec op).run b = .ok out b'

theorem Call.reachable {b b' : Buffer} {op : Op} (call : Call b op b') (reached : Reachable b) :
    Reachable b' := by
  obtain ⟨valid, rhs, out, ran⟩ := call
  have next := Reachable.step op reached valid rhs
  rwa [after, ran] at next

/-- Every operation on every reachable buffer acts as its queue operation exactly
when it stays in place, and a run of operations that all do computes the queue. -/
theorem buffer_queue_exact {b : Buffer} (reached : Reachable b) :
    (∀ op, op.Valid b → (ActsAsQueue b op ↔ StaysInPlace b op)) ∧
    (∀ ops b', Run (Guarded StaysInPlace Call) b ops b' →
      b'.value = QueueOp.applyAll (ops.map queueOp) b.value) := by
  constructor
  · intro op valid
    exact actsAsQueue_iff reached.wf valid
  · intro ops b' run
    refine Run.queue Reachable value queueOp run reached
      (fun _ _ _ reached taken => taken.2.reachable reached) ?_
    rintro s op s' reached ⟨inPlace, valid, _, out, ran⟩
    exact actsAsQueue_of_outcome ((actsAsQueue_iff reached.wf valid).mpr inPlace) ran

/-- `Buffer(4)` after `append("abcd")` and `retrieve(2)`. -/
def partlyRead : Buffer :=
  ⟨[0, 0, 0, 0, 0, 0, 0, 0, 97, 98, 99, 100], 10, 12⟩

theorem partlyRead_reachable : Reachable partlyRead := by
  have made : Reachable ⟨List.replicate 12 0, 8, 8⟩ :=
    .new 4 rfl (by decide)
  have filled := Reachable.step (.append [97, 98, 99, 100]) made (by decide) (fun _ h => nomatch h)
  exact Reachable.step (.retrieve 2) filled (by decide) (fun _ h => nomatch h)

/-- A `retrieve(1)` on it stays in place and drops the first byte. -/
theorem buffer_queue_exact_retrieve : ActsAsQueue partlyRead (.retrieve 1) ∧
    (after (.retrieve 1) partlyRead).value = [100] := by
  obtain ⟨acts_iff, queued⟩ := buffer_queue_exact partlyRead_reachable
  have inPlace : StaysInPlace partlyRead (.retrieve 1) := ⟨id, trivial⟩
  refine ⟨(acts_iff (.retrieve 1) (by decide)).mpr inPlace, ?_⟩
  have taken : Guarded StaysInPlace Call partlyRead (.retrieve 1)
      (after (.retrieve 1) partlyRead) :=
    ⟨inPlace, by decide, (fun _ swapped => nomatch swapped), _, rfl⟩
  exact queued [.retrieve 1] _ (.cons taken (.nil _))

/-- `append("e")` on it turns the value `cd` into `cdcde`. -/
theorem append_repeats_stale_bytes :
    Reachable partlyRead ∧ (Op.append [101]).Valid partlyRead ∧
      partlyRead.value = [99, 100] ∧
      (after (.append [101]) partlyRead).value = [99, 100, 99, 100, 101] ∧
      ¬ ActsAsQueue partlyRead (.append [101]) := by
  refine ⟨partlyRead_reachable, by decide, by decide, by decide, ?_⟩
  intro acts
  have clean := ((actsAsQueue_iff partlyRead_reachable.wf (by decide)).mp acts).1
  exact clean (by decide)

end Muduo.Guarantees
