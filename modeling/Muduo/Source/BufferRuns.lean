import Muduo.Source.BufferExecution

/-!
# Sequences of buffer operations

`Op` lists the public operations. `Valid` says that the asserted precondition
holds, that no `size_t` sum wraps, and that `readv` stored no more than the two
iovecs hold. A reachable buffer is constructed and then driven through valid
operations; an operation that throws leaves the buffer it found the exception in.
-/
namespace Muduo.Source
open Muduo.Support

namespace Buffer

inductive Op where
  | append (data : Bytes)
  | readFd (answer : ReadvAnswer)
  | retrieve (k : Nat)
  | retrieveAsString (k : Nat)
  | retrieveAllAsString
  | retrieveAll
  | prepend (data : Bytes)
  | ensureWritableBytes (len : Nat)
  | makeSpace (len : Nat)
  | shrink (reserve : Nat)
  | swap (rhs : Buffer)
  deriving DecidableEq, Repr

inductive Output where
  | unit
  | count (n : Int)
  | bytes (data : Bytes)
  | buffer (rhs : Buffer)
  deriving DecidableEq, Repr

def exec : Op → BufferM Output
  | .append data => do Buffer.append data; return .unit
  | .readFd answer => do return .count (← Buffer.readFd answer)
  | .retrieve k => do Buffer.retrieve k; return .unit
  | .retrieveAsString k => do return .bytes (← Buffer.retrieveAsString k)
  | .retrieveAllAsString => do return .bytes (← Buffer.retrieveAllAsString)
  | .retrieveAll => do Buffer.retrieveAll; return .unit
  | .prepend data => do Buffer.prepend data; return .unit
  | .ensureWritableBytes len => do Buffer.ensureWritableBytes len; return .unit
  | .makeSpace len => do Buffer.makeSpace len; return .unit
  | .shrink reserve => do Buffer.shrink reserve; return .unit
  | .swap rhs => do return .buffer (← Buffer.swap rhs)

def Op.Valid (b : Buffer) : Op → Prop
  | .append data => b.writeIdx + data.length < sizeModulus
  | .readFd (.bytes data) => data.length ≤ b.writableBytes + kExtraBuf
  | .retrieve k | .retrieveAsString k => k ≤ b.readableBytes
  | .prepend data => data.length ≤ b.prependableBytes
  | .ensureWritableBytes len | .makeSpace len => b.writeIdx + len < sizeModulus
  | .shrink reserve => kCheapPrepend + (b.readableBytes + reserve) < sizeModulus
  | _ => True

instance (b : Buffer) (op : Op) : Decidable (op.Valid b) :=
  match op with
  | .append _ | .ensureWritableBytes _ | .makeSpace _ | .shrink _ => Nat.decLt _ _
  | .readFd (.bytes _) | .retrieve _ | .retrieveAsString _ | .prepend _ => Nat.decLe _ _
  | .readFd (.error _) | .retrieveAllAsString | .retrieveAll | .swap _ => instDecidableTrue

/-- The buffer object after an operation, whether it returned or threw. -/
def after (op : Op) (b : Buffer) : Buffer :=
  match (exec op).run b with
  | .ok _ b' => b'
  | .error _ b' => b'

/-- Buffers a program can hold; the other side of a `swap` is one as well. -/
inductive Reachable : Buffer → Prop
  | new (n : Nat) {b : Buffer} :
      new n = .ok b → kCheapPrepend + n < sizeModulus → Reachable b
  | step {b : Buffer} (op : Op) :
      Reachable b → op.Valid b → (∀ rhs, op = .swap rhs → Reachable rhs) →
      Reachable (after op b)

/-- `resize` is not asked for more than `max_size()`. -/
def Op.Fits (b : Buffer) : Op → Prop
  | .append data | .readFd (.bytes data) => b.Fits data.length
  | .ensureWritableBytes len | .makeSpace len => b.Fits len
  | .shrink reserve => fresh.Fits (b.value.length + reserve)
  | _ => True

/-- The operation takes the compaction branch of `makeSpace`. -/
def Op.Compacts (b : Buffer) : Op → Prop
  | .append data | .readFd (.bytes data) => b.Compacts data.length
  | .ensureWritableBytes len => b.Compacts len
  | .makeSpace _ => kCheapPrepend < b.readIdx
  | _ => False

instance (b : Buffer) (op : Op) : Decidable (op.Compacts b) :=
  match op with
  | .append _ | .readFd (.bytes _) | .ensureWritableBytes _ =>
    inferInstanceAs (Decidable (b.Compacts _))
  | .makeSpace _ => Nat.decLt _ _
  | .readFd (.error _) | .retrieve _ | .retrieveAsString _ | .retrieveAllAsString | .retrieveAll
  | .prepend _ | .shrink _ | .swap _ => instDecidableFalse

/-- Closed form of an operation that fits: what it returns and what it leaves. -/
def Op.outcome (b : Buffer) : Op → Output × Buffer
  | .append data => (.unit, b.appended data)
  | .readFd (.error _) => (.count (-1), b)
  | .readFd (.bytes data) =>
    (.count data.length,
      if data.length ≤ b.size - b.writeIdx then b.stored data
      else (b.stored (b.inPlace data)).appended (b.extra data))
  | .retrieve k => (.unit, b.retrieved k)
  | .retrieveAsString k => (.bytes (b.value.take k), b.retrieved k)
  | .retrieveAllAsString => (.bytes b.value, b.retrieved b.value.length)
  | .retrieveAll => (.unit, b.cleared)
  | .prepend data => (.unit, b.prepended data)
  | .ensureWritableBytes len => (.unit, b.reserved len)
  | .makeSpace len => (.unit, b.compacted.grown len)
  | .shrink reserve => (.unit, b.shrunk reserve)
  | .swap rhs => (.buffer b, rhs)

theorem length_extra_le {b : Buffer} (w : b.Wf) {data : Bytes}
    (valid : data.length ≤ b.writableBytes + kExtraBuf) : (b.extra data).length ≤ kExtraBuf := by
  rw [w.writableBytes_eq] at valid
  simp only [extra, List.length_drop]
  omega

/-- A valid operation that fits returns its closed form. -/
theorem Wf.run_exec_ok {b : Buffer} (w : b.Wf) {op : Op} (valid : op.Valid b) (fit : op.Fits b) :
    (exec op).run b = .ok (op.outcome b).1 (op.outcome b).2 := by
  cases op with
  | append data => simp [exec, Op.outcome, w.run_append_ok fit, -bind_pure_comp]
  | readFd answer =>
    cases answer with
    | error errno => rfl
    | bytes data =>
      by_cases room : data.length ≤ b.size - b.writeIdx
      · simp [exec, Op.outcome, w.run_readFd_inPlace room, room, -bind_pure_comp]
      · have excess : b.size - b.writeIdx < data.length := by omega
        have spill := w.run_readFd_spill excess (length_extra_le w valid)
        have fit' := (w.fits_stored_inPlace excess).mpr fit
        have stored := Wf.stored (w.room_inPlace data) w
        rw [stored.run_append_ok fit'] at spill
        simp [exec, Op.outcome, spill, room, -bind_pure_comp]
  | retrieve k =>
    have enough : k ≤ b.value.length := by rw [← w.readableBytes_value]; exact valid
    simp [exec, Op.outcome, w.run_retrieve enough, -bind_pure_comp]
  | retrieveAsString k =>
    have enough : k ≤ b.value.length := by rw [← w.readableBytes_value]; exact valid
    simp [exec, Op.outcome, w.run_retrieveAsString enough, -bind_pure_comp]
  | retrieveAllAsString =>
    have all := w.run_retrieveAsString (Nat.le_refl b.value.length)
    simp [exec, Op.outcome, Buffer.retrieveAllAsString, w.readableBytes_value, all, -bind_pure_comp]
  | retrieveAll => rfl
  | prepend data => simp [exec, Op.outcome, w.run_prepend valid, -bind_pure_comp]
  | ensureWritableBytes len =>
    simp [exec, Op.outcome, w.run_ensureWritableBytes_ok fit, -bind_pure_comp]
  | makeSpace len => simp [exec, Op.outcome, w.run_makeSpace_ok fit, -bind_pure_comp]
  | shrink reserve =>
    have exact_sum : b.value.length + reserve < sizeModulus := by
      rw [← w.readableBytes_value]
      exact lt_of_le_of_lt (Nat.le_add_left _ _) valid
    simp [exec, Op.outcome, w.placed.run_shrink_ok fit exact_sum, -bind_pure_comp]
  | swap rhs => rfl

/-- What a failing growth leaves behind. -/
def Op.interrupted (b : Buffer) : Op → Buffer
  | .readFd (.bytes data) => (b.stored (b.inPlace data)).compacted
  | .append _ | .ensureWritableBytes _ | .makeSpace _ => b.compacted
  | _ => b

/-- A valid operation that does not fit throws `std::length_error`. -/
theorem Wf.run_exec_error {b : Buffer} (w : b.Wf) {op : Op} (valid : op.Valid b)
    (excess : ¬ op.Fits b) : (exec op).run b = .error .lengthError (op.interrupted b) := by
  cases op with
  | append data => simp [exec, Op.interrupted, w.run_append_error excess valid, -bind_pure_comp]
  | readFd answer =>
    cases answer with
    | error errno => exact absurd trivial excess
    | bytes data =>
      have long : b.size - b.writeIdx < data.length := (Classical.not_imp.mp excess).1
      have limit := length_extra_le w valid
      have stored := Wf.stored (w.room_inPlace data) w
      have excess' : ¬ (b.stored (b.inPlace data)).Fits (b.extra data).length :=
        fun fit => excess ((w.fits_stored_inPlace long).mp fit)
      have exact_sum : (b.stored (b.inPlace data)).writeIdx + (b.extra data).length <
          sizeModulus := by
        have hle := le_trans stored.write_le_size stored.capacity
        have hgap : kMaxSize + kExtraBuf < sizeModulus := by decide
        omega
      have spill := w.run_readFd_spill long limit
      rw [stored.run_append_error excess' exact_sum] at spill
      simp [exec, Op.interrupted, spill, -bind_pure_comp]
  | ensureWritableBytes len =>
    simp [exec, Op.interrupted, w.run_ensureWritableBytes_error excess valid, -bind_pure_comp]
  | makeSpace len =>
    simp [exec, Op.interrupted, w.run_makeSpace_error excess valid, -bind_pure_comp]
  | shrink reserve =>
    have exact_sum : kCheapPrepend + (b.value.length + reserve) < sizeModulus := by
      rw [← w.readableBytes_value]; exact valid
    simp [exec, Op.interrupted, w.placed.run_shrink_error excess exact_sum, -bind_pure_comp]
  | retrieve _ | retrieveAsString _ | retrieveAllAsString | retrieveAll | prepend _ | swap _ =>
    exact absurd trivial excess

theorem Wf.fits_of_exec {b b' : Buffer} (w : b.Wf) {op : Op} {out : Output} (valid : op.Valid b)
    (ran : (exec op).run b = .ok out b') : op.Fits b := by
  by_contra excess
  rw [w.run_exec_error valid excess] at ran
  cases ran

theorem Wf.outcome {b : Buffer} (w : b.Wf) {op : Op} (valid : op.Valid b) (fit : op.Fits b)
    (rhs : ∀ other, op = .swap other → other.Wf) : (op.outcome b).2.Wf := by
  cases op with
  | append data => exact w.appended fit
  | readFd answer =>
    cases answer with
    | error errno => exact w
    | bytes data =>
      have stored := Wf.stored (w.room_inPlace data) w
      simp only [Op.outcome]
      split
      · next room =>
        have hs := w.write_le_size
        exact Wf.stored (by omega) w
      · next excess => exact stored.appended ((w.fits_stored_inPlace (by omega)).mpr fit)
  | retrieve k => exact w.retrieved k
  | retrieveAsString k => exact w.retrieved k
  | retrieveAllAsString => exact w.retrieved _
  | retrieveAll => exact w.cleared
  | prepend data => exact w.prepended valid
  | ensureWritableBytes len => exact w.reserved fit
  | makeSpace len => exact w.compacted.grown ((w.fits_compacted len).mpr fit)
  | shrink reserve => exact Wf.shrunk fit
  | swap other => exact rhs other rfl

theorem Wf.interrupted {b : Buffer} (w : b.Wf) (op : Op) : (op.interrupted b).Wf := by
  cases op with
  | readFd answer =>
    cases answer with
    | error errno => exact w
    | bytes data => exact (Wf.stored (w.room_inPlace data) w).compacted
  | append _ | ensureWritableBytes _ | makeSpace _ => exact w.compacted
  | retrieve _ | retrieveAsString _ | retrieveAllAsString | retrieveAll | prepend _ | swap _
  | shrink _ => exact w

/-- One operation keeps the bounds invariant, also when it throws. -/
theorem Wf.after {b : Buffer} (w : b.Wf) {op : Op} (valid : op.Valid b)
    (rhs : ∀ other, op = .swap other → other.Wf) : (after op b).Wf := by
  by_cases fit : op.Fits b
  · rw [Buffer.after, w.run_exec_ok valid fit]
    exact w.outcome valid fit rhs
  · rw [Buffer.after, w.run_exec_error valid fit]
    exact w.interrupted op

theorem Reachable.wf {b : Buffer} (reached : Reachable b) : b.Wf := by
  induction reached with
  | new _ made exact_sum => exact new_wf made exact_sum
  | step _ _ valid _ ih ihRhs => exact ih.after valid ihRhs

end Buffer

end Muduo.Source
