import Muduo.Source.Sending

/-!
# What the sending path keeps

`Outgoing` ties the output buffer to the channel's interest: the bounds of the
buffer, write interest exactly while bytes are waiting, and no consumed space in
front of an empty buffer. Every step of the sending path that returns keeps it,
and a step throws only when the vector would have to exceed `max_size()`.
-/
namespace Muduo.Source
open Muduo.Support Buffer

/-- The output buffer and the write interest of an open connection, between steps. -/
structure Outgoing (output : Buffer) (writing : Bool) : Prop where
  wf : output.Wf
  interest : writing = true ↔ output.value ≠ []
  unconsumed : kCheapPrepend < output.readIdx → output.value ≠ []

theorem Message.fits_sum {output : Buffer} (w : output.Wf) (message : Message) :
    output.writeIdx + message.bytes.length < sizeModulus := by
  have hw := le_trans w.write_le_size w.capacity
  have hm := message.size_le
  have hgap : kMaxSize + kMaxSize < sizeModulus := by decide
  omega

namespace TcpConnection

variable {conn : TcpConnection} {ch : Channel}

theorem sendInLoopRest_ok (w : conn.outputBuffer.Wf) {rest : Bytes}
    (fit : conn.outputBuffer.Fits rest.length) :
    conn.sendInLoopRest rest =
      .ok { conn with outputBuffer := conn.outputBuffer.appended rest } := by
  simp only [sendInLoopRest, runBuffer, w.run_append_ok fit]

theorem sendInLoopRest_error (w : conn.outputBuffer.Wf) {rest : Bytes}
    (excess : ¬ conn.outputBuffer.Fits rest.length)
    (exact_sum : conn.outputBuffer.writeIdx + rest.length < sizeModulus) :
    conn.sendInLoopRest rest = .error .lengthError := by
  simp only [sendInLoopRest, runBuffer, w.run_append_error excess exact_sum]

theorem handleWriteStart_ok (w : conn.outputBuffer.Wf) {answer : WriteAnswer}
    (valid : answer.Valid conn.outputBuffer.value) :
    conn.handleWriteStart answer =
      .ok (if answer.count = 0 then ⟨conn, [], false⟩
        else ⟨{ conn with outputBuffer := conn.outputBuffer.retrieved answer.count },
          conn.outputBuffer.value.take answer.count,
          conn.outputBuffer.value.drop answer.count == []⟩) := by
  cases answer with
  | wouldBlock | failed => rfl
  | accepted n =>
    cases n with
    | zero => rfl
    | succ n =>
      have empty : ((conn.outputBuffer.retrieved (n + 1)).readableBytes == 0) =
          (conn.outputBuffer.value.drop (n + 1) == []) := by
        rw [(w.retrieved _).readableBytes_value, w.value_retrieved]
        cases conn.outputBuffer.value.drop (n + 1) <;> rfl
      simp only [handleWriteStart, runBuffer, w.run_retrieve valid, empty, WriteAnswer.count]
      rfl

/-- `sendInLoop` writes at once exactly when nothing is buffered. -/
theorem writesDirectly_eq (out : Outgoing conn.outputBuffer ch.isWriting) :
    conn.writesDirectly ch = decide (conn.outputBuffer.value = []) := by
  rw [writesDirectly, out.wf.readableBytes_value]
  cases hw : ch.isWriting with
  | true => simp [out.interest.mp hw]
  | false =>
    have empty : conn.outputBuffer.value = [] := by
      by_contra nonempty
      rw [out.interest.mpr nonempty] at hw
      cases hw
    simp [empty]

end TcpConnection

namespace Outgoing

variable {output : Buffer} {writing : Bool}

theorem fresh : Outgoing .fresh false :=
  ⟨fresh_wf, by simp, fun consumed => absurd consumed (Nat.lt_irrefl _)⟩

theorem readIdx_le_of_empty (out : Outgoing output writing) (empty : output.value = []) :
    output.readIdx ≤ kCheapPrepend :=
  Nat.le_of_not_lt fun consumed => out.unconsumed consumed empty

/-- Appending a non-empty remainder and watching writability keeps the tie. -/
theorem appended (out : Outgoing output writing) {rest : Bytes} (fit : output.Fits rest.length)
    (nonempty : rest ≠ []) : Outgoing (output.appended rest) true := by
  have kept : (output.appended rest).value ≠ [] := by
    rw [out.wf.value_appended fit]
    exact List.append_ne_nil_of_right_ne_nil _ nonempty
  exact ⟨out.wf.appended fit, by simp [kept], fun _ => kept⟩

/-- Retrieving what was written; interest is dropped when the buffer drains. -/
theorem retrieved (out : Outgoing output true) {n : Nat} :
    Outgoing (output.retrieved n) (output.value.drop n != []) := by
  have value := out.wf.value_retrieved n
  refine ⟨out.wf.retrieved n, by rw [value]; simp, ?_⟩
  intro consumed
  rw [value]
  by_contra drained
  have all : output.writeIdx - output.readIdx ≤ n := by
    rw [← out.wf.length_value]
    exact List.drop_eq_nil_iff.mp drained
  rw [Buffer.retrieved, if_neg (by omega)] at consumed
  exact absurd consumed (Nat.lt_irrefl _)

end Outgoing

end Muduo.Source
