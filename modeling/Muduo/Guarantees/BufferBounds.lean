import Muduo.Guarantees.BufferQueue

/-!
# The buffer stays inside its storage

The bounds are kept by every operation with valid arguments, also by one that
throws. The model checks each range of `std::copy`, the string constructor and
`readv` against the storage and each assertion; none of these checks fails, so
`std::length_error` from the vector is the only way an operation does not return.
-/
namespace Muduo.Guarantees
open Muduo.Support Muduo.Source Muduo.Source.Buffer

/-- `kCheapPrepend <= buffer_.size()` and `read_idx_ <= write_idx_ <= buffer_.size()`. -/
structure InBounds (b : Buffer) : Prop where
  header : kCheapPrepend ≤ b.size
  read_le_write : b.readIdx ≤ b.writeIdx
  write_le_size : b.writeIdx ≤ b.size

/-- The operation returns or ends in `std::length_error`: no assertion fails and
no range leaves the storage or `extrabuf`. -/
def StaysInRange (b : Buffer) (op : Op) : Prop :=
  (∃ out b', (exec op).run b = .ok out b') ∨ ∃ b', (exec op).run b = .error .lengthError b'

theorem inBounds_of_wf {b : Buffer} (w : b.Wf) : InBounds b :=
  ⟨w.header, w.read_le_write, w.write_le_size⟩

theorem staysInRange_of_wf {b : Buffer} (w : b.Wf) {op : Op} (valid : op.Valid b) :
    StaysInRange b op := by
  by_cases fit : op.Fits b
  · exact .inl ⟨_, _, w.run_exec_ok valid fit⟩
  · exact .inr ⟨_, w.run_exec_error valid fit⟩

/-- The first iovec of `readFd` is exactly the storage behind `write_idx_`. -/
theorem iovec_in_storage {b : Buffer} (w : b.Wf) : b.writeIdx + b.writableBytes = b.size := by
  have hs := w.write_le_size
  rw [w.writableBytes_eq]
  omega

/-- Every buffer a program can hold is in bounds, and an operation with valid
arguments neither leaves its ranges nor breaks the bounds. -/
theorem buffer_in_bounds {b : Buffer} (reached : Reachable b) :
    InBounds b ∧ b.writeIdx + b.writableBytes = b.size ∧
    ∀ op, op.Valid b → (∀ rhs, op = .swap rhs → Reachable rhs) →
      StaysInRange b op ∧ InBounds (after op b) := by
  refine ⟨inBounds_of_wf reached.wf, iovec_in_storage reached.wf, fun op valid rhs => ⟨?_, ?_⟩⟩
  · exact staysInRange_of_wf reached.wf valid
  · exact inBounds_of_wf (reached.wf.after valid fun other swapped => (rhs other swapped).wf)

/-- A `prepend` of three bytes takes `read_idx_` from 10 to 7, below `kCheapPrepend`. -/
theorem buffer_in_bounds_prepended :
    (after (.prepend [1, 2, 3]) partlyRead).readIdx < kCheapPrepend ∧
      InBounds (after (.prepend [1, 2, 3]) partlyRead) := by
  obtain ⟨_, _, kept⟩ := buffer_in_bounds partlyRead_reachable
  exact ⟨by decide, (kept (.prepend [1, 2, 3]) (by decide) fun _ h => nomatch h).2⟩

end Muduo.Guarantees
