import Muduo.Support.StateTriples
import Muduo.Source.BufferRuns

/-!
# Buffers under any 64-bit arguments

`Reachable` asks for arguments with which no `size_t` sum wraps; `Obtained` does not.
A wrapped sum can leave a vector that ends before `write_idx_` (`Torn`), and the
members go on from there until a range leaves the storage. What still holds of such a
buffer is `Sound`: the indices are ordered and were inside some storage.
-/
namespace Muduo.Source
open Muduo.Support
open scoped Std.Do

set_option mvcgen.warning false

namespace Buffer

/-- What holds of a buffer whatever the arguments of the calls were. -/
structure Sound (b : Buffer) : Prop where
  header : kCheapPrepend ≤ b.writeIdx
  read_le_write : b.readIdx ≤ b.writeIdx
  write_le : b.writeIdx ≤ kMaxSize
  size_le : b.size ≤ kMaxSize

/-- The storage ends before `write_idx_`. -/
def Torn (b : Buffer) : Prop := b.size < b.writeIdx

instance (b : Buffer) : Decidable b.Torn := inferInstanceAs (Decidable (_ < _))

theorem Sound.wf {b : Buffer} (sound : b.Sound) (whole : ¬ b.Torn) : b.Wf where
  header := le_trans sound.header (not_lt.mp whole)
  capacity := sound.size_le
  read_le_write := sound.read_le_write
  write_le_size := not_lt.mp whole

variable {b : Buffer}

theorem Sound.write_lt (sound : b.Sound) : b.writeIdx < sizeModulus :=
  lt_of_le_of_lt sound.write_le (by decide)

theorem Sound.readableBytes_eq (sound : b.Sound) : b.readableBytes = b.writeIdx - b.readIdx :=
  sizeSub_eq sound.read_le_write sound.write_lt

theorem Sound.readable_lt (sound : b.Sound) : b.readableBytes < sizeModulus := by
  rw [sound.readableBytes_eq]
  exact lt_of_le_of_lt (Nat.sub_le _ _) sound.write_lt

/-- The sum in `makeSpace` gives back the old `write_idx_`. -/
theorem Sound.rejoined (sound : b.Sound) :
    sizeAdd kCheapPrepend (sizeSub b.writeIdx kCheapPrepend) = b.writeIdx := by
  have whole : kCheapPrepend + (b.writeIdx - kCheapPrepend) = b.writeIdx :=
    Nat.add_sub_cancel' sound.header
  rw [sizeSub_eq sound.header sound.write_lt, sizeAdd_eq (by rw [whole]; exact sound.write_lt), whole]

theorem Sound.congr {b' : Buffer} (sound : b.Sound) (size : b'.size = b.size)
    (read : b'.readIdx = b.readIdx) (write : b'.writeIdx = b.writeIdx) : b'.Sound where
  header := by rw [write]; exact sound.header
  read_le_write := by rw [read, write]; exact sound.read_le_write
  write_le := by rw [write]; exact sound.write_le
  size_le := by rw [size]; exact sound.size_le

/-- Inside the storage `write_idx_` advances without wrapping. -/
theorem Sound.sum_eq (sound : b.Sound) {n : Nat} (room : b.writeIdx + n ≤ b.size) :
    sizeAdd b.writeIdx n = b.writeIdx + n :=
  sizeAdd_eq (lt_of_le_of_lt (le_trans room sound.size_le) (by decide))

theorem Sound.advanced (sound : b.Sound) {n : Nat} (room : b.writeIdx + n ≤ b.size) :
    Sound { b with writeIdx := sizeAdd b.writeIdx n } := by
  rw [sound.sum_eq room]
  exact ⟨le_trans sound.header (Nat.le_add_right _ _),
    le_trans sound.read_le_write (Nat.le_add_right _ _), le_trans room sound.size_le, sound.size_le⟩

theorem Sound.consumed (sound : b.Sound) {n : Nat} (short : n < b.readableBytes) :
    Sound { b with readIdx := sizeAdd b.readIdx n } := by
  rw [sound.readableBytes_eq] at short
  have bound := sound.write_lt
  have inside : b.readIdx + n ≤ b.writeIdx := by omega
  rw [sizeAdd_eq (lt_of_le_of_lt inside bound)]
  exact ⟨sound.header, inside, sound.write_le, sound.size_le⟩

theorem Sound.cleared (sound : b.Sound) : b.cleared.Sound :=
  ⟨le_refl _, le_refl _, (by decide : kCheapPrepend ≤ kMaxSize), sound.size_le⟩

theorem Sound.led (sound : b.Sound) {n : Nat} (free : n ≤ b.readIdx) :
    Sound { b with readIdx := sizeSub b.readIdx n } := by
  rw [sizeSub_eq free (lt_of_le_of_lt sound.read_le_write sound.write_lt)]
  exact ⟨sound.header, le_trans (Nat.sub_le _ _) sound.read_le_write, sound.write_le, sound.size_le⟩

section Triples

variable (old : Buffer)

@[spec] theorem require_spec (fact : Prop) [Decidable fact] (assertion : Assertion) :
    ⦃fun b => ⌜b = old⌝⦄ require fact assertion
    ⦃post⟨fun _ b => ⌜b = old ∧ fact⌝, fun e _ => ⌜e ≠ .lengthError⌝⟩⦄ := by
  mvcgen [require]
  simp_all

@[spec] theorem readRange_spec (first last : Nat) :
    ⦃fun b => ⌜b = old⌝⦄ readRange first last
    ⦃post⟨fun data b => ⌜b = old ∧ data = old.buffer.extract first last ∧
        first ≤ last ∧ last ≤ old.size⌝, fun e _ => ⌜e ≠ .lengthError⌝⟩⦄ := by
  mvcgen [readRange]
  simp_all

@[spec] theorem writeRange_spec (pos : Nat) (data : Bytes) :
    ⦃fun b => ⌜b = old⌝⦄ writeRange pos data
    ⦃post⟨fun _ b => ⌜b.size = old.size ∧ b.readIdx = old.readIdx ∧ b.writeIdx = old.writeIdx ∧
        pos + data.length ≤ old.size⌝, fun e _ => ⌜e ≠ .lengthError⌝⟩⦄ := by
  mvcgen [writeRange]
  rename_i b same room
  subst same
  exact ⟨length_overwrite _ _ _ room, rfl, rfl, room⟩

@[spec] theorem resizeStorage_spec (n : Nat) :
    ⦃fun b => ⌜b = old⌝⦄ resizeStorage n
    ⦃post⟨fun _ b => ⌜b.size = n ∧ n ≤ kMaxSize ∧ b.readIdx = old.readIdx ∧
        b.writeIdx = old.writeIdx⌝, fun _ b => ⌜b = old ∧ kMaxSize < n⌝⟩⦄ := by
  mvcgen [resizeStorage]
  · rename_i b same room
    subst same
    exact ⟨length_resize _ _ _, room, rfl, rfl⟩
  · rename_i b same excess
    exact ⟨same, not_le.mp excess⟩

variable {old}

@[spec] theorem moveReadable_spec (sound : old.Sound) (consumed : kCheapPrepend < old.readIdx) :
    ⦃fun b => ⌜b = old⌝⦄ moveReadable
    ⦃post⟨fun _ b => ⌜b.size = old.size ∧ b.readIdx = kCheapPrepend ∧ b.writeIdx = old.writeIdx⌝,
      fun e _ => ⌜e ≠ .lengthError⌝⟩⦄ := by
  mvcgen [moveReadable]
  rename_i b same readable fetched read _ moved written _ _
  obtain ⟨rfl, _⟩ := read
  subst same
  obtain ⟨size, _, write, _⟩ := written
  refine ⟨size, rfl, ?_⟩
  change sizeAdd kCheapPrepend (sizeSub moved.writeIdx kCheapPrepend) = fetched.writeIdx
  rw [write, sound.rejoined]

/-- The vector is resized only when the room is short, and then to the wrapped sum. -/
@[spec] theorem makeSpace_spec (sound : old.Sound) (len : Nat) :
    ⦃fun b => ⌜b = old⌝⦄ makeSpace len
    ⦃post⟨fun _ b => ⌜b.Sound ∧ b.writeIdx = old.writeIdx ∧
        (b.size = old.size ∨ old.writableBytes < len ∧ b.size = sizeAdd old.writeIdx len)⌝,
      fun e b => ⌜e = .lengthError →
        b.Sound ∧ old.writableBytes < len ∧ kMaxSize < sizeAdd old.writeIdx len⌝⟩⦄ := by
  -- with and without a compaction, each time with and without a resize
  mvcgen [makeSpace] <;> grind [Sound, writableBytes]

@[spec] theorem ensureWritableBytes_spec (sound : old.Sound) (len : Nat) :
    ⦃fun b => ⌜b = old⌝⦄ ensureWritableBytes len
    ⦃post⟨fun _ b => ⌜b.Sound ∧ len ≤ b.writableBytes ∧ b.writeIdx = old.writeIdx ∧
        (b.size = old.size ∨ old.writableBytes < len ∧ b.size = sizeAdd old.writeIdx len)⌝,
      fun e b => ⌜e = .lengthError →
        b.Sound ∧ old.writableBytes < len ∧ kMaxSize < sizeAdd old.writeIdx len⌝⟩⦄ := by
  mvcgen [ensureWritableBytes] <;> grind [Sound, writableBytes]

/-- An append that returns has found room behind `write_idx_`. -/
@[spec] theorem append_spec (sound : old.Sound) (data : Bytes) :
    ⦃fun b => ⌜b = old⌝⦄ append data
    ⦃post⟨fun _ b => ⌜b.Sound ∧ old.writeIdx + data.length ≤ b.size ∧
        (b.size = old.size ∨
          old.writableBytes < data.length ∧ b.size = sizeAdd old.writeIdx data.length)⌝,
      fun e b => ⌜e = .lengthError →
        b.Sound ∧ old.writableBytes < data.length ∧
          kMaxSize < sizeAdd old.writeIdx data.length⌝⟩⦄ := by
  mvcgen [append, appendRest]
  case vc1 => simp_all
  case vc2 =>
    rename_i b same _ reserved ensured _ stored written _
    subst same
    obtain ⟨sound', _, kept, grown⟩ := ensured
    obtain ⟨size, read, write, room⟩ := written
    have room' : stored.writeIdx + data.length ≤ stored.size := by rwa [write, size]
    refine ⟨(sound'.congr size read write).advanced room', ?_, ?_⟩
    · rwa [write, kept] at room'
    · rwa [← size] at grown
  all_goals simp_all

@[spec] theorem retrieve_spec (sound : old.Sound) (len : Nat) :
    ⦃fun b => ⌜b = old⌝⦄ retrieve len
    ⦃post⟨fun _ b => ⌜b.Sound⌝, fun e _ => ⌜e ≠ .lengthError⌝⟩⦄ := by
  mvcgen [retrieve, retrieveAll]
  case vc1 =>
    rename_i b same _ short b' checked _
    obtain ⟨rfl, _⟩ := checked
    subst same
    exact sound.consumed short
  case vc2 =>
    rename_i b same _ _ b' checked _
    obtain ⟨rfl, _⟩ := checked
    subst same
    exact sound.cleared

@[spec] theorem retrieveAsString_spec (sound : old.Sound) (len : Nat) :
    ⦃fun b => ⌜b = old⌝⦄ retrieveAsString len
    ⦃post⟨fun _ b => ⌜b.Sound⌝, fun e _ => ⌜e ≠ .lengthError⌝⟩⦄ := by
  mvcgen [retrieveAsString]
  simp_all

@[spec] theorem prepend_spec (sound : old.Sound) (data : Bytes) :
    ⦃fun b => ⌜b = old⌝⦄ prepend data
    ⦃post⟨fun _ b => ⌜b.Sound⌝, fun e _ => ⌜e ≠ .lengthError⌝⟩⦄ := by
  mvcgen [prepend]
  rename_i b same _ b' checked _ _ stored
  obtain ⟨rfl, free⟩ := checked
  subst same
  intro size read write _
  exact (sound.led free).congr size read write

@[spec] theorem readFd_spec (sound : old.Sound) (answer : ReadvAnswer) :
    ⦃fun b => ⌜b = old⌝⦄ readFd answer
    ⦃post⟨fun _ b => ⌜b.Sound⌝, fun e b => ⌜e = .lengthError → b.Sound⌝⟩⦄ := by
  mvcgen [readFd]
  case vc1 => simp_all
  case vc2 => simp
  case vc3 =>
    rename_i data _ b same writable _ _ _ _ room stored written _
    subst same
    obtain ⟨size, read, write, bound⟩ := written
    rw [List.take_of_length_le room] at bound
    exact (sound.congr size read write).advanced (by rwa [write, size])
  case vc4 =>
    rename_i data _ b same writable _ _ _ _ excess stored written _
    subst same
    obtain ⟨size, read, write, bound⟩ := written
    have after := sound.congr size read write
    have whole : stored.writeIdx ≤ stored.size := by
      rw [write, size]
      exact le_trans (Nat.le_add_right _ _) bound
    exact ⟨le_trans after.header whole, le_trans after.read_le_write whole, after.size_le, after.size_le⟩
  all_goals simp_all

end Triples

/-- Where the room is short, the sum `write_idx_ + len` that `resize` gets has wrapped. -/
def Wraps (b : Buffer) (len : Nat) : Prop :=
  b.Torn ∨ b.size - b.writeIdx < len ∧ sizeModulus ≤ b.writeIdx + len

/-- A torn buffer seems to have room for more than half of all sizes. -/
theorem Sound.writableBytes_torn (sound : b.Sound) (torn : b.Torn) :
    b.writableBytes = b.size + (sizeModulus - b.writeIdx) :=
  sizeSub_wrapped torn (le_of_lt sound.write_lt)

/-- `resize` then gets less than `write_idx_`. -/
theorem Sound.sum_wrapped (sound : b.Sound) {len : Nat} (bound : len < sizeModulus)
    (wraps : b.Wraps len) (short : b.writableBytes < len) :
    sizeAdd b.writeIdx len < b.writeIdx := by
  have write := sound.write_lt
  have beyond : sizeModulus ≤ b.writeIdx + len := by
    rcases wraps with torn | ⟨_, beyond⟩
    · rw [sound.writableBytes_torn torn] at short
      omega
    · exact beyond
  rw [sizeAdd_wrapped write bound beyond]
  omega

/-- After a wrapped reservation the buffer is torn; no assertion and no exception stops it. -/
theorem Sound.torn_of_ensureWritableBytes (sound : b.Sound) {len : Nat}
    (bound : len < sizeModulus) (wraps : b.Wraps len) {b' : Buffer}
    (ran : (ensureWritableBytes len).run b = .ok () b') : b'.Torn := by
  obtain ⟨_, enough, write, kept | ⟨short, resized⟩⟩ :=
    triple_ok (ensureWritableBytes_spec sound len) rfl ran
  · rcases wraps with torn | ⟨short, _⟩
    · rwa [Torn, kept, write]
    · rw [writableBytes, kept, write] at enough
      by_contra whole
      have exact_room := (sound.wf (by rwa [Torn, kept, write] at whole)).writableBytes_eq
      rw [writableBytes] at exact_room
      omega
  · rw [Torn, resized, write]
    exact sound.sum_wrapped bound wraps short

theorem Sound.ensureWritableBytes_not_refused (sound : b.Sound) {len : Nat}
    (bound : len < sizeModulus) (wraps : b.Wraps len) {e : Fault} {b' : Buffer}
    (ran : (ensureWritableBytes len).run b = .error e b') : e ≠ .lengthError := by
  rintro rfl
  obtain ⟨_, short, excess⟩ := triple_error (ensureWritableBytes_spec sound len) rfl ran rfl
  have low := sound.sum_wrapped bound wraps short
  have limit := sound.write_le
  omega

/-- Nothing can be appended to a torn buffer: the copy leaves the storage. -/
theorem Sound.append_torn (sound : b.Sound) (torn : b.Torn) {data : Bytes}
    (bound : data.length < sizeModulus) :
    ∃ e b', (append data).run b = .error e b' ∧ e ≠ .lengthError := by
  cases ran : (append data).run b with
  | ok out b' =>
    obtain ⟨_, room, kept | ⟨short, resized⟩⟩ := triple_ok (append_spec sound data) rfl ran
    · rw [Torn] at torn
      omega
    · have low := sound.sum_wrapped bound (.inl torn) short
      omega
  | error e b' =>
    refine ⟨e, b', rfl, ?_⟩
    rintro rfl
    obtain ⟨_, short, excess⟩ := triple_error (append_spec sound data) rfl ran rfl
    have low := sound.sum_wrapped bound (.inl torn) short
    have limit := sound.write_le
    omega

theorem fresh_sound : fresh.Sound :=
  ⟨le_refl _, le_refl _, (by decide : kCheapPrepend ≤ kMaxSize), fresh_wf.capacity⟩

section Local

variable (sound : b.Sound) {reserve : Nat} {other : Buffer}
include sound

theorem Sound.run_shrink_refused {e : Fault}
    (ensured : (ensureWritableBytes (sizeAdd b.readableBytes reserve)).run fresh = .error e other) :
    (shrink reserve).run b = .error e b := by
  rw [run_shrink sound.read_le_write sound.write_lt, ensured]

theorem Sound.run_shrink_outside (torn : b.Torn)
    (ensured : (ensureWritableBytes (sizeAdd b.readableBytes reserve)).run fresh = .ok () other) :
    (shrink reserve).run b =
      match (ensureWritableBytes b.readableBytes).run other with
      | .error e _ => .error e b
      | .ok _ _ => .error .outOfRange b := by
  rw [run_shrink sound.read_le_write sound.write_lt, ensured]
  exact if_neg (not_le.mpr torn)

theorem Sound.run_shrink_copies (whole : ¬ b.Torn)
    (ensured : (ensureWritableBytes (sizeAdd b.readableBytes reserve)).run fresh = .ok () other) :
    (shrink reserve).run b =
      match (append b.value).run other with
      | .error e _ => .error e b
      | .ok _ other' => .ok () other' := by
  rw [run_shrink sound.read_le_write sound.write_lt, ensured]
  exact if_pos (not_lt.mp whole)

end Local

/-- Whatever ends `shrink` early ends it before the swap. -/
theorem eq_of_shrink_error (sound : b.Sound) {reserve : Nat} {e : Fault} {b' : Buffer}
    (ran : (shrink reserve).run b = .error e b') : b' = b := by
  rw [run_shrink sound.read_le_write sound.write_lt] at ran
  repeat' split at ran
  all_goals cases ran <;> rfl

@[spec] theorem shrink_spec (sound : old.Sound) (reserve : Nat) :
    ⦃fun b => ⌜b = old⌝⦄ shrink reserve
    ⦃post⟨fun _ b => ⌜b.Sound⌝, fun e b => ⌜e = .lengthError → b.Sound⌝⟩⦄ := by
  refine triple_of_run ?_ ?_
  · rintro _ b' _ rfl ran
    rw [run_shrink sound.read_le_write sound.write_lt] at ran
    split at ran
    · cases ran
    · next other ensured =>
      have reserved := (triple_ok (ensureWritableBytes_spec fresh_sound _) rfl ensured).1
      split at ran
      · split at ran <;> cases ran
        next copied => exact (triple_ok (append_spec reserved _) rfl copied).1
      · split at ran <;> cases ran
  · rintro _ b' e rfl ran _
    exact eq_of_shrink_error sound ran ▸ sound

/-- Every operation keeps `Sound`, also when the vector throws. -/
theorem exec_spec (sound : old.Sound) (op : Op) (rhs : ∀ other, op = .swap other → other.Sound) :
    ⦃fun b => ⌜b = old⌝⦄ exec op
    ⦃post⟨fun _ b => ⌜b.Sound⌝, fun e b => ⌜e = .lengthError → b.Sound⌝⟩⦄ := by
  cases op with
  | append _ | readFd _ | retrieve _ | retrieveAsString _ | prepend _ | ensureWritableBytes _
  | makeSpace _ | shrink _ =>
    mvcgen [exec] <;> simp_all
  | retrieveAllAsString =>
    mvcgen [exec, Buffer.retrieveAllAsString]
    all_goals simp_all
  | retrieveAll =>
    mvcgen [exec, Buffer.retrieveAll]
    rename_i same _
    subst same
    exact sound.cleared
  | swap other =>
    mvcgen [exec, Buffer.swap]
    exact rhs other rfl

/-- Arguments of 64 bits, and no more bytes from `readv` than the two iovecs hold. -/
def Op.Representable (b : Buffer) : Op → Prop
  | .append data | .prepend data => data.length < sizeModulus
  | .readFd (.bytes data) => data.length ≤ b.writableBytes + kExtraBuf
  | .retrieve k | .retrieveAsString k | .ensureWritableBytes k | .makeSpace k | .shrink k =>
    k < sizeModulus
  | .readFd (.error _) | .retrieveAllAsString | .retrieveAll | .swap _ => True

/-- Buffers a program can hold if its sums may wrap: constructed, and taken through calls
that returned or threw `std::length_error`. -/
inductive Obtained : Buffer → Prop
  | new (n : Nat) {b : Buffer} : n < sizeModulus → new n = .ok b → Obtained b
  | returned {b b' : Buffer} (op : Op) {out : Output} :
      Obtained b → op.Representable b → (∀ rhs, op = .swap rhs → Obtained rhs) →
      (exec op).run b = .ok out b' → Obtained b'
  | thrown {b b' : Buffer} (op : Op) :
      Obtained b → op.Representable b → (∀ rhs, op = .swap rhs → Obtained rhs) →
      (exec op).run b = .error .lengthError b' → Obtained b'

theorem new_sound {n : Nat} (made : new n = .ok b) : b.Sound := by
  unfold new at made
  split at made
  · next fits =>
    cases made
    exact ⟨le_refl _, le_refl _, (by decide : kCheapPrepend ≤ kMaxSize),
      le_of_eq_of_le List.length_replicate fits⟩
  · cases made

theorem Obtained.sound (obtained : Obtained b) : b.Sound := by
  induction obtained with
  | new n _ made => exact new_sound made
  | returned op _ _ _ ran ih rhs => exact triple_ok (exec_spec ih op rhs) rfl ran
  | thrown op _ _ _ ran ih rhs => exact triple_error (exec_spec ih op rhs) rfl ran rfl

/-- Arguments with which nothing wraps are arguments of 64 bits. -/
theorem Op.Valid.representable (w : b.Wf) {op : Op} (valid : op.Valid b) : op.Representable b := by
  have bound := w.write_lt
  have ordered := w.read_le_write
  cases op with
  | readFd answer =>
    cases answer with
    | error errno => trivial
    | bytes data => exact valid
  | append data | ensureWritableBytes len | makeSpace len | shrink reserve =>
    exact lt_of_le_of_lt (by omega) valid
  | retrieve k | retrieveAsString k =>
    have enough : k ≤ b.readableBytes := valid
    rw [w.readableBytes_eq] at enough
    change k < sizeModulus
    omega
  | prepend data =>
    have free : data.length ≤ b.readIdx := valid
    change data.length < sizeModulus
    omega
  | retrieveAllAsString | retrieveAll | swap rhs => trivial

theorem Reachable.obtained (reached : Reachable b) : Obtained b := by
  induction reached with
  | new n made exact_sum => exact .new n (by omega) made
  | @step b op reached valid _ ih rhs =>
    have w := reached.wf
    have allowed := Op.Valid.representable w valid
    by_cases fit : op.Fits b
    · have ran := w.run_exec_ok valid fit
      rw [after, ran]
      exact .returned op ih allowed rhs ran
    · have ran := w.run_exec_error valid fit
      rw [after, ran]
      exact .thrown op ih allowed rhs ran

end Buffer

end Muduo.Source
