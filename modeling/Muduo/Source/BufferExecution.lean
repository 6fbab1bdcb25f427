import Muduo.Source.Buffer

/-!
# What the buffer operations do to a well-formed buffer

`Wf` is the bounds invariant of `Buffer`. Under it each operation has a closed
form: the resulting state, or the exception of `resize`. `makeSpace` recomputes
`write_idx_` after `read_idx_` has moved, so a compaction keeps the old
`write_idx_`; the bytes between the moved data and `write_idx_` (`stale`) join
the readable range.
-/
namespace Muduo.Source
open Muduo.Support

namespace Buffer

structure Wf (b : Buffer) : Prop where
  header : kCheapPrepend ≤ b.size
  capacity : b.size ≤ kMaxSize
  read_le_write : b.readIdx ≤ b.writeIdx
  write_le_size : b.writeIdx ≤ b.size

section Primitives

variable {α : Type} (b : Buffer)

@[simp] theorem run_ite (p : Prop) [Decidable p] (x y : BufferM α) :
    (if p then x else y).run b = if p then x.run b else y.run b := by
  split <;> rfl

/-- A sequence that returns has returned from both parts. -/
theorem run_bind_ok {β : Type} {x : BufferM α} {f : α → BufferM β} {r : β} {b b' : Buffer}
    (ran : (x >>= f).run b = .ok r b') :
    ∃ a b₁, x.run b = .ok a b₁ ∧ (f a).run b₁ = .ok r b' := by
  simp only [EStateM.run_bind] at ran
  split at ran
  · next a b₁ first => exact ⟨a, b₁, first, ran⟩
  · cases ran

theorem run_require (fact : Prop) [Decidable fact] (assertion : Assertion) (h : fact) :
    (require fact assertion).run b = .ok () b := by
  simp [require, h]

theorem run_readRange (first last : Nat) (h : first ≤ last ∧ last ≤ b.size) :
    (readRange first last).run b = .ok (b.buffer.extract first last) b := by
  simp [readRange, h]

theorem run_writeRange (pos : Nat) (data : Bytes) (h : pos + data.length ≤ b.size) :
    (writeRange pos data).run b = .ok () { b with buffer := overwrite b.buffer pos data } := by
  simp [writeRange, h]

theorem run_resizeStorage (n : Nat) :
    (resizeStorage n).run b =
      if n ≤ kMaxSize then .ok () { b with buffer := resize b.buffer n 0 }
      else .error .lengthError b := by
  simp [resizeStorage]

end Primitives

variable {b : Buffer}

/-- The part of `Wf` that does not speak of the header. -/
structure Placed (b : Buffer) : Prop where
  capacity : b.size ≤ kMaxSize
  read_le_write : b.readIdx ≤ b.writeIdx
  write_le_size : b.writeIdx ≤ b.size

theorem Wf.placed (w : b.Wf) : b.Placed := ⟨w.capacity, w.read_le_write, w.write_le_size⟩

theorem Placed.write_lt (placed : b.Placed) : b.writeIdx < sizeModulus :=
  lt_of_le_of_lt (le_trans placed.write_le_size placed.capacity) (by decide)

theorem Placed.readableBytes_eq (placed : b.Placed) : b.readableBytes = b.writeIdx - b.readIdx :=
  sizeSub_eq placed.read_le_write placed.write_lt

theorem Placed.writableBytes_eq (placed : b.Placed) : b.writableBytes = b.size - b.writeIdx :=
  sizeSub_eq placed.write_le_size (lt_of_le_of_lt placed.capacity (by decide))

theorem Placed.length_value (placed : b.Placed) : b.value.length = b.writeIdx - b.readIdx :=
  length_extract _ _ _ placed.write_le_size

theorem Placed.readableBytes_value (placed : b.Placed) : b.readableBytes = b.value.length := by
  rw [placed.readableBytes_eq, placed.length_value]

theorem Wf.write_lt (w : b.Wf) : b.writeIdx < sizeModulus := w.placed.write_lt

theorem Wf.readableBytes_eq (w : b.Wf) : b.readableBytes = b.writeIdx - b.readIdx :=
  w.placed.readableBytes_eq

theorem Wf.writableBytes_eq (w : b.Wf) : b.writableBytes = b.size - b.writeIdx :=
  w.placed.writableBytes_eq

theorem Wf.length_value (w : b.Wf) : b.value.length = b.writeIdx - b.readIdx :=
  w.placed.length_value

theorem Wf.readableBytes_value (w : b.Wf) : b.readableBytes = b.value.length :=
  w.placed.readableBytes_value

/-- Bytes that a compaction leaves between the moved data and `write_idx_`. -/
def stale (b : Buffer) : Bytes :=
  if kCheapPrepend < b.readIdx then
    b.buffer.extract (kCheapPrepend + (b.writeIdx - b.readIdx)) b.writeIdx
  else []

/-- The buffer after the compaction branch of `makeSpace`. -/
def compacted (b : Buffer) : Buffer :=
  if kCheapPrepend < b.readIdx then
    ⟨overwrite b.buffer kCheapPrepend b.value, kCheapPrepend, b.writeIdx⟩
  else b

@[simp] theorem compacted_writeIdx : b.compacted.writeIdx = b.writeIdx := by
  unfold compacted; split <;> rfl

theorem Wf.compaction_fits (w : b.Wf) (consumed : kCheapPrepend < b.readIdx) :
    kCheapPrepend + b.value.length ≤ b.buffer.length := by
  have hlen := w.length_value
  have hr := w.read_le_write
  have hs : b.writeIdx ≤ b.buffer.length := w.write_le_size
  omega

theorem Wf.size_compacted (w : b.Wf) : b.compacted.size = b.size := by
  unfold compacted
  split
  · next consumed => exact length_overwrite _ _ _ (w.compaction_fits consumed)
  · rfl

theorem compacted_readIdx_le (w : b.Wf) : b.compacted.readIdx ≤ b.writeIdx := by
  unfold compacted
  split
  · exact le_trans (Nat.le_of_lt ‹_›) w.read_le_write
  · exact w.read_le_write

theorem Wf.compacted (w : b.Wf) : b.compacted.Wf where
  header := by rw [w.size_compacted]; exact w.header
  capacity := by rw [w.size_compacted]; exact w.capacity
  read_le_write := by rw [compacted_writeIdx]; exact compacted_readIdx_le w
  write_le_size := by rw [w.size_compacted, compacted_writeIdx]; exact w.write_le_size

/-- Compaction keeps the value and appends the stale bytes to it. -/
theorem Wf.value_compacted (w : b.Wf) : b.compacted.value = b.value ++ b.stale := by
  unfold Buffer.compacted stale
  split
  · next consumed =>
    have hlen := w.length_value
    have hr := w.read_le_write
    have hfit := w.compaction_fits consumed
    have hsplit : (overwrite b.buffer kCheapPrepend b.value).extract kCheapPrepend b.writeIdx =
        (overwrite b.buffer kCheapPrepend b.value).extract kCheapPrepend
            (kCheapPrepend + b.value.length) ++
          (overwrite b.buffer kCheapPrepend b.value).extract
            (kCheapPrepend + b.value.length) b.writeIdx :=
      (extract_append_extract _ _ _ _ (by omega) (by omega)
        (by rw [length_overwrite _ _ _ hfit]; exact w.write_le_size)).symm
    rw [value, hsplit, extract_overwrite_same _ _ _ hfit,
      extract_overwrite_disjoint _ _ _ _ _ hfit (Or.inr (Nat.le_refl _)), hlen]
  · simp

theorem Wf.length_stale (w : b.Wf) : b.stale.length = b.readIdx - kCheapPrepend := by
  unfold stale
  split
  · have hr := w.read_le_write
    rw [length_extract _ _ _ w.write_le_size]
    omega
  · next kept => simp only [List.length_nil]; omega

/-- The storage holds `len` more bytes after `write_idx_` without exceeding
`max_size()`; `resize` throws exactly when a needed growth does not. -/
def Fits (b : Buffer) (len : Nat) : Prop :=
  b.size - b.writeIdx < len → b.writeIdx + len ≤ kMaxSize

instance (b : Buffer) (len : Nat) : Decidable (b.Fits len) := by
  unfold Fits; infer_instance

/-- The buffer after a resize to hold `len` more bytes, if the tail is too short. -/
def grown (b : Buffer) (len : Nat) : Buffer :=
  if b.size - b.writeIdx < len then { b with buffer := resize b.buffer (b.writeIdx + len) 0 } else b

theorem Wf.run_moveReadable (w : b.Wf) (consumed : kCheapPrepend < b.readIdx) :
    moveReadable.run b = .ok () b.compacted := by
  have hle : kCheapPrepend ≤ b.writeIdx := le_trans (Nat.le_of_lt consumed) w.read_le_write
  have hsub : sizeSub b.writeIdx kCheapPrepend = b.writeIdx - kCheapPrepend :=
    sizeSub_eq hle w.write_lt
  have hadd : sizeAdd kCheapPrepend (b.writeIdx - kCheapPrepend) = b.writeIdx := by
    have hw := w.write_lt
    rw [sizeAdd_eq (by omega)]
    omega
  have moved := run_writeRange b kCheapPrepend b.value (w.compaction_fits consumed)
  simp only [moveReadable, EStateM.run_bind, EStateM.run_get, EStateM.run_modify,
    run_readRange b _ _ ⟨w.read_le_write, w.write_le_size⟩]
  rw [← value, moved]
  simp only [readableBytes, hsub, hadd, Buffer.compacted, if_pos consumed]

theorem Wf.run_makeSpace (w : b.Wf) (len : Nat) :
    (makeSpace len).run b =
      if b.size - b.writeIdx < len then
        (resizeStorage (sizeAdd b.writeIdx len)).run b.compacted
      else .ok () b.compacted := by
  have growth : (if b.compacted.writableBytes < len then
      (resizeStorage (sizeAdd b.compacted.writeIdx len)).run b.compacted
      else .ok () b.compacted) =
      if b.size - b.writeIdx < len then
        (resizeStorage (sizeAdd b.writeIdx len)).run b.compacted
      else .ok () b.compacted := by
    rw [w.compacted.writableBytes_eq, w.size_compacted, compacted_writeIdx]
  rw [← growth]
  by_cases consumed : kCheapPrepend < b.readIdx
  · simp [makeSpace, consumed, w.run_moveReadable consumed]
  · have kept : b.compacted = b := if_neg consumed
    simp [makeSpace, consumed, kept]

@[simp] theorem grown_readIdx (len : Nat) : (b.grown len).readIdx = b.readIdx := by
  unfold grown; split <;> rfl

@[simp] theorem grown_writeIdx (len : Nat) : (b.grown len).writeIdx = b.writeIdx := by
  unfold grown; split <;> rfl

theorem size_grown (w : b.Wf) (len : Nat) : (b.grown len).size = max b.size (b.writeIdx + len) := by
  have hs := w.write_le_size
  unfold grown
  split
  · have hl : (resize b.buffer (b.writeIdx + len) 0).length = b.writeIdx + len :=
      length_resize _ _ _
    simp only [size, hl] at *
    omega
  · omega

theorem size_le_size_grown (w : b.Wf) (len : Nat) : b.size ≤ (b.grown len).size :=
  (size_grown w len).symm ▸ Nat.le_max_left ..

theorem Wf.grown (w : b.Wf) {len : Nat} (fit : b.Fits len) : (b.grown len).Wf where
  header := le_trans w.header (size_le_size_grown w len)
  capacity := by
    unfold Buffer.grown
    split
    · next short => exact le_trans (le_of_eq (length_resize _ _ _)) (fit short)
    · exact w.capacity
  read_le_write := by rw [grown_readIdx, grown_writeIdx]; exact w.read_le_write
  write_le_size := by
    rw [grown_writeIdx]
    exact le_trans w.write_le_size (size_le_size_grown w len)

theorem Wf.value_grown (w : b.Wf) (len : Nat) : (b.grown len).value = b.value := by
  unfold Buffer.grown
  split
  · exact extract_resize _ _ _ _ _ w.write_le_size (Nat.le_add_right _ _)
  · rfl

theorem Wf.fits_compacted (w : b.Wf) (len : Nat) : b.compacted.Fits len ↔ b.Fits len := by
  rw [Fits, Fits, w.size_compacted, compacted_writeIdx]

theorem Wf.run_makeSpace_ok (w : b.Wf) {len : Nat} (fit : b.Fits len) :
    (makeSpace len).run b = .ok () (b.compacted.grown len) := by
  rw [w.run_makeSpace, Buffer.grown, w.size_compacted, compacted_writeIdx]
  by_cases short : b.size - b.writeIdx < len
  · have hfit := fit short
    rw [if_pos short, if_pos short, run_resizeStorage,
      sizeAdd_eq (lt_of_le_of_lt hfit (by decide)), if_pos hfit, compacted_writeIdx]
  · rw [if_neg short, if_neg short]

/-- When the vector cannot hold the request, the readable bytes have already moved. -/
theorem Wf.run_makeSpace_error (w : b.Wf) {len : Nat} (excess : ¬ b.Fits len)
    (exact_sum : b.writeIdx + len < sizeModulus) :
    (makeSpace len).run b = .error .lengthError b.compacted := by
  obtain ⟨short, large⟩ := Classical.not_imp.mp excess
  rw [w.run_makeSpace, if_pos short, run_resizeStorage, sizeAdd_eq exact_sum, if_neg large]

/-- `makeSpace` is entered and finds consumed space in front of the data. -/
def Compacts (b : Buffer) (len : Nat) : Prop :=
  b.size - b.writeIdx < len ∧ kCheapPrepend < b.readIdx

instance (b : Buffer) (len : Nat) : Decidable (b.Compacts len) := by
  unfold Compacts; infer_instance

/-- The buffer after `ensureWritableBytes(len)`. -/
def reserved (b : Buffer) (len : Nat) : Buffer :=
  if b.size - b.writeIdx < len then b.compacted.grown len else b

/-- The bytes that `ensureWritableBytes(len)` adds to the value. -/
def spill (b : Buffer) (len : Nat) : Bytes := if b.Compacts len then b.stale else []

theorem Wf.reserved (w : b.Wf) {len : Nat} (fit : b.Fits len) : (b.reserved len).Wf := by
  unfold Buffer.reserved
  split
  · exact w.compacted.grown ((w.fits_compacted len).mpr fit)
  · exact w

@[simp] theorem reserved_writeIdx (len : Nat) : (b.reserved len).writeIdx = b.writeIdx := by
  unfold reserved; split <;> simp

theorem reserved_readIdx (kept : ¬ kCheapPrepend < b.readIdx) (len : Nat) :
    (b.reserved len).readIdx = b.readIdx := by
  have same : b.compacted = b := if_neg kept
  rw [reserved, same]
  split
  · exact grown_readIdx len
  · rfl

/-- The consumed bytes in front of the data are asked for again. -/
theorem size_reserved (w : b.Wf) (len : Nat) :
    (b.reserved len).size = max b.size (b.writeIdx + len) := by
  unfold Buffer.reserved
  split
  · rw [size_grown w.compacted, w.size_compacted, compacted_writeIdx]
  · have hs := w.write_le_size
    omega

theorem Wf.write_add_le_size_reserved (w : b.Wf) (len : Nat) :
    b.writeIdx + len ≤ (b.reserved len).size :=
  (size_reserved w len).symm ▸ Nat.le_max_right ..

theorem Wf.value_reserved (w : b.Wf) (len : Nat) :
    (b.reserved len).value = b.value ++ b.spill len := by
  unfold Buffer.reserved spill
  by_cases short : b.size - b.writeIdx < len
  · rw [if_pos short, w.compacted.value_grown, w.value_compacted]
    by_cases consumed : kCheapPrepend < b.readIdx
    · rw [if_pos ⟨short, consumed⟩]
    · rw [if_neg (fun h => consumed h.2), stale, if_neg consumed]
  · rw [if_neg short, if_neg (fun h => short h.1), List.append_nil]

theorem Wf.run_ensureWritableBytes_ok (w : b.Wf) {len : Nat} (fit : b.Fits len) :
    (ensureWritableBytes len).run b = .ok () (b.reserved len) := by
  have enough : len ≤ (b.reserved len).writableBytes := by
    have h := w.write_add_le_size_reserved len
    rw [(w.reserved fit).writableBytes_eq, reserved_writeIdx]
    omega
  have checked := run_require (b.reserved len) _ .ensureWritableBytes enough
  by_cases short : b.size - b.writeIdx < len
  · have hr : b.reserved len = b.compacted.grown len := if_pos short
    simp [ensureWritableBytes, w.writableBytes_eq, short, w.run_makeSpace_ok fit, ← hr, checked]
  · have hr : b.reserved len = b := if_neg short
    rw [hr] at checked ⊢
    have skipped : ¬ b.writableBytes < len := by rwa [w.writableBytes_eq]
    simp [ensureWritableBytes, skipped, checked]

theorem Wf.run_ensureWritableBytes_error (w : b.Wf) {len : Nat} (excess : ¬ b.Fits len)
    (exact_sum : b.writeIdx + len < sizeModulus) :
    (ensureWritableBytes len).run b = .error .lengthError b.compacted := by
  have short := (Classical.not_imp.mp excess).1
  simp [ensureWritableBytes, w.writableBytes_eq, short, w.run_makeSpace_error excess exact_sum]

/-- `data` stored behind the readable bytes, in place. -/
def stored (b : Buffer) (data : Bytes) : Buffer :=
  ⟨overwrite b.buffer b.writeIdx data, b.readIdx, b.writeIdx + data.length⟩

theorem stored_readIdx (data : Bytes) : (b.stored data).readIdx = b.readIdx := rfl

section Stored

variable {data : Bytes} (room : b.writeIdx + data.length ≤ b.size)
include room

theorem size_stored : (b.stored data).size = b.size := length_overwrite _ _ _ room

variable (w : b.Wf)
include w

theorem Wf.stored : (b.stored data).Wf where
  header := by rw [size_stored room]; exact w.header
  capacity := by rw [size_stored room]; exact w.capacity
  read_le_write := le_trans w.read_le_write (Nat.le_add_right _ _)
  write_le_size := by rw [size_stored room]; exact room

theorem Wf.value_stored : (b.stored data).value = b.value ++ data := by
  have hread := w.read_le_write
  have hsize : b.writeIdx + data.length ≤ (overwrite b.buffer b.writeIdx data).length := by
    rw [length_overwrite _ _ _ room]; exact room
  have hsplit := extract_append_extract (overwrite b.buffer b.writeIdx data) b.readIdx b.writeIdx
    (b.writeIdx + data.length) hread (Nat.le_add_right _ _) hsize
  calc (b.stored data).value
      = (overwrite b.buffer b.writeIdx data).extract b.readIdx b.writeIdx ++
        (overwrite b.buffer b.writeIdx data).extract b.writeIdx (b.writeIdx + data.length) :=
          hsplit.symm
    _ = b.value ++ data := by
          rw [extract_overwrite_disjoint _ _ _ _ _ room (Or.inl (Nat.le_refl _)),
            extract_overwrite_same _ _ _ room]
          rfl

theorem Wf.run_store :
    (do writeRange b.writeIdx data
        modify fun b : Buffer =>
          { b with writeIdx := sizeAdd b.writeIdx data.length } : BufferM Unit).run b =
      .ok () (b.stored data) := by
  have hmax := le_trans room w.capacity
  have hsum := sizeAdd_eq (lt_of_le_of_lt hmax (by decide : kMaxSize < sizeModulus))
  rw [EStateM.run_bind, run_writeRange _ _ _ room]
  simp [Buffer.stored, hsum]

end Stored

/-- The buffer after `append(data)`. -/
def appended (b : Buffer) (data : Bytes) : Buffer := (b.reserved data.length).stored data

theorem Wf.room_reserved (w : b.Wf) (data : Bytes) :
    (b.reserved data.length).writeIdx + data.length ≤ (b.reserved data.length).size := by
  rw [reserved_writeIdx]
  exact w.write_add_le_size_reserved data.length

theorem size_appended (w : b.Wf) (data : Bytes) :
    (b.appended data).size = max b.size (b.writeIdx + data.length) := by
  rw [Buffer.appended, size_stored (w.room_reserved data), size_reserved w]

theorem Wf.appended (w : b.Wf) {data : Bytes} (fit : b.Fits data.length) :
    (b.appended data).Wf :=
  Wf.stored (w.room_reserved data) (w.reserved fit)

theorem Wf.value_appended (w : b.Wf) {data : Bytes} (fit : b.Fits data.length) :
    (b.appended data).value = b.value ++ b.spill data.length ++ data := by
  rw [Buffer.appended, Wf.value_stored (w.room_reserved data) (w.reserved fit), w.value_reserved]

theorem Wf.run_append_ok (w : b.Wf) {data : Bytes} (fit : b.Fits data.length) :
    (append data).run b = .ok () (b.appended data) := by
  have store := Wf.run_store (w.room_reserved data) (w.reserved fit)
  simpa [append, appendRest, w.run_ensureWritableBytes_ok fit, Buffer.appended] using store

theorem Wf.run_append_error (w : b.Wf) {data : Bytes} (excess : ¬ b.Fits data.length)
    (exact_sum : b.writeIdx + data.length < sizeModulus) :
    (append data).run b = .error .lengthError b.compacted := by
  simp [append, w.run_ensureWritableBytes_error excess exact_sum]

/-- The buffer after `retrieve(k)`. -/
def retrieved (b : Buffer) (k : Nat) : Buffer :=
  if k < b.writeIdx - b.readIdx then { b with readIdx := b.readIdx + k }
  else { b with readIdx := kCheapPrepend, writeIdx := kCheapPrepend }

/-- The buffer after `retrieveAll()`. -/
def cleared (b : Buffer) : Buffer :=
  { b with readIdx := kCheapPrepend, writeIdx := kCheapPrepend }

theorem Wf.cleared (w : b.Wf) : b.cleared.Wf :=
  ⟨w.header, w.capacity, Nat.le_refl _, w.header⟩

@[simp] theorem value_cleared : b.cleared.value = [] := extract_self _ _

theorem Wf.retrieved (w : b.Wf) (k : Nat) : (b.retrieved k).Wf := by
  unfold Buffer.retrieved
  split
  · exact ⟨w.header, w.capacity, by simp only; omega, w.write_le_size⟩
  · exact w.cleared

theorem Wf.value_retrieved (w : b.Wf) (k : Nat) : (b.retrieved k).value = b.value.drop k := by
  unfold Buffer.retrieved
  split
  · exact (drop_extract _ _ _ _).symm
  · next all =>
    have hdrop : b.value.drop k = [] :=
      List.drop_eq_nil_of_le (by rw [w.length_value]; omega)
    rw [hdrop]
    exact extract_self _ _

theorem Wf.run_retrieve (w : b.Wf) {k : Nat} (enough : k ≤ b.value.length) :
    (retrieve k).run b = .ok () (b.retrieved k) := by
  have checked := run_require b (k ≤ b.readableBytes) .retrieve
    (by rwa [w.readableBytes_value])
  by_cases short : k < b.writeIdx - b.readIdx
  · have hsum : sizeAdd b.readIdx k = b.readIdx + k := by
      have hw := w.write_lt
      exact sizeAdd_eq (by omega)
    have hshort : k < b.readableBytes := by rwa [w.readableBytes_eq]
    simp [retrieve, checked, hshort, Buffer.retrieved, short, hsum]
  · have hall : ¬ k < b.readableBytes := by rwa [w.readableBytes_eq]
    simp [retrieve, checked, hall, Buffer.retrieved, short, retrieveAll]

theorem Wf.run_retrieveAsString (w : b.Wf) {k : Nat} (enough : k ≤ b.value.length) :
    (retrieveAsString k).run b = .ok (b.value.take k) (b.retrieved k) := by
  have hk : k ≤ b.writeIdx - b.readIdx := by rwa [← w.length_value]
  have hread := w.read_le_write
  have hw := w.write_lt
  have hsum : sizeAdd b.readIdx k = b.readIdx + k := sizeAdd_eq (by omega)
  have checked := run_require b (k ≤ b.readableBytes) .retrieveAsString
    (by rwa [w.readableBytes_value])
  have hrange := run_readRange b b.readIdx (b.readIdx + k)
    ⟨Nat.le_add_right _ _, le_trans (by omega) w.write_le_size⟩
  have htake : b.value.take k = b.buffer.extract b.readIdx (b.readIdx + k) :=
    take_extract _ _ _ _ (by omega)
  simp only [retrieveAsString, EStateM.run_bind, EStateM.run_get, checked, hsum, hrange,
    w.run_retrieve enough, htake, EStateM.run_pure]

/-- The buffer after `prepend(data)`. -/
def prepended (b : Buffer) (data : Bytes) : Buffer :=
  { b with
    buffer := overwrite b.buffer (b.readIdx - data.length) data
    readIdx := b.readIdx - data.length }

theorem Wf.prepend_room (w : b.Wf) {data : Bytes} (free : data.length ≤ b.readIdx) :
    b.readIdx - data.length + data.length ≤ b.buffer.length := by
  have hr := w.read_le_write
  have hs : b.writeIdx ≤ b.buffer.length := w.write_le_size
  omega

theorem Wf.prepended (w : b.Wf) {data : Bytes} (free : data.length ≤ b.readIdx) :
    (b.prepended data).Wf := by
  have hsize : (b.prepended data).size = b.size := length_overwrite _ _ _ (w.prepend_room free)
  refine ⟨by rw [hsize]; exact w.header, by rw [hsize]; exact w.capacity, ?_, ?_⟩
  · exact le_trans (Nat.sub_le _ _) w.read_le_write
  · rw [hsize]; exact w.write_le_size

theorem Wf.value_prepended (w : b.Wf) {data : Bytes} (free : data.length ≤ b.readIdx) :
    (b.prepended data).value = data ++ b.value := by
  have room := w.prepend_room free
  have hback : b.readIdx - data.length + data.length = b.readIdx := by omega
  have hread := w.read_le_write
  have hsize : b.writeIdx ≤
      (overwrite b.buffer (b.readIdx - data.length) data).length := by
    rw [length_overwrite _ _ _ room]; exact w.write_le_size
  have front := extract_overwrite_same _ _ _ room
  have back := extract_overwrite_disjoint b.buffer (b.readIdx - data.length) data b.readIdx
    b.writeIdx room (Or.inr (le_of_eq hback))
  rw [hback] at front
  calc (b.prepended data).value
      = (overwrite b.buffer (b.readIdx - data.length) data).extract
            (b.readIdx - data.length) b.readIdx ++
        (overwrite b.buffer (b.readIdx - data.length) data).extract b.readIdx b.writeIdx :=
          (extract_append_extract _ _ _ _ (Nat.sub_le _ _) hread hsize).symm
    _ = data ++ b.value := by rw [front, back]; rfl

theorem Wf.run_prepend (w : b.Wf) {data : Bytes} (free : data.length ≤ b.readIdx) :
    (prepend data).run b = .ok () (b.prepended data) := by
  have hw := w.write_lt
  have hread := w.read_le_write
  have hsub : sizeSub b.readIdx data.length = b.readIdx - data.length :=
    sizeSub_eq free (lt_of_le_of_lt hread hw)
  have checked := run_require b (data.length ≤ b.prependableBytes) .prepend free
  have hwrite := run_writeRange { b with readIdx := b.readIdx - data.length }
    (b.readIdx - data.length) data (w.prepend_room free)
  simp only [prepend, EStateM.run_bind, EStateM.run_get, checked, EStateM.run_modify, hsub,
    hwrite, Buffer.prepended]

/-- The part of `data` that `readv` puts behind `write_idx_`; the rest goes to `extrabuf`. -/
def inPlace (b : Buffer) (data : Bytes) : Bytes := data.take (b.size - b.writeIdx)
def extra (b : Buffer) (data : Bytes) : Bytes := data.drop (b.size - b.writeIdx)

theorem inPlace_append_extra (data : Bytes) : b.inPlace data ++ b.extra data = data :=
  List.take_append_drop _ _

theorem Wf.room_inPlace (w : b.Wf) (data : Bytes) :
    b.writeIdx + (b.inPlace data).length ≤ b.size := by
  have hs := w.write_le_size
  simp only [inPlace, List.length_take]
  omega

/-- `readFd` returns the count of `readv`. -/
theorem run_readFd_count {answer : ReadvAnswer} {n : Int} {b b' : Buffer}
    (ran : (readFd answer).run b = .ok n b') :
    n = match answer with
      | .bytes data => (data.length : Int)
      | .error _ => -1 := by
  cases answer with
  | error errno => cases ran; rfl
  | bytes data =>
    simp only [readFd] at ran
    obtain ⟨_, _, _, ran⟩ := run_bind_ok ran
    obtain ⟨_, _, _, ran⟩ := run_bind_ok ran
    rw [run_ite] at ran
    split at ran
    · obtain ⟨_, _, thrown, _⟩ := run_bind_ok ran
      cases thrown
    · rw [run_ite] at ran
      split at ran
      · obtain ⟨_, _, _, ran⟩ := run_bind_ok ran
        cases ran
        rfl
      · obtain ⟨_, _, _, ran⟩ := run_bind_ok ran
        obtain ⟨_, _, _, ran⟩ := run_bind_ok ran
        cases ran
        rfl

/-- `readFd` when everything fits behind `write_idx_`. -/
theorem Wf.run_readFd_inPlace (w : b.Wf) {data : Bytes} (room : data.length ≤ b.size - b.writeIdx) :
    (readFd (.bytes data)).run b = .ok (data.length : Int) (b.stored data) := by
  have hall : data.take (b.size - b.writeIdx) = data := List.take_of_length_le room
  have hsize := w.write_le_size
  have hfit : b.writeIdx + data.length ≤ b.size := by omega
  have hwrite := run_writeRange b b.writeIdx data hfit
  have hsum : sizeAdd b.writeIdx data.length = b.writeIdx + data.length :=
    sizeAdd_eq (lt_of_le_of_lt (le_trans hfit w.capacity) (by decide))
  simp [readFd, w.writableBytes_eq, hall, hwrite, room, hsum, Buffer.stored, -bind_pure_comp]

theorem Wf.run_readFd_spill (w : b.Wf) {data : Bytes} (excess : b.size - b.writeIdx < data.length)
    (limit : (b.extra data).length ≤ kExtraBuf) :
    (readFd (.bytes data)).run b =
      match (append (b.extra data)).run (b.stored (b.inPlace data)) with
      | .ok _ b' => .ok (data.length : Int) b'
      | .error e b' => .error e b' := by
  have hwrite := run_writeRange b b.writeIdx _ (w.room_inPlace data)
  have hsize : (b.stored (b.inPlace data)).size = b.size := size_stored (w.room_inPlace data)
  have hend : b.writeIdx + (b.inPlace data).length = b.size := by
    have hs := w.write_le_size
    simp only [inPlace, List.length_take]
    omega
  have hfilled : (⟨overwrite b.buffer b.writeIdx (b.inPlace data), b.readIdx, b.size⟩ : Buffer) =
      b.stored (b.inPlace data) := by
    rw [Buffer.stored, hend]
  have hlong : ¬ data.length ≤ b.size - b.writeIdx := by omega
  have hin : data.take (b.size - b.writeIdx) = b.inPlace data := rfl
  have hex : data.drop (b.size - b.writeIdx) = b.extra data := rfl
  simp only [readFd, EStateM.run_bind, EStateM.run_get, w.writableBytes_eq, hin, hex, hwrite,
    if_neg (Nat.not_lt.mpr limit), if_neg hlong, EStateM.run_pure, EStateM.run_modify]
  have hfull : (⟨overwrite b.buffer b.writeIdx (b.inPlace data), b.readIdx, b.writeIdx⟩ : Buffer).size
      = b.size := hsize
  rw [hfull, hfilled]
  cases (append (b.extra data)).run (b.stored (b.inPlace data)) <;> rfl

theorem Wf.fits_stored_inPlace (w : b.Wf) {data : Bytes}
    (excess : b.size - b.writeIdx < data.length) :
    (b.stored (b.inPlace data)).Fits (b.extra data).length ↔ b.Fits data.length := by
  have hsize : (b.stored (b.inPlace data)).size = b.size := size_stored (w.room_inPlace data)
  have hs := w.write_le_size
  have hlen : (b.inPlace data).length = b.size - b.writeIdx := by
    simp only [inPlace, List.length_take]
    omega
  have hextra : (b.extra data).length = data.length - (b.size - b.writeIdx) := List.length_drop
  have hwrite : (b.stored (b.inPlace data)).writeIdx = b.size := by
    simp only [Buffer.stored, hlen]
    omega
  rw [Fits, Fits, hsize, hwrite, hextra]
  omega

theorem value_new {n : Nat} {b : Buffer} (made : new n = .ok b) : b.value = [] := by
  unfold new at made
  split at made
  · cases made
    exact extract_self _ _
  · cases made

theorem new_wf {n : Nat} {b : Buffer} (made : new n = .ok b)
    (exact_sum : kCheapPrepend + n < sizeModulus) : b.Wf := by
  unfold new at made
  split at made
  · next fits =>
    cases made
    rw [sizeAdd_eq exact_sum] at fits ⊢
    have hsize : (⟨List.replicate (kCheapPrepend + n) 0, kCheapPrepend, kCheapPrepend⟩ :
        Buffer).size = kCheapPrepend + n := List.length_replicate
    refine ⟨?_, ?_, Nat.le_refl _, ?_⟩ <;> rw [hsize]
    · exact Nat.le_add_right _ _
    · exact fits
    · exact Nat.le_add_right _ _
  · cases made

/-- The default-constructed buffer. -/
def fresh : Buffer :=
  ⟨List.replicate (kCheapPrepend + kInitialSize) 0, kCheapPrepend, kCheapPrepend⟩

theorem new_kInitialSize : new kInitialSize = .ok fresh :=
  if_pos (by decide : sizeAdd kCheapPrepend kInitialSize ≤ kMaxSize)

theorem fresh_wf : fresh.Wf := new_wf new_kInitialSize (by decide)

@[simp] theorem value_fresh : fresh.value = [] := value_new new_kInitialSize

theorem size_fresh : fresh.size = kCheapPrepend + kInitialSize := List.length_replicate

theorem fits_fresh_iff {len : Nat} : fresh.Fits len ↔ kCheapPrepend + len ≤ kMaxSize := by
  have room : fresh.size - fresh.writeIdx = kInitialSize := by
    rw [size_fresh]
    exact Nat.add_sub_cancel_left ..
  have small : kCheapPrepend + kInitialSize ≤ kMaxSize := by decide
  rw [Fits, room]
  constructor
  · intro fit
    by_cases short : kInitialSize < len
    · exact fit short
    · omega
  · exact fun limit _ => limit

/-- Nothing consumed in front: reserving space adds no byte to the value. -/
theorem spill_of_readIdx_le (len : Nat) (h : b.readIdx ≤ kCheapPrepend) : b.spill len = [] :=
  if_neg fun compacts => absurd compacts.2 (Nat.not_lt.mpr h)

/-- `other` in `shrink(reserve)`, after the reservation and after the append. -/
def shrunk (b : Buffer) (reserve : Nat) : Buffer :=
  (fresh.reserved (b.value.length + reserve)).stored b.value

theorem Wf.room_shrunk (b : Buffer) (reserve : Nat) :
    (fresh.reserved (b.value.length + reserve)).writeIdx + b.value.length ≤
      (fresh.reserved (b.value.length + reserve)).size := by
  have h := fresh_wf.write_add_le_size_reserved (b.value.length + reserve)
  rw [reserved_writeIdx]
  omega

theorem size_shrunk (b : Buffer) (reserve : Nat) :
    (b.shrunk reserve).size = kCheapPrepend + max kInitialSize (b.value.length + reserve) := by
  have header : fresh.writeIdx = kCheapPrepend := rfl
  rw [shrunk, size_stored (Wf.room_shrunk b reserve), size_reserved fresh_wf, size_fresh, header,
    Nat.add_max_add_left]

theorem writeIdx_shrunk (b : Buffer) (reserve : Nat) :
    (b.shrunk reserve).writeIdx = kCheapPrepend + b.value.length := by
  rw [shrunk, Buffer.stored, reserved_writeIdx]
  rfl

theorem readIdx_shrunk (b : Buffer) (reserve : Nat) : (b.shrunk reserve).readIdx = kCheapPrepend := by
  have header : fresh.readIdx = kCheapPrepend := rfl
  rw [shrunk, stored_readIdx, reserved_readIdx (lt_irrefl _), header]

theorem appended_of_room {data : Bytes} (room : b.writeIdx + data.length ≤ b.size) :
    b.appended data = b.stored data := by
  have kept : b.reserved data.length = b := if_neg (by omega)
  rw [appended, kept]

theorem fits_of_room {len : Nat} (room : b.writeIdx + len ≤ b.size) : b.Fits len := fun short =>
  absurd room (by omega)

theorem run_onLocal (other : Buffer) (op : BufferM Unit) :
    (onLocal other op).run b =
      match op.run other with
      | .ok _ other' => .ok other' b
      | .error e _ => .error e b := rfl

section Shrink

theorem run_append (data : Bytes) :
    (append data).run b =
      match (ensureWritableBytes data.length).run b with
      | .error e b' => .error e b'
      | .ok _ b' => (appendRest data).run b' := by
  simp only [append, EStateM.run_bind]
  cases (ensureWritableBytes data.length).run b <;> rfl

/-- `shrink` works on a local buffer; `*this` changes in the final swap only. -/
theorem run_shrink (ordered : b.readIdx ≤ b.writeIdx) (bounded : b.writeIdx < sizeModulus)
    (reserve : Nat) :
    (shrink reserve).run b =
      match (ensureWritableBytes (sizeAdd b.readableBytes reserve)).run fresh with
      | .error e _ => .error e b
      | .ok _ other =>
        if b.writeIdx ≤ b.size then
          match (append b.value).run other with
          | .error e _ => .error e b
          | .ok _ other' => .ok () other'
        else
          match (ensureWritableBytes b.readableBytes).run other with
          | .error e _ => .error e b
          | .ok _ _ => .error .outOfRange b := by
  have hend : sizeAdd b.readIdx b.readableBytes = b.writeIdx := by
    rw [readableBytes, sizeSub_eq ordered bounded, sizeAdd_eq (by omega)]
    omega
  simp only [shrink, EStateM.run_bind, EStateM.run_get, new_kInitialSize, run_onLocal, hend]
  cases (ensureWritableBytes (sizeAdd b.readableBytes reserve)).run fresh with
  | error e _ => rfl
  | ok _ other =>
    by_cases whole : b.writeIdx ≤ b.size
    · have hrange : (readRange b.readIdx b.writeIdx).run b = .ok b.value b :=
        run_readRange b _ _ ⟨ordered, whole⟩
      have length : b.value.length = b.readableBytes := by
        rw [readableBytes, sizeSub_eq ordered bounded]
        exact length_extract _ _ _ whole
      simp only [if_pos whole, run_append, length]
      cases (ensureWritableBytes b.readableBytes).run other with
      | error e _ => rfl
      | ok _ other =>
        simp only [hrange]
        cases (appendRest b.value).run other <;> rfl
    · have hrange : (readRange b.readIdx b.writeIdx).run b = .error .outOfRange b := by
        simp [readRange, whole]
        rfl
      simp only [if_neg whole]
      cases (ensureWritableBytes b.readableBytes).run other with
      | error e _ => rfl
      | ok _ other => simp only [hrange]

variable {reserve : Nat}

theorem Placed.run_shrink_ok (placed : b.Placed) (fit : fresh.Fits (b.value.length + reserve))
    (exact_sum : b.value.length + reserve < sizeModulus) :
    (shrink reserve).run b = .ok () (b.shrunk reserve) := by
  have room := Wf.room_shrunk b reserve
  rw [run_shrink placed.read_le_write placed.write_lt, placed.readableBytes_value,
    sizeAdd_eq exact_sum, fresh_wf.run_ensureWritableBytes_ok fit]
  simp only [if_pos placed.write_le_size,
    (fresh_wf.reserved fit).run_append_ok (fits_of_room room), appended_of_room room, shrunk]

/-- A reservation beyond `max_size()` throws before `*this` is touched. -/
theorem Placed.run_shrink_error (placed : b.Placed)
    (excess : ¬ fresh.Fits (b.value.length + reserve))
    (exact_sum : kCheapPrepend + (b.value.length + reserve) < sizeModulus) :
    (shrink reserve).run b = .error .lengthError b := by
  rw [run_shrink placed.read_le_write placed.write_lt, placed.readableBytes_value,
    sizeAdd_eq (by omega), fresh_wf.run_ensureWritableBytes_error excess exact_sum]

theorem Wf.shrunk (fit : fresh.Fits (b.value.length + reserve)) : (b.shrunk reserve).Wf :=
  Wf.stored (Wf.room_shrunk b reserve) (fresh_wf.reserved fit)

theorem Wf.value_shrunk (fit : fresh.Fits (b.value.length + reserve)) :
    (b.shrunk reserve).value = b.value := by
  rw [Buffer.shrunk, Wf.value_stored (Wf.room_shrunk b reserve) (fresh_wf.reserved fit),
    fresh_wf.value_reserved, value_fresh, spill_of_readIdx_le _ (Nat.le_refl _)]
  rfl

end Shrink

end Buffer

end Muduo.Source
