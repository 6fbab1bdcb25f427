import Muduo.Source.BufferWraps
import Muduo.Guarantees.BufferQueue

/-!
# Reserving space in 64 bits

`ensureWritableBytes` and `shrink` are meant for every size: they end in the exception of
the vector or with the room that was asked for. Two things stand against it. The sum
`write_idx_ + len` wraps, the vector is cut down below `write_idx_`, and the wrapped
difference satisfies the assertion. And the compaction of `makeSpace` has changed the
readable bytes before `resize` returns or throws. The results hold for every buffer that
calls with any 64-bit arguments lead to, torn ones included.
-/
namespace Muduo.Guarantees
open Muduo.Support Muduo.Source Muduo.Source.Buffer

/-- `ensureWritableBytes(len)` throws with the readable bytes unchanged, or returns with
them unchanged, the indices in order and room for `len` bytes in exact numbers. -/
def ReservesSafely (b : Buffer) (len : Nat) : Prop :=
  match (Buffer.ensureWritableBytes len).run b with
  | .ok _ b' => b'.value = b.value ∧ b'.readIdx ≤ b'.writeIdx ∧ b'.writeIdx ≤ b'.size ∧
      len ≤ b'.size - b'.writeIdx
  | .error .lengthError b' => b'.value = b.value
  | .error _ _ => False

/-- `shrink(reserve)` throws and leaves the buffer as it was, or returns with room for
`reserve` bytes. -/
def ShrinksSafely (b : Buffer) (reserve : Nat) : Prop :=
  match (Buffer.shrink reserve).run b with
  | .ok _ b' => b'.writeIdx ≤ b'.size ∧ reserve ≤ b'.size - b'.writeIdx
  | .error .lengthError b' => b' = b
  | .error _ _ => False

/-- The vector reaches `write_idx_`, and either holds `len` more bytes already or can be
asked for them without a compaction and without a wrap. -/
def RoomOrExactSum (b : Buffer) (len : Nat) : Prop :=
  b.writeIdx ≤ b.size ∧
    (len ≤ b.size - b.writeIdx ∨ b.readIdx ≤ kCheapPrepend ∧ b.writeIdx + len < sizeModulus)

/-- The vector reaches `write_idx_`, and what `shrink` asks for is computed without a wrap. -/
def ExactRequest (b : Buffer) (reserve : Nat) : Prop :=
  b.writeIdx ≤ b.size ∧ kCheapPrepend + b.readableBytes + reserve < sizeModulus

/-- The local vector is asked for more than its `max_size()`: by the reservation, or by the
copy of the readable bytes after a reservation that wrapped. -/
def RefusedRequest (b : Buffer) (reserve : Nat) : Prop :=
  (kMaxSize < kCheapPrepend + sizeAdd b.readableBytes reserve ∧
    kCheapPrepend + sizeAdd b.readableBytes reserve < sizeModulus) ∨
  (sizeModulus ≤ b.readableBytes + reserve ∧ kMaxSize < kCheapPrepend + b.readableBytes)

variable {b : Buffer} {len reserve : Nat}

theorem not_reservesSafely_of_wraps (sound : b.Sound) (bound : len < sizeModulus)
    (wraps : b.Wraps len) : ¬ ReservesSafely b len := by
  unfold ReservesSafely
  split
  · next _ b' ran =>
    rintro ⟨_, _, whole, _⟩
    exact absurd (sound.torn_of_ensureWritableBytes bound wraps ran) (not_lt.mpr whole)
  · next b' ran => exact absurd rfl (sound.ensureWritableBytes_not_refused bound wraps ran)
  · exact id

theorem stale_ne_nil (w : b.Wf) (consumed : kCheapPrepend < b.readIdx) : b.stale ≠ [] := by
  have length := w.length_stale
  intro none
  rw [none, List.length_nil] at length
  omega

/-- With an exact sum only a compaction changes the value, whether `resize` throws or not. -/
theorem reservesSafely_iff_of_exact (w : b.Wf)
    (exact_sum : b.size - b.writeIdx < len → b.writeIdx + len < sizeModulus) :
    ReservesSafely b len ↔ ¬ b.Compacts len := by
  by_cases fit : b.Fits len
  · have kept := w.value_reserved len
    have w' := w.reserved fit
    have room := w.write_add_le_size_reserved len
    have write : (b.reserved len).writeIdx = b.writeIdx := reserved_writeIdx len
    simp only [ReservesSafely, w.run_ensureWritableBytes_ok fit, kept, spill]
    constructor
    · rintro ⟨same, _⟩ compacts
      rw [if_pos compacts] at same
      exact stale_ne_nil w compacts.2 (List.append_right_eq_self.mp same)
    · intro clean
      refine ⟨by rw [if_neg clean, List.append_nil], w'.read_le_write, w'.write_le_size, ?_⟩
      omega
  · have short := (Classical.not_imp.mp fit).1
    have thrown := w.run_ensureWritableBytes_error fit (exact_sum short)
    simp only [ReservesSafely, thrown, w.value_compacted]
    constructor
    · intro same compacts
      exact stale_ne_nil w compacts.2 (List.append_right_eq_self.mp same)
    · intro clean
      rw [stale, if_neg fun consumed => clean ⟨short, consumed⟩, List.append_nil]

theorem reservesSafely_iff (sound : b.Sound) (bound : len < sizeModulus) :
    ReservesSafely b len ↔ RoomOrExactSum b len := by
  by_cases wraps : b.Wraps len
  · refine iff_of_false (not_reservesSafely_of_wraps sound bound wraps) ?_
    rintro ⟨whole, room | ⟨_, exact_sum⟩⟩ <;> rcases wraps with torn | ⟨short, beyond⟩
    · exact absurd torn (not_lt.mpr whole)
    · omega
    · exact absurd torn (not_lt.mpr whole)
    · omega
  · obtain ⟨whole, exact_sum⟩ := not_or.mp wraps
    have inside : b.writeIdx ≤ b.size := not_lt.mp whole
    rw [reservesSafely_iff_of_exact (sound.wf whole) fun short => by
      by_contra beyond
      exact exact_sum ⟨short, not_lt.mp beyond⟩]
    unfold RoomOrExactSum Compacts
    omega

/-- The local vector is cut down below its header, so the copy leaves it. -/
theorem not_shrinksSafely_of_torn_request (sound : b.Sound)
    (beyond : sizeModulus ≤ kCheapPrepend + sizeAdd b.readableBytes reserve) :
    ¬ ShrinksSafely b reserve := by
  have short : fresh.size - fresh.writeIdx < sizeAdd b.readableBytes reserve := by
    have room : fresh.size - fresh.writeIdx = kInitialSize := by
      rw [size_fresh]
      exact Nat.add_sub_cancel_left ..
    have wide : kCheapPrepend + kInitialSize < sizeModulus := by decide
    rw [room]
    omega
  have bound := sizeAdd_lt b.readableBytes reserve
  have wraps : fresh.Wraps (sizeAdd b.readableBytes reserve) := .inr ⟨short, beyond⟩
  obtain ⟨result, ensured⟩ : ∃ result,
      (Buffer.ensureWritableBytes (sizeAdd b.readableBytes reserve)).run fresh = result := ⟨_, rfl⟩
  unfold ShrinksSafely
  cases result with
  | error e other =>
    have refused := fresh_sound.ensureWritableBytes_not_refused bound wraps ensured
    rw [sound.run_shrink_refused ensured]
    cases e <;> first | exact absurd rfl refused | exact id
  | ok out other =>
    have sound' := (triple_ok (ensureWritableBytes_spec fresh_sound _) rfl ensured).1
    have torn' := fresh_sound.torn_of_ensureWritableBytes bound wraps ensured
    by_cases torn : b.Torn
    · rw [sound.run_shrink_outside torn ensured]
      cases again : (Buffer.ensureWritableBytes b.readableBytes).run other with
      | ok => exact id
      | error e _ =>
        have refused := sound'.ensureWritableBytes_not_refused sound.readable_lt (.inl torn') again
        cases e <;> first | exact absurd rfl refused | exact id
    · have length : b.value.length < sizeModulus := by
        rw [(sound.wf torn).length_value]
        exact lt_of_le_of_lt (Nat.sub_le _ _) sound.write_lt
      obtain ⟨e, other', copied, refused⟩ := sound'.append_torn torn' length
      rw [sound.run_shrink_copies torn ensured, copied]
      cases e <;> first | exact absurd rfl refused | exact id

/-- A sum that has wrapped reserves too little; the copy of the readable bytes may then ask
for more and be refused. -/
theorem shrinksSafely_iff_of_wrapped (sound : b.Sound) (whole : ¬ b.Torn)
    (wrapped : sizeModulus ≤ b.readableBytes + reserve)
    (limit : kCheapPrepend + sizeAdd b.readableBytes reserve ≤ kMaxSize) :
    ShrinksSafely b reserve ↔ kMaxSize < kCheapPrepend + b.readableBytes := by
  have fit := fits_fresh_iff.mpr limit
  have w := sound.wf whole
  have w' := fresh_wf.reserved fit
  have write : (fresh.reserved (sizeAdd b.readableBytes reserve)).writeIdx = kCheapPrepend :=
    reserved_writeIdx _
  have run := sound.run_shrink_copies whole (fresh_wf.run_ensureWritableBytes_ok fit)
  generalize fresh.reserved (sizeAdd b.readableBytes reserve) = other at w' write run
  have far : 2 * kMaxSize < sizeModulus := by decide
  have held := w.readableBytes_value
  have inside := le_trans w.write_le_size w.capacity
  have readable := w.readableBytes_eq
  unfold ShrinksSafely
  rw [run]
  by_cases fit' : other.Fits b.value.length
  · have end' : (other.appended b.value).writeIdx = kCheapPrepend + b.value.length := by
      simp [appended, Buffer.stored, write]
    have capacity := (w'.appended fit').capacity
    simp only [w'.run_append_ok fit', end']
    refine iff_of_false (fun safe => ?_) fun excess => ?_
    · have room := safe.2
      omega
    · have capacity' := w'.capacity
      have limit' := fit' (by omega)
      omega
  · obtain ⟨_, excess⟩ := Classical.not_imp.mp fit'
    simp only [w'.run_append_error fit' (by omega)]
    exact iff_of_true trivial (by omega)

/-- The readable bytes of a torn buffer leave the storage, unless the copy is refused. -/
theorem shrinksSafely_iff_of_torn (sound : b.Sound) (torn : b.Torn)
    (limit : kCheapPrepend + sizeAdd b.readableBytes reserve ≤ kMaxSize) :
    ShrinksSafely b reserve ↔ sizeModulus ≤ b.readableBytes + reserve ∧
      kMaxSize < kCheapPrepend + b.readableBytes := by
  have fit := fits_fresh_iff.mpr limit
  have w := fresh_wf.reserved fit
  have room := fresh_wf.write_add_le_size_reserved (sizeAdd b.readableBytes reserve)
  have write : (fresh.reserved (sizeAdd b.readableBytes reserve)).writeIdx = kCheapPrepend :=
    reserved_writeIdx _
  have header : fresh.writeIdx = kCheapPrepend := rfl
  have run := sound.run_shrink_outside torn (fresh_wf.run_ensureWritableBytes_ok fit)
  generalize fresh.reserved (sizeAdd b.readableBytes reserve) = other at w write room run
  have capacity := w.capacity
  have bound := sound.readable_lt
  have limit' := sound.write_le
  have readable := sound.readableBytes_eq
  have far : kMaxSize + kCheapPrepend < sizeModulus := by decide
  have exact_sum : b.readableBytes + reserve < sizeModulus →
      sizeAdd b.readableBytes reserve = b.readableBytes + reserve := sizeAdd_eq
  unfold ShrinksSafely
  rw [run]
  by_cases fit' : other.Fits b.readableBytes
  · simp only [w.run_ensureWritableBytes_ok fit']
    refine iff_of_false id ?_
    rintro ⟨_, excess⟩
    have refused := fit' (by omega)
    omega
  · obtain ⟨short, excess⟩ := Classical.not_imp.mp fit'
    simp only [w.run_ensureWritableBytes_error fit' (by omega)]
    refine iff_of_true trivial ⟨?_, by omega⟩
    by_contra whole
    have sum := exact_sum (not_le.mp whole)
    omega

theorem shrinksSafely_iff (sound : b.Sound) (bound : reserve < sizeModulus) :
    ShrinksSafely b reserve ↔ ExactRequest b reserve ∨ RefusedRequest b reserve := by
  have bound' := sound.readable_lt
  have exact_sum : b.readableBytes + reserve < sizeModulus →
      sizeAdd b.readableBytes reserve = b.readableBytes + reserve := sizeAdd_eq
  have wrapped_sum : sizeModulus ≤ b.readableBytes + reserve →
      sizeAdd b.readableBytes reserve = b.readableBytes + reserve - sizeModulus :=
    sizeAdd_wrapped bound' bound
  have limit := sound.write_le
  have readable := sound.readableBytes_eq
  have far : kMaxSize + kCheapPrepend < sizeModulus := by decide
  unfold ExactRequest RefusedRequest
  by_cases beyond : sizeModulus ≤ kCheapPrepend + sizeAdd b.readableBytes reserve
  · -- the reservation wraps
    refine iff_of_false (not_shrinksSafely_of_torn_request sound beyond) ?_
    by_cases wrapped : sizeModulus ≤ b.readableBytes + reserve
    · have sum := wrapped_sum wrapped
      omega
    · have sum := exact_sum (not_le.mp wrapped)
      omega
  by_cases excess : kMaxSize < kCheapPrepend + sizeAdd b.readableBytes reserve
  · -- the reservation throws
    have thrown := fresh_wf.run_ensureWritableBytes_error (mt fits_fresh_iff.mp (not_le.mpr excess))
      (not_le.mp beyond)
    refine iff_of_true ?_ (.inr (.inl ⟨excess, not_le.mp beyond⟩))
    unfold ShrinksSafely
    rw [sound.run_shrink_refused thrown]
  have fits := not_lt.mp excess
  by_cases torn : b.Torn
  · -- the readable bytes are outside of the storage
    have outside : ¬ b.writeIdx ≤ b.size := not_le.mpr torn
    rw [shrinksSafely_iff_of_torn sound torn fits]
    omega
  have inside : b.writeIdx ≤ b.size := not_lt.mp torn
  by_cases wrapped : sizeModulus ≤ b.readableBytes + reserve
  · have sum := wrapped_sum wrapped
    rw [shrinksSafely_iff_of_wrapped sound torn wrapped fits]
    omega
  · -- nothing wraps
    have sum := exact_sum (not_le.mp wrapped)
    have placed := (sound.wf torn).placed
    have held := placed.readableBytes_value
    rw [sum, held] at fits
    refine iff_of_true ?_ (.inl ⟨inside, by omega⟩)
    have run := placed.run_shrink_ok (fits_fresh_iff.mpr fits) (by omega)
    have size := size_shrunk b reserve
    have write := writeIdx_shrunk b reserve
    unfold ShrinksSafely
    rw [run]
    exact ⟨by omega, by omega⟩

/-- For every buffer a program can hold, and every 64-bit argument: reserving space is safe
exactly with room or an exact sum and nothing to compact, shrinking exactly with an exact
sum or a refusal. -/
theorem buffer_reservations_exact {b : Buffer} (obtained : Obtained b) :
    (∀ len < sizeModulus, (ReservesSafely b len ↔ RoomOrExactSum b len)) ∧
    ∀ reserve < sizeModulus,
      (ShrinksSafely b reserve ↔ ExactRequest b reserve ∨ RefusedRequest b reserve) :=
  ⟨fun _ bound => reservesSafely_iff obtained.sound bound,
    fun _ bound => shrinksSafely_iff obtained.sound bound⟩

/-- `Buffer(4)`. -/
def fourBytes : Buffer := ⟨List.replicate 12 0, 8, 8⟩

theorem fourBytes_obtained : Obtained fourBytes := .new 4 (by decide) rfl

theorem buffer_reservations_exact_fourBytes :
    ReservesSafely fourBytes 5 ∧ ShrinksSafely fourBytes 2000 := by
  obtain ⟨reserves, shrinks⟩ := buffer_reservations_exact fourBytes_obtained
  rw [reserves 5 (by decide), shrinks 2000 (by decide)]
  exact ⟨⟨by decide, .inr (by decide)⟩, .inl ⟨by decide, by decide⟩⟩

/-- The largest `len` cuts the vector of `Buffer(4)` down to seven bytes, with `write_idx_`
at 8 and the assertion satisfied. Behind two consumed bytes `len = 1` changes the readable
bytes. And `shrink` returns with 1022 writable bytes where 2^64 - 2 were asked for. -/
theorem reservation_wraps :
    after (.ensureWritableBytes (2 ^ 64 - 1)) fourBytes = ⟨List.replicate 7 0, 8, 8⟩ ∧
      ¬ ReservesSafely fourBytes (2 ^ 64 - 1) ∧
      (after (.ensureWritableBytes 1) partlyRead).value = [99, 100, 99, 100] ∧
      ¬ ReservesSafely partlyRead 1 ∧
      (after (.shrink (2 ^ 64 - 2)) partlyRead).writableBytes = 1022 ∧
      ¬ ShrinksSafely partlyRead (2 ^ 64 - 2) := by
  have sound := partlyRead_reachable.obtained.sound
  refine ⟨by decide +kernel, ?_, by decide +kernel, ?_, by decide +kernel, ?_⟩
  · rw [reservesSafely_iff fourBytes_obtained.sound (by decide)]
    exact fun exact_sum => absurd exact_sum.2 (by decide)
  · rw [reservesSafely_iff sound (by decide)]
    exact fun kept => absurd kept.2 (by decide)
  · rw [shrinksSafely_iff sound (by decide)]
    rintro (⟨_, request⟩ | ⟨excess, _⟩ | ⟨_, excess⟩)
    · exact absurd request (by decide)
    · exact absurd excess (by decide)
    · exact absurd excess (by decide)

end Muduo.Guarantees
