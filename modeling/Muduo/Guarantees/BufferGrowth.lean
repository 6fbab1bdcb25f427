import Muduo.Guarantees.BufferQueue

/-!
# When the storage of a buffer grows

`ensureWritableBytes(len)` is entered with too little room behind `write_idx_`.
Consumed bytes in front of the data should be reused first. `makeSpace` keeps the
old `write_idx_` when it moves the data, so it finds the room unchanged and
resizes: a call that could have reused space grows the storage instead, and a
call that has to grow asks for the consumed bytes a second time.
-/
namespace Muduo.Guarantees
open Muduo.Support Muduo.Source Muduo.Source.Buffer

/-- `kCheapPrepend + readableBytes() + len`: the size that holds the data and `len` more bytes. -/
def needed (b : Buffer) (len : Nat) : Nat := kCheapPrepend + b.readableBytes + len

/-- `ensureWritableBytes(len)` enlarges the storage only where `needed` exceeds it,
and makes the room in the storage it has where it does not. -/
def ReusesSpace (b : Buffer) (len : Nat) : Prop :=
  (b.size < (after (.ensureWritableBytes len) b).size → b.size < needed b len) ∧
  (needed b len ≤ b.size → ∃ out b', (exec (.ensureWritableBytes len)).run b = .ok out b' ∧
    b'.size = b.size ∧ len ≤ b'.writableBytes)

/-- `makeSpace` is entered although the storage is large enough. -/
def GrowsEarly (b : Buffer) (len : Nat) : Prop :=
  b.writableBytes < len ∧ needed b len ≤ b.size

theorem needed_eq {b : Buffer} (w : b.Wf) (len : Nat) :
    needed b len = kCheapPrepend + (b.writeIdx - b.readIdx) + len := by
  rw [needed, w.readableBytes_eq]

theorem reusesSpace_of_room {b : Buffer} (w : b.Wf) {len : Nat} (room : len ≤ b.writableBytes) :
    ReusesSpace b len := by
  have short : ¬ b.size - b.writeIdx < len := by
    rw [w.writableBytes_eq] at room
    omega
  have fit : b.Fits len := fun h => absurd h short
  have unchanged : b.reserved len = b := if_neg short
  have ran : (exec (.ensureWritableBytes len)).run b = .ok .unit b := by
    simp [Buffer.exec, w.run_ensureWritableBytes_ok fit, unchanged, -bind_pure_comp]
  refine ⟨fun grew => ?_, fun _ => ⟨_, _, ran, rfl, room⟩⟩
  rw [after, ran] at grew
  exact absurd grew (lt_irrefl _)

/-- A call that enters `makeSpace` ends with more storage than before, or throws. -/
theorem grows_of_short {b : Buffer} (w : b.Wf) {len : Nat}
    (valid : Op.Valid b (.ensureWritableBytes len)) (short : b.writableBytes < len)
    {out : Output} {b' : Buffer} (ran : (exec (.ensureWritableBytes len)).run b = .ok out b') :
    b.size < b'.size := by
  rw [w.run_exec_ok valid (w.fits_of_exec valid ran)] at ran
  cases ran
  change b.size < (b.reserved len).size
  rw [w.writableBytes_eq] at short
  rw [size_reserved w]
  omega

theorem reusesSpace_iff {b : Buffer} (w : b.Wf) {len : Nat}
    (valid : Op.Valid b (.ensureWritableBytes len)) :
    ReusesSpace b len ↔ ¬ GrowsEarly b len := by
  constructor
  · rintro ⟨_, reuses⟩ ⟨short, enough⟩
    obtain ⟨out, b', ran, same, _⟩ := reuses enough
    have grew := grows_of_short w valid short ran
    omega
  · intro needs
    by_cases room : len ≤ b.writableBytes
    · exact reusesSpace_of_room w room
    · have large : b.size < needed b len := by
        by_contra enough
        exact needs ⟨by omega, by omega⟩
      exact ⟨fun _ => large, fun enough => absurd large (by omega)⟩

/-- An append that returns stays within `needed` exactly when it does not compact. -/
theorem append_within_iff {b b' : Buffer} (w : b.Wf) {data : Bytes} {out : Output}
    (valid : Op.Valid b (.append data)) (ran : (exec (.append data)).run b = .ok out b') :
    b'.size ≤ max b.size (needed b data.length) ↔ ¬ b.Compacts data.length := by
  have fit : b.Fits data.length := w.fits_of_exec valid ran
  rw [w.run_exec_ok valid fit] at ran
  cases ran
  change (b.appended data).size ≤ _ ↔ _
  have hr := w.read_le_write
  have hs := w.write_le_size
  rw [size_appended w, needed_eq w, Compacts]
  omega

/-- The calls of the run half: data joins at the end or is taken from the front. -/
def MovesData : Op → Bool
  | .append _ | .retrieve _ | .retrieveAsString _ | .retrieveAllAsString | .retrieveAll => true
  | .readFd _ | .prepend _ | .ensureWritableBytes _ | .makeSpace _ | .shrink _ | .swap _ => false

/-- Bytes appended and not yet retrieved, after a call that returned. -/
def unretrieved (m : Nat) : Op → Nat
  | .append data => m + data.length
  | .retrieve k | .retrieveAsString k => m - k
  | .retrieveAllAsString | .retrieveAll => 0
  | _ => m

/-- Calls on a buffer with the count of its unretrieved bytes, which stays within
`limit`. A call that throws appends nothing. -/
inductive Traffic (limit : Nat) : Buffer × Nat → Op → Buffer × Nat → Prop
  | returned {b b' : Buffer} {m : Nat} {op : Op} {out : Output} :
      MovesData op = true → op.Valid b → (exec op).run b = .ok out b' →
      unretrieved m op ≤ limit → Traffic limit (b, m) op (b', unretrieved m op)
  | refused {b b' : Buffer} {m : Nat} {op : Op} {fault : Fault} :
      MovesData op = true → op.Valid b → (exec op).run b = .error fault b' →
      Traffic limit (b, m) op (b', m)

/-- The state of a run that never compacts: the count is the length of the value. -/
structure Kept (start limit : Nat) (s : Buffer × Nat) : Prop where
  wf : s.1.Wf
  counted : s.1.value.length = s.2
  bounded : s.2 ≤ limit
  size_le : s.1.size ≤ max start (kCheapPrepend + limit)

/-- A call that moves data and returns keeps the storage, apart from an append. -/
theorem size_outcome {b : Buffer} {op : Op} (moves : MovesData op = true)
    (no_append : ∀ data, op ≠ .append data) : (op.outcome b).2.size = b.size := by
  cases op with
  | append data => exact absurd rfl (no_append data)
  | retrieve k | retrieveAsString k | retrieveAllAsString =>
    simp only [Op.outcome, Buffer.retrieved]
    split <;> rfl
  | retrieveAll => rfl
  | readFd _ | prepend _ | ensureWritableBytes _ | makeSpace _ | shrink _ | swap _ =>
    cases moves

theorem length_queued {op : Op} (moves : MovesData op = true) (value : Bytes) :
    ((queueOp op).apply value).length = unretrieved value.length op := by
  cases op with
  | append data => simp [queueOp, QueueOp.apply, unretrieved]
  | retrieve k | retrieveAsString k => simp [queueOp, QueueOp.apply, unretrieved]
  | retrieveAllAsString | retrieveAll => rfl
  | readFd _ | prepend _ | ensureWritableBytes _ | makeSpace _ | shrink _ | swap _ =>
    cases moves

theorem kept_of_returned {start limit : Nat} {b b' : Buffer} {m : Nat} {op : Op} {out : Output}
    (kept : Kept start limit (b, m)) (clean : ¬ op.Compacts b) (moves : MovesData op = true)
    (valid : op.Valid b) (ran : (exec op).run b = .ok out b')
    (within_limit : unretrieved m op ≤ limit) : Kept start limit (b', unretrieved m op) := by
  obtain ⟨w, counted, bounded, size_le⟩ := kept
  have fit := w.fits_of_exec valid ran
  have no_swap : ∀ other, op = .swap other → other.Wf := by
    rintro other rfl
    cases moves
  rw [w.run_exec_ok valid fit] at ran
  cases ran
  refine ⟨w.outcome valid fit no_swap, ?_, within_limit, ?_⟩
  · rw [value_outcome w valid fit, valueAfter_of_not_compacts w clean, length_queued moves]
    exact congrArg (unretrieved · op) counted
  · by_cases appends : ∃ data, op = .append data
    · obtain ⟨data, rfl⟩ := appends
      have within_needed := (append_within_iff w valid (w.run_exec_ok valid fit)).mpr clean
      have readable : b.readableBytes = m := w.readableBytes_value.trans counted
      have room : needed b data.length ≤ kCheapPrepend + limit := by
        simp only [unretrieved] at within_limit
        rw [needed, readable]
        omega
      exact le_trans within_needed (max_le size_le (le_trans room (le_max_right _ _)))
    · rw [size_outcome moves fun data h => appends ⟨data, h⟩]
      exact size_le

/-- A call that throws without compacting leaves the buffer as it was. -/
theorem interrupted_eq {b : Buffer} {op : Op} (moves : MovesData op = true)
    (clean : ¬ op.Compacts b) (excess : ¬ op.Fits b) : op.interrupted b = b := by
  cases op with
  | append data =>
    have short : b.size - b.writeIdx < data.length := (Classical.not_imp.mp excess).1
    exact if_neg fun consumed => clean ⟨short, consumed⟩
  | retrieve _ | retrieveAsString _ | retrieveAllAsString | retrieveAll => rfl
  | readFd _ | prepend _ | ensureWritableBytes _ | makeSpace _ | shrink _ | swap _ =>
    cases moves

theorem kept_of_refused {start limit : Nat} {b b' : Buffer} {m : Nat} {op : Op} {fault : Fault}
    (kept : Kept start limit (b, m)) (clean : ¬ op.Compacts b) (moves : MovesData op = true)
    (valid : op.Valid b) (ran : (exec op).run b = .error fault b') :
    Kept start limit (b', m) := by
  have excess : ¬ op.Fits b := by
    intro fit
    rw [kept.wf.run_exec_ok valid fit] at ran
    cases ran
  rw [kept.wf.run_exec_error valid excess, interrupted_eq moves clean excess] at ran
  cases ran
  exact kept

/-- Each call of `ensureWritableBytes` on a reachable buffer reuses freed space
exactly when it does not grow early, each append stays within `needed` exactly
when it does not compact, and a run of calls that never compacts stays within
the most bytes it held at once. -/
theorem buffer_growth_exact {b : Buffer} (reached : Reachable b) :
    (∀ len, Op.Valid b (.ensureWritableBytes len) → (ReusesSpace b len ↔ ¬ GrowsEarly b len)) ∧
    (∀ data out b', Op.Valid b (.append data) → (exec (.append data)).run b = .ok out b' →
      (b'.size ≤ max b.size (needed b data.length) ↔ ¬ b.Compacts data.length)) ∧
    (∀ limit ops b' m', b.readableBytes ≤ limit →
      Run (Guarded (fun s op => ¬ op.Compacts s.1) (Traffic limit)) (b, b.readableBytes) ops
        (b', m') →
      b'.size ≤ max b.size (kCheapPrepend + limit)) := by
  refine ⟨fun len valid => reusesSpace_iff reached.wf valid,
    fun data out b' valid ran => append_within_iff reached.wf valid ran, ?_⟩
  intro limit ops b' m' held run
  have start : Kept b.size limit (b, b.readableBytes) :=
    ⟨reached.wf, reached.wf.readableBytes_value.symm, held, le_max_left _ _⟩
  have kept := run.invariant start ?_
  · exact kept.size_le
  · rintro _ op _ kept ⟨clean, taken⟩
    cases taken with
    | returned moves valid ran within_limit =>
      exact kept_of_returned kept clean moves valid ran within_limit
    | refused moves valid ran => exact kept_of_refused kept clean moves valid ran

/-- Retrieving one more byte of `partlyRead` keeps the storage of 12 bytes. -/
theorem buffer_growth_exact_retrieve :
    ReusesSpace partlyRead 0 ∧ (after (.retrieve 1) partlyRead).size ≤ 12 := by
  obtain ⟨reuses, _, bounded⟩ := buffer_growth_exact partlyRead_reachable
  refine ⟨(reuses 0 (by decide)).mpr fun early => absurd early.1 (Nat.not_lt_zero _), ?_⟩
  have call : Traffic 4 (partlyRead, 2) (.retrieve 1) (after (.retrieve 1) partlyRead, 1) :=
    .returned rfl (by decide) rfl (by decide)
  exact bounded 4 [.retrieve 1] _ 1 (by decide) (.cons ⟨id, call⟩ (.nil _))

/-- `ensureWritableBytes(1)` on `partlyRead` needs 11 of its 12 bytes and grows to
13; `append` of one byte does the same with at most four bytes unretrieved. -/
theorem partlyRead_grows_early :
    Reachable partlyRead ∧ Op.Valid partlyRead (.ensureWritableBytes 1) ∧
      needed partlyRead 1 = 11 ∧ partlyRead.size = 12 ∧
      (after (.ensureWritableBytes 1) partlyRead).size = 13 ∧ ¬ ReusesSpace partlyRead 1 ∧
      Traffic 4 (partlyRead, 2) (.append [101]) (after (.append [101]) partlyRead, 3) ∧
      ¬ (after (.append [101]) partlyRead).size ≤ max 12 (kCheapPrepend + 4) := by
  refine ⟨partlyRead_reachable, by decide, by decide, by decide, by decide, ?_,
    .returned rfl (by decide) rfl (by decide), by decide⟩
  intro reuses
  exact (reusesSpace_iff partlyRead_reachable.wf (by decide)).mp reuses ⟨by decide, by decide⟩

end Muduo.Guarantees
