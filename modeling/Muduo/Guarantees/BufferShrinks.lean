import Muduo.Source.BufferExecution

/-!
# The law of shrink

`shrink(reserve)` goes through a default-constructed buffer, a reservation, a copy and a
swap of the three fields. What it leaves depends on the readable bytes and on `reserve`
alone, so a second call finds the buffer as the first one left it.
-/
namespace Muduo.Guarantees
open Muduo.Support Muduo.Source Muduo.Source.Buffer

/-- What `shrink(reserve)` leaves of `b`: the readable bytes, the initial prependable space
and the writable space of the initial size or of `reserve`. -/
structure Shrinks (b : Buffer) (reserve : Nat) (b' : Buffer) : Prop where
  value : b'.value = b.value
  prependable : b'.prependableBytes = kCheapPrepend
  writable : b'.writableBytes = max (kInitialSize - b.readableBytes) reserve

variable {b : Buffer} {reserve : Nat}

theorem fits_shrink_iff (placed : b.Placed) :
    fresh.Fits (b.value.length + reserve) ↔
      kCheapPrepend + b.readableBytes + reserve ≤ kMaxSize := by
  rw [fits_fresh_iff, placed.readableBytes_value, Nat.add_assoc]

theorem shrinks_shrunk (placed : b.Placed)
    (limit : kCheapPrepend + b.readableBytes + reserve ≤ kMaxSize) :
    Shrinks b reserve (b.shrunk reserve) where
  value := Wf.value_shrunk ((fits_shrink_iff placed).mpr limit)
  prependable := readIdx_shrunk b reserve
  writable := by
    have w := Wf.shrunk ((fits_shrink_iff placed).mpr limit)
    have readable := placed.readableBytes_value
    rw [w.writableBytes_eq, size_shrunk, writeIdx_shrunk]
    omega

/-- The result depends on the readable bytes only. -/
theorem shrunk_shrunk (placed : b.Placed)
    (limit : kCheapPrepend + b.readableBytes + reserve ≤ kMaxSize) :
    (b.shrunk reserve).shrunk reserve = b.shrunk reserve := by
  rw [shrunk, (shrinks_shrunk placed limit).value]
  rfl

/-- For every placement of the indices and every `reserve` without a wrap: `shrink` returns
exactly if the vector may hold the request, with the law and with nothing left for a second
call to change; otherwise it throws and changes nothing. -/
theorem shrink_law (b : Buffer) (reserve : Nat) (placed : b.Placed)
    (exact_sum : kCheapPrepend + b.readableBytes + reserve < sizeModulus) :
    (kCheapPrepend + b.readableBytes + reserve ≤ kMaxSize →
      ∃ b', (Buffer.shrink reserve).run b = .ok () b' ∧ Shrinks b reserve b' ∧
        (Buffer.shrink reserve).run b' = .ok () b') ∧
    (kMaxSize < kCheapPrepend + b.readableBytes + reserve →
      (Buffer.shrink reserve).run b = .error .lengthError b) := by
  have readable := placed.readableBytes_value
  constructor
  · intro limit
    have fit := (fits_shrink_iff placed).mpr limit
    have law := shrinks_shrunk placed limit
    refine ⟨b.shrunk reserve, placed.run_shrink_ok fit (by omega), law, ?_⟩
    have again : fresh.Fits ((b.shrunk reserve).value.length + reserve) := by rwa [law.value]
    have ran := (Wf.shrunk fit).placed.run_shrink_ok again (by rw [law.value]; omega)
    rwa [shrunk_shrunk placed limit] at ran
  · intro excess
    refine placed.run_shrink_error ?_ (by omega)
    exact mt (fits_shrink_iff placed).mp (not_le.mpr excess)

/-- Two readable bytes behind one, in a storage smaller than the header. -/
theorem shrink_law_short : ∃ b' : Buffer,
    (Buffer.shrink 2000).run ⟨[97, 98, 99], 1, 3⟩ = .ok () b' ∧
      b'.value = [98, 99] ∧ b'.writableBytes = 2000 ∧ (Buffer.shrink 2000).run b' = .ok () b' := by
  have placed : Placed ⟨[97, 98, 99], 1, 3⟩ := ⟨by decide, by decide, by decide⟩
  obtain ⟨b', ran, law, again⟩ := (shrink_law _ 2000 placed (by decide)).1 (by decide)
  exact ⟨b', ran, law.value, law.writable, again⟩

end Muduo.Guarantees
