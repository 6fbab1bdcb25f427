import Muduo.Support.Ownership
import Muduo.Source.Fault

/-!
# Socket (muduo/net/socket.h, muduo/net/socket.cc)

A `Socket` is its `fd_`, with `-1` after it has been moved from. The descriptor table of
the process tells for each number which opening it stands for: a number comes back after
`::close`, an opening does not. It counts the closes of each opening and the calls of
`::close` on a number that is not open.
-/
namespace Muduo.Source
open Muduo.Support

structure Socket where
  fd : Int
  deriving DecidableEq, Repr

structure DescriptorTable where
  openings : Int → Option Nat
  opened : Nat
  closed : Nat → Nat
  refused : Nat

namespace DescriptorTable

def new : DescriptorTable := ⟨fun _ => none, 0, fun _ => 0, 0⟩

/-- `::socket` or `::accept` returns the number `fd`. -/
def openAt (table : DescriptorTable) (fd : Int) : DescriptorTable :=
  { table with
    openings := Function.update table.openings fd (some table.opened)
    opened := table.opened + 1 }

def close (table : DescriptorTable) (fd : Int) : DescriptorTable :=
  match table.openings fd with
  | some opening =>
    { table with
      openings := Function.update table.openings fd none
      closed := Function.update table.closed opening (table.closed opening + 1) }
  | none => { table with refused := table.refused + 1 }

/-- The open descriptors. -/
def fds (table : DescriptorTable) : Set Int := { fd | table.openings fd ≠ none }

/-- Each opening stands under one number until it is closed, once. -/
structure Accounted (table : DescriptorTable) : Prop where
  standing : ∀ fd opening, table.openings fd = some opening →
    opening < table.opened ∧ table.closed opening = 0
  single : ∀ fd fd' opening, table.openings fd = some opening →
    table.openings fd' = some opening → fd = fd'
  settled : ∀ opening < table.opened,
    (∃ fd, table.openings fd = some opening) ∨ table.closed opening = 1
  unopened : ∀ opening, table.opened ≤ opening → table.closed opening = 0
  refused : table.refused = 0

variable {table : DescriptorTable} {fd : Int}

theorem fds_openAt : (table.openAt fd).fds = insert fd table.fds := by
  ext other
  by_cases same : other = fd
  · simp [fds, openAt, same]
  · simp [fds, openAt, same]

theorem fds_close (isOpen : fd ∈ table.fds) : (table.close fd).fds = table.fds \ {fd} := by
  obtain ⟨opening, stands⟩ := Option.ne_none_iff_exists'.mp isOpen
  ext other
  by_cases same : other = fd
  · simp [fds, close, stands, same]
  · simp [fds, close, stands, same]

theorem new_accounted : Accounted .new where
  standing fd opening stands := by cases stands
  single fd fd' opening stands := by cases stands
  settled opening below := absurd below (Nat.not_lt_zero _)
  unopened _ _ := rfl
  refused := rfl

namespace Accounted

variable (accounted : Accounted table)
include accounted

theorem openAt (free : table.openings fd = none) : Accounted (table.openAt fd) where
  standing other opening stands := by
    simp only [DescriptorTable.openAt, Function.update_apply] at stands ⊢
    split at stands
    · cases stands
      exact ⟨Nat.lt_succ_self _, accounted.unopened _ (le_refl _)⟩
    · obtain ⟨below, unclosed⟩ := accounted.standing other opening stands
      exact ⟨Nat.lt_succ_of_lt below, unclosed⟩
  single first second opening stands stands' := by
    simp only [DescriptorTable.openAt, Function.update_apply] at stands stands'
    split at stands <;> split at stands'
    · next same same' => exact same.trans same'.symm
    · cases stands
      exact absurd (accounted.standing _ _ stands').1 (lt_irrefl _)
    · cases stands'
      exact absurd (accounted.standing _ _ stands).1 (lt_irrefl _)
    · exact accounted.single _ _ _ stands stands'
  settled opening below := by
    by_cases last : opening = table.opened
    · exact .inl ⟨fd, by simp [DescriptorTable.openAt, last]⟩
    · have old : opening < table.opened := by
        change opening < table.opened + 1 at below
        omega
      refine (accounted.settled opening old).imp_left ?_
      rintro ⟨other, stands⟩
      have different : other ≠ fd := by
        rintro rfl
        rw [free] at stands
        cases stands
      exact ⟨other, by simpa [DescriptorTable.openAt, different] using stands⟩
  unopened opening above := accounted.unopened opening (le_of_lt above)
  refused := accounted.refused

theorem close (isOpen : fd ∈ table.fds) : Accounted (table.close fd) := by
  obtain ⟨gone, stands⟩ := Option.ne_none_iff_exists'.mp isOpen
  obtain ⟨below, unclosed⟩ := accounted.standing fd gone stands
  have others (opening : Nat) (different : opening ≠ gone) :
      (table.close fd).closed opening = table.closed opening := by
    simp [DescriptorTable.close, stands, different]
  have own : (table.close fd).closed gone = 1 := by
    simp [DescriptorTable.close, stands, unclosed]
  have kept (other : Int) (opening : Nat) :
      (table.close fd).openings other = some opening ↔
        other ≠ fd ∧ table.openings other = some opening := by
    by_cases same : other = fd
    · simp [DescriptorTable.close, stands, same]
    · simp [DescriptorTable.close, stands, same]
  have count : (table.close fd).opened = table.opened := by simp [DescriptorTable.close, stands]
  refine ⟨?_, ?_, ?_, ?_, ?_⟩
  · intro other opening found
    obtain ⟨different, found⟩ := (kept other opening).mp found
    have apart : opening ≠ gone := by
      rintro rfl
      exact different (accounted.single _ _ _ found stands)
    rw [count, others opening apart]
    exact accounted.standing other opening found
  · intro first second opening found found'
    exact accounted.single _ _ _ ((kept _ _).mp found).2 ((kept _ _).mp found').2
  · intro opening known
    rw [count] at known
    by_cases same : opening = gone
    · exact .inr (same ▸ own)
    · rw [others opening same]
      refine (accounted.settled opening known).imp_left ?_
      rintro ⟨other, found⟩
      refine ⟨other, (kept other opening).mpr ⟨?_, found⟩⟩
      rintro rfl
      exact same (Option.some.inj (found.symm.trans stands))
  · intro opening above
    rw [count] at above
    rw [others opening (by omega)]
    exact accounted.unopened opening above
  · simpa [DescriptorTable.close, stands] using accounted.refused

end Accounted

end DescriptorTable

/-- A `Socket` object is identified by its address. -/
abbrev SocketId := Nat

/-- The live `Socket` objects of a process and its descriptors. -/
structure Sockets where
  objects : SocketId → Option Socket
  table : DescriptorTable

inductive SocketOp where
  | wrap (id : SocketId) (sock : Int)
  | moveConstruct (id rp : SocketId)
  | moveAssign (id rp : SocketId)
  | destroy (id : SocketId)
  deriving DecidableEq, Repr

namespace Sockets

def new : Sockets := ⟨fun _ => none, .new⟩

def set (s : Sockets) (id : SocketId) (sock : Option Socket) : Sockets :=
  { s with objects := Function.update s.objects id sock }

/-- `Socket(int)` around a descriptor that the system has just returned. -/
def wrap (s : Sockets) (id : SocketId) (sock : Int) : Sockets :=
  { s.set id (some ⟨sock⟩) with table := s.table.openAt sock }

/-- `Socket(Socket &&)` and `operator=(Socket &&)`: `fd_ = rp.fd_`, then `rp.fd_ = -1`. -/
def move (s : Sockets) (id rp : SocketId) (other : Socket) : Sockets :=
  (s.set id (some ⟨other.fd⟩)).set rp (some ⟨-1⟩)

/-- `~Socket`. -/
def destroy (s : Sockets) (id : SocketId) (sock : Socket) : Sockets :=
  { s.set id none with
    table := if sock.fd ≠ -1 then s.table.close sock.fd else s.table }

/-- An object is constructed where none lives; the others live. `::socket` and `::accept`
return numbers that are not open. -/
def step (s : Sockets) : SocketOp → Except Fault Sockets
  | .wrap id sock =>
    if s.objects id = none ∧ 0 ≤ sock ∧ s.table.openings sock = none then .ok (s.wrap id sock)
    else .error .notEnabled
  | .moveConstruct id rp =>
    match s.objects id, s.objects rp with
    | none, some other => .ok (s.move id rp other)
    | _, _ => .error .notEnabled
  | .moveAssign id rp =>
    match s.objects id, s.objects rp with
    | some _, some other => .ok (s.move id rp other)
    | _, _ => .error .notEnabled
  | .destroy id =>
    match s.objects id with
    | some sock => .ok (s.destroy id sock)
    | none => .error .notEnabled

/-- The descriptor that a live object holds. -/
def holder (s : Sockets) (id : SocketId) : Option Int :=
  (s.objects id).bind fun sock => if sock.fd = -1 then none else some sock.fd

/-- The live objects hold open descriptors, each its own. -/
def Exclusive (s : Sockets) : Prop := Support.Exclusive s.holder s.table.fds

def Leaked (s : Sockets) (fd : Int) : Prop := Lost s.holder s.table.fds fd

variable {s s' : Sockets} {id rp : SocketId} {sock : Int}

theorem step_cases {op : SocketOp} (taken : s.step op = .ok s') :
    (∃ id sock, op = .wrap id sock ∧ s.objects id = none ∧ 0 ≤ sock ∧
      s.table.openings sock = none ∧ s' = s.wrap id sock) ∨
    (∃ id rp other, (op = .moveConstruct id rp ∧ s.objects id = none ∨ op = .moveAssign id rp) ∧
      s.objects rp = some other ∧ s' = s.move id rp other) ∨
    (∃ id sock, op = .destroy id ∧ s.objects id = some sock ∧ s' = s.destroy id sock) := by
  cases op with
  | wrap id sock =>
    simp only [step] at taken
    split at taken
    · next allowed =>
      cases taken
      exact .inl ⟨id, sock, rfl, allowed.1, allowed.2.1, allowed.2.2, rfl⟩
    · cases taken
  | moveConstruct id rp =>
    simp only [step] at taken
    split at taken
    · next other dead lives =>
      cases taken
      exact .inr (.inl ⟨id, rp, other, .inl ⟨rfl, dead⟩, lives, rfl⟩)
    · cases taken
  | moveAssign id rp =>
    simp only [step] at taken
    split at taken
    · next other _ lives =>
      cases taken
      exact .inr (.inl ⟨id, rp, other, .inr rfl, lives, rfl⟩)
    · cases taken
  | destroy id =>
    simp only [step] at taken
    split at taken
    · next sock lives =>
      cases taken
      exact .inr (.inr ⟨id, sock, rfl, lives, rfl⟩)
    · cases taken

theorem holder_of_dead (dead : s.objects id = none) : s.holder id = none := by
  simp [holder, dead]

theorem holder_wrap (valid : 0 ≤ sock) :
    (s.wrap id sock).holder = Function.update s.holder id (some sock) := by
  have real : sock ≠ -1 := by omega
  funext other
  by_cases same : other = id
  · simp [holder, wrap, set, same, real]
  · simp [holder, wrap, set, same]

/-- A move hands the descriptor over, to whatever the target held. -/
theorem holder_move {other : Socket} (lives : s.objects rp = some other) :
    (s.move id rp other).holder = handOver s.holder id rp := by
  funext h
  unfold handOver
  by_cases giver : h = rp
  · simp [holder, move, set, giver]
  · by_cases taker : h = id
    · subst taker
      simp [holder, move, set, giver, lives]
    · simp [holder, move, set, giver, taker]

theorem holder_destroy {sock : Socket} :
    (s.destroy id sock).holder = Function.update s.holder id none := by
  funext other
  by_cases same : other = id
  · simp [holder, destroy, set, same]
  · simp [holder, destroy, set, same]

/-- The destructor closes exactly what the object holds. -/
theorem table_destroy {sock : Socket} (lives : s.objects id = some sock) :
    (s.destroy id sock).table =
      match s.holder id with
      | some fd => s.table.close fd
      | none => s.table := by
  by_cases empty : sock.fd = -1
  · simp [destroy, holder, lives, empty]
  · simp [destroy, holder, lives, empty]

end Sockets

end Muduo.Source
