import Muduo.Support.Transition
import Muduo.Source.Socket

/-!
# Who owns a descriptor

`Socket` is the RAII wrapper of a descriptor. Whatever its operations do, no two objects hold
one descriptor and none is closed twice. But `operator=(Socket &&)` overwrites `fd_`: what the
target held stays open with no object left to close it, and a self-assignment drops its own
descriptor. A sequence owns its descriptors exactly if every move assignment finds a target
that holds none.
-/
namespace Muduo.Guarantees
open Muduo.Support Muduo.Source Muduo.Source.Sockets

/-- The open descriptors are the held ones, each held once; once no object lives every
opening has been closed exactly once. -/
structure OwnsDescriptors (s : Sockets) : Prop where
  held : ∀ fd, s.table.openings fd ≠ none ↔ ∃ id, s.holder id = some fd
  distinct : ∀ id id' fd, s.holder id = some fd → s.holder id' = some fd → id = id'
  closed : (∀ id, s.objects id = none) → ∀ opening < s.table.opened, s.table.closed opening = 1
  never_twice : s.table.refused = 0 ∧ ∀ opening, s.table.closed opening ≤ 1

/-- A move assignment is made to an object with `fd_ == -1` only. -/
def Spares (s : Sockets) : SocketOp → Prop
  | .moveAssign id _ => s.holder id = none
  | .wrap _ _ | .moveConstruct _ _ | .destroy _ => True

instance (s : Sockets) (op : SocketOp) : Decidable (Spares s op) := by
  cases op <;> unfold Spares <;> infer_instance

/-- What holds in every run. -/
structure Custody (s : Sockets) : Prop where
  exclusive : s.Exclusive
  accounted : s.table.Accounted

variable {s s' : Sockets} {op : SocketOp} {fd : Int}

theorem new_custody : Custody .new where
  exclusive := by
    have none_open : Sockets.new.table.fds = ∅ := by
      ext fd
      simp [Sockets.new, DescriptorTable.fds, DescriptorTable.new]
    rw [Sockets.Exclusive, none_open]
    exact Support.Exclusive.empty
  accounted := DescriptorTable.new_accounted

theorem not_mem_fds {sock : Int} (free : s.table.openings sock = none) : sock ∉ s.table.fds :=
  fun isOpen => isOpen free

theorem fds_wrap {id : SocketId} {sock : Int} :
    (s.wrap id sock).table.fds = insert sock s.table.fds :=
  DescriptorTable.fds_openAt

/-- The destructor of an object that holds nothing changes nothing else; otherwise it closes
what the object holds. -/
theorem destroy_effect (exclusive : s.Exclusive) {id : SocketId} {sock : Socket}
    (lives : s.objects id = some sock) :
    ((s.destroy id sock).holder = s.holder ∧ (s.destroy id sock).table = s.table) ∨
    ∃ fd, s.holder id = some fd ∧
      (s.destroy id sock).holder = Function.update s.holder id none ∧
      (s.destroy id sock).table.fds = s.table.fds \ {fd} ∧
      (s.destroy id sock).table = s.table.close fd := by
  cases holds : s.holder id with
  | none =>
    have table : (s.destroy id sock).table = s.table := by rw [table_destroy lives, holds]
    exact .inl ⟨by rw [holder_destroy, ← holds, Function.update_eq_self], table⟩
  | some fd =>
    have table : (s.destroy id sock).table = s.table.close fd := by rw [table_destroy lives, holds]
    refine .inr ⟨fd, rfl, holder_destroy, ?_, table⟩
    rw [table, DescriptorTable.fds_close (exclusive.present id fd holds)]

theorem Custody.step (custody : Custody s) (taken : s.step op = .ok s') : Custody s' := by
  obtain ⟨exclusive, accounted⟩ := custody
  rcases step_cases taken with ⟨id, sock, -, -, valid, free, rfl⟩ | ⟨id, rp, other, -, lives, rfl⟩ |
    ⟨id, sock, -, lives, rfl⟩
  · refine ⟨?_, accounted.openAt free⟩
    rw [Sockets.Exclusive, holder_wrap valid, fds_wrap]
    exact exclusive.acquire (not_mem_fds free)
  · refine ⟨?_, accounted⟩
    rw [Sockets.Exclusive, holder_move lives]
    exact exclusive.handOver id rp
  · rcases destroy_effect exclusive lives with ⟨holder, table⟩ | ⟨fd, holds, holder, fds, table⟩
    · refine ⟨?_, by rwa [table]⟩
      rw [Sockets.Exclusive, holder, table]
      exact exclusive
    · refine ⟨?_, ?_⟩
      · rw [Sockets.Exclusive, holder, fds]
        exact exclusive.release holds
      · rw [table]
        exact accounted.close (exclusive.present id fd holds)

/-- A leak lasts. -/
theorem Custody.leaked_step (custody : Custody s) (leaked : s.Leaked fd)
    (taken : s.step op = .ok s') : s'.Leaked fd := by
  have exclusive := custody.exclusive
  rcases step_cases taken with ⟨id, sock, -, dead, valid, free, rfl⟩ |
    ⟨id, rp, other, -, lives, rfl⟩ | ⟨id, sock, -, lives, rfl⟩
  · rw [Leaked, holder_wrap valid, fds_wrap]
    exact (lost_acquire_iff (holder_of_dead dead) (not_mem_fds free)).mpr leaked
  · rw [Leaked, holder_move lives]
    exact Lost.handOver leaked id rp
  · rcases destroy_effect exclusive lives with ⟨holder, table⟩ | ⟨fd, holds, holder, fds, table⟩
    · rwa [Leaked, holder, table]
    · rw [Leaked, holder, fds]
      exact (lost_release_iff holds).mpr leaked

/-- Without an overwritten descriptor nothing is leaked. -/
theorem Custody.leaked_of_step (custody : Custody s) (spares : Spares s op)
    (taken : s.step op = .ok s') (leaked : s'.Leaked fd) : s.Leaked fd := by
  have exclusive := custody.exclusive
  rcases step_cases taken with ⟨id, sock, -, dead, valid, free, rfl⟩ |
    ⟨id, rp, other, moved, lives, rfl⟩ | ⟨id, sock, -, lives, rfl⟩
  · rw [Leaked, holder_wrap valid, fds_wrap] at leaked
    exact (lost_acquire_iff (holder_of_dead dead) (not_mem_fds free)).mp leaked
  · have empty : s.holder id = none := by
      rcases moved with ⟨rfl, dead⟩ | rfl
      · exact holder_of_dead dead
      · exact spares
    rw [Leaked, holder_move lives] at leaked
    exact lost_of_lost_handOver empty leaked
  · rcases destroy_effect exclusive lives with ⟨holder, table⟩ | ⟨fd, holds, holder, fds, table⟩
    · rwa [Leaked, holder, table] at leaked
    · rw [Leaked, holder, fds] at leaked
      exact (lost_release_iff holds).mp leaked

/-- An overwritten descriptor is leaked at once. -/
theorem Custody.leaks (custody : Custody s) (taken : s.step op = .ok s') (overwrites : ¬ Spares s op) :
    ∃ fd, s'.Leaked fd := by
  rcases step_cases taken with ⟨id, sock, rfl, -, -, -, -⟩ | ⟨id, rp, other, moved, lives, rfl⟩ |
    ⟨id, sock, rfl, -, -⟩
  · exact absurd trivial overwrites
  · rcases moved with ⟨rfl, -⟩ | rfl
    · exact absurd trivial overwrites
    · obtain ⟨fd, holds⟩ := Option.ne_none_iff_exists'.mp overwrites
      refine ⟨fd, ?_⟩
      rw [Leaked, holder_move lives]
      exact custody.exclusive.lost_of_handOver holds rp
  · exact absurd trivial overwrites

/-- What holds as long as no descriptor is overwritten. -/
structure Unleaked (s : Sockets) : Prop where
  custody : Custody s
  kept : ∀ fd, ¬ s.Leaked fd

theorem new_unleaked : Unleaked .new :=
  ⟨new_custody, fun _ leaked => leaked.1 rfl⟩

theorem Unleaked.step (unleaked : Unleaked s) (spares : Spares s op) (taken : s.step op = .ok s') :
    Unleaked s' :=
  ⟨unleaked.custody.step taken,
    fun fd leaked => unleaked.kept fd (unleaked.custody.leaked_of_step spares taken leaked)⟩

theorem Custody.owns_iff (custody : Custody s) : OwnsDescriptors s ↔ ∀ fd, ¬ s.Leaked fd := by
  obtain ⟨exclusive, accounted⟩ := custody
  constructor
  · rintro ⟨held, -, -, -⟩ fd ⟨isOpen, unheld⟩
    obtain ⟨id, holds⟩ := (held fd).mp isOpen
    exact unheld id holds
  · intro kept
    have held (fd : Int) : s.table.openings fd ≠ none ↔ ∃ id, s.holder id = some fd := by
      refine ⟨fun isOpen => ?_, fun ⟨id, holds⟩ => exclusive.present id fd holds⟩
      by_contra unheld
      exact kept fd ⟨isOpen, not_exists.mp unheld⟩
    refine ⟨held, exclusive.unique, fun dead opening known => ?_, accounted.refused, fun opening => ?_⟩
    · refine (accounted.settled opening known).resolve_left ?_
      rintro ⟨fd, stands⟩
      obtain ⟨id, holds⟩ := (held fd).mp (by rw [stands]; exact Option.some_ne_none _)
      rw [holder_of_dead (dead id)] at holds
      cases holds
    · by_cases known : opening < s.table.opened
      · rcases accounted.settled opening known with ⟨fd, stands⟩ | once
        · rw [(accounted.standing fd opening stands).2]
          exact Nat.zero_le _
        · exact le_of_eq once
      · rw [accounted.unopened opening (not_lt.mp known)]
        exact Nat.zero_le _

/-- Once no object lives, a leak is an opening that was never closed. -/
theorem Custody.closed_iff (custody : Custody s) (dead : ∀ id, s.objects id = none) :
    (∀ opening < s.table.opened, s.table.closed opening = 1) ↔ OwnsDescriptors s := by
  refine ⟨fun closed => custody.owns_iff.mpr fun fd leaked => ?_, fun owns => owns.closed dead⟩
  obtain ⟨opening, stands⟩ := Option.ne_none_iff_exists'.mp leaked.1
  obtain ⟨known, unclosed⟩ := custody.accounted.standing fd opening stands
  rw [closed opening known] at unclosed
  cases unclosed

/-- For every sequence of operations and every state it reaches: the objects own the open
descriptors exactly if no move assignment overwrote one, and with no object left exactly
then has each opening been closed once. -/
theorem descriptor_ownership_exact {ops : List SocketOp} {s : Sockets}
    (run : Run (Graph Sockets.step) .new ops s) :
    (OwnsDescriptors s ↔ Run (Guarded Spares (Graph Sockets.step)) .new ops s) ∧
    ((∀ id, s.objects id = none) →
      ((∀ opening < s.table.opened, s.table.closed opening = 1) ↔
        Run (Guarded Spares (Graph Sockets.step)) .new ops s)) := by
  have custody : Custody s := run.invariant new_custody fun _ _ _ kept taken => kept.step taken
  have owns_iff : OwnsDescriptors s ↔ Run (Guarded Spares (Graph Sockets.step)) .new ops s := by
    rw [custody.owns_iff]
    constructor
    · intro kept
      have alternatives : Run (Guarded Spares (Graph Sockets.step)) .new ops s ∨ ∃ fd, s.Leaked fd :=
        run.guarded_or new_custody (fun _ _ _ kept taken => kept.step taken)
          (fun _ _ _ kept taken overwrites => kept.leaks taken overwrites)
          (fun _ _ _ kept ⟨fd, leaked⟩ taken => ⟨fd, kept.leaked_step leaked taken⟩)
      exact alternatives.resolve_right fun ⟨fd, leaked⟩ => kept fd leaked
    · intro spared
      exact (spared.invariant new_unleaked fun _ _ _ kept taken => kept.step taken.1 taken.2).kept
  exact ⟨owns_iff, fun dead => (custody.closed_iff dead).trans owns_iff⟩

/-- An accepted descriptor travels through a chain: out of `accept`, into an object that has
been moved from, and back; both objects are destroyed. -/
def passedOn : List SocketOp :=
  [.wrap 1 7, .moveConstruct 2 1, .moveAssign 1 2, .wrap 3 8, .destroy 1, .destroy 2, .destroy 3]

theorem descriptor_ownership_exact_passedOn :
    ∃ s, Run (Guarded Spares (Graph Sockets.step)) .new passedOn s ∧ OwnsDescriptors s ∧
      s.table.opened = 2 := by
  have ends : endsIn Spares Sockets.step Fault.notEnabled .new passedOn
      (fun s => decide (s.table.opened = 2)) = true := by
    decide +kernel
  obtain ⟨s, run, opened⟩ := run_of_endsIn _ _ ends
  exact ⟨s, run, (descriptor_ownership_exact run.unguarded).1.mpr run, of_decide_eq_true opened⟩

/-- Two sockets wrap 7 and 8 and the second is assigned to the first, which held 7; or a
socket that holds 7 is assigned to itself. After all objects are gone 7 is still open. -/
theorem move_assignment_leaks :
    (∃ s, Run (Graph Sockets.step) .new
        [.wrap 1 7, .wrap 2 8, .moveAssign 1 2, .destroy 2, .destroy 1] s ∧
      s.table.openings 7 = some 0 ∧ s.table.closed 0 = 0 ∧ ¬ OwnsDescriptors s) ∧
    ∃ s, Run (Graph Sockets.step) .new [.wrap 1 7, .moveAssign 1 1, .destroy 1] s ∧
      s.table.openings 7 = some 0 ∧ s.table.closed 0 = 0 ∧ ¬ OwnsDescriptors s := by
  have unowned (s : Sockets) (dead : ∀ id, s.objects id = none) (opened : 0 < s.table.opened)
      (unclosed : s.table.closed 0 = 0) : ¬ OwnsDescriptors s := by
    intro owns
    rw [owns.closed dead 0 opened] at unclosed
    cases unclosed
  refine ⟨⟨_, .cons rfl (.cons rfl (.cons rfl (.cons rfl (.cons rfl (.nil _))))), rfl, rfl, ?_⟩,
    _, .cons rfl (.cons rfl (.cons rfl (.nil _))), rfl, rfl, ?_⟩
  · refine unowned _ (fun id => ?_) (by decide) rfl
    simp only [destroy, move, wrap, Sockets.set, Sockets.new, Function.update_apply]
    split_ifs <;> rfl
  · refine unowned _ (fun id => ?_) (by decide) rfl
    simp only [destroy, move, wrap, Sockets.set, Sockets.new, Function.update_apply]
    split_ifs <;> rfl

end Muduo.Guarantees
