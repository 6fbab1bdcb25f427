import Muduo.Source.KqueuePollerInterest

/-!
# KqueuePoller mirrors the channels in the kernel

Four copies of a channel's interest are kept: `events_`, `kq_events_`, the
registration, and the knotes. They agree after every operation exactly as long
as no channel registers itself by `enableWriting`, whose record says read.
-/
namespace Muduo.Guarantees
open Muduo.Support Muduo.Source Muduo.Source.KqueueSystem Muduo.Source.Session

/-- For every registered channel the kernel enables what
`events_` asks for, `kq_events_` records the same, and no `kevent` call has failed. -/
structure Mirrors (s : Session KqueueSystem) : Prop where
  kernel : ∀ id, s.usage id ≠ none → ∀ filter,
    s.poller.kernel.Enabled (s.heap id).fd filter ↔ Channel.Wants (s.heap id).events filter
  record : ∀ id, s.usage id ≠ none → ∃ reg,
    s.poller.poller.kqEvents.find (s.heap id).fd = some reg ∧
      ∀ filter, Channel.Wants reg filter ↔ Channel.Wants (s.heap id).events filter
  failures : s.poller.kernel.failures = 0

/-- What holds between operations. -/
structure Consistent (fdOf : ChannelId → Int) (s : Session KqueueSystem) : Prop where
  fd : ∀ id, (s.heap id).fd = fdOf id
  tracked : ∀ id, Tracked s.heap s.poller id (s.usage id)
  failures : s.poller.kernel.failures = 0

theorem Consistent.mirrors {fdOf : ChannelId → Int} {s : Session KqueueSystem}
    (consistent : Consistent fdOf s) : Mirrors s := by
  have known : ∀ id, s.usage id ≠ none → ∃ seen, Registered s.heap s.poller id seen := by
    intro id used
    obtain ⟨seen, usage⟩ := Option.ne_none_iff_exists'.mp used
    have tracked := consistent.tracked id
    rw [usage] at tracked
    exact ⟨seen, tracked⟩
  refine ⟨fun id used => ?_, fun id used => ?_, consistent.failures⟩
  · obtain ⟨_, registered⟩ := known id used
    exact registered.enabled
  · obtain ⟨_, registered⟩ := known id used
    exact ⟨_, registered.known.record, fun _ => Iff.rfl⟩

theorem start_consistent (fdOf : ChannelId → Int) :
    Consistent fdOf (.start KqueueSystem.new fdOf) where
  fd _ := rfl
  tracked _ := ⟨rfl, rfl, rfl, rfl, fun _ enabled => by
    obtain ⟨_, knote⟩ := enabled
    cases knote⟩
  failures := rfl

theorem Consistent.after {fdOf : ChannelId → Int} {s : Session KqueueSystem}
    (distinct : Function.Injective fdOf) (consistent : Consistent fdOf s) {id : ChannelId}
    {heap' : ChannelHeap} {sys' : KqueueSystem} {usage' : Usage}
    (only : OnlyAt s.heap s.poller id heap' sys') (tracked : Tracked heap' sys' id usage') :
    Consistent fdOf ⟨heap', sys', Function.update s.usage id usage'⟩ where
  fd other := by
    by_cases same : other = id
    · rw [same]
      exact only.fd.trans (consistent.fd id)
    · exact (congrArg Channel.fd (only.channel other same)).trans (consistent.fd other)
  tracked other := by
    by_cases same : other = id
    · rw [same]
      simpa using tracked
    · have apart : (s.heap other).fd ≠ (s.heap id).fd := by
        rw [consistent.fd, consistent.fd]
        exact fun h => same (distinct h)
      simp only [Function.update_of_ne same]
      exact (consistent.tracked other).frame (only.sameAt same apart)
  failures := only.failures.trans consistent.failures

section Steps

variable {fdOf : ChannelId → Int} {s s' : Session KqueueSystem}
  {id : ChannelId} {op : ChannelOp}

theorem step_of_operate {heap' : ChannelHeap} {sys' : KqueueSystem}
    (ran : impl.operate s.heap s.poller id op = .ok (heap', sys')) :
    s.step impl (id, op) =
      .ok ⟨heap', sys', Function.update s.usage id ((s.usage id).next op)⟩ := by
  simp only [Session.step, ran]

/-- An operation on a registered channel returns and keeps the copies equal. -/
theorem step_registered (distinct : Function.Injective fdOf) (consistent : Consistent fdOf s)
    {seen : Finset Direction} (usage : s.usage id = some seen) (permitted : Permitted s (id, op)) :
    ∃ s', s.step impl (id, op) = .ok s' ∧ Consistent fdOf s' := by
  have registered : Registered s.heap s.poller id seen := by
    have tracked := consistent.tracked id
    rwa [usage] at tracked
  cases op with
  | remove =>
    have idle : (s.heap id).isNoneEvent = true := by simpa [Permitted, usage] using permitted
    refine ⟨_, step_of_operate (operate_remove registered idle), ?_⟩
    exact consistent.after distinct (onlyAt_remove ..) (registered.remove idle)
  | update opt =>
    have rules : (opt = .disRead → .read ∈ seen) ∧ (opt = .disWrite → .write ∈ seen) := by
      constructor <;> rintro rfl <;> simpa [Permitted, usage] using permitted
    obtain ⟨seen', next, subset⟩ : ∃ seen', (s.usage id).next (.update opt) = some seen' ∧
        ∀ filter ∈ seen', opt.effect filter = some true ∨ filter ∈ (s.usage id).getD ∅ :=
      next_update fun none => by simp [usage] at none
    refine ⟨_, step_of_operate (operate_registered registered rules), ?_⟩
    refine consistent.after distinct (onlyAt_update ..) ?_
    rw [next]
    exact registered.update (by simpa [usage] using subset)

/-- A first `enableReading` registers the channel with equal copies. -/
theorem step_enableReading (distinct : Function.Injective fdOf) (consistent : Consistent fdOf s)
    (usage : s.usage id = none) :
    ∃ s', s.step impl (id, .update .enRead) = .ok s' ∧ Consistent fdOf s' := by
  have unregistered : Unregistered s.heap s.poller id := by
    have tracked := consistent.tracked id
    rwa [usage] at tracked
  refine ⟨_, step_of_operate (operate_unregistered unregistered (Or.inl rfl)), ?_⟩
  refine consistent.after distinct (onlyAt_register ..) ?_
  rw [usage]
  exact unregistered.enableReading

/-- A first `enableWriting` returns too, but records the read filter. -/
theorem step_enableWriting (consistent : Consistent fdOf s) (usage : s.usage id = none) :
    ∃ s', s.step impl (id, .update .enWrite) = .ok s' ∧ ¬ Mirrors s' := by
  have unregistered : Unregistered s.heap s.poller id := by
    have tracked := consistent.tracked id
    rwa [usage] at tracked
  obtain ⟨fd, events, record, _⟩ := unregistered.registered .enWrite
  refine ⟨_, step_of_operate (operate_unregistered unregistered (Or.inr rfl)), fun mirrors => ?_⟩
  obtain ⟨reg, recorded, same⟩ := mirrors.record id (by simp [usage, Usage.next])
  have read : reg = kReadEvent :=
    Option.some.inj (recorded.symm.trans ((congrArg (FdMap.find _) fd).trans record))
  subst read
  simp only [events] at same
  exact absurd ((same .read).mp (by decide)) (by decide)

end Steps

/-- The states reached by rule-abiding callers whose channels register by
`enableReading` mirror every channel; from each of them every permitted operation
returns, and it keeps the mirror exactly when it does not register by `enableWriting`. -/
theorem kqueue_interest_exact (fdOf : ChannelId → Int) (distinct : Function.Injective fdOf)
    (actions : List (ChannelId × ChannelOp)) (s : Session KqueueSystem)
    (run : Run (Guarded ReadsFirst (Guarded Permitted (Graph (Session.step impl))))
      (.start KqueueSystem.new fdOf) actions s) :
    Mirrors s ∧ ∀ action, Permitted s action →
      ∃ s', s.step impl action = .ok s' ∧ (Mirrors s' ↔ ReadsFirst s action) := by
  have exact_step : ∀ s, Consistent fdOf s → ∀ action, Permitted s action →
      ∃ s', s.step impl action = .ok s' ∧ (ReadsFirst s action → Consistent fdOf s') ∧
        (¬ ReadsFirst s action → ¬ Mirrors s') := by
    rintro s consistent ⟨id, op⟩ permitted
    cases usage : s.usage id with
    | some seen =>
      obtain ⟨s', ran, next⟩ := step_registered distinct consistent usage permitted
      exact ⟨s', ran, fun _ => next, fun first => absurd (fun none => by simp [usage] at none) first⟩
    | none =>
      have first : op = .update .enRead ∨ op = .update .enWrite := by
        cases op with
        | remove => simp [Permitted, usage] at permitted
        | update opt => cases opt <;> simp_all [Permitted]
      rcases first with rfl | rfl
      · obtain ⟨s', ran, next⟩ := step_enableReading distinct consistent usage
        exact ⟨s', ran, fun _ => next, fun writes => absurd (fun _ => by simp) writes⟩
      · obtain ⟨s', ran, broken⟩ := step_enableWriting consistent usage
        exact ⟨s', ran, fun reads => absurd rfl (reads usage), fun _ => broken⟩
  have consistent : Consistent fdOf s := by
    refine run.invariant (start_consistent fdOf) ?_
    rintro s action s' before ⟨reads, permitted, ran⟩
    obtain ⟨s'', ran', next, _⟩ := exact_step s before action permitted
    cases Except.ok.inj (ran.symm.trans ran')
    exact next reads
  refine ⟨consistent.mirrors, fun action permitted => ?_⟩
  obtain ⟨s', ran, kept, broken⟩ := exact_step s consistent action permitted
  refine ⟨s', ran, fun mirrors => ?_, fun reads => (kept reads).mirrors⟩
  by_contra writes
  exact broken writes mirrors

/-- Two channels watch for input, one of them for writability as well. -/
theorem kqueue_interest_exact_two_channels :
    ∃ s, Run (Guarded ReadsFirst (Guarded Permitted (Graph (Session.step impl))))
        (.start KqueueSystem.new fun id => (id : Int))
        [(3, .update .enRead), (4, .update .enRead), (3, .update .enWrite)] s ∧
      Mirrors s ∧ Permitted s (4, .update .disRead) := by
  have run : ∃ s, Run (Guarded ReadsFirst (Guarded Permitted (Graph (Session.step impl))))
      (.start KqueueSystem.new fun id => (id : Int))
      [(3, .update .enRead), (4, .update .enRead), (3, .update .enWrite)] s ∧
      s.usage 4 = some {.read} := by
    refine ⟨_, .cons ⟨fun _ => by simp, trivial, rfl⟩ (.cons ⟨fun _ => by simp, trivial, rfl⟩
      (.cons ⟨fun none => ?_, trivial, rfl⟩ (.nil _))), ?_⟩
    · cases none
    · rfl
  obtain ⟨s, run, usage⟩ := run
  refine ⟨s, run, (kqueue_interest_exact _ (fun _ _ same => Int.ofNat.inj same) _ s run).1, ?_⟩
  simp [Permitted, usage]

/-- `enableWriting` on a new channel, then `disableAll`: the process exits. -/
theorem write_first_then_disableAll_exits :
    ∃ s, Session.step impl (.start KqueueSystem.new fun id => (id : Int)) (5, .update .enWrite) =
        .ok s ∧ ¬ Mirrors s ∧ Permitted s (5, .update .disAll) ∧
      s.step impl (5, .update .disAll) = .error .exitFailure := by
  refine ⟨_, rfl, fun mirrors => ?_, trivial, rfl⟩
  obtain ⟨reg, recorded, same⟩ := mirrors.record 5 (by decide)
  have read : kReadEvent = reg := Option.some.inj recorded
  subst read
  exact absurd ((same .read).mp (by decide)) (by decide)

end Muduo.Guarantees
