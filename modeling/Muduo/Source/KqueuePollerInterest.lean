import Muduo.Source.ChannelRuns
import Muduo.Source.KqueuePollerExecution

/-!
# The interest of a channel, as KqueuePoller keeps it

A channel is registered with its interest in `kq_events_` and in the kernel, or
unknown to both. Each operation takes one of the two forms to one of them and
leaves the other channels, and the other descriptors, alone.
-/
namespace Muduo.Source.KqueueSystem
open Muduo.Support

structure Unregistered (heap : ChannelHeap) (sys : KqueueSystem) (id : ChannelId) : Prop where
  index : (heap id).index = KqueuePoller.kNew
  idle : (heap id).events = kNoneEvent
  entry : sys.poller.channels.find (heap id).fd = none
  record : sys.poller.kqEvents.find (heap id).fd = none
  silent : ∀ filter, ¬ sys.kernel.Enabled (heap id).fd filter

structure Registered (heap : ChannelHeap) (sys : KqueueSystem) (id : ChannelId)
    (seen : Finset Direction) : Prop where
  known : Known heap sys id (heap id).events
  enabled : ∀ filter,
    sys.kernel.Enabled (heap id).fd filter ↔ Channel.Wants (heap id).events filter
  attached : ∀ filter ∈ seen, sys.kernel.Attached (heap id).fd filter

def Tracked (heap : ChannelHeap) (sys : KqueueSystem) (id : ChannelId) : Usage → Prop
  | none => Unregistered heap sys id
  | some seen => Registered heap sys id seen

/-- Nothing changes at a channel and its descriptor, `revents_` apart. -/
structure SameAt (heap : ChannelHeap) (sys : KqueueSystem) (id : ChannelId)
    (heap' : ChannelHeap) (sys' : KqueueSystem) : Prop where
  fd : (heap' id).fd = (heap id).fd
  events : (heap' id).events = (heap id).events
  index : (heap' id).index = (heap id).index
  entry : sys'.poller.channels.find (heap id).fd = sys.poller.channels.find (heap id).fd
  record : sys'.poller.kqEvents.find (heap id).fd = sys.poller.kqEvents.find (heap id).fd
  knotes : ∀ filter, sys'.kernel.knotes ((heap id).fd, filter) =
    sys.kernel.knotes ((heap id).fd, filter)

section Frame

variable {heap heap' : ChannelHeap} {sys sys' : KqueueSystem} {id : ChannelId}

theorem Unregistered.frame (unregistered : Unregistered heap sys id)
    (same : SameAt heap sys id heap' sys') : Unregistered heap' sys' id where
  index := same.index.trans unregistered.index
  idle := same.events.trans unregistered.idle
  entry := by rw [same.fd, same.entry]; exact unregistered.entry
  record := by rw [same.fd, same.record]; exact unregistered.record
  silent filter := by
    simp only [same.fd, Kqueue.Enabled, same.knotes]
    exact unregistered.silent filter

theorem Registered.frame {seen : Finset Direction} (registered : Registered heap sys id seen)
    (same : SameAt heap sys id heap' sys') : Registered heap' sys' id seen where
  known := by
    refine ⟨same.index.trans registered.known.index, ?_, ?_⟩
    · rw [same.fd, same.entry]
      exact registered.known.entry
    · rw [same.fd, same.record, same.events]
      exact registered.known.record
  enabled filter := by
    simp only [same.fd, same.events, Kqueue.Enabled, same.knotes]
    exact registered.enabled filter
  attached filter member := by
    simp only [same.fd, Kqueue.Attached, same.knotes]
    exact registered.attached filter member

theorem Tracked.frame {usage : Usage} (tracked : Tracked heap sys id usage)
    (same : SameAt heap sys id heap' sys') : Tracked heap' sys' id usage := by
  cases usage with
  | none => exact Unregistered.frame tracked same
  | some seen => exact Registered.frame tracked same

end Frame

section Operations

variable {heap : ChannelHeap} {sys : KqueueSystem} {id : ChannelId} {seen : Finset Direction}

/-- A switched knote is enabled as the operation says. -/
theorem enabled_switched {k : Kqueue} {fd : Int} {opt : Opt} (filter : Filter) :
    (k.switched fd id opt).Enabled fd filter ↔
      match opt.effect filter with
      | some on => on = true
      | none => k.Enabled fd filter := by
  simp only [Kqueue.Enabled, Kqueue.switched_same]
  cases effect : opt.effect filter with
  | none => exact Iff.rfl
  | some on =>
    cases on with
    | true => simp [Kqueue.switchKnote]
    | false => cases k.knotes (fd, filter) <;> simp [Kqueue.switchKnote]

theorem attached_switched {k : Kqueue} {fd : Int} {opt : Opt} {filter : Filter}
    (attached : opt.effect filter ≠ some true → k.Attached fd filter) :
    (k.switched fd id opt).Attached fd filter := by
  rw [Kqueue.Attached, Kqueue.switched_same]
  cases effect : opt.effect filter with
  | none => exact attached (by rw [effect]; simp)
  | some on =>
    cases on with
    | true => simp [Kqueue.switchKnote]
    | false =>
      obtain ⟨knote, before⟩ := Option.ne_none_iff_exists'.mp (attached (by rw [effect]; simp))
      simp [Kqueue.switchKnote, before]

/-- A direction seen after an operation was seen before, or is turned on by it. -/
theorem next_update {usage : Usage} {opt : Opt}
    (first : usage = none → opt = .enRead ∨ opt = .enWrite) :
    ∃ seen', usage.next (.update opt) = some seen' ∧
      ∀ filter ∈ seen', opt.effect filter = some true ∨ filter ∈ usage.getD ∅ := by
  cases opt with
  | enRead | enWrite =>
    refine ⟨_, rfl, fun filter member => ?_⟩
    rcases Finset.mem_insert.mp member with rfl | member
    · exact Or.inl rfl
    · exact Or.inr member
  | disRead | disWrite | disAll =>
    cases usage with
    | none => simp at first
    | some seen => exact ⟨seen, rfl, fun filter member => Or.inr member⟩

/-- The caller's rules give the kernel what the operation needs. -/
theorem Registered.prepared (registered : Registered heap sys id seen) {opt : Opt}
    (rules : (opt = .disRead → .read ∈ seen) ∧ (opt = .disWrite → .write ∈ seen)) :
    Prepared sys.kernel (heap id).fd (heap id).events opt := by
  cases opt with
  | enRead | enWrite => trivial
  | disRead => exact registered.attached _ (rules.1 rfl)
  | disWrite => exact registered.attached _ (rules.2 rfl)
  | disAll => exact registered.enabled

theorem Registered.update (registered : Registered heap sys id seen) {opt : Opt}
    {seen' : Finset Direction}
    (subset : ∀ filter ∈ seen', opt.effect filter = some true ∨ filter ∈ seen) :
    Registered (heap.change id opt) (sys.switched (heap id).fd id opt (heap id).events) id
      seen' where
  known := by
    refine ⟨by rw [ChannelHeap.index_change]; exact registered.known.index, ?_, ?_⟩
    · rw [ChannelHeap.fd_change]
      exact registered.known.entry
    · rw [ChannelHeap.fd_change, ChannelHeap.events_change_same]
      exact FdMap.find_insert ..
  enabled filter := by
    rw [ChannelHeap.fd_change, ChannelHeap.events_change_same, Channel.wants_newEvents]
    refine (enabled_switched filter).trans ?_
    cases opt.effect filter with
    | some on => exact Iff.rfl
    | none => exact registered.enabled filter
  attached filter member := by
    rw [ChannelHeap.fd_change]
    refine attached_switched fun notOn => ?_
    rcases subset filter member with on | before
    · exact absurd on notOn
    · exact registered.attached filter before

theorem operate_registered (registered : Registered heap sys id seen) {opt : Opt}
    (rules : (opt = .disRead → .read ∈ seen) ∧ (opt = .disWrite → .write ∈ seen)) :
    impl.operate heap sys id (.update opt) =
      .ok (heap.change id opt, sys.switched (heap id).fd id opt (heap id).events) := by
  have known : Known (heap.change id opt) sys id (heap id).events :=
    ⟨by rw [ChannelHeap.index_change]; exact registered.known.index,
      by rw [ChannelHeap.fd_change]; exact registered.known.entry,
      by rw [ChannelHeap.fd_change]; exact registered.known.record⟩
  have prepared : Prepared sys.kernel (heap.change id opt id).fd (heap id).events opt := by
    rw [ChannelHeap.fd_change]
    exact registered.prepared rules
  have updated := updateChannel_known known prepared
  rwa [ChannelHeap.fd_change] at updated

theorem operate_unregistered (unregistered : Unregistered heap sys id) {opt : Opt}
    (enables : opt = .enRead ∨ opt = .enWrite) :
    impl.operate heap sys id (.update opt) =
      .ok ((heap.change id opt).setIndex id KqueuePoller.kAdded,
        sys.registered (heap id).fd id opt) := by
  have new : (heap.change id opt id).index = KqueuePoller.kNew := by
    rw [ChannelHeap.index_change]
    exact unregistered.index
  have absent : sys.poller.channels.find (heap.change id opt id).fd = none := by
    rw [ChannelHeap.fd_change]
    exact unregistered.entry
  have updated := updateChannel_new new absent enables
  rwa [ChannelHeap.fd_change] at updated

/-- After a first enable the kernel is right; the record is the read mask. -/
theorem Unregistered.registered (unregistered : Unregistered heap sys id) (opt : Opt) :
    let heap' := (heap.change id opt).setIndex id KqueuePoller.kAdded
    let sys' := sys.registered (heap id).fd id opt
    (heap' id).fd = (heap id).fd ∧
      (heap' id).events = Channel.newEvents kNoneEvent opt ∧
      sys'.poller.kqEvents.find (heap id).fd = some kReadEvent ∧
      ∀ filter, sys'.kernel.Enabled (heap id).fd filter ↔
        Channel.Wants (Channel.newEvents kNoneEvent opt) filter := by
  refine ⟨by simp, by simp [unregistered.idle], FdMap.find_insert .., fun filter => ?_⟩
  rw [Channel.wants_newEvents]
  refine (enabled_switched filter).trans ?_
  cases opt.effect filter with
  | some on => exact Iff.rfl
  | none => exact iff_of_false (unregistered.silent filter) (Channel.not_wants_none filter)

theorem Unregistered.enableReading (unregistered : Unregistered heap sys id) :
    Registered ((heap.change id .enRead).setIndex id KqueuePoller.kAdded)
      (sys.registered (heap id).fd id .enRead) id {.read} := by
  obtain ⟨fd, events, record, enabled⟩ := unregistered.registered .enRead
  refine ⟨⟨by simp, ?_, ?_⟩, fun filter => ?_, fun filter member => ?_⟩
  · rw [fd]
    exact FdMap.find_insert ..
  · rw [fd, events]
    exact record
  · rw [fd, events]
    exact enabled filter
  · rw [fd]
    refine attached_switched fun notOn => ?_
    rw [Finset.mem_singleton.mp member] at notOn
    exact absurd rfl notOn

theorem operate_remove (registered : Registered heap sys id seen)
    (idle : (heap id).isNoneEvent = true) :
    impl.operate heap sys id .remove =
      .ok ((heap.leave id).setIndex id KqueuePoller.kNew, sys.removed (heap id).fd) := by
  have none : (heap id).events = kNoneEvent := by simpa [Channel.isNoneEvent] using idle
  have known : Known (heap.leave id) sys id kNoneEvent :=
    ⟨by rw [ChannelHeap.index_leave]; exact registered.known.index,
      by rw [ChannelHeap.fd_leave]; exact registered.known.entry,
      by rw [ChannelHeap.fd_leave, ← none]; exact registered.known.record⟩
  have removed := removeChannel_known known
    (by rw [Channel.isNoneEvent, ChannelHeap.events_leave]; exact idle)
  rw [ChannelHeap.fd_leave] at removed
  simp only [PollerImpl.operate, if_pos idle]
  exact removed

theorem Registered.remove (registered : Registered heap sys id seen)
    (idle : (heap id).isNoneEvent = true) :
    Unregistered ((heap.leave id).setIndex id KqueuePoller.kNew) (sys.removed (heap id).fd) id := by
  have none : (heap id).events = kNoneEvent := by simpa [Channel.isNoneEvent] using idle
  refine ⟨by simp, by simpa using none, ?_, ?_, fun filter enabled => ?_⟩
  · rw [ChannelHeap.fd_setIndex, ChannelHeap.fd_leave]
    exact FdMap.find_erase ..
  · rw [ChannelHeap.fd_setIndex, ChannelHeap.fd_leave]
    exact FdMap.find_erase ..
  · simp only [ChannelHeap.fd_setIndex, ChannelHeap.fd_leave] at enabled
    have wants := (registered.enabled filter).mp enabled
    rw [none] at wants
    exact Channel.not_wants_none filter wants

end Operations

/-- An operation leaves the other channels and the other descriptors alone. -/
structure OnlyAt (heap : ChannelHeap) (sys : KqueueSystem) (id : ChannelId)
    (heap' : ChannelHeap) (sys' : KqueueSystem) : Prop where
  channel : ∀ other, other ≠ id → heap' other = heap other
  entry : ∀ fd, fd ≠ (heap id).fd →
    sys'.poller.channels.find fd = sys.poller.channels.find fd
  record : ∀ fd, fd ≠ (heap id).fd →
    sys'.poller.kqEvents.find fd = sys.poller.kqEvents.find fd
  knotes : ∀ fd filter, fd ≠ (heap id).fd →
    sys'.kernel.knotes (fd, filter) = sys.kernel.knotes (fd, filter)
  fd : (heap' id).fd = (heap id).fd
  failures : sys'.kernel.failures = sys.kernel.failures

theorem OnlyAt.sameAt {heap heap' : ChannelHeap} {sys sys' : KqueueSystem} {id other : ChannelId}
    (only : OnlyAt heap sys id heap' sys') (different : other ≠ id)
    (apart : (heap other).fd ≠ (heap id).fd) : SameAt heap sys other heap' sys' := by
  have same := only.channel other different
  exact ⟨congrArg Channel.fd same, congrArg Channel.events same, congrArg Channel.index same,
    only.entry _ apart, only.record _ apart, fun filter => only.knotes _ filter apart⟩

section Frames

variable (heap : ChannelHeap) (sys : KqueueSystem) (id : ChannelId)

theorem onlyAt_update (opt : Opt) (reg : EventMask) :
    OnlyAt heap sys id (heap.change id opt) (sys.switched (heap id).fd id opt reg) where
  channel _ different := ChannelHeap.change_other _ _ _ different _
  entry _ _ := rfl
  record _ apart := FdMap.find_insert_of_ne _ _ apart
  knotes _ _ apart := Kqueue.switched_other apart _
  fd := heap.fd_change ..
  failures := rfl

theorem onlyAt_register (opt : Opt) :
    OnlyAt heap sys id ((heap.change id opt).setIndex id KqueuePoller.kAdded)
      (sys.registered (heap id).fd id opt) where
  channel _ different := by
    rw [ChannelHeap.setIndex_other _ _ _ different, ChannelHeap.change_other _ _ _ different]
  entry _ apart := FdMap.find_insert_of_ne _ _ apart
  record _ apart := FdMap.find_insert_of_ne _ _ apart
  knotes _ _ apart := Kqueue.switched_other apart _
  fd := by simp
  failures := rfl

theorem onlyAt_remove :
    OnlyAt heap sys id ((heap.leave id).setIndex id KqueuePoller.kNew)
      (sys.removed (heap id).fd) where
  channel _ different := by
    rw [ChannelHeap.setIndex_other _ _ _ different, ChannelHeap.leave_other _ _ _ different]
  entry _ apart := FdMap.find_erase_of_ne _ apart
  record _ apart := FdMap.find_erase_of_ne _ apart
  knotes _ _ _ := rfl
  fd := by simp
  failures := rfl

end Frames

end Muduo.Source.KqueueSystem
