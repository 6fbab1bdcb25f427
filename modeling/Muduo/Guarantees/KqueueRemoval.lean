import Muduo.Source.KqueuePollerLocality

/-!
# What KqueuePoller leaves in the kernel

`removeChannel` deletes the filters it finds in `kq_events_`. A channel may be
removed only without interest, and every disable has taken its filter out of that
record: the record is empty and the change list too. The filters the channel was
registered with stay attached, disabled, with its pointer as `udata`.
-/
namespace Muduo.Guarantees
open Muduo.Support Muduo.Source Muduo.Source.KqueueSystem

/-- The knote of a key is attached and carries the pointer. -/
def Carries (k : Kqueue) (key : Int × Filter) (id : ChannelId) : Prop :=
  ∃ enabled, k.knotes key = some ⟨enabled, id⟩

/-- No knote, enabled or disabled, carries the pointer. -/
def Detached (k : Kqueue) (id : ChannelId) : Prop :=
  ∀ key knote, k.knotes key = some knote → knote.udata ≠ id

/-- A change that neither deletes nor stores another pointer. -/
def Keeps (fd : Int) (id : ChannelId) (c : KeventChange) : Prop :=
  c.ident = fd ∧ c.udata = id ∧ c.flags ≠ .delete

section Kernel

variable {k k' : Kqueue} {key : Int × Filter} {id : ChannelId} {fd : Int}

theorem carries_register (carries : Carries k key id) {c : KeventChange} (keeps : Keeps fd id c)
    (applied : k.register c = some k') : Carries k' key id := by
  obtain ⟨enabled, present⟩ := carries
  obtain ⟨_, pointer, no_delete⟩ := keeps
  unfold Kqueue.register at applied
  by_cases own : key = (c.ident, c.filter)
  · subst own
    split at applied
    · cases applied
      exact ⟨true, by rw [Kqueue.knotes_setKnote, if_pos rfl, pointer]⟩
    · next knote _ found =>
      cases applied
      rw [present] at found
      cases found
      exact ⟨false, by rw [Kqueue.knotes_setKnote, if_pos rfl]⟩
    · next flags _ => exact absurd flags no_delete
    · cases applied
    · cases applied
  · split at applied <;> cases applied <;>
      exact ⟨enabled, by rw [Kqueue.knotes_setKnote, if_neg own]; exact present⟩

theorem carries_kevent (changes : List KeventChange) (keeps : ∀ c ∈ changes, Keeps fd id c)
    (carries : Carries k key id) : Carries (k.kevent changes).2 key id := by
  induction changes generalizing k with
  | nil => exact carries
  | cons c rest ih =>
    cases applied : k.register c with
    | none =>
      simp only [Kqueue.kevent, applied]
      exact carries
    | some k₁ =>
      simp only [Kqueue.kevent, applied]
      exact ih (fun other member => keeps other (List.mem_cons_of_mem _ member))
        (carries_register carries (keeps c List.mem_cons_self) applied)

end Kernel

/-- A registered channel: its record is its interest, every filter of it is attached
with its pointer, and so is the read filter it was registered with. -/
structure Hooked (heap : ChannelHeap) (sys : KqueueSystem) (id : ChannelId) : Prop where
  known : Known heap sys id (heap id).events
  carries : ∀ filter, Channel.Wants (heap id).events filter →
    Carries sys.kernel ((heap id).fd, filter) id
  read : Carries sys.kernel ((heap id).fd, .read) id

section Operations

variable {heap heap' : ChannelHeap} {sys sys' : KqueueSystem} {id other : ChannelId} {opt : Opt}

/-- One kernel call that attaches the filter an operation turns on, and deletes nothing. -/
structure Applies (fd : Int) (id : ChannelId) (opt : Opt) (k k' : Kqueue) : Prop where
  called : ∃ changes, (∀ c ∈ changes, Keeps fd id c) ∧ k' = (k.kevent changes).2
  turned_on : ∀ filter, opt.effect filter = some true → Carries k' (fd, filter) id

theorem applies_add {k : Kqueue} {fd : Int} (opt : Opt) (filter : Filter)
    (on : ∀ other, opt.effect other = some true → other = filter) :
    Applies fd id opt k (k.kevent [⟨fd, filter, .addEnable, id⟩]).2 where
  called := ⟨_, fun c member => by rw [List.mem_singleton.mp member]; exact ⟨rfl, rfl, by simp⟩, rfl⟩
  turned_on other turned := by
    rw [on other turned, Kqueue.kevent_add]
    exact ⟨true, by rw [Kqueue.knotes_setKnote, if_pos rfl]⟩

theorem applies_disable {k : Kqueue} {fd : Int} (opt : Opt) (filters : List Filter)
    (off : ∀ other, opt.effect other ≠ some true) :
    Applies fd id opt k (k.kevent (filters.map fun filter => ⟨fd, filter, .disable, id⟩)).2 where
  called := by
    refine ⟨_, fun c member => ?_, rfl⟩
    obtain ⟨filter, _, rfl⟩ := List.mem_map.mp member
    exact ⟨rfl, rfl, by simp⟩
  turned_on other turned := absurd turned (off other)

/-- Every operation on a registered channel returns; a disabled filter stays attached. -/
theorem updateKnownChannel_applies {reg : EventMask}
    (record : sys.poller.kqEvents.find (heap id).fd = some reg)
    (attached : ∀ filter, Channel.Wants reg filter → sys.kernel.Attached (heap id).fd filter)
    (opt : Opt) :
    ∃ sys', sys.updateKnownChannel heap id opt reg = .ok sys' ∧
      sys'.poller = { sys.poller with
        kqEvents := sys.poller.kqEvents.insert (heap id).fd (Channel.newEvents reg opt) } ∧
      Applies (heap id).fd id opt sys.kernel sys'.kernel := by
  cases opt with
  | enRead => exact ⟨_, rfl, rfl, applies_add .enRead .read fun other => by cases other <;> simp [Opt.effect]⟩
  | enWrite =>
    exact ⟨_, rfl, rfl, applies_add .enWrite .write fun other => by cases other <;> simp [Opt.effect]⟩
  | disRead =>
    exact ⟨_, rfl, rfl, applies_disable .disRead [.read] fun other => by cases other <;> simp [Opt.effect]⟩
  | disWrite =>
    exact ⟨_, rfl, rfl, applies_disable .disWrite [.write] fun other => by cases other <;> simp [Opt.effect]⟩
  | disAll =>
    have recorded : ∀ filter ∈ recordedFilters reg, sys.kernel.Attached (heap id).fd filter :=
      fun filter member => attached filter (Kqueue.mem_recordedFilters.mp member)
    have answered := Kqueue.kevent_disable (recordedFilters reg) sys.kernel id recorded
    have applies : Applies (heap id).fd id .disAll sys.kernel _ :=
      applies_disable .disAll (recordedFilters reg) fun other => by cases other <;> simp [Opt.effect]
    rw [answered] at applies
    refine ⟨{ sys with
      kernel := sys.kernel.disabled (heap id).fd id (recordedFilters reg) }.setKqEvents (heap id).fd 0,
      ?_, rfl, applies⟩
    simp only [updateKnownChannel, update, record, recordedChanges, answered]

theorem Hooked.update (hooked : Hooked heap sys id) (opt : Opt) :
    ∃ sys', impl.operate heap sys id (.update opt) = .ok (heap.change id opt, sys') ∧
      Hooked (heap.change id opt) sys' id := by
  have sameFd : (heap.change id opt id).fd = (heap id).fd := ChannelHeap.fd_change ..
  have index : (heap.change id opt id).index = KqueuePoller.kAdded := by
    rw [ChannelHeap.index_change]
    exact hooked.known.index
  have entry : sys.poller.channels.find (heap.change id opt id).fd = some id := by
    rw [sameFd]
    exact hooked.known.entry
  have record : sys.poller.kqEvents.find (heap.change id opt id).fd = some (heap id).events := by
    rw [sameFd]
    exact hooked.known.record
  have attached : ∀ filter, Channel.Wants (heap id).events filter →
      sys.kernel.Attached (heap.change id opt id).fd filter := by
    intro filter wants
    obtain ⟨enabled, present⟩ := hooked.carries filter wants
    rw [sameFd, Kqueue.Attached, present]
    simp
  obtain ⟨sys', ran, poller, ⟨changes, keeps, called⟩, turned_on⟩ :=
    updateKnownChannel_applies record attached opt
  have old : KqueuePoller.kAdded ≠ KqueuePoller.kNew := by decide
  rw [sameFd] at poller keeps turned_on
  refine ⟨sys', ?_, ⟨index, ?_, ?_⟩, fun filter wants => ?_, ?_⟩
  · simp only [PollerImpl.operate, impl, updateChannel, index, if_neg old, entry, record, ran]
    simp
  · rw [poller, sameFd]
    exact hooked.known.entry
  · rw [poller, sameFd, ChannelHeap.events_change_same]
    exact FdMap.find_insert ..
  · rw [sameFd]
    rw [ChannelHeap.events_change_same, Channel.wants_newEvents] at wants
    cases effect : opt.effect filter with
    | none =>
      rw [effect] at wants
      rw [called]
      exact carries_kevent changes keeps (hooked.carries filter wants)
    | some on =>
      rw [effect] at wants
      exact turned_on filter (by rw [effect, wants])
  · rw [sameFd, called]
    exact carries_kevent changes keeps hooked.read

/-- The first `enableReading` of a channel the poller does not know. -/
theorem hooked_of_first (new : (heap id).index = KqueuePoller.kNew)
    (idle : (heap id).events = kNoneEvent)
    (ran : impl.operate heap sys id (.update .enRead) = .ok (heap', sys')) :
    Hooked heap' sys' id := by
  have unknown : (heap.change id .enRead id).index = KqueuePoller.kNew := by
    rw [ChannelHeap.index_change]
    exact new
  have absent : sys.poller.channels.find (heap.change id .enRead id).fd = none := by
    have updated : updateChannel (heap.change id .enRead) sys id .enRead = .ok (heap', sys') := ran
    obtain registered | ⟨_, index, _⟩ := updateChannel_inv updated
    · exact (updateNewChannel_inv registered).1
    · rw [unknown] at index
      exact absurd index (by decide)
  have updated := updateChannel_new unknown absent (.inl rfl : Opt.enRead = .enRead ∨ _)
  have done := ran.symm.trans updated
  cases done
  have sameFd : (heap.change id .enRead id).fd = (heap id).fd := ChannelHeap.fd_change ..
  have events : (heap.change id .enRead id).events = kReadEvent := by
    rw [ChannelHeap.events_change_same, idle]
    exact (by decide : kNoneEvent ||| kReadEvent = kReadEvent)
  have read : Carries (sys.registered (heap id).fd id .enRead).kernel ((heap id).fd, .read) id :=
    ⟨true, Kqueue.switched_same .enRead .read⟩
  refine ⟨⟨ChannelHeap.index_setIndex_same .., ?_, ?_⟩, fun filter wants => ?_, ?_⟩
  · rw [ChannelHeap.fd_setIndex]
    exact FdMap.find_insert ..
  · rw [ChannelHeap.fd_setIndex, ChannelHeap.events_setIndex, events]
    exact FdMap.find_insert ..
  · rw [ChannelHeap.events_setIndex, events] at wants
    rw [ChannelHeap.fd_setIndex, sameFd]
    cases filter with
    | read => exact read
    | write => exact absurd wants (by decide)
  · rw [ChannelHeap.fd_setIndex, sameFd]
    exact read

/-- An operation that passes its assertions is on a channel of another descriptor. -/
theorem apart_of_operate (hooked : Hooked heap sys id) (different : other ≠ id) {op : ChannelOp}
    (ran : impl.operate heap sys other op = .ok (heap', sys')) :
    (heap id).fd ≠ (heap other).fd := by
  intro same
  have entry := hooked.known.entry
  rw [same] at entry
  cases op with
  | update opt =>
    obtain registered | ⟨own, _⟩ := updateChannel_inv ran
    · have absent := (updateNewChannel_inv registered).1
      rw [ChannelHeap.fd_change, entry] at absent
      cases absent
    · rw [ChannelHeap.fd_change, entry] at own
      exact different (Option.some.inj own).symm
  | remove =>
    have own := (remove_entered ran).1
    rw [entry] at own
    exact different (Option.some.inj own).symm

theorem Hooked.others (hooked : Hooked heap sys id) (different : other ≠ id) {op : ChannelOp}
    (ran : impl.operate heap sys other op = .ok (heap', sys')) : Hooked heap' sys' id := by
  have apart := apart_of_operate hooked different ran
  have same := operate_sameAt ran (Ne.symm different) apart
  have carries {filter : Filter} (before : Carries sys.kernel ((heap id).fd, filter) id) :
      Carries sys'.kernel ((heap' id).fd, filter) id := by
    obtain ⟨enabled, present⟩ := before
    exact ⟨enabled, by rw [same.fd, same.knotes, present]⟩
  refine ⟨⟨same.index.trans hooked.known.index, ?_, ?_⟩, fun filter wants => ?_,
    carries hooked.read⟩
  · rw [same.fd, same.entry]
    exact hooked.known.entry
  · rw [same.fd, same.record, same.events]
    exact hooked.known.record
  · rw [same.events] at wants
    exact carries (hooked.carries filter wants)

/-- With no interest nothing is recorded, so the removal deletes nothing. -/
theorem Hooked.remove (hooked : Hooked heap sys id) (idle : (heap id).isNoneEvent = true) :
    ∃ heap' sys', impl.operate heap sys id .remove = .ok (heap', sys') ∧
      sys'.kernel = sys.kernel := by
  have none : (heap id).events = kNoneEvent := by simpa [Channel.isNoneEvent] using idle
  have known : Known (heap.leave id) sys id kNoneEvent :=
    ⟨by rw [ChannelHeap.index_leave]; exact hooked.known.index,
      by rw [ChannelHeap.fd_leave]; exact hooked.known.entry,
      by rw [ChannelHeap.fd_leave, ← none]; exact hooked.known.record⟩
  have removed := removeChannel_known known
    (by rw [Channel.isNoneEvent, ChannelHeap.events_leave]; exact idle)
  have ran : impl.operate heap sys id .remove = _ := (if_pos idle).trans removed
  exact ⟨_, _, ran, rfl⟩

end Operations

/-- The steps of a session in which one channel is not removed. -/
def WithoutRemoval (id : ChannelId) (_ : Session KqueueSystem) (action : ChannelId × ChannelOp) :
    Prop :=
  action ≠ (id, .remove)

theorem hooked_step {s s' : Session KqueueSystem} {id : ChannelId}
    {action : ChannelId × ChannelOp} (hooked : Hooked s.heap s.poller id)
    (no_removal : WithoutRemoval id s action) (ran : s.step impl action = .ok s') :
    Hooked s'.heap s'.poller id := by
  obtain ⟨other, op⟩ := action
  unfold Session.step at ran
  split at ran
  · next operated =>
    cases ran
    by_cases own : other = id
    · subst own
      cases op with
      | update opt =>
        obtain ⟨sys', updated, kept⟩ := hooked.update opt
        cases updated.symm.trans operated
        exact kept
      | remove => exact absurd rfl no_removal
    · exact hooked.others own operated
  · cases ran

/-- From any state in which a channel is new to the poller: once it has been enabled
for reading, every operation on it returns, through any operations on it and on
others; and when it is removed without interest, the read filter stays attached
with its pointer, so that it is never detached. -/
theorem removal_never_detaches (s s₁ s₂ : Session KqueueSystem) (id : ChannelId)
    (actions : List (ChannelId × ChannelOp))
    (new : (s.heap id).index = KqueuePoller.kNew) (idle : (s.heap id).isNoneEvent = true)
    (first : s.step impl (id, .update .enRead) = .ok s₁)
    (run : Run (Guarded (WithoutRemoval id) (Graph (Session.step impl))) s₁ actions s₂) :
    (∀ opt, ∃ s', s₂.step impl (id, .update opt) = .ok s') ∧
    ((s₂.heap id).isNoneEvent = true →
      ∃ s₃, s₂.step impl (id, .remove) = .ok s₃ ∧
        Carries s₃.poller.kernel ((s₂.heap id).fd, .read) id ∧ ¬ Detached s₃.poller.kernel id) := by
  have none : (s.heap id).events = kNoneEvent := by simpa [Channel.isNoneEvent] using idle
  have hooked₁ : Hooked s₁.heap s₁.poller id := by
    unfold Session.step at first
    split at first
    · next operated =>
      cases first
      exact hooked_of_first new none operated
    · cases first
  have hooked : Hooked s₂.heap s₂.poller id :=
    run.invariant hooked₁ fun _ _ _ kept taken => hooked_step kept taken.1 taken.2
  constructor
  · intro opt
    obtain ⟨sys', updated, _⟩ := hooked.update opt
    exact ⟨_, by simp only [Session.step, updated]; rfl⟩
  · intro idle₂
    obtain ⟨heap', sys', removed, kernel⟩ := hooked.remove idle₂
    refine ⟨_, by simp only [Session.step, removed]; rfl, ?_, fun detached => ?_⟩
    · rw [kernel]
      exact hooked.read
    · obtain ⟨enabled, present⟩ := hooked.read
      exact detached _ _ (by rw [kernel]; exact present) rfl

/-- Descriptor 5 enabled for reading, disabled and removed: its knote is still there. -/
theorem removal_never_detaches_enabled_once :
    ∃ s₁ s₂ s₃, Session.step impl (.start KqueueSystem.new fun id => (id : Int))
        (5, .update .enRead) = .ok s₁ ∧
      s₁.step impl (5, .update .disAll) = .ok s₂ ∧ s₂.step impl (5, .remove) = .ok s₃ ∧
      ¬ Detached s₃.poller.kernel 5 := by
  have first : Session.step impl (.start KqueueSystem.new fun id => (id : Int))
      (5, .update .enRead) = .ok _ := rfl
  obtain ⟨_, removed⟩ := removal_never_detaches _ _ _ 5 [(5, .update .disAll)] rfl rfl first
    (.cons ⟨by simp [WithoutRemoval], rfl⟩ (.nil _))
  obtain ⟨s₃, ran, _, attached⟩ := removed rfl
  exact ⟨_, _, s₃, first, rfl, ran, attached⟩

/-- The knote left behind is disabled and carries the pointer of the removed channel. -/
theorem removed_channel_stays_attached :
    ∃ s₁ s₂ s₃, Session.step impl (.start KqueueSystem.new fun id => (id : Int))
        (5, .update .enRead) = .ok s₁ ∧
      s₁.step impl (5, .update .disAll) = .ok s₂ ∧ (s₂.heap 5).isNoneEvent = true ∧
      s₂.step impl (5, .remove) = .ok s₃ ∧
      s₃.poller.kernel.knotes (5, .read) = some ⟨false, 5⟩ ∧ ¬ Detached s₃.poller.kernel 5 := by
  refine ⟨_, _, _, rfl, rfl, rfl, rfl, rfl, fun detached => ?_⟩
  exact detached (5, .read) ⟨false, 5⟩ rfl rfl

end Muduo.Guarantees
