import Muduo.Source.KqueuePoller

/-!
# What the operations of KqueuePoller do

An operation on a known channel whose recorded filters are exactly the enabled
ones, and whose disabled direction is attached, succeeds in the kernel:
`switched` is the kernel and the record after it. A first enable attaches one
filter and always records the read mask. A removal finds no recorded direction,
so it asks the kernel for nothing.
-/
namespace Muduo.Source

namespace Kqueue

/-- The knote of a key is attached and enabled. -/
def Enabled (k : Kqueue) (fd : Int) (filter : Filter) : Prop :=
  ∃ udata, k.knotes (fd, filter) = some ⟨true, udata⟩

def Attached (k : Kqueue) (fd : Int) (filter : Filter) : Prop := k.knotes (fd, filter) ≠ none

/-- A knote after an operation that says `effect` about its direction. -/
def switchKnote (id : ChannelId) (effect : Option Bool) (knote : Option Knote) : Option Knote :=
  match effect with
  | some true => some ⟨true, id⟩
  | some false => knote.map fun n => { n with enabled := false }
  | none => knote

/-- The kernel after an operation on the channel `id` of descriptor `fd`. -/
def switched (k : Kqueue) (fd : Int) (id : ChannelId) (opt : Opt) : Kqueue :=
  { k with knotes := fun key =>
      if key.1 = fd then switchKnote id (opt.effect key.2) (k.knotes key) else k.knotes key }

variable {k : Kqueue} {fd : Int} {id : ChannelId}

theorem Enabled.attached {filter : Filter} (enabled : k.Enabled fd filter) :
    k.Attached fd filter := by
  obtain ⟨udata, knote⟩ := enabled
  simp [Attached, knote]

theorem knotes_setKnote (filter : Filter) (knote : Option Knote) (key : Int × Filter) :
    (k.setKnote fd filter knote).knotes key =
      if key = (fd, filter) then knote else k.knotes key :=
  Function.update_apply ..

theorem switched_other {key : Int × Filter} (different : key.1 ≠ fd) (opt : Opt) :
    (k.switched fd id opt).knotes key = k.knotes key :=
  if_neg different

theorem switched_same (opt : Opt) (filter : Filter) :
    (k.switched fd id opt).knotes (fd, filter) =
      switchKnote id (opt.effect filter) (k.knotes (fd, filter)) :=
  if_pos rfl

/-- Adding the one filter that an operation turns on. -/
theorem setKnote_eq_switched {opt : Opt} {filter : Filter}
    (on : ∀ other, opt.effect other = if other = filter then some true else none) :
    k.setKnote fd filter (some ⟨true, id⟩) = k.switched fd id opt := by
  unfold setKnote switched
  congr 1
  funext ⟨fd', filter'⟩
  rw [Function.update_apply]
  by_cases sameFd : fd' = fd
  · by_cases sameFilter : filter' = filter <;> simp [sameFd, sameFilter, on, switchKnote]
  · simp [sameFd]

theorem kevent_add (k : Kqueue) (fd : Int) (filter : Filter) (id : ChannelId) :
    k.kevent [⟨fd, filter, .addEnable, id⟩] = (true, k.setKnote fd filter (some ⟨true, id⟩)) :=
  rfl

/-- The kernel after disabling some filters of a descriptor. -/
def disabled (k : Kqueue) (fd : Int) (id : ChannelId) (filters : List Filter) : Kqueue :=
  { k with knotes := fun key =>
      if key.1 = fd ∧ key.2 ∈ filters then switchKnote id (some false) (k.knotes key)
      else k.knotes key }

/-- Disabling attached filters succeeds, one after the other. -/
theorem kevent_disable (filters : List Filter) (k : Kqueue) (id : ChannelId)
    (attached : ∀ filter ∈ filters, k.Attached fd filter) :
    k.kevent (filters.map fun filter => ⟨fd, filter, .disable, id⟩) =
      (true, k.disabled fd id filters) := by
  induction filters generalizing k with
  | nil => simp [kevent, disabled]
  | cons filter rest ih =>
    obtain ⟨knote, present⟩ := Option.ne_none_iff_exists'.mp (attached filter (by simp))
    have kept : ∀ other ∈ rest,
        (k.setKnote fd filter (some { knote with enabled := false })).Attached fd other := by
      intro other member
      rw [Attached, knotes_setKnote]
      split
      · simp
      · exact attached other (by simp [member])
    simp only [List.map_cons, kevent, register, present, ih _ kept]
    congr 1
    simp only [disabled, setKnote, Kqueue.mk.injEq, and_true]
    funext ⟨fd', filter'⟩
    by_cases hit : fd' = fd ∧ filter' = filter
    · obtain ⟨rfl, rfl⟩ := hit
      by_cases again : filter' ∈ rest <;> simp [present, again, switchKnote]
    · have missed : ((fd', filter') : Int × Filter) ≠ (fd, filter) := by simpa using hit
      rw [Function.update_of_ne missed]
      by_cases sameFd : fd' = fd
      · have other : filter' ≠ filter := fun h => hit ⟨sameFd, h⟩
        simp [sameFd, other]
      · simp [sameFd]

/-- Disabling the filters that an operation turns off. -/
theorem disabled_eq_switched {opt : Opt} {filters : List Filter}
    (off : ∀ other, opt.effect other = if other ∈ filters then some false else none) :
    k.disabled fd id filters = k.switched fd id opt := by
  simp only [disabled, switched, Kqueue.mk.injEq, and_true]
  funext ⟨fd', filter⟩
  by_cases sameFd : fd' = fd
  · by_cases member : filter ∈ filters <;> simp [sameFd, member, off, switchKnote]
  · simp [sameFd]

theorem mem_recordedFilters {reg : EventMask} {filter : Filter} :
    filter ∈ KqueueSystem.recordedFilters reg ↔ Channel.Wants reg filter := by
  unfold KqueueSystem.recordedFilters
  cases filter with
  | read =>
    simp only [Channel.Wants]
    split <;> split <;> simp_all
  | write =>
    simp only [Channel.Wants]
    split <;> split <;> simp_all

/-- A knote that is not enabled stays as it is when its direction is disabled. -/
theorem switchKnote_idle {filter : Filter} (idle : ¬ k.Enabled fd filter) :
    switchKnote id (some false) (k.knotes (fd, filter)) = k.knotes (fd, filter) := by
  cases present : k.knotes (fd, filter) with
  | none => rfl
  | some knote =>
    obtain ⟨enabled, udata⟩ := knote
    cases enabled with
    | false => rfl
    | true => exact absurd ⟨udata, present⟩ idle

/-- `update(EV_DISABLE)` when exactly the enabled filters are recorded. -/
theorem kevent_disable_recorded {reg : EventMask}
    (recorded : ∀ filter, k.Enabled fd filter ↔ Channel.Wants reg filter) :
    k.kevent (KqueueSystem.recordedChanges reg fd .disable id) =
      (true, k.switched fd id .disAll) := by
  have attached : ∀ filter ∈ KqueueSystem.recordedFilters reg, k.Attached fd filter :=
    fun filter member => ((recorded filter).mpr (mem_recordedFilters.mp member)).attached
  rw [KqueueSystem.recordedChanges, kevent_disable _ _ _ attached]
  congr 1
  simp only [disabled, switched, Kqueue.mk.injEq, and_true]
  funext ⟨fd', filter⟩
  by_cases sameFd : fd' = fd
  · subst sameFd
    by_cases member : filter ∈ KqueueSystem.recordedFilters reg
    · simp [member, Opt.effect]
    · have idle : ¬ k.Enabled fd' filter :=
        fun enabled => member (mem_recordedFilters.mpr ((recorded filter).mp enabled))
      simp [member, Opt.effect, switchKnote_idle idle]
  · simp [sameFd]

end Kqueue

namespace KqueueSystem
open KqueuePoller

variable {heap : ChannelHeap} {sys : KqueueSystem} {id : ChannelId}

/-- The poller knows the channel, with `reg` recorded for its descriptor. -/
structure Known (heap : ChannelHeap) (sys : KqueueSystem) (id : ChannelId) (reg : EventMask) :
    Prop where
  index : (heap id).index = kAdded
  entry : sys.poller.channels.find (heap id).fd = some id
  record : sys.poller.kqEvents.find (heap id).fd = some reg

/-- The system after an operation on a known channel. -/
def switched (sys : KqueueSystem) (fd : Int) (id : ChannelId) (opt : Opt) (reg : EventMask) :
    KqueueSystem :=
  { poller := { sys.poller with
      kqEvents := sys.poller.kqEvents.insert fd (Channel.newEvents reg opt) }
    kernel := sys.kernel.switched fd id opt }

/-- What the kernel must hold for an operation on a known channel to succeed. -/
def Prepared (k : Kqueue) (fd : Int) (reg : EventMask) : Opt → Prop
  | .enRead | .enWrite => True
  | .disRead => k.Attached fd .read
  | .disWrite => k.Attached fd .write
  | .disAll => ∀ filter, k.Enabled fd filter ↔ Channel.Wants reg filter

theorem updateOne_add (opt : Opt) {filter : Filter}
    (on : ∀ other, opt.effect other = if other = filter then some true else none) :
    sys.updateOne heap id filter .addEnable =
      { sys with kernel := sys.kernel.switched (heap id).fd id opt } := by
  rw [updateOne, Kqueue.kevent_add, Kqueue.setKnote_eq_switched on]

theorem updateOne_disable (opt : Opt) {filter : Filter}
    (attached : sys.kernel.Attached (heap id).fd filter)
    (off : ∀ other, opt.effect other = if other ∈ [filter] then some false else none) :
    sys.updateOne heap id filter .disable =
      { sys with kernel := sys.kernel.switched (heap id).fd id opt } := by
  have applied := Kqueue.kevent_disable [filter] sys.kernel id
    (fun other member => by rwa [List.mem_singleton.mp member])
  rw [List.map_singleton] at applied
  rw [updateOne, applied, Kqueue.disabled_eq_switched off]

theorem updateOne_enRead (sys : KqueueSystem) (heap : ChannelHeap) :
    sys.updateOne heap id .read .addEnable =
      { sys with kernel := sys.kernel.switched (heap id).fd id .enRead } :=
  updateOne_add .enRead fun other => by cases other <;> rfl

theorem updateOne_enWrite (sys : KqueueSystem) (heap : ChannelHeap) :
    sys.updateOne heap id .write .addEnable =
      { sys with kernel := sys.kernel.switched (heap id).fd id .enWrite } :=
  updateOne_add .enWrite fun other => by cases other <;> rfl

theorem updateKnownChannel_ok {opt : Opt} {reg : EventMask}
    (record : sys.poller.kqEvents.find (heap id).fd = some reg)
    (prepared : Prepared sys.kernel (heap id).fd reg opt) :
    sys.updateKnownChannel heap id opt reg = .ok (sys.switched (heap id).fd id opt reg) := by
  cases opt with
  | enRead =>
    rw [updateKnownChannel, updateOne_enRead]
    rfl
  | disRead =>
    rw [updateKnownChannel, updateOne_disable .disRead prepared (fun other => by cases other <;> rfl)]
    rfl
  | enWrite =>
    rw [updateKnownChannel, updateOne_enWrite]
    rfl
  | disWrite =>
    rw [updateKnownChannel, updateOne_disable .disWrite prepared (fun other => by cases other <;> rfl)]
    rfl
  | disAll =>
    simp only [updateKnownChannel, update, record, Kqueue.kevent_disable_recorded prepared]
    rfl

theorem updateChannel_known {opt : Opt} {reg : EventMask} (known : Known heap sys id reg)
    (prepared : Prepared sys.kernel (heap id).fd reg opt) :
    updateChannel heap sys id opt = .ok (heap, sys.switched (heap id).fd id opt reg) := by
  have old : kAdded ≠ kNew := by decide
  simp [updateChannel, old, known.index, known.entry, known.record,
    updateKnownChannel_ok known.record prepared]

/-- The system after a first enable: the record is the read mask in both cases. -/
def registered (sys : KqueueSystem) (fd : Int) (id : ChannelId) (opt : Opt) : KqueueSystem :=
  { poller := { sys.poller with
      channels := sys.poller.channels.insert fd id
      kqEvents := sys.poller.kqEvents.insert fd kReadEvent }
    kernel := sys.kernel.switched fd id opt }

theorem updateChannel_new {opt : Opt} (new : (heap id).index = kNew)
    (absent : sys.poller.channels.find (heap id).fd = none)
    (enables : opt = .enRead ∨ opt = .enWrite) :
    updateChannel heap sys id opt =
      .ok (heap.setIndex id kAdded, sys.registered (heap id).fd id opt) := by
  rcases enables with rfl | rfl
  · simp [updateChannel, new, updateNewChannel, absent, registered, setKqEvents,
      updateOne_enRead]
  · simp [updateChannel, new, updateNewChannel, absent, registered, setKqEvents,
      updateOne_enWrite]

/-- The system after a removal: both entries are gone, the kernel is as before. -/
def removed (sys : KqueueSystem) (fd : Int) : KqueueSystem :=
  { sys with poller := { sys.poller with
      channels := sys.poller.channels.erase fd
      kqEvents := sys.poller.kqEvents.erase fd } }

/-- Nothing is recorded for a channel without interest, so nothing is deleted. -/
theorem removeChannel_known (known : Known heap sys id kNoneEvent)
    (idle : (heap id).isNoneEvent = true) :
    removeChannel heap sys id = .ok (heap.setIndex id kNew, sys.removed (heap id).fd) := by
  have nothing : recordedChanges kNoneEvent (heap id).fd .delete id = [] := rfl
  simp [removeChannel, known.entry, known.index, idle, update, known.record, nothing,
    Kqueue.kevent, removed]

end KqueueSystem

end Muduo.Source
