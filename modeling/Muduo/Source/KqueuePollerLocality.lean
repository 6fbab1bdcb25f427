import Muduo.Source.KqueuePollerInterest
import Muduo.Source.KqueuePollerRuns

/-!
# An operation of KqueuePoller stays with its descriptor

Whatever a channel's own state is, an operation on it that passes its assertions
reads and writes the entries, the record and the knotes of the channel's descriptor.
-/
namespace Muduo.Source
open Muduo.Support

theorem Kqueue.knotes_register {k k' : Kqueue} {c : KeventChange} (applied : k.register c = some k')
    {key : Int × Filter} (other : key.1 ≠ c.ident) : k'.knotes key = k.knotes key := by
  have apart : key ≠ (c.ident, c.filter) := fun same => other (by rw [same])
  unfold Kqueue.register at applied
  split at applied <;> cases applied <;> exact Function.update_of_ne apart ..

theorem Kqueue.knotes_kevent (k : Kqueue) (changes : List KeventChange) {key : Int × Filter}
    (other : ∀ c ∈ changes, key.1 ≠ c.ident) : (k.kevent changes).2.knotes key = k.knotes key := by
  induction changes generalizing k with
  | nil => rfl
  | cons c rest ih =>
    cases applied : k.register c with
    | none => simp only [Kqueue.kevent, applied]
    | some k' =>
      simp only [Kqueue.kevent, applied]
      rw [ih k' fun c member => other c (List.mem_cons_of_mem _ member)]
      exact Kqueue.knotes_register applied (other c List.mem_cons_self)

namespace KqueueSystem

variable {heap heap' : ChannelHeap} {sys sys' : KqueueSystem} {id other : ChannelId}

/-- The poller's maps agree but at one descriptor. -/
structure SameMaps (sys sys' : KqueueSystem) (fd : Int) : Prop where
  entry : ∀ other, other ≠ fd → sys'.poller.channels.find other = sys.poller.channels.find other
  record : ∀ other, other ≠ fd → sys'.poller.kqEvents.find other = sys.poller.kqEvents.find other

theorem update_poller {flags : KeventFlags} (ran : sys.update heap id flags = .ok sys') :
    sys'.poller = sys.poller := by
  unfold update at ran
  split at ran
  · cases ran
  · split at ran <;> cases ran
    rfl

/-- An update of a known channel writes its record. -/
theorem updateKnownChannel_poller {opt : Opt} {reg : EventMask}
    (ran : sys.updateKnownChannel heap id opt reg = .ok sys') :
    ∃ mask, sys'.poller =
      { sys.poller with kqEvents := sys.poller.kqEvents.insert (heap id).fd mask } := by
  cases opt with
  | disAll =>
    simp only [updateKnownChannel] at ran
    split at ran <;> cases ran
    next disabled => exact ⟨0, by rw [setKqEvents, update_poller disabled]⟩
  | enRead | disRead | enWrite | disWrite =>
    cases ran
    exact ⟨_, rfl⟩

theorem updateKnownChannel_maps {opt : Opt} {reg : EventMask}
    (ran : sys.updateKnownChannel heap id opt reg = .ok sys') :
    SameMaps sys sys' (heap id).fd := by
  obtain ⟨mask, poller⟩ := updateKnownChannel_poller ran
  exact ⟨fun _ _ => by rw [poller], fun _ apart => by
    rw [poller]
    exact FdMap.find_insert_of_ne _ _ apart⟩

theorem updateNewChannel_maps {opt : Opt}
    (ran : sys.updateNewChannel heap id opt = .ok (heap', sys')) :
    SameMaps sys sys' (heap id).fd := by
  have twice (first second : EventMask) {fd : Int} (apart : fd ≠ (heap id).fd) :
      FdMap.find ((sys.poller.kqEvents.insert (heap id).fd first).insert (heap id).fd second) fd =
        sys.poller.kqEvents.find fd := by
    rw [FdMap.find_insert_of_ne _ _ apart, FdMap.find_insert_of_ne _ _ apart]
  obtain ⟨_, _, filter, rfl⟩ := updateNewChannel_inv ran
  exact ⟨fun _ apart => FdMap.find_insert_of_ne _ _ apart, fun _ apart => twice _ _ apart⟩

theorem removeChannel_maps (ran : removeChannel heap sys id = .ok (heap', sys')) :
    SameMaps sys sys' (heap id).fd := by
  obtain ⟨_, _, _, deleted, rfl⟩ := removeChannel_inv ran
  have same := update_poller deleted
  exact ⟨fun fd apart => by rw [same]; exact FdMap.find_erase_of_ne _ apart, fun fd apart => by
    rw [same]; exact FdMap.find_erase_of_ne _ apart⟩

/-- An operation leaves the other channels and the other entries of the maps alone. -/
theorem operate_maps {op : ChannelOp} (ran : impl.operate heap sys id op = .ok (heap', sys')) :
    SameMaps sys sys' (heap id).fd ∧ ∀ other, other ≠ id → heap' other = heap other := by
  cases op with
  | update opt =>
    have sameFd : (heap.change id opt id).fd = (heap id).fd := ChannelHeap.fd_change ..
    rcases updateChannel_inv ran with new | ⟨_, _, rfl, reg, known⟩
    · obtain ⟨_, rfl⟩ := updateNewChannel_calls new
      refine ⟨sameFd ▸ updateNewChannel_maps new, fun other apart => ?_⟩
      rw [ChannelHeap.setIndex_other _ _ _ apart, ChannelHeap.change_other _ _ _ apart]
    · exact ⟨sameFd ▸ updateKnownChannel_maps known,
        fun other apart => ChannelHeap.change_other _ _ _ apart _⟩
  | remove =>
    simp only [PollerImpl.operate] at ran
    split at ran
    · obtain ⟨_, rfl, _⟩ := removeChannel_inv ran
      refine ⟨ChannelHeap.fd_leave heap id id ▸ removeChannel_maps ran, fun other apart => ?_⟩
      rw [ChannelHeap.setIndex_other _ _ _ apart, ChannelHeap.leave_other _ _ _ apart]
    · cases ran

/-- After an update the map leads to the channel, and every entry is still there. -/
theorem update_entered {opt : Opt}
    (ran : impl.operate heap sys id (.update opt) = .ok (heap', sys')) :
    sys'.poller.channels.find (heap id).fd = some id ∧
      (heap' id).index = KqueuePoller.kAdded ∧ ∀ fd known,
        sys.poller.channels.find fd = some known → sys'.poller.channels.find fd = some known := by
  have sameFd : (heap.change id opt id).fd = (heap id).fd := ChannelHeap.fd_change ..
  rcases updateChannel_inv ran with new | ⟨same, index, rfl, reg, known⟩
  · obtain ⟨absent, rfl, filter, rfl⟩ := updateNewChannel_inv new
    rw [sameFd] at absent ⊢
    have kept : ∀ fd known, sys.poller.channels.find fd = some known →
        FdMap.find (sys.poller.channels.insert (heap id).fd id) fd = some known := by
      intro fd known found
      have apart : fd ≠ (heap id).fd := by
        rintro rfl
        cases absent.symm.trans found
      rw [FdMap.find_insert_of_ne _ _ apart, found]
    exact ⟨FdMap.find_insert .., ChannelHeap.index_setIndex_same .., kept⟩
  · obtain ⟨mask, poller⟩ := updateKnownChannel_poller known
    rw [poller]
    exact ⟨sameFd ▸ same, index, fun _ _ found => found⟩

/-- A removal erases the entry of its channel. -/
theorem remove_entered (ran : impl.operate heap sys id .remove = .ok (heap', sys')) :
    sys.poller.channels.find (heap id).fd = some id ∧
      sys'.poller.channels.find (heap id).fd = none := by
  simp only [PollerImpl.operate] at ran
  split at ran
  · obtain ⟨own, _, _, deleted, rfl⟩ := removeChannel_inv ran
    rw [ChannelHeap.fd_leave] at own deleted
    have same := congrArg KqueuePoller.channels (update_poller deleted)
    refine ⟨own, ?_⟩
    simp only at same ⊢
    rw [same]
    exact FdMap.find_erase ..
  · cases ran

/-- An entry stays until its own channel is removed. -/
theorem operate_keeps {op : ChannelOp} (ran : impl.operate heap sys id op = .ok (heap', sys'))
    {fd : Int} {known : ChannelId} (found : sys.poller.channels.find fd = some known)
    (stays : op = .remove → id ≠ known) : sys'.poller.channels.find fd = some known := by
  cases op with
  | update opt => exact (update_entered ran).2.2 fd known found
  | remove =>
    have apart : fd ≠ (heap id).fd := by
      rintro rfl
      exact stays rfl (Option.some.inj ((remove_entered ran).1.symm.trans found))
    rwa [(operate_maps ran).1.entry fd apart]

/-- The map leads to channels that know of it, each at its descriptor. -/
def Entered (heap : ChannelHeap) (sys : KqueueSystem) : Prop :=
  ∀ fd id, sys.poller.channels.find fd = some id →
    (heap id).fd = fd ∧ (heap id).index = KqueuePoller.kAdded

/-- An entry after an operation is that of the updated channel, or was there before. -/
theorem operate_entry {op : ChannelOp} (ran : impl.operate heap sys id op = .ok (heap', sys'))
    {fd : Int} (found : sys'.poller.channels.find fd = some other) :
    op ≠ .remove ∧ other = id ∧ fd = (heap id).fd ∨
      fd ≠ (heap id).fd ∧ sys.poller.channels.find fd = some other := by
  by_cases own : fd = (heap id).fd
  · subst own
    cases op with
    | update opt =>
      have same := (update_entered ran).1.symm.trans found
      exact Or.inl ⟨by simp, (Option.some.inj same).symm, rfl⟩
    | remove => cases (remove_entered ran).2.symm.trans found
  · exact Or.inr ⟨own, (operate_maps ran).1.entry fd own ▸ found⟩

theorem Entered.operate (entered : Entered heap sys) {op : ChannelOp}
    (ran : impl.operate heap sys id op = .ok (heap', sys')) : Entered heap' sys' := by
  obtain ⟨maps, channels⟩ := operate_maps ran
  intro fd other found
  have sameFd := ((operate_calls ran).2 other).1
  by_cases own : fd = (heap id).fd
  · subst own
    cases op with
    | update opt =>
      obtain ⟨entry, index, _⟩ := update_entered ran
      have same : other = id := (Option.some.inj (entry.symm.trans found)).symm
      subst same
      exact ⟨sameFd, index⟩
    | remove => cases (remove_entered ran).2.symm.trans found
  · rw [maps.entry fd own] at found
    obtain ⟨at_, index⟩ := entered fd other found
    have apart : other ≠ id := by
      rintro rfl
      exact own at_.symm
    rw [channels other apart]
    exact ⟨at_, index⟩

theorem updateKnownChannel_fault {opt : Opt} {reg : EventMask} {fault : Fault}
    (ran : sys.updateKnownChannel heap id opt reg = .error fault) :
    fault ≠ .assertFailed .updateChannelAbsent := by
  cases opt with
  | disAll =>
    simp only [updateKnownChannel] at ran
    split at ran <;> cases ran
    next failed =>
    unfold update at failed
    split at failed
    · cases failed
      simp
    · split at failed <;> cases failed
      simp
  | enRead | disRead | enWrite | disWrite => cases ran

/-- A channel without a foreign entry at its descriptor passes the test of a registration. -/
theorem Entered.registers (entered : Entered heap sys) {opt : Opt}
    (own : ∀ other, sys.poller.channels.find (heap id).fd = some other → other = id) :
    impl.operate heap sys id (.update opt) ≠ .error (.assertFailed .updateChannelAbsent) := by
  have sameFd : (heap.change id opt id).fd = (heap id).fd := ChannelHeap.fd_change ..
  have sameIndex : (heap.change id opt id).index = (heap id).index := ChannelHeap.index_change ..
  intro ran
  simp only [PollerImpl.operate, impl, updateChannel, sameFd, sameIndex] at ran
  cases entry : sys.poller.channels.find (heap id).fd with
  | none =>
    simp only [entry, updateNewChannel, sameFd, ne_eq, not_true, if_false, if_true] at ran
    repeat' split at ran
    all_goals simp at ran
  | some other =>
    have same := own other entry
    subst same
    have known := (entered _ _ entry).2
    rw [if_neg (by rw [known]; decide)] at ran
    simp only [entry, known, reduceCtorEq, ne_eq, not_true, if_false] at ran
    split at ran
    · cases ran
    · split at ran <;> cases ran
      next failed => exact updateKnownChannel_fault failed rfl

/-- The knotes of the other descriptors stay as they are. -/
theorem operate_knotes_other {op : ChannelOp}
    (ran : impl.operate heap sys id op = .ok (heap', sys')) {fd : Int} (apart : fd ≠ (heap id).fd)
    (filter : Filter) : sys'.kernel.knotes (fd, filter) = sys.kernel.knotes (fd, filter) := by
  obtain ⟨⟨changes, own, called⟩, _⟩ := operate_calls ran
  rw [called]
  exact Kqueue.knotes_kevent _ _ fun c member => (own c member).1 ▸ apart

/-- What the poller knows of another descriptor's channel stays the same. -/
theorem operate_sameAt {op : ChannelOp} (ran : impl.operate heap sys id op = .ok (heap', sys'))
    (different : other ≠ id) (apart : (heap other).fd ≠ (heap id).fd) :
    SameAt heap sys other heap' sys' := by
  obtain ⟨maps, channels⟩ := operate_maps ran
  have same := channels other different
  exact ⟨congrArg Channel.fd same, congrArg Channel.events same, congrArg Channel.index same,
    maps.entry _ apart, maps.record _ apart, operate_knotes_other ran apart⟩

end KqueueSystem

end Muduo.Source
