import Muduo.Support.SlotList
import Muduo.Source.PollPoller

/-!
# What the operations of PollPoller do

`Represents heap sys order` lists the registered channels in slot order: entry `i`
shows the `i`-th of them, whose index is `i`, and `channels_` maps exactly their
descriptors. Registering appends to the list, removing is `swapRemove`.
-/
namespace Muduo.Source
open Muduo.Support

namespace PollPoller

/-- What the entry of a channel shows: ignored while there is no interest. -/
def entryOf (ch : Channel) : Int × BitVec 16 :=
  (if ch.isNoneEvent then ignored ch.fd else ch.fd, ch.events.setWidth 16)

def keyOf (pfd : Pollfd) : Int × BitVec 16 := (pfd.fd, pfd.events)

structure Represents (heap : ChannelHeap) (sys : PollPoller) (order : List ChannelId) : Prop where
  entries : sys.pollFds.map keyOf = order.map fun id => entryOf (heap id)
  index : ∀ (i : Nat) id, order[i]? = some id → (heap id).index = i
  lookup : ∀ fd id, sys.channels.find fd = some id ↔ id ∈ order ∧ (heap id).fd = fd
  nonneg : ∀ id ∈ order, 0 ≤ (heap id).fd

variable {heap : ChannelHeap} {sys : PollPoller} {order : List ChannelId} {id : ChannelId}

theorem new_represents (heap : ChannelHeap) : Represents heap .new [] where
  entries := rfl
  index i id slot := by simp at slot
  lookup fd id := by simp [new]
  nonneg id member := by simp at member

namespace Represents

theorem length_eq (rep : Represents heap sys order) : sys.pollFds.length = order.length := by
  simpa using congrArg List.length rep.entries

theorem mem_slot (rep : Represents heap sys order) (member : id ∈ order) :
    ∃ slot : Nat, order[slot]? = some id ∧ (heap id).index = slot := by
  obtain ⟨slot, inRange, found⟩ := List.getElem_of_mem member
  have present : order[slot]? = some id := by rw [List.getElem?_eq_getElem inRange, found]
  exact ⟨slot, present, rep.index slot id present⟩

theorem nodup (rep : Represents heap sys order) : order.Nodup := by
  rw [List.nodup_iff_getElem?_ne_getElem?]
  intro i j less inRange same
  obtain ⟨id, found⟩ : ∃ id, order[j]? = some id :=
    ⟨order[j], List.getElem?_eq_getElem inRange⟩
  have first := rep.index i id (same.trans found)
  have second := rep.index j id found
  omega

theorem entry (rep : Represents heap sys order) {slot : Nat} (present : order[slot]? = some id) :
    ∃ pfd, sys.pollFds[slot]? = some pfd ∧ keyOf pfd = entryOf (heap id) := by
  have shown := congrArg (·[slot]?) rep.entries
  simp only [List.getElem?_map, present, Option.map_some] at shown
  cases found : sys.pollFds[slot]? with
  | none => rw [found] at shown; cases shown
  | some pfd =>
    rw [found] at shown
    exact ⟨pfd, rfl, Option.some.inj shown⟩

theorem registered (rep : Represents heap sys order) (member : id ∈ order) :
    sys.channels.find (heap id).fd = some id :=
  (rep.lookup _ _).mpr ⟨member, rfl⟩

/-- Two registered channels with one descriptor are the same. -/
theorem fd_inj (rep : Represents heap sys order) {other : ChannelId} (member : id ∈ order)
    (member' : other ∈ order) (same : (heap id).fd = (heap other).fd) : id = other := by
  have found := rep.registered member
  rw [same, rep.registered member'] at found
  exact (Option.some.inj found).symm

/-- Only descriptors, interest and indices of the channels matter. -/
theorem leave (rep : Represents heap sys order) (id : ChannelId) :
    Represents (heap.leave id) sys order where
  entries := by
    rw [rep.entries]
    exact List.map_congr_left fun other _ => by simp [entryOf, Channel.isNoneEvent]
  index i other slot := by rw [ChannelHeap.index_leave]; exact rep.index i other slot
  lookup fd other := by rw [ChannelHeap.fd_leave]; exact rep.lookup fd other
  nonneg other member := by rw [ChannelHeap.fd_leave]; exact rep.nonneg other member

end Represents

theorem entry_fd {pfd : Pollfd} {ch : Channel} (key : keyOf pfd = entryOf ch) :
    pfd.fd = ch.fd ∨ pfd.fd = ignored ch.fd := by
  have shown : pfd.fd = if ch.isNoneEvent then ignored ch.fd else ch.fd := congrArg Prod.fst key
  rw [shown]
  split
  · exact Or.inr rfl
  · exact Or.inl rfl

/-- The poller after the entry of a slot has been rewritten for a channel. -/
def rewritten (sys : PollPoller) (slot : Nat) (ch : Channel) : PollPoller :=
  { sys with pollFds := sys.pollFds.set slot ⟨(entryOf ch).1, (entryOf ch).2, 0⟩ }

/-- An operation on a registered channel rewrites its entry. -/
theorem updateChannel_registered (rep : Represents heap sys order) {slot : Nat}
    (present : order[slot]? = some id) (opt : Opt) :
    updateChannel (heap.change id opt) sys id opt =
      .ok (heap.change id opt, rewritten sys slot (heap.change id opt id)) := by
  have member := List.mem_of_getElem? present
  have index := rep.index slot id present
  obtain ⟨pfd, found, key⟩ := rep.entry present
  have shown : ¬ (pfd.fd ≠ (heap id).fd ∧ pfd.fd ≠ ignored (heap id).fd) := by
    rcases entry_fd key with same | same <;> simp [same]
  simp only [updateChannel, rewriteChannel, ChannelHeap.index_change, ChannelHeap.fd_change, index,
    rep.registered member, Int.toNat_natCast, found, if_neg shown]
  simp [rewritten, entryOf, show ¬ ((slot : Int) < 0) by omega]

theorem rewritten_represents (rep : Represents heap sys order) {slot : Nat}
    (present : order[slot]? = some id) (opt : Opt) :
    Represents (heap.change id opt) (rewritten sys slot (heap.change id opt id)) order where
  entries := by
    apply List.ext_getElem?
    intro i
    have before := congrArg (·[i]?) rep.entries
    simp only [List.getElem?_map] at before
    simp only [rewritten, List.getElem?_map, List.getElem?_set]
    by_cases same : slot = i
    · subst same
      have inRange : slot < sys.pollFds.length := by
        rw [rep.length_eq]
        exact (List.getElem?_eq_some_iff.mp present).1
      simp [inRange, present, keyOf]
    · rw [if_neg same, before]
      cases other : order[i]? with
      | none => rfl
      | some otherId =>
        have different : otherId ≠ id := by
          rintro rfl
          have first := rep.index _ _ present
          have second := rep.index _ _ other
          omega
        simp [ChannelHeap.change_other _ _ _ different]
  index i other slot := by rw [ChannelHeap.index_change]; exact rep.index i other slot
  lookup fd other := by rw [ChannelHeap.fd_change]; exact rep.lookup fd other
  nonneg other member := by rw [ChannelHeap.fd_change]; exact rep.nonneg other member

/-- The poller after a channel has got a new entry at the end. -/
def appended (sys : PollPoller) (id : ChannelId) (ch : Channel) : PollPoller :=
  ⟨sys.channels.insert ch.fd id, sys.pollFds ++ [⟨ch.fd, ch.events.setWidth 16, 0⟩]⟩

theorem updateChannel_new (rep : Represents heap sys order) (opt : Opt)
    (new : (heap id).index < 0) (absent : sys.channels.find (heap id).fd = none) :
    updateChannel (heap.change id opt) sys id opt =
      .ok ((heap.change id opt).setIndex id order.length,
        appended sys id (heap.change id opt id)) := by
  simp [updateChannel, appendChannel, new, absent, rep.length_eq, appended]

theorem appended_represents (rep : Represents heap sys order) (opt : Opt)
    (new : (heap id).index < 0) (absent : sys.channels.find (heap id).fd = none)
    (nonneg : 0 ≤ (heap id).fd) (interested : (heap.change id opt id).isNoneEvent = false) :
    Represents ((heap.change id opt).setIndex id order.length)
      (appended sys id (heap.change id opt id)) (order ++ [id]) := by
  have outside : id ∉ order := by
    intro member
    obtain ⟨slot, _, index⟩ := rep.mem_slot member
    omega
  have others : ∀ other ∈ order, (heap.change id opt).setIndex id order.length other = heap other := by
    intro other member
    have different : other ≠ id := fun same => outside (same ▸ member)
    rw [ChannelHeap.setIndex_other _ _ _ different, ChannelHeap.change_other _ _ _ different]
  refine ⟨?_, fun i other slot => ?_, fun fd other => ?_, fun other member => ?_⟩
  · have kept : (order.map fun other =>
        entryOf ((heap.change id opt).setIndex id order.length other)) =
        order.map fun other => entryOf (heap other) :=
      List.map_congr_left fun other member => by rw [others other member]
    have last : entryOf ((heap.change id opt).setIndex id order.length id) =
        ((heap id).fd, (heap.change id opt id).events.setWidth 16) := by
      have shown : ((heap.change id opt).setIndex id order.length id).isNoneEvent = false := by
        simpa [Channel.isNoneEvent] using interested
      simp [entryOf, shown]
    simp [appended, kept, last, rep.entries, keyOf]
  · rw [List.getElem?_append] at slot
    split at slot
    · rw [others other (List.mem_of_getElem? slot)]
      exact rep.index i other slot
    · next past =>
      rw [List.getElem?_singleton] at slot
      split at slot
      · next first =>
        obtain rfl := Option.some.inj slot
        rw [ChannelHeap.index_setIndex_same]
        omega
      · cases slot
  · simp only [appended, ChannelHeap.fd_setIndex, ChannelHeap.fd_change, List.mem_append,
      List.mem_singleton]
    by_cases same : fd = (heap id).fd
    · subst same
      rw [FdMap.find_insert]
      constructor
      · intro found
        obtain rfl := Option.some.inj found
        exact ⟨Or.inr rfl, rfl⟩
      · rintro ⟨old | rfl, sameFd⟩
        · rw [(rep.lookup _ _).mpr ⟨old, sameFd⟩] at absent
          cases absent
        · rfl
    · rw [FdMap.find_insert_of_ne _ _ same, rep.lookup]
      constructor
      · exact fun ⟨old, sameFd⟩ => ⟨Or.inl old, sameFd⟩
      · rintro ⟨old | rfl, sameFd⟩
        · exact ⟨old, sameFd⟩
        · exact absurd sameFd.symm same
  · rcases List.mem_append.mp member with old | last
    · rw [others other old]
      exact rep.nonneg other old
    · rw [List.mem_singleton.mp last]
      simpa using nonneg

/-- The poller after the channel of a slot has been removed. -/
def removed (sys : PollPoller) (fd : Int) (slot : Nat) : PollPoller :=
  ⟨sys.channels.erase fd, swapRemove sys.pollFds slot⟩

/-- The channel objects after a removal: the one moved into the slot has its index. -/
def reindexed (heap : ChannelHeap) (order : List ChannelId) (slot : Nat) : ChannelHeap :=
  if slot + 1 = order.length then heap
  else
    match order.getLast? with
    | none => heap
    | some last => heap.setIndex last slot

theorem ignored_ignored (fd : Int) : ignored (ignored fd) = fd := by
  unfold ignored
  omega

/-- Decoding the descriptor that an entry shows gives the channel's. -/
theorem decode_entry {pfd : Pollfd} {ch : Channel} (key : keyOf pfd = entryOf ch)
    (nonneg : 0 ≤ ch.fd) : (if pfd.fd < 0 then ignored pfd.fd else pfd.fd) = ch.fd := by
  rcases entry_fd key with same | same
  · rw [same, if_neg (by omega)]
  · rw [same, if_pos (by unfold ignored; omega), ignored_ignored]

theorem swapOut_ok (rep : Represents heap sys order) {slot : Nat}
    (present : order[slot]? = some id) :
    swapOut heap { sys with channels := sys.channels.erase (heap id).fd } slot =
      .ok (reindexed heap order slot, removed sys (heap id).fd slot) := by
  have inRange : slot < order.length := (List.getElem?_eq_some_iff.mp present).1
  have length := rep.length_eq
  obtain ⟨last, isLast⟩ : ∃ last, order.getLast? = some last := by
    cases found : order.getLast? with
    | none => simp [List.getLast?_eq_none_iff.mp found] at inRange
    | some last => exact ⟨last, rfl⟩
  have lastSlot : order[order.length - 1]? = some last := by
    rwa [← List.getLast?_eq_getElem?]
  obtain ⟨pfd, found, key⟩ := rep.entry lastSlot
  have lastEntry : sys.pollFds.getLast? = some pfd := by
    rw [List.getLast?_eq_getElem?, length]
    exact found
  simp only [swapOut, removed, reindexed, isLast, lastEntry, length]
  by_cases atEnd : slot + 1 = order.length
  · simp only [if_pos atEnd, swapRemove_last sys.pollFds slot (atEnd.trans length.symm)]
  · have member := List.mem_of_getElem? lastSlot
    have apart : (heap last).fd ≠ (heap id).fd := by
      intro same
      have equal := rep.fd_inj member (List.mem_of_getElem? present) same
      have first := rep.index _ _ present
      have second := rep.index _ _ lastSlot
      rw [equal] at second
      omega
    have moved : FdMap.find (sys.channels.erase (heap id).fd) (heap last).fd = some last := by
      rw [FdMap.find_erase_of_ne _ apart, rep.registered member]
    simp only [if_neg atEnd, decode_entry key (rep.nonneg last member), moved]
    simp [swapRemove, lastEntry]

theorem removeChannel_registered (rep : Represents heap sys order) {slot : Nat}
    (present : order[slot]? = some id) (idle : (heap id).isNoneEvent = true) :
    removeChannel heap sys id =
      .ok (reindexed heap order slot, removed sys (heap id).fd slot) := by
  have member := List.mem_of_getElem? present
  have index := rep.index slot id present
  obtain ⟨pfd, found, key⟩ := rep.entry present
  have none : (heap id).events = kNoneEvent := by simpa [Channel.isNoneEvent] using idle
  have shown : ¬ (pfd.fd ≠ ignored (heap id).fd ∨ pfd.events.signExtend 32 ≠ (heap id).events) := by
    have fd : pfd.fd = ignored (heap id).fd := by
      have first : pfd.fd = (entryOf (heap id)).1 := congrArg Prod.fst key
      simpa [entryOf, idle] using first
    have events : pfd.events = (heap id).events.setWidth 16 := congrArg Prod.snd key
    rw [fd, events, none]
    exact not_or.mpr ⟨fun differs => differs rfl, fun differs => differs (by decide)⟩
  simp only [removeChannel, index, rep.registered member, Int.toNat_natCast, found, if_neg shown,
    swapOut_ok rep present]
  simp [idle, show ¬ ((slot : Int) < 0) by omega]

theorem fd_reindexed (slot : Nat) (other : ChannelId) :
    (reindexed heap order slot other).fd = (heap other).fd := by
  unfold reindexed
  split
  · rfl
  · cases order.getLast? with
    | none => rfl
    | some last => simp

theorem events_reindexed (slot : Nat) (other : ChannelId) :
    (reindexed heap order slot other).events = (heap other).events := by
  unfold reindexed
  split
  · rfl
  · cases order.getLast? with
    | none => rfl
    | some last => simp

/-- Only a channel with an entry is moved. -/
theorem reindexed_outside {slot : Nat} {other : ChannelId} (outside : other ∉ order) :
    reindexed heap order slot other = heap other := by
  unfold reindexed
  split
  · rfl
  · cases isLast : order.getLast? with
    | none => rfl
    | some last =>
      refine ChannelHeap.setIndex_other _ _ _ ?_ _
      rintro rfl
      exact outside (List.mem_of_getLast? isLast)

theorem entryOf_reindexed (slot : Nat) (other : ChannelId) :
    entryOf (reindexed heap order slot other) = entryOf (heap other) := by
  simp [entryOf, Channel.isNoneEvent, fd_reindexed, events_reindexed]

/-- After the swap every remaining channel still knows its slot. -/
theorem index_reindexed (rep : Represents heap sys order) {slot i : Nat} {other : ChannelId}
    (inRange : slot < order.length) (remains : (swapRemove order slot)[i]? = some other) :
    (reindexed heap order slot other).index = i := by
  rw [getElem?_swapRemove _ _ _ inRange] at remains
  split at remains
  · next before =>
    split at remains
    · next here =>
      have moved : reindexed heap order slot = heap.setIndex other slot := by
        simp only [reindexed, remains, if_neg (show ¬ slot + 1 = order.length by omega)]
      rw [moved, ChannelHeap.index_setIndex_same, here]
    · have same := rep.index i other remains
      unfold reindexed
      split
      · exact same
      · cases isLast : order.getLast? with
        | none => exact same
        | some last =>
          have different : other ≠ last := by
            rintro rfl
            rw [List.getLast?_eq_getElem?] at isLast
            have atEnd := rep.index _ _ isLast
            omega
          simpa only [ChannelHeap.setIndex_other _ _ _ different] using same
  · cases remains

theorem mem_swapRemove (rep : Represents heap sys order) {slot : Nat} {other : ChannelId}
    (present : order[slot]? = some id) :
    other ∈ swapRemove order slot ↔ other ∈ order ∧ other ≠ id := by
  have perm := swapRemove_perm order slot id present
  have nodup := perm.nodup_iff.mpr rep.nodup
  rw [← perm.mem_iff, List.mem_cons]
  constructor
  · intro member
    exact ⟨Or.inr member, fun same => (List.nodup_cons.mp nodup).1 (same ▸ member)⟩
  · rintro ⟨same | member, different⟩
    · exact absurd same different
    · exact member

theorem removed_represents (rep : Represents heap sys order) {slot : Nat}
    (present : order[slot]? = some id) :
    Represents (reindexed heap order slot) (removed sys (heap id).fd slot)
      (swapRemove order slot) where
  entries := by
    simp only [removed, swapRemove_map, entryOf_reindexed, rep.entries]
  index i other remains :=
    index_reindexed rep (List.getElem?_eq_some_iff.mp present).1 remains
  lookup fd other := by
    rw [fd_reindexed, mem_swapRemove rep present, removed]
    have member := List.mem_of_getElem? present
    by_cases same : fd = (heap id).fd
    · subst same
      rw [FdMap.find_erase]
      constructor
      · intro found
        cases found
      · rintro ⟨⟨old, different⟩, sameFd⟩
        exact absurd (rep.fd_inj old member sameFd) different
    · rw [FdMap.find_erase_of_ne _ same, rep.lookup]
      constructor
      · rintro ⟨old, rfl⟩
        exact ⟨⟨old, fun equal => same (by rw [equal])⟩, rfl⟩
      · rintro ⟨⟨old, _⟩, sameFd⟩
        exact ⟨old, sameFd⟩
  nonneg other remains := by
    rw [fd_reindexed]
    exact rep.nonneg other ((mem_swapRemove rep present).mp remains).1

end PollPoller

end Muduo.Source
