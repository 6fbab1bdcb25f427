import Muduo.Source.ChannelRuns
import Muduo.Source.PollPollerExecution

/-!
# The slots of PollPoller

Channels come and go in any order, and a descriptor may come back with a new
channel. Each registered channel keeps knowing its entry, which shows its interest
and its descriptor, and no operation fails.
-/
namespace Muduo.Guarantees
open Muduo.Support Muduo.Source

/-- `channels_`, `poll_fds_` and the indices agree. -/
structure SlotsAgree (heap : ChannelHeap) (sys : PollPoller) : Prop where
  size : sys.channels.keys.card = sys.pollFds.length
  entry : ∀ fd id, sys.channels.find fd = some id →
    0 ≤ (heap id).index ∧ ∃ pfd, sys.pollFds[(heap id).index.toNat]? = some pfd ∧
      pfd.events.signExtend 32 = (heap id).events ∧
      pfd.fd = if (heap id).isNoneEvent then -(heap id).fd - 1 else (heap id).fd
  distinct : ∀ fd fd' id id', sys.channels.find fd = some id → sys.channels.find fd' = some id' →
    id ≠ id' → (heap id).index ≠ (heap id').index

/-- A mask of the bits that the operations use. -/
def Narrow (events : EventMask) : Prop := events.toNat < 8

theorem narrow_newEvents {events : EventMask} (narrow : Narrow events) (opt : Opt) :
    Narrow (Channel.newEvents events opt) := by
  unfold Narrow at *
  cases opt with
  | enRead | enWrite =>
    rw [Channel.newEvents, BitVec.toNat_or]
    exact Nat.or_lt_two_pow (n := 3) narrow (by decide)
  | disRead | disWrite =>
    rw [Channel.newEvents, BitVec.toNat_and]
    exact lt_of_le_of_lt Nat.and_le_left narrow
  | disAll => exact (by decide : kNoneEvent.toNat < 8)

/-- `static_cast<short>` loses nothing of such a mask. -/
theorem narrow_short {events : EventMask} (narrow : Narrow events) :
    (events.setWidth 16).signExtend 32 = events := by
  have masks : ∀ n < 8, ((BitVec.ofNat 32 n).setWidth 16).signExtend 32 = BitVec.ofNat 32 n := by
    decide
  have same : BitVec.ofNat 32 events.toNat = events := by simp
  have short := masks events.toNat narrow
  rwa [same] at short

/-- The channels in use, in slot order, and those not enabled yet. -/
structure Slotted (fdOf : ChannelId → Int) (s : Lives PollPoller) (order : List ChannelId) :
    Prop where
  rep : PollPoller.Represents s.heap s.poller order
  live : ∀ id, id ∈ s.live ↔ id ∈ order
  fd : ∀ id, (s.heap id).fd = fdOf id
  narrow : ∀ id, Narrow (s.heap id).events
  unused : ∀ id, id ∉ s.live → id ∉ s.removed → (s.heap id).index < 0

variable {fdOf : ChannelId → Int} {s s' : Lives PollPoller} {order : List ChannelId}
  {id : ChannelId} {opt : Opt}

theorem start_slotted (fdOf : ChannelId → Int) : Slotted fdOf (.start .new fdOf) [] where
  rep := PollPoller.new_represents _
  live := by simp [Lives.start]
  fd _ := rfl
  narrow _ := by simp [Lives.start, Channel.new, Narrow]
  unused _ _ _ := by simp [Lives.start, Channel.new]

/-- Registered channels are as many as entries. -/
theorem card_keys {heap : ChannelHeap} {sys : PollPoller}
    (rep : PollPoller.Represents heap sys order) : sys.channels.keys.card = sys.pollFds.length := by
  have keys : sys.channels.keys = (order.map fun id => (heap id).fd).toFinset := by
    ext fd
    rw [Finmap.mem_keys, Finmap.mem_iff, List.mem_toFinset, List.mem_map]
    exact exists_congr fun id => rep.lookup fd id
  have distinct : (order.map fun id => (heap id).fd).Nodup :=
    rep.nodup.map_on fun id member other member' same => rep.fd_inj member member' same
  rw [keys, List.toFinset_card_of_nodup distinct, List.length_map, rep.length_eq]

theorem Slotted.agree (slotted : Slotted fdOf s order) : SlotsAgree s.heap s.poller where
  size := card_keys slotted.rep
  entry fd id found := by
    obtain ⟨member, _⟩ := (slotted.rep.lookup fd id).mp found
    obtain ⟨slot, present, index⟩ := slotted.rep.mem_slot member
    obtain ⟨pfd, entry, key⟩ := slotted.rep.entry present
    have shown : pfd.fd = _ := congrArg Prod.fst key
    have events : pfd.events = _ := congrArg Prod.snd key
    refine ⟨by omega, pfd, by rwa [index, Int.toNat_natCast], ?_, shown⟩
    rw [events]
    exact narrow_short (slotted.narrow id)
  distinct fd fd' id id' found found' different same := by
    obtain ⟨slot, present, index⟩ := slotted.rep.mem_slot ((slotted.rep.lookup fd id).mp found).1
    obtain ⟨slot', present', index'⟩ :=
      slotted.rep.mem_slot ((slotted.rep.lookup fd' id').mp found').1
    have slots : slot = slot' := by omega
    rw [slots, present'] at present
    exact different (Option.some.inj present).symm

theorem narrow_change {heap : ChannelHeap} (narrow : ∀ id, Narrow (heap id).events)
    (other : ChannelId) : Narrow (heap.change id opt other).events := by
  by_cases same : other = id
  · rw [same, ChannelHeap.events_change_same]
    exact narrow_newEvents (narrow id) opt
  · rw [ChannelHeap.change_other _ _ _ same]
    exact narrow other

/-- An operation on a channel in use. -/
theorem step_live (slotted : Slotted fdOf s order) (member : id ∈ order) (opt : Opt) :
    ∃ s', s.step PollPoller.impl (id, .update opt) = .ok s' ∧ Slotted fdOf s' order := by
  obtain ⟨slot, present, _⟩ := slotted.rep.mem_slot member
  have updated := PollPoller.updateChannel_registered slotted.rep present opt
  have inUse := (slotted.live id).mpr member
  refine ⟨_, by simp only [Lives.step, PollerImpl.operate, PollPoller.impl, updated]; rfl,
    PollPoller.rewritten_represents slotted.rep present opt, fun other => ?_, fun other => ?_,
    narrow_change slotted.narrow, fun other outside gone => ?_⟩
  · simp only [if_pos inUse]
    exact slotted.live other
  · rw [ChannelHeap.fd_change]
    exact slotted.fd other
  · simp only [if_pos inUse] at outside
    rw [ChannelHeap.index_change]
    exact slotted.unused other outside gone

/-- The first operation of a channel object appends a slot. -/
theorem step_new (slotted : Slotted fdOf s order) (outside : id ∉ order) (unused : id ∉ s.removed)
    (enables : opt = .enRead ∨ opt = .enWrite) (nonneg : 0 ≤ (s.heap id).fd)
    (apart : ∀ other ∈ s.live, (s.heap other).fd ≠ (s.heap id).fd) :
    ∃ s', s.step PollPoller.impl (id, .update opt) = .ok s' ∧ Slotted fdOf s' (order ++ [id]) := by
  have notLive : id ∉ s.live := fun live => outside ((slotted.live id).mp live)
  have new := slotted.unused id notLive unused
  have absent : s.poller.channels.find (s.heap id).fd = none := by
    refine Option.eq_none_iff_forall_not_mem.mpr fun other found => ?_
    obtain ⟨member, same⟩ := (slotted.rep.lookup _ other).mp found
    exact apart other ((slotted.live other).mpr member) same
  have interested : (s.heap.change id opt id).isNoneEvent = false := by
    rw [Channel.isNoneEvent, ChannelHeap.events_change_same, beq_eq_false_iff_ne]
    intro none
    rcases enables with rfl | rfl
    · exact Channel.not_wants_none .read (none ▸ (Channel.wants_newEvents _ .enRead .read).mpr rfl)
    · exact Channel.not_wants_none .write
        (none ▸ (Channel.wants_newEvents _ .enWrite .write).mpr rfl)
  have updated := PollPoller.updateChannel_new slotted.rep opt new absent
  refine ⟨_, by simp only [Lives.step, PollerImpl.operate, PollPoller.impl, updated]; rfl,
    PollPoller.appended_represents slotted.rep opt new absent nonneg interested, fun other => ?_,
    fun other => ?_, fun other => ?_, fun other outside' gone => ?_⟩
  · simp only [if_neg notLive, List.mem_append, slotted.live other]
  · rw [ChannelHeap.fd_setIndex, ChannelHeap.fd_change]
    exact slotted.fd other
  · rw [ChannelHeap.events_setIndex]
    exact narrow_change slotted.narrow other
  · simp only [if_neg notLive, List.mem_append, List.mem_singleton, not_or] at outside'
    dsimp only
    rw [ChannelHeap.setIndex_other _ _ _ outside'.2, ChannelHeap.index_change]
    exact slotted.unused other outside'.1 gone

/-- Removal moves the last entry into the slot; its channel learns the new index. -/
theorem step_remove (slotted : Slotted fdOf s order) (nodup : s.live.Nodup) {slot : Nat}
    (present : order[slot]? = some id) (idle : (s.heap id).isNoneEvent = true) :
    ∃ s', s.step PollPoller.impl (id, .remove) = .ok s' ∧
      Slotted fdOf s' (swapRemove order slot) := by
  have left : PollPoller.Represents (s.heap.leave id) s.poller order := slotted.rep.leave id
  have idle' : (s.heap.leave id id).isNoneEvent = true := by
    rwa [Channel.isNoneEvent, ChannelHeap.events_leave]
  have removed := PollPoller.removeChannel_registered left present idle'
  refine ⟨_, by simp only [Lives.step, PollerImpl.operate, if_pos idle, PollPoller.impl, removed];
                rfl,
    PollPoller.removed_represents left present, fun other => ?_, fun other => ?_, fun other => ?_,
    fun other outside gone => ?_⟩
  · rw [PollPoller.mem_swapRemove left present, nodup.mem_erase_iff, slotted.live other]
    exact and_comm
  · rw [PollPoller.fd_reindexed, ChannelHeap.fd_leave]
    exact slotted.fd other
  · rw [PollPoller.events_reindexed, ChannelHeap.events_leave]
    exact slotted.narrow other
  · simp only [List.mem_append, List.mem_singleton, not_or] at gone
    have notLive : other ∉ s.live := fun live => outside (nodup.mem_erase_iff.mpr ⟨gone.2, live⟩)
    dsimp only
    rw [PollPoller.reindexed_outside fun member => notLive ((slotted.live other).mpr member),
      ChannelHeap.index_leave]
    exact slotted.unused other notLive gone.1

/-- A state of a run: some slot order fits, and each live channel is listed once. -/
structure Fits (fdOf : ChannelId → Int) (s : Lives PollPoller) : Prop where
  slotted : ∃ order, Slotted fdOf s order
  nodup : s.live.Nodup

/-- Every permitted operation succeeds, and some slot order fits afterwards. -/
theorem Fits.step (fits : Fits fdOf s) {action : ChannelId × ChannelOp}
    (permitted : s.Permitted action) :
    ∃ s', s.step PollPoller.impl action = .ok s' ∧ Fits fdOf s' := by
  obtain ⟨⟨order, slotted⟩, nodup⟩ := fits
  obtain ⟨id, op⟩ := action
  have live {s' : Lives PollPoller} (ran : s.step PollPoller.impl (id, op) = .ok s') :
      s'.live.Nodup := by
    unfold Lives.step at ran
    split at ran
    · split at ran <;> cases ran
      · split
        · exact nodup
        · next notLive =>
          exact List.Nodup.append nodup (List.nodup_singleton id) (by simpa using notLive)
      · exact nodup.erase id
    · cases ran
  suffices ∃ s' order', s.step PollPoller.impl (id, op) = .ok s' ∧ Slotted fdOf s' order' by
    obtain ⟨s', order', ran, slotted'⟩ := this
    exact ⟨s', ran, ⟨order', slotted'⟩, live ran⟩
  by_cases inUse : id ∈ s.live
  · have member := (slotted.live id).mp inUse
    cases op with
    | update opt =>
      obtain ⟨s', ran, slotted'⟩ := step_live slotted member opt
      exact ⟨s', order, ran, slotted'⟩
    | remove =>
      have idle : (s.heap id).isNoneEvent = true := by
        simpa [Lives.Permitted, inUse] using permitted
      obtain ⟨slot, present, _⟩ := slotted.rep.mem_slot member
      obtain ⟨s', ran, slotted'⟩ := step_remove slotted nodup present idle
      exact ⟨s', _, ran, slotted'⟩
  · simp only [Lives.Permitted, if_neg inUse] at permitted
    obtain ⟨unused, first, nonneg, apart⟩ := permitted
    have outside : id ∉ order := fun member => inUse ((slotted.live id).mpr member)
    rcases first with rfl | rfl
    · obtain ⟨s', ran, slotted'⟩ := step_new slotted outside unused (Or.inl rfl) nonneg apart
      exact ⟨s', _, ran, slotted'⟩
    · obtain ⟨s', ran, slotted'⟩ := step_new slotted outside unused (Or.inr rfl) nonneg apart
      exact ⟨s', _, ran, slotted'⟩

theorem fits_of_run {actions : List (ChannelId × ChannelOp)}
    (run : Run (Guarded Lives.Permitted (Graph (Lives.step PollPoller.impl)))
      (.start .new fdOf) actions s) : Fits fdOf s := by
  refine run.invariant ⟨⟨[], start_slotted fdOf⟩, List.nodup_nil⟩ ?_
  intro s action s' fits taken
  obtain ⟨s'', ran, fits'⟩ := fits.step taken.1
  cases Except.ok.inj (taken.2.symm.trans ran)
  exact fits'

/-- For any channels on any descriptors and any permitted operations: entries, map and
indices agree after each of them, and no permitted operation fails. -/
theorem poll_slots_agree (fdOf : ChannelId → Int) (actions : List (ChannelId × ChannelOp))
    (s : Lives PollPoller)
    (run : Run (Guarded Lives.Permitted (Graph (Lives.step PollPoller.impl)))
      (.start .new fdOf) actions s) :
    SlotsAgree s.heap s.poller ∧
      ∀ action, s.Permitted action → ∃ s', s.step PollPoller.impl action = .ok s' := by
  have fits := fits_of_run run
  refine ⟨fits.slotted.elim fun _ slotted => slotted.agree, fun action permitted => ?_⟩
  obtain ⟨s', ran, _⟩ := fits.step permitted
  exact ⟨s', ran⟩

/-- Three channels; the ignored last one moves into the slot of the first, whose
descriptor then comes back with a fourth. -/
def middleRemoved : List (ChannelId × ChannelOp) :=
  [(1, .update .enRead), (2, .update .enWrite), (3, .update .enRead), (3, .update .disAll),
    (1, .update .disRead), (1, .remove), (4, .update .enRead)]

theorem poll_slots_agree_middle_removed :
    ∃ s, Run (Guarded Lives.Permitted (Graph (Lives.step PollPoller.impl)))
        (.start .new fun id => (id % 3 : Nat)) middleRemoved s ∧
      s.live = [2, 3, 4] ∧ SlotsAgree s.heap s.poller := by
  have ends : endsIn Lives.Permitted (Lives.step PollPoller.impl) Fault.notEnabled
      (.start .new fun id => (id % 3 : Nat)) middleRemoved
      (fun s => decide (s.live = [2, 3, 4])) = true := by
    decide +kernel
  obtain ⟨s, run, live⟩ := run_of_endsIn _ _ ends
  exact ⟨s, run, of_decide_eq_true live, (poll_slots_agree _ _ s run).1⟩

end Muduo.Guarantees
