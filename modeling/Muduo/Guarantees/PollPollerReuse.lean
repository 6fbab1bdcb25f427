import Muduo.Source.PollPollerRuns

/-!
# A removed channel in PollPoller

`KqueuePoller::removeChannel` resets the index of the channel, so that it can be
registered again. `PollPoller::removeChannel` leaves it: the channel still looks
registered, and its next operation fails the assertion that `channels_` has it.
-/
namespace Muduo.Guarantees
open Muduo.Support Muduo.Source

/-- The operations that can start the use of a channel. -/
def Enables (opt : Opt) : Prop := opt = .enRead ∨ opt = .enWrite

/-- The state with a freshly constructed channel on the same descriptor in the place of one. -/
def withFresh (s : Session PollPoller) (id : ChannelId) : Session PollPoller :=
  { s with heap := s.heap.set id (.new (s.heap id).fd) }

/-- What callers may do from a state, without a failed assertion. -/
abbrev PollRun := Run (Guarded Session.Permitted (Graph (Session.step PollPoller.impl)))

/-- Every sequence that starts with an enable of the channel and runs with a fresh
channel in its place runs with the channel itself, and leaves the same poller. -/
def AsFresh (s : Session PollPoller) (id : ChannelId) : Prop :=
  ∀ opt, Enables opt → ∀ rest t, PollRun (withFresh s id) ((id, .update opt) :: rest) t →
    ∃ t', PollRun s ((id, .update opt) :: rest) t' ∧ t'.poller = t.poller

/-- A channel that is out of `channels_` and still has the index of a slot. -/
structure Stale (fdOf : ChannelId → Int) (s : Session PollPoller) (id : ChannelId) : Prop where
  slotted : PollPoller.Slotted fdOf s
  unused : s.usage id = none
  index : 0 ≤ (s.heap id).index

section Stale

variable {fdOf : ChannelId → Int} {s s' : Session PollPoller} {order : List ChannelId}
  {id : ChannelId} {opt : Opt}

/-- Removal keeps the index of the removed channel. -/
theorem index_removed {heap : ChannelHeap} {sys : PollPoller}
    (rep : PollPoller.Represents heap sys order) {slot : Nat} (present : order[slot]? = some id) :
    (PollPoller.reindexed heap order slot id).index = slot := by
  have own := rep.index slot id present
  unfold PollPoller.reindexed
  split
  · exact own
  · next inside =>
    cases isLast : order.getLast? with
    | none => exact own
    | some last =>
      have different : id ≠ last := by
        rintro rfl
        rw [List.getLast?_eq_getElem?] at isLast
        have atEnd := rep.index _ _ isLast
        have inRange := (List.getElem?_eq_some_iff.mp present).1
        omega
      simpa only [ChannelHeap.setIndex_other _ _ _ different] using own

theorem stale_of_remove (slots : PollPoller.Slots fdOf s order) (member : id ∈ order)
    (idle : (s.heap id).isNoneEvent = true) :
    ∃ s', s.step PollPoller.impl (id, .remove) = .ok s' ∧ Stale fdOf s' id ∧
      s'.poller.channels.find (s'.heap id).fd = none := by
  obtain ⟨slot, present, _⟩ := slots.rep.mem_slot member
  have left : PollPoller.Represents (s.heap.leave id) s.poller order := slots.rep.leave id
  have idle' : (s.heap.leave id id).isNoneEvent = true := by
    rwa [Channel.isNoneEvent, ChannelHeap.events_leave]
  have removed := PollPoller.removeChannel_registered left present idle'
  obtain ⟨s', ran, kept⟩ := PollPoller.step_remove slots present idle
  refine ⟨s', ran, ?_⟩
  simp only [Session.step, PollerImpl.operate, if_pos idle, PollPoller.impl, removed] at ran
  cases ran
  refine ⟨⟨⟨_, kept⟩, by simp [Usage.next], ?_⟩, ?_⟩
  · dsimp only
    rw [index_removed left present]
    exact Int.natCast_nonneg slot
  · rw [PollPoller.fd_reindexed]
    exact FdMap.find_erase _

/-- An operation on another channel leaves a channel without a slot as it is. -/
theorem heap_of_other (slots : PollPoller.Slots fdOf s order) (outside : id ∉ order)
    {action : ChannelId × ChannelOp} (permitted : s.Permitted action) (different : action.1 ≠ id)
    (ran : s.step PollPoller.impl action = .ok s') : s'.heap id = s.heap id := by
  obtain ⟨other, op⟩ := action
  have apart : id ≠ other := fun same => different same.symm
  cases op with
  | update opt =>
    by_cases member : other ∈ order
    · obtain ⟨slot, present, _⟩ := slots.rep.mem_slot member
      have updated := PollPoller.updateChannel_registered slots.rep present opt
      simp only [Session.step, PollerImpl.operate, PollPoller.impl, updated] at ran
      cases ran
      exact ChannelHeap.change_other _ _ _ apart opt
    · simp only [Session.step, PollerImpl.operate, PollPoller.impl] at ran
      cases updated : PollPoller.updateChannel (s.heap.change other opt) s.poller other opt with
      | error e => rw [updated] at ran; cases ran
      | ok result =>
        obtain ⟨new, absent⟩ := PollPoller.new_of_updateChannel slots.rep member updated
        rw [PollPoller.updateChannel_new slots.rep opt new absent] at ran
        cases ran
        dsimp only
        rw [ChannelHeap.setIndex_other _ _ _ apart, ChannelHeap.change_other _ _ _ apart]
  | remove =>
    have inUse : s.usage other ≠ none ∧ (s.heap other).isNoneEvent = true := by
      cases usage : s.usage other with
      | none => simp [Session.Permitted, usage] at permitted
      | some seen => exact ⟨by simp, by simpa [Session.Permitted, usage] using permitted⟩
    have member := (slots.used other).mp inUse.1
    obtain ⟨slot, present, _⟩ := slots.rep.mem_slot member
    have left : PollPoller.Represents (s.heap.leave other) s.poller order := slots.rep.leave other
    have idle' : (s.heap.leave other other).isNoneEvent = true := by
      rw [Channel.isNoneEvent, ChannelHeap.events_leave]
      exact inUse.2
    have removed := PollPoller.removeChannel_registered left present idle'
    simp only [Session.step, PollerImpl.operate, if_pos inUse.2, PollPoller.impl, removed] at ran
    cases ran
    dsimp only
    rw [PollPoller.reindexed_outside outside, ChannelHeap.leave_other _ _ _ apart]

/-- Operations on other channels keep a channel stale. -/
theorem Stale.step (nonneg : ∀ id, 0 ≤ fdOf id) (stale : Stale fdOf s id)
    {action : ChannelId × ChannelOp} (permitted : s.Permitted action) (different : action.1 ≠ id)
    (ran : s.step PollPoller.impl action = .ok s') : Stale fdOf s' id := by
  obtain ⟨⟨order, slots⟩, unused, index⟩ := stale
  have outside : id ∉ order := fun member => (slots.used id).mpr member unused
  have kept := heap_of_other slots outside permitted different ran
  refine ⟨PollPoller.step_slots nonneg slots permitted ran, ?_, by rw [kept]; exact index⟩
  unfold Session.step at ran
  split at ran
  · cases ran
    dsimp only
    rw [Function.update_of_ne fun same => different same.symm]
    exact unused
  · cases ran

/-- The next operation on a stale channel fails an assertion of `updateChannel`. -/
theorem Stale.update_fails (stale : Stale fdOf s id) (opt : Opt) :
    s.step PollPoller.impl (id, .update opt) =
      .error (.assertFailed (if s.poller.channels.find (s.heap id).fd = none
        then .updateChannelPresent else .updateChannelSame)) := by
  obtain ⟨⟨order, slots⟩, unused, index⟩ := stale
  have outside : id ∉ order := fun member => (slots.used id).mpr member unused
  have other : s.poller.channels.find (s.heap id).fd ≠ some id :=
    fun found => outside ((slots.rep.lookup _ _).mp found).1
  have old : ¬ (s.heap id).index < 0 := by omega
  simp only [Session.step, PollerImpl.operate, PollPoller.impl, PollPoller.updateChannel,
    ChannelHeap.index_change, if_neg old, PollPoller.rewriteChannel, ChannelHeap.fd_change,
    if_pos other]
  split
  · next failed =>
    split at failed
    · cases failed
    · cases failed
  · next fault failed =>
    split at failed
    · next absent =>
      cases failed
      rw [if_pos absent]
    · next present =>
      cases failed
      rw [if_neg present]

/-- A channel outside the slot list may be replaced by any other. -/
theorem represents_set {heap : ChannelHeap} {sys : PollPoller}
    (rep : PollPoller.Represents heap sys order) (outside : id ∉ order) (ch : Channel) :
    PollPoller.Represents (heap.set id ch) sys order := by
  have kept : ∀ other ∈ order, heap.set id ch other = heap other := fun other member =>
    ChannelHeap.set_other _ _ _ _ fun same => outside (same ▸ member)
  refine ⟨?_, fun i other slot => ?_, fun fd other => ?_, fun other member => ?_⟩
  · rw [rep.entries]
    exact List.map_congr_left fun other member => by rw [kept other member]
  · rw [kept other (List.mem_of_getElem? slot)]
    exact rep.index i other slot
  · rw [rep.lookup]
    exact and_congr_right fun member => by rw [kept other member]
  · rw [kept other member]
    exact rep.nonneg other member

/-- A fresh channel in the place of a stale one can be enabled on a free descriptor. -/
theorem Stale.fresh_enables (stale : Stale fdOf s id)
    (free : s.poller.channels.find (s.heap id).fd = none) (opt : Opt) :
    ∃ t, (withFresh s id).step PollPoller.impl (id, .update opt) = .ok t := by
  obtain ⟨⟨order, slots⟩, unused, _⟩ := stale
  have outside : id ∉ order := fun member => (slots.used id).mpr member unused
  have rep := represents_set slots.rep outside (.new (s.heap id).fd)
  have new : ((s.heap.set id (.new (s.heap id).fd)) id).index < 0 := by
    rw [ChannelHeap.set_same]
    exact (by decide : (-1 : Int) < 0)
  have absent : s.poller.channels.find ((s.heap.set id (.new (s.heap id).fd)) id).fd = none := by
    rw [ChannelHeap.set_same]
    exact free
  have updated := PollPoller.updateChannel_new rep opt new absent
  exact ⟨_, by simp only [Session.step, PollerImpl.operate, PollPoller.impl, withFresh, updated]; rfl⟩

theorem permitted_enable {opt : Opt} (enables : Enables opt) : s.Permitted (id, .update opt) := by
  obtain rfl | rfl := enables
  · exact trivial
  · exact trivial

theorem Stale.not_asFresh (stale : Stale fdOf s id)
    (free : s.poller.channels.find (s.heap id).fd = none) : ¬ AsFresh s id := by
  intro same
  obtain ⟨t, ran⟩ := stale.fresh_enables free .enRead
  have fresh : PollRun (withFresh s id) [(id, .update .enRead)] t :=
    .cons ⟨permitted_enable (.inl rfl), ran⟩ (.nil t)
  obtain ⟨t', run, _⟩ := same .enRead (.inl rfl) [] t fresh
  cases run with
  | cons taken _ =>
    have failed := stale.update_fails .enRead
    have started : s.step PollPoller.impl (id, .update .enRead) = .ok _ := taken.2
    rw [failed] at started
    cases started

end Stale

/-- In every state a run reaches, every registered channel without interest can be
removed, and is never as a fresh one afterwards: the next enable fails, at once and
after any operations on other channels, where a fresh channel would be registered. -/
theorem removed_never_fresh (fdOf : ChannelId → Int) (nonneg : ∀ id, 0 ≤ fdOf id)
    (actions : List (ChannelId × ChannelOp)) (s : Session PollPoller)
    (run : PollRun (.start .new fdOf) actions s) (id : ChannelId)
    (registered : s.poller.channels.find (s.heap id).fd = some id)
    (idle : (s.heap id).isNoneEvent = true) :
    ∃ s', s.step PollPoller.impl (id, .remove) = .ok s' ∧ ¬ AsFresh s' id ∧
      (∀ opt, ∃ t, (withFresh s' id).step PollPoller.impl (id, .update opt) = .ok t) ∧
      ∀ others t, (∀ action ∈ others, action.1 ≠ id) → PollRun s' others t → ∀ opt,
        ∃ assertion, t.step PollPoller.impl (id, .update opt) = .error (.assertFailed assertion) := by
  obtain ⟨order, slots⟩ := PollPoller.slots_of_run nonneg run
  have member := ((slots.rep.lookup _ _).mp registered).1
  obtain ⟨s', ran, stale, free⟩ := stale_of_remove slots member idle
  refine ⟨s', ran, stale.not_asFresh free, stale.fresh_enables free, ?_⟩
  intro others t apart later opt
  have still : Stale fdOf t id := by
    clear free ran
    induction later with
    | nil => exact stale
    | cons taken _ ih =>
      exact ih (stale.step nonneg taken.1 (apart _ List.mem_cons_self) taken.2)
        fun action mem => apart action (List.mem_cons_of_mem _ mem)
  exact ⟨_, still.update_fails opt⟩

/-- A channel on descriptor 3 that has been enabled for reading and disabled again. -/
def enabledOnce : List (ChannelId × ChannelOp) := [(1, .update .enRead), (1, .update .disAll)]

theorem removed_never_fresh_enabled_once :
    ∃ s s', PollRun (.start .new fun _ => 3) enabledOnce s ∧
      s.step PollPoller.impl (1, .remove) = .ok s' ∧ ¬ AsFresh s' 1 := by
  have first : PollRun (.start .new fun _ => 3) enabledOnce _ :=
    .cons ⟨trivial, rfl⟩ (.cons ⟨trivial, rfl⟩ (.nil _))
  obtain ⟨s', ran, differs, _⟩ :=
    removed_never_fresh (fun _ => 3) (fun _ => by decide) enabledOnce _ first 1 rfl rfl
  exact ⟨_, s', first, ran, differs⟩

/-- The next enable of the object fails; a fresh object in its place is registered. -/
theorem removed_channel_cannot_return :
    ∃ s s', PollRun (.start .new fun _ => 3) enabledOnce s ∧
      s.poller.channels.find (s.heap 1).fd = some 1 ∧ (s.heap 1).isNoneEvent = true ∧
      s.step PollPoller.impl (1, .remove) = .ok s' ∧
      s'.step PollPoller.impl (1, .update .enRead) = .error (.assertFailed .updateChannelPresent) ∧
      (∃ t, (withFresh s' 1).step PollPoller.impl (1, .update .enRead) = .ok t) ∧
      ¬ AsFresh s' 1 := by
  refine ⟨_, _, .cons ⟨trivial, rfl⟩ (.cons ⟨trivial, rfl⟩ (.nil _)), rfl, rfl, rfl, rfl,
    ⟨_, rfl⟩, ?_⟩
  intro same
  obtain ⟨t', run, _⟩ := same .enRead (.inl rfl) [] _ (.cons ⟨trivial, rfl⟩ (.nil _))
  cases run with
  | cons taken _ => exact nomatch taken.2

end Muduo.Guarantees
