import Muduo.Source.ChannelRuns
import Muduo.Source.PollPollerExecution

/-!
# Runs over PollPoller

Under the callers' rules every successful operation keeps the slot list, whose
members are the channels in use. `fillActiveChannels` then finds the channel of
every reported entry.
-/
namespace Muduo.Source
open Muduo.Support

namespace PollPoller

/-- The slot list of a session: its members are the channels in use. -/
structure Slots (fdOf : ChannelId → Int) (s : Session PollPoller) (order : List ChannelId) :
    Prop where
  rep : Represents s.heap s.poller order
  used : ∀ id, s.usage id ≠ none ↔ id ∈ order
  fd : ∀ id, (s.heap id).fd = fdOf id

variable {fdOf : ChannelId → Int} {s s' : Session PollPoller} {order : List ChannelId}
  {id : ChannelId} {opt : Opt}

theorem start_slots (fdOf : ChannelId → Int) : Slots fdOf (.start .new fdOf) [] where
  rep := new_represents _
  used id := by simp [Session.start]
  fd _ := rfl

theorem next_ne_none (used : s.usage id ≠ none ∨ opt = .enRead ∨ opt = .enWrite) :
    (s.usage id).next (.update opt) ≠ none := by
  cases opt with
  | enRead | enWrite => simp [Usage.next]
  | disRead | disWrite | disAll => simpa [Usage.next] using used

/-- An operation on a channel in use. -/
theorem step_used (slots : Slots fdOf s order) (member : id ∈ order) (opt : Opt) :
    ∃ s', s.step impl (id, .update opt) = .ok s' ∧ Slots fdOf s' order := by
  obtain ⟨slot, present, _⟩ := slots.rep.mem_slot member
  have updated := updateChannel_registered slots.rep present opt
  refine ⟨_, by simp only [Session.step, PollerImpl.operate, impl, updated]; rfl,
    rewritten_represents slots.rep present opt, fun other => ?_, fun other => ?_⟩
  · by_cases same : other = id
    · subst same
      simp only [Function.update_self]
      exact iff_of_true (next_ne_none (Or.inl ((slots.used _).mpr member))) member
    · simpa only [Function.update_of_ne same] using slots.used other
  · rw [ChannelHeap.fd_change]
    exact slots.fd other

/-- An operation on a channel outside the slot list can only register a new one. -/
theorem new_of_updateChannel {heap : ChannelHeap} {sys : PollPoller} {result : ChannelHeap × PollPoller}
    (rep : Represents heap sys order) (outside : id ∉ order)
    (ran : updateChannel (heap.change id opt) sys id opt = .ok result) :
    (heap id).index < 0 ∧ sys.channels.find (heap id).fd = none := by
  unfold updateChannel at ran
  rw [ChannelHeap.index_change] at ran
  split at ran
  · next new =>
    refine ⟨new, ?_⟩
    by_contra present
    simp [appendChannel, present] at ran
  · have other : sys.channels.find (heap id).fd ≠ some id :=
      fun found => outside ((rep.lookup _ _).mp found).1
    simp only [rewriteChannel, ChannelHeap.fd_change, if_pos other] at ran
    split at ran <;> cases ran

/-- A successful first operation appends a slot. -/
theorem step_unused (slots : Slots fdOf s order) (outside : id ∉ order) (nonneg : 0 ≤ fdOf id)
    (enables : opt = .enRead ∨ opt = .enWrite) (ran : s.step impl (id, .update opt) = .ok s') :
    Slots fdOf s' (order ++ [id]) := by
  simp only [Session.step, PollerImpl.operate, impl] at ran
  cases updated : updateChannel (s.heap.change id opt) s.poller id opt with
  | error e => rw [updated] at ran; cases ran
  | ok result =>
    obtain ⟨new, absent⟩ := new_of_updateChannel slots.rep outside updated
    rw [updateChannel_new slots.rep opt new absent] at ran
    cases ran
    have interested : (s.heap.change id opt id).isNoneEvent = false := by
      rw [Channel.isNoneEvent, ChannelHeap.events_change_same, beq_eq_false_iff_ne]
      intro none
      rcases enables with rfl | rfl
      · exact Channel.not_wants_none .read
          (none ▸ (Channel.wants_newEvents _ .enRead .read).mpr rfl)
      · exact Channel.not_wants_none .write
          (none ▸ (Channel.wants_newEvents _ .enWrite .write).mpr rfl)
    refine ⟨appended_represents slots.rep opt new absent (by rwa [slots.fd id]) interested,
      fun other => ?_, fun other => ?_⟩
    · rw [List.mem_append, List.mem_singleton]
      by_cases same : other = id
      · subst same
        simp only [Function.update_self]
        exact iff_of_true (next_ne_none (Or.inr enables)) (Or.inr trivial)
      · simpa [Function.update_of_ne same, same] using slots.used other
    · rw [ChannelHeap.fd_setIndex, ChannelHeap.fd_change]
      exact slots.fd other

theorem step_remove (slots : Slots fdOf s order) {slot : Nat} (present : order[slot]? = some id)
    (idle : (s.heap id).isNoneEvent = true) :
    ∃ s', s.step impl (id, .remove) = .ok s' ∧ Slots fdOf s' (swapRemove order slot) := by
  have left : Represents (s.heap.leave id) s.poller order := slots.rep.leave id
  have idle' : (s.heap.leave id id).isNoneEvent = true := by
    rwa [Channel.isNoneEvent, ChannelHeap.events_leave]
  have removed := removeChannel_registered left present idle'
  have rep := removed_represents left present
  refine ⟨_, by simp only [Session.step, PollerImpl.operate, if_pos idle, impl, removed]; rfl,
    rep, fun other => ?_, fun other => ?_⟩
  · rw [mem_swapRemove left present]
    by_cases same : other = id
    · subst same
      simp [Usage.next]
    · simpa [Function.update_of_ne same, same] using slots.used other
  · rw [fd_reindexed, ChannelHeap.fd_leave]
    exact slots.fd other

/-- Every successful permitted operation keeps the slot list. -/
theorem step_slots (nonneg : ∀ id, 0 ≤ fdOf id) (slots : Slots fdOf s order)
    {action : ChannelId × ChannelOp} (permitted : s.Permitted action)
    (ran : s.step impl action = .ok s') : ∃ order', Slots fdOf s' order' := by
  obtain ⟨id, op⟩ := action
  by_cases member : id ∈ order
  · obtain ⟨seen, usage⟩ := Option.ne_none_iff_exists'.mp ((slots.used id).mpr member)
    cases op with
    | update opt =>
      obtain ⟨s'', ran', kept⟩ := step_used slots member opt
      cases Except.ok.inj (ran.symm.trans ran')
      exact ⟨order, kept⟩
    | remove =>
      obtain ⟨slot, present, _⟩ := slots.rep.mem_slot member
      have idle : (s.heap id).isNoneEvent = true := by
        simpa [Session.Permitted, usage] using permitted
      obtain ⟨s'', ran', kept⟩ := step_remove slots present idle
      cases Except.ok.inj (ran.symm.trans ran')
      exact ⟨_, kept⟩
  · have usage : s.usage id = none := by
      by_contra used
      exact member ((slots.used id).mp used)
    have first : op = .update .enRead ∨ op = .update .enWrite := by
      cases op with
      | remove => simp [Session.Permitted, usage] at permitted
      | update opt => cases opt <;> simp_all [Session.Permitted]
    rcases first with rfl | rfl
    · exact ⟨_, step_unused slots member (nonneg id) (Or.inl rfl) ran⟩
    · exact ⟨_, step_unused slots member (nonneg id) (Or.inr rfl) ran⟩

/-- Some slot list fits the session. -/
def Slotted (fdOf : ChannelId → Int) (s : Session PollPoller) : Prop :=
  ∃ order, Slots fdOf s order

theorem slots_of_run (nonneg : ∀ id, 0 ≤ fdOf id) {actions : List (ChannelId × ChannelOp)}
    (run : Run (Guarded Session.Permitted (Graph (Session.step impl))) (.start .new fdOf)
      actions s) : Slotted fdOf s := by
  have start : Slotted fdOf (.start .new fdOf) := ⟨[], start_slots fdOf⟩
  refine run.invariant start ?_
  rintro s action s' ⟨order, slots⟩ ⟨permitted, ran⟩
  exact step_slots nonneg slots permitted ran

/-- The entries that `fillActiveChannels` reports. -/
def positives (pollFds : List Pollfd) : List Pollfd :=
  pollFds.filter fun pfd => 0 < pfd.revents.toInt

/-- `fillActiveChannels` reports the channels of the positive entries, in order, and
gives each its entry's `revents`; the other channels stay as they are. -/
theorem fill_ok (channels : FdMap ChannelId) (idOf : Int → ChannelId) (pollFds : List Pollfd)
    (heap : ChannelHeap)
    (found : ∀ pfd ∈ positives pollFds, channels.find pfd.fd = some (idOf pfd.fd))
    (fd : ∀ pfd ∈ positives pollFds, (heap (idOf pfd.fd)).fd = pfd.fd)
    (distinct : ((positives pollFds).map fun pfd => pfd.fd).Nodup) :
    ∃ heap', fill channels heap pollFds (positives pollFds).length =
        .ok (heap', (positives pollFds).map fun pfd => idOf pfd.fd) ∧
      (∀ pfd ∈ positives pollFds, (heap' (idOf pfd.fd)).revents = pfd.revents.signExtend 32) ∧
      ∀ id, (∀ pfd ∈ positives pollFds, idOf pfd.fd ≠ id) → heap' id = heap id := by
  induction pollFds generalizing heap with
  | nil => exact ⟨heap, rfl, fun _ member => by simp [positives] at member, fun _ _ => rfl⟩
  | cons pfd rest ih =>
    by_cases reported : 0 < pfd.revents.toInt
    · have shape : positives (pfd :: rest) = pfd :: positives rest := by
        simp [positives, reported]
      rw [shape] at found fd distinct ⊢
      obtain ⟨own, others⟩ := List.nodup_cons.mp distinct
      have apart : ∀ other ∈ positives rest, idOf other.fd ≠ idOf pfd.fd := by
        intro other member same
        have first := fd other (List.mem_cons_of_mem _ member)
        rw [same, fd pfd List.mem_cons_self] at first
        exact own (List.mem_map.mpr ⟨other, member, first.symm⟩)
      obtain ⟨heap', ran, revents, kept⟩ :=
        ih (heap.setRevents (idOf pfd.fd) (pfd.revents.signExtend 32))
          (fun other member => found other (List.mem_cons_of_mem _ member))
          (fun other member => by
            rw [ChannelHeap.fd_setRevents]
            exact fd other (List.mem_cons_of_mem _ member)) others
      refine ⟨heap', ?_, ?_, ?_⟩
      · have present := found pfd List.mem_cons_self
        have matching := fd pfd List.mem_cons_self
        simp only [List.length_cons, fill, if_neg (Int.not_le.mpr reported), present, matching, ran]
        simp
      · intro other member
        rcases List.mem_cons.mp member with rfl | member
        · rw [kept _ apart, ChannelHeap.revents_setRevents_same]
        · exact revents other member
      · intro id outside
        rw [kept id fun other member => outside other (List.mem_cons_of_mem _ member)]
        exact ChannelHeap.setRevents_other _ _ _ (outside pfd List.mem_cons_self).symm _
    · have shape : positives (pfd :: rest) = positives rest := by
        simp [positives, reported]
      rw [shape] at found fd distinct ⊢
      obtain ⟨heap', ran, revents, kept⟩ := ih heap found fd distinct
      refine ⟨heap', ?_, revents, kept⟩
      rw [← ran]
      cases (positives rest).length with
      | zero => cases rest <;> rfl
      | succ n => simp only [fill, if_pos (Int.not_lt.mp reported)]

end PollPoller

end Muduo.Source
