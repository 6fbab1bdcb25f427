import Muduo.Guarantees.PollPollerSlots
import Muduo.Source.PollPollerRuns

/-!
# PollPoller reports exactly the ready channels

`Indexed` is what the functions of the class rely on: `channels_` and `poll_fds_` are in
bijection through descriptor and index, whatever the entries show of the interest. The loop
of `fillActiveChannels` stops when its count is used up; the count is that of the entries
with events, so what it does not visit has none.
-/
namespace Muduo.Guarantees
open Muduo.Support Muduo.Source Muduo.Source.PollPoller

/-- `channels_` and `poll_fds_` correspond: each channel knows its entry, which carries its
descriptor or the ignored form of it, and each entry is known by a channel. -/
structure Indexed (heap : ChannelHeap) (sys : PollPoller) : Prop where
  fd : ∀ fd id, sys.channels.find fd = some id → (heap id).fd = fd ∧ 0 ≤ fd
  entry : ∀ fd id, sys.channels.find fd = some id → ∃ (slot : Nat) (pfd : Pollfd),
    (heap id).index = slot ∧ sys.pollFds[slot]? = some pfd ∧ (pfd.fd = fd ∨ pfd.fd = ignored fd)
  channel : ∀ (slot : Nat) pfd, sys.pollFds[slot]? = some pfd →
    ∃ fd id, sys.channels.find fd = some id ∧ (heap id).index = slot

/-- What `::poll` promises: no events on an ignored entry, and the number of entries with
events as return value. -/
structure Answers (pollFds : List Pollfd) (numEvents : Nat) (revents : Nat → BitVec 16) : Prop where
  ignored : ∀ pfd ∈ stored pollFds revents, pfd.fd < 0 → pfd.revents = 0
  count : numEvents = (positives (stored pollFds revents)).length

/-- The channels appended to `activeChannels` are those of the ready slots, in the order of
`poll_fds_`, and each has its slot's `revents`. -/
structure ReportsReady (heap : ChannelHeap) (sys : PollPoller) (revents : Nat → BitVec 16)
    (heap' : ChannelHeap) (active : List ChannelId) : Prop where
  ordered : active.map some =
    (positives (stored sys.pollFds revents)).map fun pfd => sys.channels.find pfd.fd
  once : active.Nodup
  reported : ∀ (slot : Nat) pfd, (stored sys.pollFds revents)[slot]? = some pfd →
    0 < pfd.revents.toInt → ∃ id ∈ active, (heap id).fd = pfd.fd ∧ (heap id).index = slot ∧
      heap' id = { heap id with revents := pfd.revents.signExtend 32 }
  others : ∀ id, id ∉ active → heap' id = heap id

variable {heap heap' : ChannelHeap} {sys : PollPoller} {order : List ChannelId} {numEvents : Nat}
  {revents : Nat → BitVec 16}

/-- The slot list of a run gives the correspondence. -/
theorem indexed_of_represents (rep : Represents heap sys order) : Indexed heap sys where
  fd fd id found := by
    obtain ⟨member, rfl⟩ := (rep.lookup fd id).mp found
    exact ⟨rfl, rep.nonneg id member⟩
  entry fd id found := by
    obtain ⟨member, rfl⟩ := (rep.lookup fd id).mp found
    obtain ⟨slot, present, index⟩ := rep.mem_slot member
    obtain ⟨pfd, entry, key⟩ := rep.entry present
    exact ⟨slot, pfd, index, entry, entry_fd key⟩
  channel slot pfd entry := by
    have inRange : slot < order.length := by
      rw [← rep.length_eq]
      exact (List.getElem?_eq_some_iff.mp entry).1
    have present := List.getElem?_eq_getElem inRange
    exact ⟨_, _, rep.registered (List.getElem_mem inRange), rep.index _ _ present⟩

theorem getElem?_stored (pollFds : List Pollfd) (slot : Nat) :
    (stored pollFds revents)[slot]? =
      pollFds[slot]?.map fun pfd => { pfd with revents := revents slot } :=
  List.getElem?_mapIdx

/-- An entry that is not ignored leads to the channel that knows it. -/
theorem Indexed.known (indexed : Indexed heap sys) {slot : Nat} {pfd : Pollfd}
    (entry : (stored sys.pollFds revents)[slot]? = some pfd) (watched : 0 ≤ pfd.fd) :
    ∃ id, sys.channels.find pfd.fd = some id ∧ (heap id).fd = pfd.fd ∧ (heap id).index = slot := by
  rw [getElem?_stored] at entry
  obtain ⟨old, before, rfl⟩ := Option.map_eq_some_iff.mp entry
  obtain ⟨fd, id, found, index⟩ := indexed.channel slot old before
  obtain ⟨own, nonneg⟩ := indexed.fd fd id found
  obtain ⟨slot', old', index', before', shown⟩ := indexed.entry fd id found
  have same : slot' = slot := by omega
  rw [same, before] at before'
  obtain rfl := Option.some.inj before'
  have plain : old.fd = fd := by
    refine shown.resolve_right fun hidden => ?_
    have negative : old.fd < 0 := by
      rw [hidden, PollPoller.ignored]
      omega
    exact absurd watched (not_le.mpr negative)
  exact ⟨id, by rwa [plain], own.trans plain.symm, index⟩

theorem Answers.watched (answers : Answers sys.pollFds numEvents revents) {pfd : Pollfd}
    (member : pfd ∈ positives (stored sys.pollFds revents)) : 0 ≤ pfd.fd := by
  obtain ⟨present, positive⟩ := List.mem_filter.mp member
  by_contra hidden
  rw [answers.ignored pfd present (not_le.mp hidden)] at positive
  exact absurd positive (by decide)

/-- Entries with events have descriptors of their own. -/
theorem Indexed.distinct (indexed : Indexed heap sys)
    (answers : Answers sys.pollFds numEvents revents) :
    ((positives (stored sys.pollFds revents)).map fun pfd => pfd.fd).Nodup := by
  rw [List.Nodup, List.pairwise_map, positives, List.pairwise_filter, List.pairwise_iff_getElem]
  intro i j inRange inRange' less positive positive' same
  have watched {k : Nat} (bound : k < (stored sys.pollFds revents).length)
      (positive : decide (0 < (stored sys.pollFds revents)[k].revents.toInt) = true) :
      0 ≤ (stored sys.pollFds revents)[k].fd :=
    answers.watched (List.mem_filter.mpr ⟨List.getElem_mem bound, positive⟩)
  obtain ⟨id, found, _, index⟩ :=
    indexed.known (List.getElem?_eq_getElem inRange) (watched inRange positive)
  obtain ⟨id', found', _, index'⟩ :=
    indexed.known (List.getElem?_eq_getElem inRange') (watched inRange' positive')
  rw [← same, found] at found'
  obtain rfl := Option.some.inj found'
  omega

/-- `fillActiveChannels` writes nothing but `revents_`. -/
theorem fill_frame {channels : FdMap ChannelId} {pollFds : List Pollfd} {active : List ChannelId}
    (ran : fill channels heap pollFds numEvents = .ok (heap', active)) (id : ChannelId) :
    heap' id = { heap id with revents := (heap' id).revents } := by
  induction pollFds generalizing heap numEvents active with
  | nil =>
    cases ran
    rfl
  | cons pfd rest ih =>
    cases numEvents with
    | zero =>
      cases ran
      rfl
    | succ left =>
      unfold fill at ran
      split at ran
      · exact ih ran
      · split at ran
        · cases ran
        · next target found =>
          split at ran
          · cases ran
          · split at ran <;> cases ran
            next filled =>
            have after := ih filled
            rw [ChannelHeap.setRevents, ChannelHeap.set_apply] at after
            split at after
            · next same => simpa [same] using after
            · exact after

/-- The correspondence does not depend on what is stored in `revents`. -/
theorem Indexed.reported (indexed : Indexed heap sys)
    (frame : ∀ id, heap' id = { heap id with revents := (heap' id).revents }) :
    Indexed heap' { sys with pollFds := stored sys.pollFds revents } where
  fd fd id found := by
    rw [frame id]
    exact indexed.fd fd id found
  entry fd id found := by
    obtain ⟨slot, pfd, index, entry, shown⟩ := indexed.entry fd id found
    refine ⟨slot, { pfd with revents := revents slot }, ?_, ?_, shown⟩
    · rw [frame id]
      exact index
    · rw [getElem?_stored, entry]
      rfl
  channel slot pfd entry := by
    rw [getElem?_stored] at entry
    obtain ⟨old, before, _⟩ := Option.map_eq_some_iff.mp entry
    obtain ⟨fd, id, found, index⟩ := indexed.channel slot old before
    refine ⟨fd, id, found, ?_⟩
    rw [frame id]
    exact index

/-- In every state that satisfies the invariant and for every answer of `::poll`: no
assertion of `fillActiveChannels` fails, the channels of the entries with events are
reported once each in the order of the entries, and nothing else changes. -/
theorem poll_reports_ready (indexed : Indexed heap sys)
    (answers : Answers sys.pollFds numEvents revents) :
    ∃ heap' active, poll heap sys (.events numEvents revents) =
        .ok (heap', { sys with pollFds := stored sys.pollFds revents }, active) ∧
      ReportsReady heap sys revents heap' active ∧
      Indexed heap' { sys with pollFds := stored sys.pollFds revents } := by
  obtain ⟨idOf, named⟩ : ∃ idOf : Int → ChannelId, ∀ pfd ∈ positives (stored sys.pollFds revents),
      sys.channels.find pfd.fd = some (idOf pfd.fd) ∧ (heap (idOf pfd.fd)).fd = pfd.fd := by
    refine ⟨fun fd => (sys.channels.find fd).getD 0, fun pfd member => ?_⟩
    obtain ⟨slot, inRange, rfl⟩ := List.getElem_of_mem (List.mem_filter.mp member).1
    obtain ⟨id, found, own, _⟩ :=
      indexed.known (List.getElem?_eq_getElem inRange) (answers.watched member)
    simp only [found, Option.getD_some, own, and_self]
  obtain ⟨heap', ran, written, kept⟩ := fill_ok sys.channels idOf _ heap
    (fun pfd member => (named pfd member).1) (fun pfd member => (named pfd member).2)
    (indexed.distinct answers)
  have frame := fill_frame ran
  refine ⟨heap', (positives (stored sys.pollFds revents)).map fun pfd => idOf pfd.fd, ?_,
    ⟨?_, ?_, ?_, ?_⟩, indexed.reported frame⟩
  · simp only [poll, answers.count, ran]
  · rw [List.map_map]
    exact List.map_congr_left fun pfd member => (named pfd member).1.symm
  · -- channels with different descriptors are different
    have fds : ((positives (stored sys.pollFds revents)).map fun pfd => idOf pfd.fd).map
        (fun id => (heap id).fd) = (positives (stored sys.pollFds revents)).map fun pfd => pfd.fd := by
      rw [List.map_map]
      exact List.map_congr_left fun pfd member => (named pfd member).2
    refine List.Nodup.of_map (fun id => (heap id).fd) ?_
    rw [fds]
    exact indexed.distinct answers
  · intro slot pfd entry positive
    have member : pfd ∈ positives (stored sys.pollFds revents) :=
      List.mem_filter.mpr ⟨List.mem_of_getElem? entry, decide_eq_true positive⟩
    obtain ⟨id, found, own, index⟩ := indexed.known entry (answers.watched member)
    rw [(named pfd member).1] at found
    obtain rfl := Option.some.inj found
    refine ⟨_, List.mem_map.mpr ⟨pfd, member, rfl⟩, own, index, ?_⟩
    rw [frame, written pfd member]
  · intro id outside
    exact kept id fun pfd member same => outside (List.mem_map.mpr ⟨pfd, member, same⟩)

/-- Four channels of which the second has lost its interest. -/
def oneIgnored : List (ChannelId × ChannelOp) :=
  [(1, .update .enRead), (2, .update .enWrite), (3, .update .enRead), (2, .update .disAll),
    (4, .update .enRead)]

/-- Events for the first and the last entry, none for the ignored and the idle one. -/
def firstAndLast : Nat → BitVec 16
  | 0 => 1
  | 3 => 9
  | _ => 0

theorem poll_reports_ready_one_ignored :
    ∃ s heap', Run (Guarded Lives.Permitted (Graph (Lives.step PollPoller.impl)))
        (.start .new fun id => (id : Nat)) oneIgnored s ∧
      s.poller.pollFds.map (fun pfd => pfd.fd) = [1, -3, 3, 4] ∧
      poll s.heap s.poller (.events 2 firstAndLast) =
        .ok (heap', { s.poller with pollFds := stored s.poller.pollFds firstAndLast }, [1, 4]) ∧
      ReportsReady s.heap s.poller firstAndLast heap' [1, 4] := by
  have ends : endsIn Lives.Permitted (Lives.step PollPoller.impl) Fault.notEnabled
      (.start .new fun id => (id : Nat)) oneIgnored
      (fun s => decide (s.poller.pollFds.map (fun pfd => pfd.fd) = [1, -3, 3, 4] ∧
        (∀ pfd ∈ stored s.poller.pollFds firstAndLast, pfd.fd < 0 → pfd.revents = 0) ∧
        2 = (positives (stored s.poller.pollFds firstAndLast)).length ∧
        (poll s.heap s.poller (.events 2 firstAndLast)).toOption.map (fun result => result.2.2) =
          some [1, 4])) = true := by
    decide +kernel
  obtain ⟨s, run, checked⟩ := run_of_endsIn _ _ ends
  obtain ⟨entries, ignored, count, reported⟩ := of_decide_eq_true checked
  obtain ⟨order, slotted⟩ := (fits_of_run run).slotted
  obtain ⟨heap', active, ran, ready, _⟩ :=
    poll_reports_ready (indexed_of_represents slotted.rep) ⟨ignored, count⟩
  rw [ran] at reported
  obtain rfl : active = [1, 4] := Option.some.inj reported
  exact ⟨s, heap', run, entries, ran, ready⟩

end Muduo.Guarantees
