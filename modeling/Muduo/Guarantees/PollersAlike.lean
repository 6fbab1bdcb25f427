import Muduo.Source.KqueuePollerExecution
import Muduo.Source.KqueuePollerRuns
import Muduo.Source.PollPollerRuns

/-!
# The two pollers dispatch alike

Both pollers have run the same operations and are told the same readiness, with
neither error nor hangup. PollPoller makes each callback once. KqueuePoller gets
one record per direction, and each record overwrites `revents_`; it makes the
same callbacks exactly when no descriptor is reported in both directions.
-/
namespace Muduo.Guarantees
open Muduo.Support Muduo.Source

def callbackOf : Direction → EventCallback
  | .read => .read
  | .write => .write

/-- How often a pass makes the callback of a direction on a channel. -/
def calls (heap : ChannelHeap) (active : List ChannelId) (id : ChannelId) (d : Direction) : Nat :=
  (dispatch heap active).count (id, callbackOf d)

/-- `::poll` reports a readiness: input and output bits only, and the number of
entries with some bit. -/
structure PollReports (pollFds : List Pollfd) (ready : List (Int × Direction)) (numEvents : Nat)
    (revents : Nat → BitVec 16) : Prop where
  plain : ∀ slot, (revents slot).toNat < 8
  masks : ∀ (slot : Nat) pfd, pollFds[slot]? = some pfd →
    ∀ d, Channel.Wants ((revents slot).signExtend 32) d ↔ (pfd.fd, d) ∈ ready
  count : numEvents =
    ((PollPoller.stored pollFds revents).filter fun pfd => pfd.revents ≠ 0).length

/-- Without error and hangup bits `handleEvent` makes the callbacks asked for. -/
theorem count_callbacks {e : EventMask} (hup : e &&& pollHup = 0)
    (err : e &&& (pollErr ||| pollNval) = 0) (d : Direction) :
    (Channel.callbacks e).count (callbackOf d) = if Channel.Wants e d then 1 else 0 := by
  have shape : Channel.callbacks e =
      (if Channel.Wants e .read then [.read] else []) ++
        (if Channel.Wants e .write then [.write] else []) := by
    simp only [Channel.callbacks, hup, err, ne_eq, not_true_eq_false, false_and, if_false,
      List.nil_append]
    rfl
  rw [shape, List.count_append]
  cases d with
  | read => split <;> split <;> simp_all [callbackOf]
  | write => split <;> split <;> simp_all [callbackOf]

/-- A mask of input and output bits is positive, and clean of error and hangup. -/
theorem plain_mask {m : BitVec 16} (plain : m.toNat < 8) :
    m.signExtend 32 &&& pollHup = 0 ∧ m.signExtend 32 &&& (pollErr ||| pollNval) = 0 ∧
      (m ≠ 0 ↔ 0 < m.toInt) ∧ (m ≠ 0 → ∃ d, Channel.Wants (m.signExtend 32) d) := by
  have eq : m = BitVec.ofNat 16 m.toNat := by simp
  rw [eq]
  generalize m.toNat = k at plain
  have enum : ∀ k : Fin 8,
      (BitVec.ofNat 16 k.val).signExtend 32 &&& pollHup = 0 ∧
        (BitVec.ofNat 16 k.val).signExtend 32 &&& (pollErr ||| pollNval) = 0 ∧
        (BitVec.ofNat 16 k.val ≠ 0 ↔ 0 < (BitVec.ofNat 16 k.val).toInt) ∧
        (BitVec.ofNat 16 k.val ≠ 0 →
          Channel.Wants ((BitVec.ofNat 16 k.val).signExtend 32) .read ∨
            Channel.Wants ((BitVec.ofNat 16 k.val).signExtend 32) .write) := by decide
  obtain ⟨hup, err, positive, wants⟩ := enum ⟨k, plain⟩
  refine ⟨hup, err, positive, fun nonzero => ?_⟩
  rcases wants nonzero with read | write
  · exact ⟨.read, read⟩
  · exact ⟨.write, write⟩

section Kqueue
open KqueueSystem

variable {fdOf : ChannelId → Int} {k : Kqueue} {ready : List (Int × Direction)}

theorem mem_report {record : Record} (member : record ∈ report k ready)
    (addressed : k.Addressed fdOf) : (fdOf record.udata, record.filter) ∈ ready := by
  obtain ⟨⟨fd, filter⟩, inReady, found⟩ := List.mem_filterMap.mp member
  obtain ⟨knote, present, rfl⟩ := Option.map_eq_some_iff.mp found
  simp only
  rwa [addressed (fd, filter) knote present]

/-- A channel is listed once for each of its ready directions. -/
theorem count_report (distinct : Function.Injective fdOf) (addressed : k.Addressed fdOf)
    (enabled : ∀ key ∈ ready, k.Enabled key.1 key.2) (id : ChannelId) :
    ((report k ready).map Record.udata).count id =
      ready.count (fdOf id, .read) + ready.count (fdOf id, .write) := by
  induction ready with
  | nil => rfl
  | cons key rest ih =>
    obtain ⟨fd, filter⟩ := key
    obtain ⟨udata, knote⟩ := enabled (fd, filter) List.mem_cons_self
    have pointing := addressed (fd, filter) _ knote
    have shape : report k ((fd, filter) :: rest) = ⟨filter, udata⟩ :: report k rest := by
      simp [report, knote]
    have rest_count := ih fun key member => enabled key (List.mem_cons_of_mem _ member)
    simp only [shape, List.map_cons, List.count_cons, rest_count]
    by_cases own : udata = id
    · subst own
      rw [pointing]
      cases filter <;> simp <;> omega
    · have other : fd ≠ fdOf id := fun same => own (distinct (pointing.trans same))
      simp [own, other]

theorem count_record (record : Record) (d : Direction) :
    (Channel.callbacks record.revents).count (callbackOf d) =
      if record.filter = d then 1 else 0 := by
  have read : Channel.callbacks kReadEvent = [.read] := by decide
  have write : Channel.callbacks kWriteEvent = [.write] := by decide
  cases shape : record.filter with
  | read => cases d <;> simp [Record.revents, shape, read, callbackOf]
  | write => cases d <;> simp [Record.revents, shape, write, callbackOf]

/-- The callbacks of the pass over KqueuePoller: all in the direction of one record. -/
theorem kqueue_calls (distinct : Function.Injective fdOf) (addressed : k.Addressed fdOf)
    (enabled : ∀ key ∈ ready, k.Enabled key.1 key.2) (heap : ChannelHeap) (id : ChannelId)
    {d : Direction} (isReady : (fdOf id, d) ∈ ready) :
    ∃ last, (fdOf id, last) ∈ ready ∧ ∀ d,
      calls (fill heap (report k ready)).1 (fill heap (report k ready)).2 id d =
        (ready.count (fdOf id, .read) + ready.count (fdOf id, .write)) *
          if last = d then 1 else 0 := by
  have listed : ∃ record ∈ report k ready, record.udata = id := by
    obtain ⟨udata, knote⟩ := enabled _ isReady
    refine ⟨⟨d, udata⟩, List.mem_filterMap.mpr ⟨_, isReady, by simp [knote]⟩, ?_⟩
    exact distinct (addressed _ _ knote)
  obtain ⟨record, member, own, revents⟩ := fill_listed heap _ listed
  refine ⟨record.filter, own ▸ mem_report member addressed, fun d => ?_⟩
  rw [calls, count_dispatch, fill_active, count_report distinct addressed enabled,
    Channel.handleEvent, revents, count_record]

/-- A channel without a ready direction is not called. -/
theorem kqueue_calls_none (distinct : Function.Injective fdOf) (addressed : k.Addressed fdOf)
    (enabled : ∀ key ∈ ready, k.Enabled key.1 key.2) (heap : ChannelHeap) {id : ChannelId}
    (idle : ∀ d, (fdOf id, d) ∉ ready) (d : Direction) :
    calls (fill heap (report k ready)).1 (fill heap (report k ready)).2 id d = 0 := by
  rw [calls, count_dispatch, fill_active, count_report distinct addressed enabled,
    List.count_eq_zero.mpr (idle .read), List.count_eq_zero.mpr (idle .write), Nat.zero_mul]

/-- Each callback is made once exactly when no descriptor is ready both ways. -/
theorem kqueue_calls_exact (distinct : Function.Injective fdOf) (addressed : k.Addressed fdOf)
    (enabled : ∀ key ∈ ready, k.Enabled key.1 key.2) (nodup : ready.Nodup) (heap : ChannelHeap) :
    (∀ id d, calls (fill heap (report k ready)).1 (fill heap (report k ready)).2 id d =
        if (fdOf id, d) ∈ ready then 1 else 0) ↔
      ∀ fd, ¬ ((fd, .read) ∈ ready ∧ (fd, .write) ∈ ready) := by
  constructor
  · rintro once fd ⟨read, write⟩
    obtain ⟨udata, knote⟩ := enabled _ read
    have pointing : fdOf udata = fd := addressed _ _ knote
    rw [← pointing] at read write
    obtain ⟨last, _, called⟩ := kqueue_calls distinct addressed enabled heap udata read
    cases last with
    | read =>
      have never := once udata .write
      rw [called .write, if_pos write] at never
      simp at never
    | write =>
      have never := once udata .read
      rw [called .read, if_pos read] at never
      simp at never
  · intro single id d
    by_cases isReady : ∃ d, (fdOf id, d) ∈ ready
    · obtain ⟨some, isReady⟩ := isReady
      obtain ⟨last, member, called⟩ := kqueue_calls distinct addressed enabled heap id isReady
      have other := single (fdOf id)
      rw [called d, nodup.count, nodup.count]
      cases last <;> cases d <;> simp_all
    · have idle : ∀ d, (fdOf id, d) ∉ ready := fun d member => isReady ⟨d, member⟩
      rw [kqueue_calls_none distinct addressed enabled heap idle d, if_neg (idle d)]

/-- A batch that fits `events_` is filled in whole. -/
theorem poll_ok (heap : ChannelHeap) (sys : KqueueSystem) (records : List Record)
    (room : records.length ≤ sys.poller.eventsSize) :
    ∃ sys', KqueueSystem.poll heap sys (some records) =
      .ok ((fill heap records).1, sys', (fill heap records).2) := by
  cases records with
  | nil => exact ⟨sys, rfl⟩
  | cons record rest =>
    exact ⟨_, by simp only [KqueueSystem.poll, if_neg (Nat.not_lt.mpr room)]; rfl⟩

end Kqueue

section Poll
open PollPoller

variable {heap : ChannelHeap} {sys : PollPoller} {order : List ChannelId}
  {ready : List (Int × Direction)} {numEvents : Nat} {revents : Nat → BitVec 16}

/-- The descriptors that the entries show are distinct. -/
theorem fds_nodup (rep : Represents heap sys order) :
    (sys.pollFds.map fun pfd => pfd.fd).Nodup := by
  have shown : (sys.pollFds.map fun pfd => pfd.fd) =
      order.map fun id => (entryOf (heap id)).1 := by
    have keys := congrArg (List.map Prod.fst) rep.entries
    simpa [List.map_map, Function.comp_def, keyOf] using keys
  rw [shown]
  refine List.Nodup.map_on (fun a memberA b memberB same => ?_) rep.nodup
  have decoded (id : ChannelId) (member : id ∈ order) :=
    @decode_entry ⟨(entryOf (heap id)).1, (entryOf (heap id)).2, 0⟩ (heap id) rfl
      (rep.nonneg id member)
  have fdA := decoded a memberA
  have fdB := decoded b memberB
  simp only at fdA fdB
  rw [same] at fdA
  exact rep.fd_inj memberA memberB (fdA.symm.trans fdB)

/-- The reported entries are the positive ones. -/
theorem numEvents_eq (reports : PollReports sys.pollFds ready numEvents revents) :
    numEvents = (positives (stored sys.pollFds revents)).length := by
  rw [reports.count, positives]
  congr 1
  apply List.filter_congr
  intro pfd member
  obtain ⟨slot, inRange, rfl⟩ := List.mem_mapIdx.mp member
  have positive := (plain_mask (reports.plain slot)).2.2.1
  simp only [decide_eq_decide]
  exact positive

theorem mem_positives {pfd : Pollfd} (reports : PollReports sys.pollFds ready numEvents revents)
    (member : pfd ∈ positives (stored sys.pollFds revents)) :
    pfd.revents.toNat < 8 ∧ (∃ d, (pfd.fd, d) ∈ ready) ∧
      ∀ d, Channel.Wants (pfd.revents.signExtend 32) d ↔ (pfd.fd, d) ∈ ready := by
  obtain ⟨isStored, positive⟩ := List.mem_filter.mp member
  obtain ⟨slot, inRange, rfl⟩ := List.mem_mapIdx.mp isStored
  have masks := reports.masks slot _ (List.getElem?_eq_getElem inRange)
  obtain ⟨_, _, nonzero, some⟩ := plain_mask (reports.plain slot)
  obtain ⟨d, wants⟩ := some (nonzero.mpr (by simpa using positive))
  exact ⟨reports.plain slot, ⟨d, (masks d).mp wants⟩, masks⟩

/-- An entry with a ready direction is reported. -/
theorem positive_of_ready {slot : Nat} {pfd : Pollfd} {d : Direction}
    (reports : PollReports sys.pollFds ready numEvents revents)
    (present : sys.pollFds[slot]? = some pfd) (isReady : (pfd.fd, d) ∈ ready) :
    { pfd with revents := revents slot } ∈ positives (stored sys.pollFds revents) := by
  obtain ⟨inRange, rfl⟩ := List.getElem?_eq_some_iff.mp present
  refine List.mem_filter.mpr ⟨List.mem_mapIdx.mpr ⟨slot, inRange, rfl⟩, ?_⟩
  have wants := (reports.masks slot _ present d).mpr isReady
  have nonzero : revents slot ≠ 0 := by
    intro zero
    rw [zero] at wants
    revert wants
    cases d <;> decide
  simpa using (plain_mask (reports.plain slot)).2.2.1.mp nonzero

/-- The ready directions belong to registered channels that ask for them. -/
def Watched (heap : ChannelHeap) (order : List ChannelId) (ready : List (Int × Direction)) : Prop :=
  ∀ key ∈ ready, ∃ id ∈ order, (heap id).fd = key.1 ∧ Channel.Wants (heap id).events key.2

theorem entry_of_watched (rep : Represents heap sys order) {id : ChannelId} (member : id ∈ order)
    {d : Direction} (wants : Channel.Wants (heap id).events d) :
    ∃ (slot : Nat) (pfd : Pollfd), sys.pollFds[slot]? = some pfd ∧ pfd.fd = (heap id).fd := by
  obtain ⟨slot, present, _⟩ := rep.mem_slot member
  obtain ⟨pfd, found, key⟩ := rep.entry present
  refine ⟨slot, pfd, found, ?_⟩
  have interested : ¬ (heap id).isNoneEvent = true := by
    intro none
    have zero : (heap id).events = kNoneEvent := by simpa [Channel.isNoneEvent] using none
    exact Channel.not_wants_none d (zero ▸ wants)
  have shown : pfd.fd = (entryOf (heap id)).1 := congrArg Prod.fst key
  simpa [entryOf, interested] using shown

/-- The pass over PollPoller makes each callback once. -/
theorem poll_calls_exact (rep : Represents heap sys order) (watched : Watched heap order ready)
    (reports : PollReports sys.pollFds ready numEvents revents)
    (distinct : ∀ a b, (heap a).fd = (heap b).fd → a = b) :
    ∃ heap' sys' active, PollPoller.poll heap sys (.events numEvents revents) =
        .ok (heap', sys', active) ∧
      ∀ id d, calls heap' active id d = if ((heap id).fd, d) ∈ ready then 1 else 0 := by
  have found : ∀ pfd ∈ positives (stored sys.pollFds revents),
      sys.channels.find pfd.fd = some ((sys.channels.find pfd.fd).getD 0) ∧
        (heap ((sys.channels.find pfd.fd).getD 0)).fd = pfd.fd := by
    intro pfd member
    obtain ⟨_, ⟨d, isReady⟩, _⟩ := mem_positives reports member
    obtain ⟨id, registered, fd, _⟩ := watched _ isReady
    have known := rep.registered registered
    rw [fd] at known
    rw [known]
    exact ⟨rfl, fd⟩
  have nodup : ((positives (stored sys.pollFds revents)).map fun pfd => pfd.fd).Nodup := by
    have shown : ((stored sys.pollFds revents).map fun pfd => pfd.fd) =
        sys.pollFds.map fun pfd => pfd.fd := by
      apply List.ext_getElem?
      intro i
      simp only [stored, List.getElem?_map, List.getElem?_mapIdx, Option.map_map]
      rfl
    refine List.Nodup.sublist ?_ (shown ▸ fds_nodup rep)
    exact List.Sublist.map _ List.filter_sublist
  obtain ⟨heap', ran, marked, _⟩ := fill_ok sys.channels
    (fun fd => (sys.channels.find fd).getD 0) (stored sys.pollFds revents) heap
    (fun pfd member => (found pfd member).1) (fun pfd member => (found pfd member).2) nodup
  refine ⟨heap', _, _, by simp only [PollPoller.poll, numEvents_eq reports, ran]; rfl, ?_⟩
  intro id d
  rw [calls, count_dispatch]
  have once : ((positives (stored sys.pollFds revents)).map fun pfd =>
      (sys.channels.find pfd.fd).getD 0).Nodup := by
    refine List.Nodup.map_on (fun a memberA b memberB same => ?_) (List.Nodup.of_map _ nodup)
    have fdA := (found a memberA).2
    have fdB := (found b memberB).2
    rw [same] at fdA
    exact List.inj_on_of_nodup_map nodup memberA memberB (fdA.symm.trans fdB)
  rw [once.count]
  by_cases listed : id ∈ (positives (stored sys.pollFds revents)).map fun pfd =>
      (sys.channels.find pfd.fd).getD 0
  · obtain ⟨pfd, member, own⟩ := List.mem_map.mp listed
    obtain ⟨plain, _, masks⟩ := mem_positives reports member
    have fd : (heap id).fd = pfd.fd := own ▸ (found pfd member).2
    obtain ⟨hup, err, _⟩ := plain_mask plain
    have revents' := marked pfd member
    simp only [own] at revents'
    rw [if_pos listed, Nat.one_mul, Channel.handleEvent, revents', count_callbacks hup err, fd]
    simp only [masks]
  · have silent : ((heap id).fd, d) ∉ ready := by
      intro isReady
      obtain ⟨other, registered, fd, wants⟩ := watched _ isReady
      cases distinct _ _ fd
      obtain ⟨slot, pfd, present, shown⟩ := entry_of_watched rep registered wants
      rw [← shown] at isReady
      have member := positive_of_ready reports present isReady
      refine listed (List.mem_map.mpr ⟨_, member, ?_⟩)
      simp only [shown, rep.registered registered, Option.getD_some]
    rw [if_neg listed, if_neg silent, Nat.zero_mul]

end Poll

/-- After any operations on any channels, PollPoller makes each callback exactly
once for the reported readiness, and the pass over KqueuePoller makes the same
callbacks exactly when no descriptor is reported readable and writable at once. -/
theorem pollers_alike_exact (fdOf : ChannelId → Int) (distinct : Function.Injective fdOf)
    (nonneg : ∀ id, 0 ≤ fdOf id) (actions : List (ChannelId × ChannelOp))
    (kqueue : Session KqueueSystem) (poll : Session PollPoller)
    (kqueueRun : Run (Guarded Session.Permitted (Graph (Session.step KqueueSystem.impl)))
      (.start .new fdOf) actions kqueue)
    (pollRun : Run (Guarded Session.Permitted (Graph (Session.step PollPoller.impl)))
      (.start .new fdOf) actions poll)
    (ready : List (Int × Direction)) (nodup : ready.Nodup)
    (room : ready.length ≤ kqueue.poller.poller.eventsSize)
    (enabled : ∀ key ∈ ready, kqueue.poller.kernel.Enabled key.1 key.2)
    (watched : ∀ key ∈ ready, ∃ id, poll.usage id ≠ none ∧ fdOf id = key.1 ∧
      Channel.Wants (poll.heap id).events key.2)
    (numEvents : Nat) (revents : Nat → BitVec 16)
    (reports : PollReports poll.poller.pollFds ready numEvents revents) :
    ∃ heapK sysK activeK heapP sysP activeP,
      KqueueSystem.poll kqueue.heap kqueue.poller
          (some (KqueueSystem.report kqueue.poller.kernel ready)) = .ok (heapK, sysK, activeK) ∧
      PollPoller.poll poll.heap poll.poller (.events numEvents revents) =
        .ok (heapP, sysP, activeP) ∧
      (∀ id d, calls heapP activeP id d = if (fdOf id, d) ∈ ready then 1 else 0) ∧
      ((∀ id d, calls heapK activeK id d = calls heapP activeP id d) ↔
        ∀ fd, ¬ ((fd, .read) ∈ ready ∧ (fd, .write) ∈ ready)) := by
  have pointing := KqueueSystem.pointing_of_run kqueueRun
  obtain ⟨order, slots⟩ := PollPoller.slots_of_run nonneg pollRun
  have inOrder : Watched poll.heap order ready := by
    intro key member
    obtain ⟨id, used, fd, wants⟩ := watched key member
    exact ⟨id, (slots.used id).mp used, (slots.fd id).trans fd, wants⟩
  have apart : ∀ a b, (poll.heap a).fd = (poll.heap b).fd → a = b := by
    intro a b same
    rw [slots.fd, slots.fd] at same
    exact distinct same
  have fits : (KqueueSystem.report kqueue.poller.kernel ready).length ≤
      kqueue.poller.poller.eventsSize := le_trans (List.length_filterMap_le _ _) room
  obtain ⟨sysK, ranK⟩ := poll_ok kqueue.heap kqueue.poller _ fits
  obtain ⟨heapP, sysP, activeP, ranP, once⟩ := poll_calls_exact slots.rep inOrder reports apart
  refine ⟨_, sysK, _, heapP, sysP, activeP, ranK, ranP, fun id d => ?_, ?_⟩
  · rw [once, slots.fd]
  · refine Iff.trans ?_
      (kqueue_calls_exact distinct pointing.addressed enabled nodup kqueue.heap)
    simp only [once, slots.fd]

/-- Channel 5 watches both directions. -/
def bothWays : List (ChannelId × ChannelOp) := [(5, .update .enRead), (5, .update .enWrite)]

/-- Ready both ways: KqueuePoller calls `writeCallback_` twice and `readCallback_`
never, PollPoller calls each once. -/
theorem both_ways_dispatch_differs :
    ∃ (kqueue : Session KqueueSystem) (poll : Session PollPoller)
        (heapK heapP : ChannelHeap) (sysK : KqueueSystem) (sysP : PollPoller)
        (activeK activeP : List ChannelId),
      Run (Guarded Session.Permitted (Graph (Session.step KqueueSystem.impl)))
        (.start .new fun id => (id : Int)) bothWays kqueue ∧
      Run (Guarded Session.Permitted (Graph (Session.step PollPoller.impl)))
        (.start .new fun id => (id : Int)) bothWays poll ∧
      KqueueSystem.poll kqueue.heap kqueue.poller
          (some (KqueueSystem.report kqueue.poller.kernel [(5, .read), (5, .write)])) =
        .ok (heapK, sysK, activeK) ∧
      PollPoller.poll poll.heap poll.poller (.events 1 fun _ => 5) =
        .ok (heapP, sysP, activeP) ∧
      dispatch heapK activeK = [(5, .write), (5, .write)] ∧
      dispatch heapP activeP = [(5, .read), (5, .write)] := by
  refine ⟨_, _, _, _, _, _, _, _, .cons ⟨trivial, rfl⟩ (.cons ⟨trivial, rfl⟩ (.nil _)),
    .cons ⟨trivial, rfl⟩ (.cons ⟨trivial, rfl⟩ (.nil _)), rfl, rfl, by decide, by decide⟩

/-- One channel, ready for reading. -/
theorem pollers_alike_exact_readable :
    ∃ (kqueue : Session KqueueSystem) (poll : Session PollPoller)
        (heapK heapP : ChannelHeap) (sysK : KqueueSystem) (sysP : PollPoller)
        (activeK activeP : List ChannelId),
      KqueueSystem.poll kqueue.heap kqueue.poller
          (some (KqueueSystem.report kqueue.poller.kernel [(5, .read)])) =
        .ok (heapK, sysK, activeK) ∧
      PollPoller.poll poll.heap poll.poller (.events 1 fun _ => 1) =
        .ok (heapP, sysP, activeP) ∧
      ∀ id d, calls heapK activeK id d = calls heapP activeP id d := by
  obtain ⟨kqueue, kqueueRun, room, knote⟩ : ∃ kqueue,
      Run (Guarded Session.Permitted (Graph (Session.step KqueueSystem.impl)))
        (.start .new fun id => (id : Int)) bothWays kqueue ∧
      kqueue.poller.poller.eventsSize = 16 ∧ kqueue.poller.kernel.Enabled 5 .read :=
    ⟨_, .cons ⟨trivial, rfl⟩ (.cons ⟨trivial, rfl⟩ (.nil _)), rfl, 5, by decide⟩
  obtain ⟨poll, pollRun, used, wants, entries⟩ : ∃ poll,
      Run (Guarded Session.Permitted (Graph (Session.step PollPoller.impl)))
        (.start .new fun id => (id : Int)) bothWays poll ∧
      poll.usage 5 ≠ none ∧ Channel.Wants (poll.heap 5).events .read ∧
      poll.poller.pollFds = [⟨5, 7, 0⟩] :=
    ⟨_, .cons ⟨trivial, rfl⟩ (.cons ⟨trivial, rfl⟩ (.nil _)), by decide, by decide, by decide⟩
  have reports : PollReports poll.poller.pollFds [(5, .read)] 1 fun _ => 1 := by
    rw [entries]
    refine ⟨fun _ => by decide, fun slot pfd present d => ?_, by decide⟩
    obtain ⟨_, rfl⟩ : slot = 0 ∧ (⟨5, 7, 0⟩ : Pollfd) = pfd := by
      rw [List.getElem?_singleton] at present
      split at present
      · next first => exact ⟨first, Option.some.inj present⟩
      · cases present
    cases d <;> decide
  obtain ⟨heapK, sysK, activeK, heapP, sysP, activeP, ranK, ranP, _, alike⟩ :=
    pollers_alike_exact (fun id => (id : Int)) (fun _ _ same => Int.ofNat.inj same)
      (fun _ => Int.natCast_nonneg _) bothWays kqueue poll kqueueRun pollRun [(5, .read)]
      (by decide) (by rw [room]; decide) (by simpa using knote)
      (by simpa using ⟨5, used, rfl, wants⟩) 1 (fun _ => 1) reports
  exact ⟨kqueue, poll, heapK, heapP, sysK, sysP, activeK, activeP, ranK, ranP,
    alike.mpr (by simp)⟩

end Muduo.Guarantees
