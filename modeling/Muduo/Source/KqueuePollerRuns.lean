import Muduo.Source.ChannelRuns
import Muduo.Source.KqueuePoller

/-!
# Runs over KqueuePoller

Whatever the record says, a `kevent` call made for a channel only touches the
knotes of its descriptor and only stores its pointer. So a reported record names
the channel of its descriptor. `fillActiveChannels` lists a channel once for each
of its records and leaves the last one's `revents`.
-/
namespace Muduo.Source
open Muduo.Support

namespace Kqueue

/-- Every knote's pointer stands in a relation to its key. -/
def Every (rel : Int × Filter → ChannelId → Prop) (k : Kqueue) : Prop :=
  ∀ key knote, k.knotes key = some knote → rel key knote.udata

/-- Every knote points to the channel of its descriptor. -/
def Addressed (fdOf : ChannelId → Int) (k : Kqueue) : Prop :=
  k.Every fun key id => fdOf id = key.1

variable {rel : Int × Filter → ChannelId → Prop} {k k' : Kqueue}

theorem Every.setKnote (every : k.Every rel) {ident : Int} {filter : Filter}
    {knote : Option Knote} (own : ∀ n, knote = some n → rel (ident, filter) n.udata) :
    (k.setKnote ident filter knote).Every rel := by
  intro key n found
  simp only [Kqueue.setKnote, Function.update_apply] at found
  split at found
  · next same =>
    rw [same]
    exact own n found
  · exact every key n found

theorem Every.register (every : k.Every rel) {c : KeventChange}
    (own : rel (c.ident, c.filter) c.udata) (applied : k.register c = some k') : k'.Every rel := by
  unfold Kqueue.register at applied
  split at applied
  · cases applied
    exact every.setKnote fun n same => by cases same; exact own
  · next knote _ present =>
    cases applied
    exact every.setKnote fun n same => by
      cases same
      exact every _ knote present
  · cases applied
    exact every.setKnote fun n same => by cases same
  · cases applied
  · cases applied

theorem Every.kevent (every : k.Every rel) (changes : List KeventChange)
    (own : ∀ c ∈ changes, rel (c.ident, c.filter) c.udata) : (k.kevent changes).2.Every rel := by
  induction changes generalizing k with
  | nil => exact every
  | cons c rest ih =>
    have first := own c List.mem_cons_self
    have others : ∀ c ∈ rest, rel (c.ident, c.filter) c.udata :=
      fun c member => own c (List.mem_cons_of_mem _ member)
    cases applied : k.register c with
    | none =>
      simp only [Kqueue.kevent, applied]
      exact every
    | some k' =>
      simp only [Kqueue.kevent, applied]
      exact ih (every.register first applied) others

end Kqueue

namespace KqueueSystem

variable {heap heap' : ChannelHeap} {sys sys' : KqueueSystem} {id : ChannelId}

/-- One call to the kernel, about the channel's own descriptor and with its pointer. -/
def CallsFor (heap : ChannelHeap) (id : ChannelId) (k k' : Kqueue) : Prop :=
  ∃ changes, (∀ c ∈ changes, c.ident = (heap id).fd ∧ c.udata = id) ∧ k' = (k.kevent changes).2

theorem updateOne_calls (filter : Filter) (flags : KeventFlags) :
    CallsFor heap id sys.kernel (sys.updateOne heap id filter flags).kernel :=
  ⟨_, fun c member => by rw [List.mem_singleton.mp member]; exact ⟨rfl, rfl⟩, rfl⟩

theorem update_calls {flags : KeventFlags} (ran : sys.update heap id flags = .ok sys') :
    CallsFor heap id sys.kernel sys'.kernel := by
  unfold update at ran
  cases record : sys.poller.kqEvents.find (heap id).fd with
  | none => simp [record] at ran
  | some reg =>
    simp only [record] at ran
    split at ran
    · next kernel called =>
      cases ran
      refine ⟨recordedChanges reg (heap id).fd flags id, fun c member => ?_, by rw [called]⟩
      obtain ⟨filter, _, rfl⟩ := List.mem_map.mp member
      exact ⟨rfl, rfl⟩
    · cases ran

theorem updateKnownChannel_calls {opt : Opt} {reg : EventMask}
    (ran : sys.updateKnownChannel heap id opt reg = .ok sys') :
    CallsFor heap id sys.kernel sys'.kernel := by
  cases opt with
  | disAll =>
    simp only [updateKnownChannel] at ran
    split at ran
    · next disabled =>
      cases ran
      exact (update_calls disabled : CallsFor heap id sys.kernel _)
    · cases ran
  | enRead | disRead | enWrite | disWrite =>
    cases ran
    exact updateOne_calls ..

/-- A first registration tests that the map has no entry. -/
theorem updateNewChannel_inv {opt : Opt}
    (ran : sys.updateNewChannel heap id opt = .ok (heap', sys')) :
    sys.poller.channels.find (heap id).fd = none ∧
      heap' = heap.setIndex id KqueuePoller.kAdded ∧
      ∃ filter, sys' = ((({ sys with
        poller.channels := sys.poller.channels.insert (heap id).fd id }.setKqEvents (heap id).fd
          0).updateOne (heap.setIndex id KqueuePoller.kAdded) id filter .addEnable).setKqEvents
          (heap id).fd (0 ||| kReadEvent)) := by
  simp only [updateNewChannel, check_ok, not_not] at ran
  obtain ⟨absent, _, ran⟩ := ran
  split at ran <;> cases ran
  · exact ⟨absent, rfl, .read, rfl⟩
  · exact ⟨absent, rfl, .write, rfl⟩

/-- An update registers a new channel, or finds the entry and the record of its own. -/
theorem updateChannel_inv {opt : Opt} (ran : updateChannel heap sys id opt = .ok (heap', sys')) :
    sys.updateNewChannel heap id opt = .ok (heap', sys') ∨
      sys.poller.channels.find (heap id).fd = some id ∧ (heap id).index = KqueuePoller.kAdded ∧
        heap' = heap ∧ ∃ reg, sys.updateKnownChannel heap id opt reg = .ok sys' := by
  simp only [updateChannel] at ran
  split at ran
  · exact Or.inl ran
  · simp only [check_ok, not_not] at ran
    obtain ⟨_, same, index, ran⟩ := ran
    split at ran
    · cases ran
    · split at ran <;> cases ran
      next known => exact Or.inr ⟨same, index, rfl, _, known⟩

/-- A removal finds the entry of its own channel, and erases it and the record. -/
theorem removeChannel_inv (ran : removeChannel heap sys id = .ok (heap', sys')) :
    sys.poller.channels.find (heap id).fd = some id ∧
      heap' = heap.setIndex id KqueuePoller.kNew ∧
      ∃ deleted, { sys with poller.channels := sys.poller.channels.erase (heap id).fd }.update
          heap id .delete = .ok deleted ∧
        sys' = { deleted with poller.kqEvents := deleted.poller.kqEvents.erase (heap id).fd } := by
  simp only [removeChannel, check_ok, not_not] at ran
  obtain ⟨_, own, _, _, ran⟩ := ran
  split at ran
  · cases ran
  · next deleted =>
    simp only [check_ok] at ran
    obtain ⟨_, ran⟩ := ran
    cases ran
    exact ⟨own, rfl, _, deleted, rfl⟩

theorem updateNewChannel_calls {opt : Opt}
    (ran : sys.updateNewChannel heap id opt = .ok (heap', sys')) :
    CallsFor heap id sys.kernel sys'.kernel ∧ heap' = heap.setIndex id KqueuePoller.kAdded := by
  have onSame {k k' : Kqueue}
      (calls : CallsFor (heap.setIndex id KqueuePoller.kAdded) id k k') : CallsFor heap id k k' := by
    obtain ⟨changes, own, called⟩ := calls
    exact ⟨changes, fun c member => by simpa using own c member, called⟩
  obtain ⟨_, rfl, filter, rfl⟩ := updateNewChannel_inv ran
  exact ⟨onSame (updateOne_calls ..), rfl⟩

/-- An operation of a channel makes one call for it; beyond the channel's own part
only `index_` changes. -/
theorem operate_calls {op : ChannelOp} (ran : impl.operate heap sys id op = .ok (heap', sys')) :
    CallsFor heap id sys.kernel sys'.kernel ∧
      ∀ other, (heap' other).fd = (heap other).fd ∧
        (heap' other).events = (op.apply heap id other).events := by
  cases op with
  | update opt =>
    have onSame {k k' : Kqueue} (calls : CallsFor (heap.change id opt) id k k') :
        CallsFor heap id k k' := by
      obtain ⟨changes, own, called⟩ := calls
      exact ⟨changes, fun c member => by simpa using own c member, called⟩
    rcases updateChannel_inv ran with new | ⟨_, _, rfl, reg, known⟩
    · obtain ⟨calls, rfl⟩ := updateNewChannel_calls new
      exact ⟨onSame calls, fun other => by simp [ChannelOp.apply]⟩
    · exact ⟨onSame (updateKnownChannel_calls known), fun other => by simp [ChannelOp.apply]⟩
  | remove =>
    simp only [PollerImpl.operate] at ran
    split at ran
    · obtain ⟨_, rfl, _, deleted, rfl⟩ := removeChannel_inv ran
      obtain ⟨changes, own, called⟩ := update_calls deleted
      exact ⟨⟨changes, fun c member => by simpa using own c member, called⟩,
        fun other => by simp [ChannelOp.apply]⟩
    · cases ran

/-- A knote keeps pointing to the channel of its descriptor. -/
theorem addressed_operate {fdOf : ChannelId → Int} {op : ChannelOp}
    (fd : ∀ other, (heap other).fd = fdOf other) (addressed : sys.kernel.Addressed fdOf)
    (ran : impl.operate heap sys id op = .ok (heap', sys')) : sys'.kernel.Addressed fdOf := by
  obtain ⟨⟨changes, own, called⟩, _⟩ := operate_calls ran
  rw [called]
  refine Kqueue.Every.kevent addressed changes fun c member => ?_
  simp only [(own c member).1, (own c member).2, fd]

/-- Descriptors stay as they were, and every knote points to the right channel. -/
structure Pointing (fdOf : ChannelId → Int) (s : Session KqueueSystem) : Prop where
  fd : ∀ id, (s.heap id).fd = fdOf id
  addressed : s.poller.kernel.Addressed fdOf

theorem pointing_of_run {fdOf : ChannelId → Int} {guard : Session KqueueSystem → _ → Prop}
    {s : Session KqueueSystem} {actions : List (ChannelId × ChannelOp)}
    (run : Run (Guarded guard (Graph (Session.step impl))) (.start .new fdOf) actions s) :
    Pointing fdOf s := by
  have start : Pointing fdOf (.start .new fdOf) :=
    ⟨fun _ => rfl, fun _ _ found => by cases found⟩
  refine run.invariant start ?_
  rintro s ⟨id, op⟩ s' pointing ⟨_, ran⟩
  simp only [Support.Graph, Session.step] at ran
  split at ran
  · next operated =>
    cases ran
    exact ⟨fun other => ((operate_calls operated).2 other).1.trans (pointing.fd other),
      addressed_operate pointing.fd pointing.addressed operated⟩
  · cases ran

/-- The records for ready filters, with the pointers the knotes hold. -/
def report (k : Kqueue) (ready : List (Int × Filter)) : List Record :=
  ready.filterMap fun key => (k.knotes key).map fun knote => ⟨key.2, knote.udata⟩

theorem fill_active (heap : ChannelHeap) (records : List Record) :
    (fill heap records).2 = records.map Record.udata := by
  induction records generalizing heap with
  | nil => rfl
  | cons record rest ih => simp only [fill, List.map_cons, ih]

theorem fill_other (heap : ChannelHeap) (records : List Record) {id : ChannelId}
    (absent : ∀ record ∈ records, record.udata ≠ id) : (fill heap records).1 id = heap id := by
  induction records generalizing heap with
  | nil => rfl
  | cons record rest ih =>
    have different := absent record List.mem_cons_self
    simp only [fill]
    rw [ih _ fun other member => absent other (List.mem_cons_of_mem _ member)]
    exact ChannelHeap.setRevents_other _ _ _ different.symm _

/-- A listed channel keeps the `revents` of one of its records. -/
theorem fill_listed (heap : ChannelHeap) (records : List Record) {id : ChannelId}
    (listed : ∃ record ∈ records, record.udata = id) :
    ∃ record ∈ records, record.udata = id ∧
      ((fill heap records).1 id).revents = record.revents := by
  induction records generalizing heap with
  | nil => simp at listed
  | cons record rest ih =>
    by_cases later : ∃ other ∈ rest, other.udata = id
    · obtain ⟨last, member, same, revents⟩ := ih (heap.setRevents record.udata record.revents) later
      exact ⟨last, List.mem_cons_of_mem _ member, same, revents⟩
    · have absent : ∀ other ∈ rest, other.udata ≠ id :=
        fun other member same => later ⟨other, member, same⟩
      have own : record.udata = id := by
        obtain ⟨first, member, same⟩ := listed
        rcases List.mem_cons.mp member with rfl | member
        · exact same
        · exact absurd same (absent first member)
      refine ⟨record, List.mem_cons_self, own, ?_⟩
      simp only [fill]
      rw [fill_other _ _ absent, ← own, ChannelHeap.revents_setRevents_same]

end KqueueSystem

end Muduo.Source
