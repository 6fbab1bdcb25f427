import Muduo.Source.KqueuePollerLocality
import Muduo.Source.PollPoller
import Muduo.Source.ReactorLoop

/-!
# The pollers as seen by a reactor

`newDefaultPoller` makes a KqueuePoller; PollPoller stands beside it. What both
promise: an operation changes the interest of its own channel only, and a poll
reports channels that some operation has brought to the poller.
-/
namespace Muduo.Source
open Muduo.Support

/-- `kevent` reports enabled filters, each once, at most as many as `events_` holds;
closing a descriptor removes its filters. -/
def KqueueSystem.polling : Polling KqueueSystem where
  toPollerImpl := KqueueSystem.impl
  Answer := Option (List (Int × Filter))
  reports sys answer :=
    match answer with
    | none => true
    | some ready =>
      decide ready.Nodup && decide (ready.length ≤ sys.poller.eventsSize) &&
        ready.all fun key => (sys.kernel.knotes key).any Knote.enabled
  poll heap sys answer := KqueueSystem.poll heap sys (answer.map (KqueueSystem.report sys.kernel))
  closed sys fd :=
    { sys with kernel.knotes := fun key => if key.1 = fd then none else sys.kernel.knotes key }

/-- `POLLERR | POLLHUP | POLLNVAL`, reported without being asked for. -/
def unaskedEvents : BitVec 16 := (pollErr ||| pollHup ||| pollNval).setWidth 16

/-- `::poll` stores events that were asked for, none in an ignored entry, and
returns the number of entries with some. -/
def PollPoller.polling : Polling PollPoller where
  toPollerImpl := PollPoller.impl
  Answer := PollPoller.PollAnswer
  reports sys answer :=
    match answer with
    | .error => true
    | .events numEvents revents =>
      (sys.pollFds.zipIdx.all fun entry =>
        if entry.1.fd < 0 then revents entry.2 == 0
        else revents entry.2 &&& ~~~(entry.1.events ||| unaskedEvents) == 0) &&
      numEvents == ((PollPoller.stored sys.pollFds revents).filter (·.revents ≠ 0)).length
  poll := PollPoller.poll
  closed sys _ := sys

/-- The two implementations. -/
inductive PollerKind where
  | kqueue | poll
  deriving DecidableEq, Repr

namespace PollerKind

abbrev State : PollerKind → Type
  | kqueue => KqueueSystem
  | poll => PollPoller

def polling : (kind : PollerKind) → Polling kind.State
  | kqueue => KqueueSystem.polling
  | poll => PollPoller.polling

def new : (kind : PollerKind) → kind.State
  | kqueue => .new
  | poll => .new

/-- A functor of the user has the loop accept a connection; `connectionCallback_` runs. -/
def opening {answer : Type} (silence : answer) (c : ConnId) : List (Action answer) :=
  [.call .queueInLoop, .other 0, .poll silence, .loop .none, .loop .none,
    .loop (.loopCall (.newConnection c)), .loop .none, .loop .none]

/-- One server on the loop, connections on the descriptors of their names. -/
def exampleSettings : Settings := ⟨fun id => (id : Int), [], true, false⟩

end PollerKind

/-- What a reactor relies on; `mentions` holds of the channels brought to the poller. -/
structure Polling.Lawful {σ : Type} (impl : Polling σ) (mentions : σ → ChannelId → Prop) :
    Prop where
  operate_events : ∀ {heap heap' : ChannelHeap} {s s' : σ} {id : ChannelId} {op : ChannelOp},
    impl.operate heap s id op = .ok (heap', s') →
    ∀ other, (heap' other).events = (op.apply heap id other).events
  operate_mentions : ∀ {heap heap' : ChannelHeap} {s s' : σ} {id : ChannelId} {op : ChannelOp},
    impl.operate heap s id op = .ok (heap', s') → ∀ other, mentions s' other →
      op ≠ .remove ∧ other = id ∨ mentions s other
  poll_events : ∀ {heap heap' : ChannelHeap} {s s' : σ} {answer : impl.Answer}
    {active : List ChannelId}, impl.poll heap s answer = .ok (heap', s', active) →
    ∀ other, (heap' other).events = (heap other).events
  poll_mentions : ∀ {heap heap' : ChannelHeap} {s s' : σ} {answer : impl.Answer}
    {active : List ChannelId}, impl.poll heap s answer = .ok (heap', s', active) →
    ∀ other, other ∈ active ∨ mentions s' other → mentions s other
  closed_mentions : ∀ {s : σ} {fd : Int} {other : ChannelId},
    mentions (impl.closed s fd) other → mentions s other

namespace KqueueSystem

variable {heap heap' : ChannelHeap} {sys sys' : KqueueSystem}

/-- Some filter carries the channel's pointer, or the map leads to it. -/
def Mentions (sys : KqueueSystem) (id : ChannelId) : Prop :=
  (∃ key knote, sys.kernel.knotes key = some knote ∧ knote.udata = id) ∨
    ∃ fd, sys.poller.channels.find fd = some id

theorem fill_events (heap : ChannelHeap) (records : List Record) (other : ChannelId) :
    ((fill heap records).1 other).events = (heap other).events := by
  induction records generalizing heap with
  | nil => rfl
  | cons record rest ih => exact (ih _).trans (ChannelHeap.events_setRevents ..)

/-- A poll sets `revents_` of reported channels, whose pointers stand in the kernel. -/
theorem poll_reported {answer : Option (List (Int × Filter))} {active : List ChannelId}
    (polled : polling.poll heap sys answer = .ok (heap', sys', active)) :
    (∀ other, (heap' other).events = (heap other).events) ∧ sys'.kernel = sys.kernel ∧
      sys'.poller.channels = sys.poller.channels ∧ ∀ other ∈ active, sys.Mentions other := by
  simp only [polling, poll] at polled
  split at polled
  · cases polled
    exact ⟨fun _ => rfl, rfl, rfl, by simp⟩
  · cases polled
    exact ⟨fun _ => rfl, rfl, rfl, by simp⟩
  · next records _ reported =>
    simp only [check_ok] at polled
    obtain ⟨_, polled⟩ := polled
    cases polled
    refine ⟨fill_events heap records, rfl, rfl, fun other member => ?_⟩
    rw [fill_active] at member
    obtain ⟨record, listed, rfl⟩ := List.mem_map.mp member
    obtain ⟨ready, _, rfl⟩ := Option.map_eq_some_iff.mp reported
    obtain ⟨key, _, found⟩ := List.mem_filterMap.mp listed
    obtain ⟨knote, present, rfl⟩ := Option.map_eq_some_iff.mp found
    exact Or.inl ⟨key, knote, present, rfl⟩

/-- After an operation the kernel holds its own pointer and those it held before. -/
theorem operate_knotes {id : ChannelId} {op : ChannelOp}
    (ran : impl.operate heap sys id op = .ok (heap', sys')) :
    sys'.kernel.Every fun _ other => other = id ∨ sys.Mentions other := by
  obtain ⟨⟨changes, own, called⟩, _⟩ := operate_calls ran
  rw [called]
  refine Kqueue.Every.kevent (fun key knote found => Or.inr (Or.inl ⟨key, knote, found, rfl⟩))
    changes ?_
  exact fun c member => Or.inl (own c member).2

theorem lawful : polling.Lawful Mentions where
  operate_events ran other := ((operate_calls ran).2 other).2
  operate_mentions {heap heap' s s' id op} ran other mentioned := by
    have knotes := operate_knotes ran
    cases op with
    | update opt =>
      rcases mentioned with ⟨key, knote, found, rfl⟩ | ⟨fd, found⟩
      · exact (knotes key knote found).imp_left fun own => ⟨by simp, own⟩
      · exact (operate_entry ran found).imp (fun own => ⟨own.1, own.2.1⟩)
          fun before => Or.inr ⟨fd, before.2⟩
    | remove =>
      have present : s.Mentions id := Or.inr ⟨_, (remove_entered ran).1⟩
      rcases mentioned with ⟨key, knote, found, rfl⟩ | ⟨fd, found⟩
      · rcases knotes key knote found with same | before
        · exact Or.inr (same ▸ present)
        · exact Or.inr before
      · exact (operate_entry ran found).imp (fun own => ⟨own.1, own.2.1⟩)
          fun before => Or.inr ⟨fd, before.2⟩
  poll_events polled := (poll_reported polled).1
  poll_mentions polled other reached := by
    obtain ⟨_, kernel, channels, reported⟩ := poll_reported polled
    rcases reached with member | mentioned
    · exact reported other member
    · simpa only [Mentions, kernel, channels] using mentioned
  closed_mentions {s fd other} mentioned := by
    rcases mentioned with ⟨key, knote, found, own⟩ | present
    · simp only [polling] at found
      split at found
      · cases found
      · exact Or.inl ⟨key, knote, found, own⟩
    · exact Or.inr present

end KqueueSystem

namespace PollPoller

variable {heap heap' : ChannelHeap} {sys sys' : PollPoller} {id : ChannelId}

/-- The map leads to the channel. -/
def Mentions (sys : PollPoller) (id : ChannelId) : Prop := ∃ fd, sys.channels.find fd = some id

theorem mentions_insert {fd : Int} {other : ChannelId}
    (mentioned : Mentions ⟨sys.channels.insert fd id, sys.pollFds⟩ other) :
    other = id ∨ sys.Mentions other := by
  obtain ⟨fd', found⟩ := mentioned
  by_cases same : fd' = fd
  · subst same
    rw [FdMap.find_insert] at found
    exact Or.inl (Option.some.inj found).symm
  · rw [FdMap.find_insert_of_ne _ _ same] at found
    exact Or.inr ⟨fd', found⟩

/-- `updateChannel` sets indices only, and enters its own channel only. -/
theorem updateChannel_effect (opt : Opt) (ran : updateChannel heap sys id opt = .ok (heap', sys')) :
    (∀ other, (heap' other).events = (heap other).events) ∧
      ∀ other, sys'.Mentions other → other = id ∨ sys.Mentions other := by
  unfold updateChannel at ran
  split at ran
  · simp only [appendChannel, check_ok] at ran
    obtain ⟨_, ran⟩ := ran
    cases ran
    exact ⟨by simp, fun other mentioned => mentions_insert mentioned⟩
  · simp only [rewriteChannel, check_ok] at ran
    obtain ⟨_, _, _, ran⟩ := ran
    split at ran
    · cases ran
    · simp only [check_ok] at ran
      obtain ⟨_, ran⟩ := ran
      cases ran
      exact ⟨fun _ => rfl, fun other mentioned => Or.inr mentioned⟩

theorem removeChannel_effect (ran : removeChannel heap sys id = .ok (heap', sys')) :
    (∀ other, (heap' other).events = (heap other).events) ∧
      ∀ other, sys'.Mentions other → sys.Mentions other := by
  simp only [removeChannel, check_ok] at ran
  obtain ⟨_, _, _, _, ran⟩ := ran
  have erased : ∀ other, Mentions ⟨sys.channels.erase (heap id).fd, sys.pollFds⟩ other →
      sys.Mentions other := by
    intro other mentioned
    obtain ⟨fd, found⟩ := mentioned
    by_cases same : fd = (heap id).fd
    · rw [same, FdMap.find_erase] at found
      cases found
    · rw [FdMap.find_erase_of_ne _ same] at found
      exact ⟨fd, found⟩
  split at ran
  · cases ran
  · simp only [check_ok, swapOut] at ran
    obtain ⟨_, ran⟩ := ran
    split at ran
    · cases ran
      exact ⟨fun _ => rfl, erased⟩
    · split at ran
      · cases ran
      · split at ran <;> cases ran
        exact ⟨by simp, erased⟩

theorem fill_effect {channels : FdMap ChannelId} {pollFds : List Pollfd} {numEvents : Nat}
    {active : List ChannelId} (filled : fill channels heap pollFds numEvents = .ok (heap', active)) :
    (∀ other, (heap' other).events = (heap other).events) ∧
      ∀ other ∈ active, ∃ fd, channels.find fd = some other := by
  induction pollFds generalizing heap numEvents heap' active with
  | nil =>
    cases filled
    exact ⟨fun _ => rfl, by simp⟩
  | cons pfd rest ih =>
    cases numEvents with
    | zero =>
      cases filled
      exact ⟨fun _ => rfl, by simp⟩
    | succ numEvents =>
      simp only [fill] at filled
      split at filled
      · exact ih filled
      · split at filled
        · cases filled
        · next id present =>
          simp only [check_ok] at filled
          obtain ⟨_, filled⟩ := filled
          split at filled <;> cases filled
          next heap'' active filled =>
          obtain ⟨events, reported⟩ := ih filled
          refine ⟨fun other => (events other).trans (ChannelHeap.events_setRevents ..), ?_⟩
          intro other member
          rcases List.mem_cons.mp member with rfl | member
          · exact ⟨_, present⟩
          · exact reported other member

theorem lawful : polling.Lawful Mentions where
  operate_events {heap heap' s s' id op} ran other := by
    cases op with
    | update opt => exact (updateChannel_effect opt ran).1 other
    | remove =>
      simp only [PollerImpl.operate] at ran
      split at ran
      · exact (removeChannel_effect ran).1 other
      · cases ran
  operate_mentions {heap heap' s s' id op} ran other mentioned := by
    cases op with
    | update opt =>
      exact ((updateChannel_effect opt ran).2 other mentioned).imp_left fun own => ⟨by simp, own⟩
    | remove =>
      simp only [PollerImpl.operate] at ran
      split at ran
      · exact Or.inr ((removeChannel_effect ran).2 other mentioned)
      · cases ran
  poll_events {heap heap' s s' answer active} polled other := by
    simp only [polling, poll] at polled
    split at polled
    · cases polled
      rfl
    · split at polled <;> cases polled
      next filled => exact (fill_effect filled).1 other
  poll_mentions {heap heap' s s' answer active} polled other reached := by
    simp only [polling, poll] at polled
    split at polled
    · cases polled
      simpa using reached
    · split at polled <;> cases polled
      next filled =>
      rcases reached with member | mentioned
      · exact (fill_effect filled).2 other member
      · exact mentioned
  closed_mentions mentioned := mentioned

end PollPoller

namespace PollerKind

def Mentions : (kind : PollerKind) → kind.State → ChannelId → Prop
  | kqueue => KqueueSystem.Mentions
  | poll => PollPoller.Mentions

theorem lawful (kind : PollerKind) : kind.polling.Lawful kind.Mentions := by
  cases kind with
  | kqueue => exact KqueueSystem.lawful
  | poll => exact PollPoller.lawful

theorem new_mentions (kind : PollerKind) (id : ChannelId) : ¬ kind.Mentions kind.new id := by
  cases kind with
  | kqueue =>
    rintro (⟨key, knote, found, _⟩ | ⟨fd, found⟩)
    · cases found
    · exact absurd found (by simp [new, KqueueSystem.new, KqueuePoller.new])
  | poll =>
    rintro ⟨fd, found⟩
    exact absurd found (by simp [new, PollPoller.new])

end PollerKind

end Muduo.Source
