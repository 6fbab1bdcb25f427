import Muduo.Source.KqueuePollerLocality
import Muduo.Source.ReactorTeardown

/-!
# The channels of a reactor's connections

KqueuePoller knows a connection's channel from `connectEstablished` to the end of
`connectDestroyed`, and every open connection watches for input. A descriptor is
used again only after the poller has forgotten it.
-/
namespace Muduo.Source
open Muduo.Support

/-- Frames whose next step registers a channel, or removes it. -/
def Frame.registers : Frame → Option ConnId
  | .connectEstablishedStore c | .connectDestroyedRest c => some c
  | _ => none

namespace World

section Steps

variable {σ : Type} {settings : Settings} {impl : Polling σ} {w w' : World σ} {c : ConnId}

/-- What an action does to the channels, the poller and the connections there are. -/
inductive Touches (settings : Settings) (impl : Polling σ) (w : World σ)
    (action : Action impl.Answer) (w' : World σ) : Prop
  | quiet : w'.heap = w.heap → w'.poller = w.poller → w'.accepted = w.accepted →
      w'.destructed = w.destructed →
      (∀ frame, w.running action = some frame → frame.registers = none) →
      Touches settings impl w action w'
  | construct {new : ConnId} : w.Fresh settings new → w'.heap = w.heap → w'.poller = w.poller →
      w'.accepted = w.accepted ++ [new] → w'.destructed = w.destructed →
      (∀ frame, w.running action = some frame → frame.registers = none) →
      Touches settings impl w action w'
  | operate {frame : Frame} {id : ChannelId} {op : ChannelOp} :
      w.running action = some frame → w.stack.head? = some frame →
      Operates settings w frame id op →
      impl.operate w.heap w.poller id op = .ok (w'.heap, w'.poller) → w'.accepted = w.accepted →
      w'.destructed = w.destructed → Touches settings impl w action w'
  | poll {reported : impl.Answer} {active : List ChannelId} : w.running action = none →
      impl.poll w.heap w.poller reported = .ok (w'.heap, w'.poller, active) →
      w'.accepted = w.accepted → w'.destructed = w.destructed → Touches settings impl w action w'
  | close {c : ConnId} : w.running action = none → w.Live c → w.Unreferenced c →
      w'.heap = w.heap → w'.poller = impl.closed w.poller (settings.fdOf c) →
      w'.accepted = w.accepted → w'.destructed = w.destructed ++ [c] →
      Touches settings impl w action w'

theorem Advance.registers {onLoop : Bool} {frame : Frame} {input : Input} {frames : List Frame}
    (advance : Advance settings impl onLoop w frame input w' frames) :
    frame.registers = none ∨ ∃ id op, Operates settings w frame id op ∧
      impl.operate w.heap w.poller id op = .ok (w'.heap, w'.poller) := by
  cases frame with
  | connectEstablishedStore c =>
    cases advance with
    | yes tested | no tested => cases tested
    | connectEstablishedStore ran =>
      obtain ⟨_, _, operated, rfl⟩ := operate_ok.mp ran
      exact Or.inr ⟨c, _, .connectEstablished, operated⟩
  | connectDestroyedRest c =>
    cases advance with
    | yes tested | no tested => cases tested
    | connectDestroyedRest ran =>
      obtain ⟨_, _, operated, rfl⟩ := operate_ok.mp ran
      exact Or.inr ⟨c, _, .remove, operated⟩
  | _ => exact Or.inl rfl

theorem Step.touches {action : Action impl.Answer} (step : Step settings impl w action w')
    (orderly : w.Orderly) (posts : ∀ frame, frame ∈ w.stack ∨ frame ∈ w.others →
      frame.postsCalls = true) : Touches settings impl w action w' := by
  cases step with
  | @loop frame rest frames input v stack advance =>
    have runs : w.running (.loop input : Action impl.Answer) = some frame := by
      simp [running, stack]
    have only : frame.registers = none → ∀ other,
        w.running (.loop input : Action impl.Answer) = some other → other.registers = none := by
      intro none other same
      rw [runs, Option.some.injEq] at same
      exact same ▸ none
    rcases advance.balance (posts frame (Or.inl (by simp [stack]))) with
      ⟨accepted, _⟩ | ⟨new, rfl, fresh, rfl⟩
    · have operate : ∀ id op, Operates settings w frame id op →
          impl.operate w.heap w.poller id op = .ok (v.heap, v.poller) →
          Touches settings impl w (.loop input) { v with stack := frames ++ rest } :=
        fun id op operates ran => .operate runs (by rw [stack]; rfl) operates ran accepted
          advance.control.destructed
      rcases advance.registers with none | ⟨id, op, operates, ran⟩
      · rcases advance.operated with ⟨heap, poller⟩ | ⟨id, op, operates, ran⟩
        · exact .quiet heap poller accepted advance.control.destructed (only none)
        · exact operate id op operates ran
      · exact operate id op operates ran
    · exact .construct fresh rfl rfl rfl rfl (only rfl)
  | @other frame before after frames v others advance =>
    have present : frame ∈ w.others := by simp [others]
    have calling := orderly.calling frame present
    rcases advance.balance (posts frame (Or.inr present)) with ⟨accepted, _⟩ | ⟨_, rfl, _⟩
    · rcases advance.operated with ⟨heap, poller⟩ | ⟨id, op, operates, _⟩
      · refine .quiet heap poller accepted advance.control.destructed fun other same => ?_
        have runs : w.running (.other before.length : Action impl.Answer) = some frame := by
          simp [running, others]
        rw [runs, Option.some.injEq] at same
        subst same
        cases frame <;> first | rfl | cases calling
      · cases operates <;> cases calling
    · cases calling
  | dispatch empty | swap empty | start empty | again empty =>
    exact .quiet rfl rfl rfl rfl fun other same => by simp [running, empty] at same
  | destroy | call | removeElsewhere | destroyElsewhere =>
    exact .quiet rfl rfl rfl rfl fun other same => by cases same
  | poll _ _ _ polled => exact .poll rfl polled rfl rfl
  | connectElsewhere _ fresh =>
    exact .construct fresh rfl rfl rfl rfl fun other same => by cases same
  | destruct live unreferenced => exact .close rfl live unreferenced rfl rfl rfl rfl

/-- The poller is not to know the connection's channel. -/
def Unwatched (w : World σ) (c : ConnId) : Prop :=
  w.state c = .kConnecting ∨ w.destroyers c = 0

/-- Only registering and removing frames change which channels the poller knows. -/
theorem Step.unwatched {action : Action impl.Answer} (step : Step settings impl w action w')
    (orderly : w.Orderly) (posts : ∀ frame, frame ∈ w.stack ∨ frame ∈ w.others →
      frame.postsCalls = true) (member : c ∈ w.accepted)
    (other : ∀ frame, w.running action = some frame → frame.registers ≠ some c) :
    w'.Unwatched c ↔ w.Unwatched c := by
  have connecting : w'.state c = .kConnecting ↔ w.state c = .kConnecting := by
    refine ⟨fun after => ?_, fun before => ?_⟩
    · by_contra begun
      exact step.state_ne begun after
    · exact step.connecting orderly before fun runs => other _ runs rfl
  have counted : w'.destroyers c = w.destroyers c := by
    rcases step.destroyers orderly posts with ⟨_, count⟩ | ⟨new, fresh, _, count⟩
    · have counted := count c
      rw [if_neg fun runs => other _ runs rfl, Nat.add_zero] at counted
      exact counted
    · have counted := count c
      rwa [if_neg fun own : c = new => fresh_accepted fresh (own ▸ member), Nat.add_zero]
        at counted
  rw [Unwatched, Unwatched, connecting, counted]

/-- After an operation through a frame, the channel is unwatched if it was removed. -/
theorem Step.unwatched_own {action : Action impl.Answer} (step : Step settings impl w action w')
    (orderly : w.Orderly) (posts : ∀ frame, frame ∈ w.stack ∨ frame ∈ w.others →
      frame.postsCalls = true) {frame : Frame} {op : ChannelOp}
    (runs : w.running action = some frame) (member : c ∈ w.accepted)
    (accepted : w'.accepted = w.accepted) (operates : Operates settings w frame c op)
    (once : w.destroyers c ≤ 1) (more : w'.state c = .kConnected → w'.destroyers c ≠ 0)
    (known : frame.registers = none → ¬ w.Unwatched c) :
    w'.Unwatched c ↔ frame = .connectDestroyedRest c := by
  have same : frame.registers = none → (w'.Unwatched c ↔ w.Unwatched c) := by
    intro none
    refine step.unwatched orderly posts member fun other runs' => ?_
    rw [runs, Option.some.injEq] at runs'
    rw [← runs', none]
    simp
  cases operates with
  | connectEstablished =>
    have state : w'.state c = .kConnected := by
      rcases step.state with ⟨_, silent⟩ | ⟨frame, c', s, runs', stores, changed⟩
      · exact absurd .connectEstablished (silent _ runs _ _)
      · rw [runs, Option.some.injEq] at runs'
        subst runs'
        cases stores
        rw [changed, if_pos rfl]
    refine iff_of_false (fun apart => ?_) (by simp)
    rcases apart with connecting | spent
    · cases connecting.symm.trans state
    · exact more state spent
  | remove =>
    refine iff_of_true (Or.inr ?_) rfl
    rcases step.destroyers orderly posts with ⟨_, count⟩ | ⟨new, _, grown, _⟩
    · have counted := count c
      rw [if_pos runs] at counted
      omega
    · simp [accepted] at grown
  | watch | handleClose | connectDestroyed | enableWriting | disableWriting =>
    exact iff_of_false (fun apart => known rfl ((same rfl).mp apart)) (by simp)

/-- Open connections watch for input. -/
def Reading (w : World σ) : Prop := ∀ c, w.Open c → Channel.Wants (w.heap c).events .read

/-- A connection opens with `connectEstablished`. -/
theorem Step.open_before {action : Action impl.Answer} (step : Step settings impl w action w')
    (orderly : w.Orderly) (onTime : w.NoLateStore action) (open_ : w'.Open c) :
    w.Open c ∨ w.running action = some (.connectEstablishedStore c) := by
  rcases step.state with ⟨same, _⟩ | ⟨frame, c', s, runs, stores, changed⟩
  · simp only [Open, same] at open_
    exact Or.inl open_
  · simp only [Open, changed] at open_
    by_cases own : c = c'
    · subst own
      rw [if_pos rfl] at open_
      have known := orderly.running_knows runs
      cases stores with
      | shutdown before => exact Or.inl (Or.inl before)
      | forceClose =>
        have late := noLateStore_iff.mp onTime c runs
        refine Or.inl ?_
        cases state : w.state c <;> simp_all [Knows, Open]
      | connectEstablished => exact Or.inr runs
      | handleClose | connectDestroyed => simp at open_
    · rw [if_neg own] at open_
      exact Or.inl open_

/-- What an operation leaves of an open connection's interest in input. -/
theorem Operates.reading {frame : Frame} {id : ChannelId} {op : ChannelOp}
    (operates : Operates settings w frame id op) {action : Action impl.Answer}
    (runs : w.running action = some frame) (step : Step settings impl w action w')
    (open_ : w'.Open c)
    (before : Channel.Wants (w.heap c).events .read ∨ frame = .connectEstablishedStore c) :
    Channel.Wants (op.apply w.heap id c).events .read := by
  have notClosed : ¬ w.Stores frame c .kDisconnected := by
    intro stores
    rcases step.state with ⟨_, silent⟩ | ⟨frame', c', s, runs', stores', changed⟩
    · exact silent frame runs _ _ stores
    · rw [runs, Option.some.injEq] at runs'
      subst runs'
      simp only [Open, changed] at open_
      cases stores <;> cases stores' <;> simp at open_
  by_cases own : c = id
  · subst own
    cases operates with
    | watch | connectEstablished =>
      rw [ChannelOp.apply, ChannelHeap.events_change_same, Channel.wants_newEvents]
      rfl
    | handleClose => exact absurd .handleClose notClosed
    | connectDestroyed => exact absurd .connectDestroyed notClosed
    | remove =>
      rw [ChannelOp.apply, ChannelHeap.events_leave]
      exact before.resolve_right (by simp)
    | enableWriting | disableWriting =>
      rw [ChannelOp.apply, ChannelHeap.events_change_same, Channel.wants_newEvents]
      exact before.resolve_right (by simp)
  · have stays : Channel.Wants (w.heap c).events .read := by
      refine before.resolve_right ?_
      rintro rfl
      cases operates
      exact own rfl
    cases op with
    | update opt => rwa [ChannelOp.apply, ChannelHeap.change_other _ _ _ own]
    | remove => rwa [ChannelOp.apply, ChannelHeap.events_leave]

theorem Reading.step (reading : w.Reading) {mentions : σ → ChannelId → Prop}
    (lawful : impl.Lawful mentions) (orderly : w.Orderly) (owned : w.Owned settings)
    {action : Action impl.Answer} (onTime : w.NoLateStore action)
    (step : Step settings impl w action w') : w'.Reading := by
  intro c open_
  have before : Channel.Wants (w.heap c).events .read ∨
      w.running action = some (.connectEstablishedStore c) :=
    (step.open_before orderly onTime open_).imp_left (reading c)
  cases step.touches orderly owned.posts with
  | quiet heap _ _ _ only | construct _ heap _ _ _ only =>
    rw [heap]
    exact before.resolve_right fun runs => by cases only _ runs
  | operate runs _ operates ran =>
    rw [lawful.operate_events ran]
    exact operates.reading runs step open_
      (before.imp_right fun same => Option.some.inj (runs.symm.trans same))
  | poll idle polled =>
    rw [lawful.poll_events polled]
    exact before.resolve_right (by simp [idle])
  | close idle _ _ heap =>
    rw [heap]
    exact before.resolve_right (by simp [idle])

end Steps

end World

namespace KqueueSystem

variable {heap heap' : ChannelHeap} {sys sys' : KqueueSystem} {id : ChannelId}

/-- A batch changes nothing of a channel but `revents_`. -/
theorem fill_channel (heap : ChannelHeap) (records : List Record) (other : ChannelId) :
    ∃ revents, (fill heap records).1 other = { heap other with revents := revents } := by
  induction records generalizing heap with
  | nil => exact ⟨_, rfl⟩
  | cons record rest ih =>
    obtain ⟨revents, filled⟩ := ih (heap.setRevents record.udata record.revents)
    refine ⟨revents, filled.trans ?_⟩
    rw [ChannelHeap.setRevents, ChannelHeap.set_apply]
    split
    · next own => rw [own]
    · rfl

/-- A poll leaves what the poller and the kernel know of channels as it is. -/
theorem poll_same {answer : Option (List (Int × Filter))} {active : List ChannelId}
    (polled : polling.poll heap sys answer = .ok (heap', sys', active)) :
    sys'.kernel = sys.kernel ∧ sys'.poller.channels = sys.poller.channels ∧
      sys'.poller.kqEvents = sys.poller.kqEvents ∧
        ∀ other, ∃ revents, heap' other = { heap other with revents := revents } := by
  simp only [polling, poll] at polled
  split at polled
  · cases polled
    exact ⟨rfl, rfl, rfl, fun other => ⟨_, rfl⟩⟩
  · cases polled
    exact ⟨rfl, rfl, rfl, fun other => ⟨_, rfl⟩⟩
  · simp only [check_ok] at polled
    obtain ⟨_, polled⟩ := polled
    cases polled
    exact ⟨rfl, rfl, rfl, fill_channel heap _⟩

theorem poll_sameAt {answer : Option (List (Int × Filter))} {active : List ChannelId}
    (polled : polling.poll heap sys answer = .ok (heap', sys', active)) :
    SameAt heap sys id heap' sys' := by
  obtain ⟨kernel, channels, records, filled⟩ := poll_same polled
  obtain ⟨revents, same⟩ := filled id
  exact ⟨by rw [same], by rw [same], by rw [same], by rw [channels], by rw [records],
    fun filter => by rw [kernel]⟩

/-- What is attached stays so when less is asked for. -/
theorem Registered.mono {seen seen' : Finset Direction} (registered : Registered heap sys id seen)
    (subset : seen' ⊆ seen) : Registered heap sys id seen' :=
  ⟨registered.known, registered.enabled, fun filter member =>
    registered.attached filter (subset member)⟩

/-- The write filter of a writing channel is attached. -/
theorem Registered.writing (registered : Registered heap sys id ∅)
    (writing : (heap id).isWriting = true) : Registered heap sys id {.write} := by
  refine ⟨registered.known, registered.enabled, fun filter member => ?_⟩
  rw [Finset.mem_singleton.mp member]
  have wants : Channel.Wants (heap id).events .write := by
    simpa [Channel.isWriting, Channel.Wants] using writing
  exact ((registered.enabled .write).mpr wants).attached

end KqueueSystem

namespace World
open KqueueSystem

variable {settings : Settings} {kept kept' : ConnId → Prop} {w w' : World KqueueSystem} {c : ConnId}

/-- No open socket has the descriptor. -/
def Free (settings : Settings) (w : World KqueueSystem) (fd : Int) : Prop :=
  (∀ id ∈ settings.aux, settings.fdOf id ≠ fd) ∧ ∀ c, w.Live c → settings.fdOf c ≠ fd

/-- The poller and the kernel know nothing about the descriptor. -/
structure Clean (sys : KqueueSystem) (fd : Int) : Prop where
  entry : sys.poller.channels.find fd = none
  record : sys.poller.kqEvents.find fd = none
  silent : ∀ filter, ¬ sys.kernel.Enabled fd filter

/-- The poller's part for some of the connections. -/
structure Watching (settings : Settings) (kept : ConnId → Prop) (w : World KqueueSystem) : Prop where
  fd : ∀ id, (w.heap id).fd = settings.fdOf id
  entries : ∀ fd id, w.poller.poller.channels.find fd = some id → settings.fdOf id = fd
  apart : ∀ c other, w.Live c → w.Live other → settings.fdOf c = settings.fdOf other → c = other
  auxApart : ∀ c, w.Live c → ∀ id ∈ settings.aux, settings.fdOf id ≠ settings.fdOf c
  fresh : ∀ id, id ∉ w.accepted → id ∉ settings.aux →
    (w.heap id).index = KqueuePoller.kNew ∧ (w.heap id).events = kNoneEvent
  clean : ∀ fd, w.Free settings fd → Clean w.poller fd
  unwatched : ∀ c, w.Live c → kept c → w.Unwatched c → Unregistered w.heap w.poller c
  watched : ∀ c, w.Live c → kept c → ¬ w.Unwatched c → Registered w.heap w.poller c ∅

theorem start_watching (settings : Settings) (kept : ConnId → Prop) :
    (start settings KqueueSystem.new).Watching settings kept where
  fd _ := rfl
  entries fd id found := by simp [start, KqueueSystem.new, KqueuePoller.new] at found
  apart c _ live := by simp [start, Live] at live
  auxApart c live := by simp [start, Live] at live
  fresh _ _ _ := ⟨rfl, rfl⟩
  clean fd _ := ⟨rfl, rfl, fun _ enabled => by obtain ⟨_, knote⟩ := enabled; cases knote⟩
  unwatched c live := by simp [start, Live] at live
  watched c live := by simp [start, Live] at live

/-- The open channels and the maps stay as they are, and no knote is enabled. -/
theorem Watching.frame (watching : w.Watching settings kept)
    (same : ∀ c, w.Live c → SameAt w.heap w.poller c w'.heap w'.poller)
    (heap : ∀ id, (w'.heap id).fd = (w.heap id).fd ∧ (w'.heap id).events = (w.heap id).events ∧
      (w'.heap id).index = (w.heap id).index)
    (entries : w'.poller.poller.channels = w.poller.poller.channels)
    (records : w'.poller.poller.kqEvents = w.poller.poller.kqEvents)
    (enabled : ∀ fd filter, w'.poller.kernel.Enabled fd filter → w.poller.kernel.Enabled fd filter)
    (accepted : w'.accepted = w.accepted) (destructed : w'.destructed = w.destructed)
    (fewer : ∀ c, kept' c → kept c)
    (unwatched : ∀ c ∈ w.accepted, w'.Unwatched c ↔ w.Unwatched c) : w'.Watching settings kept' := by
  have live : ∀ c, w'.Live c ↔ w.Live c := fun c => by rw [Live, Live, accepted, destructed]
  refine ⟨fun id => (heap id).1.trans (watching.fd id),
    fun fd id found => watching.entries fd id (entries ▸ found),
    fun c other first second => watching.apart c other ((live c).mp first) ((live other).mp second),
    fun c alive => watching.auxApart c ((live c).mp alive), fun id new other => ?_, fun fd free => ?_,
    fun c alive clear apart => ?_, fun c alive clear known => ?_⟩
  · rw [(heap id).2.1, (heap id).2.2]
    exact watching.fresh id (accepted ▸ new) other
  · obtain ⟨entry, record, silent⟩ := watching.clean fd
      ⟨free.1, fun c alive => free.2 c ((live c).mpr alive)⟩
    exact ⟨by rwa [entries], by rwa [records], fun filter on => silent filter (enabled fd filter on)⟩
  · have alive := (live c).mp alive
    exact (watching.unwatched c alive (fewer c clear) ((unwatched c alive.1).mp apart)).frame
      (same c alive)
  · have alive := (live c).mp alive
    exact (watching.watched c alive (fewer c clear)
      fun apart => known ((unwatched c alive.1).mpr apart)).frame (same c alive)

/-- Nothing changes but `revents_`, and what no channel depends on. -/
theorem Watching.same (watching : w.Watching settings kept)
    (same : ∀ id, SameAt w.heap w.poller id w'.heap w'.poller)
    (entries : w'.poller.poller.channels = w.poller.poller.channels)
    (records : w'.poller.poller.kqEvents = w.poller.poller.kqEvents)
    (kernel : w'.poller.kernel = w.poller.kernel) (accepted : w'.accepted = w.accepted)
    (destructed : w'.destructed = w.destructed) (fewer : ∀ c, kept' c → kept c)
    (unwatched : ∀ c ∈ w.accepted, w'.Unwatched c ↔ w.Unwatched c) : w'.Watching settings kept' :=
  watching.frame (fun c _ => same c) (fun id => ⟨(same id).fd, (same id).events, (same id).index⟩)
    entries records (fun _ _ on => kernel ▸ on) accepted destructed fewer unwatched

/-- The channels of more components are known to be none of the connections'. -/
theorem Watching.grow (watching : w.Watching settings kept) {settings' : Settings}
    (fdOf : settings'.fdOf = settings.fdOf) (more : ∀ id ∈ settings.aux, id ∈ settings'.aux)
    (apart : ∀ id ∈ settings'.aux, ∀ c, w.Live c → settings.fdOf id ≠ settings.fdOf c) :
    w.Watching settings' kept := by
  obtain ⟨fd, entries, distinct, _, fresh, clean, unwatched, watched⟩ := watching
  rw [← fdOf] at fd entries distinct apart
  refine ⟨fd, entries, distinct, fun c live id aux => apart id aux c live,
    fun id new other => fresh id new fun aux => other (more id aux), fun descriptor free => ?_,
    unwatched, watched⟩
  obtain ⟨aux, live⟩ := free
  rw [fdOf] at aux live
  exact clean descriptor ⟨fun id member => aux id (more id member), live⟩

/-- A constructed connection gets a descriptor that the poller does not know. -/
theorem Watching.construct (watching : w.Watching settings kept)
    (born : ∀ c ∈ w.destructed, c ∈ w.accepted) {new : ConnId} (fresh : w.Fresh settings new)
    (heap : w'.heap = w.heap) (poller : w'.poller = w.poller)
    (accepted : w'.accepted = w.accepted ++ [new]) (destructed : w'.destructed = w.destructed)
    (connecting : w'.state new = .kConnecting) (fewer : ∀ c, kept' c → kept c)
    (unwatched : ∀ c ∈ w.accepted, w'.Unwatched c ↔ w.Unwatched c) : w'.Watching settings kept' := by
  obtain ⟨notAux, unknown, auxFd, liveFd⟩ := fresh
  have live : ∀ c, w'.Live c ↔ w.Live c ∨ c = new := by
    intro c
    rw [Live, Live, accepted, destructed, List.mem_append, List.mem_singleton]
    constructor
    · rintro ⟨old | own, alive⟩
      · exact Or.inl ⟨old, alive⟩
      · exact Or.inr own
    · rintro (⟨old, alive⟩ | rfl)
      · exact ⟨Or.inl old, alive⟩
      · exact ⟨Or.inr rfl, fun gone => unknown (born _ gone)⟩
  have newApart : ∀ c, w.Live c → settings.fdOf c ≠ settings.fdOf new :=
    fun c alive => liveFd c alive.1 alive.2
  have unregistered : Unregistered w.heap w.poller new := by
    obtain ⟨index, idle⟩ := watching.fresh new unknown notAux
    obtain ⟨entry, record, silent⟩ := watching.clean (settings.fdOf new) ⟨auxFd, newApart⟩
    refine ⟨index, idle, ?_, ?_, ?_⟩ <;> rwa [watching.fd]
  refine ⟨by rw [heap]; exact watching.fd, by rw [poller]; exact watching.entries, fun c other first second same => ?_,
    fun c alive id aux => ?_, fun id absent apart => ?_, fun fd free => ?_,
    fun c alive clear apart => ?_, fun c alive clear known => ?_⟩
  · rcases (live c).mp first with first | rfl <;> rcases (live other).mp second with second | rfl
    · exact watching.apart c other first second same
    · exact absurd same (newApart c first)
    · exact absurd same.symm (newApart other second)
    · rfl
  · rcases (live c).mp alive with alive | rfl
    · exact watching.auxApart c alive id aux
    · exact auxFd id aux
  · rw [heap]
    exact watching.fresh id (fun old => absent (by simp [accepted, old])) apart
  · rw [poller]
    exact watching.clean fd ⟨free.1, fun c alive => free.2 c ((live c).mpr (Or.inl alive))⟩
  · rw [heap, poller]
    rcases (live c).mp alive with alive | rfl
    · exact watching.unwatched c alive (fewer c clear) ((unwatched c alive.1).mp apart)
    · exact unregistered
  · rw [heap, poller]
    rcases (live c).mp alive with alive | rfl
    · exact watching.watched c alive (fewer c clear) fun apart => known ((unwatched c alive.1).mpr apart)
    · exact absurd (Or.inl connecting) known

/-- The descriptor of a removed channel is clean once it is closed. -/
theorem Watching.close (watching : w.Watching settings kept) {gone : ConnId} (alive : w.Live gone)
    (unregistered : Unregistered w.heap w.poller gone) (heap : w'.heap = w.heap)
    (poller : w'.poller = KqueueSystem.polling.closed w.poller (settings.fdOf gone))
    (accepted : w'.accepted = w.accepted) (destructed : w'.destructed = w.destructed ++ [gone])
    (fewer : ∀ c, kept' c → kept c)
    (unwatched : ∀ c ∈ w.accepted, w'.Unwatched c ↔ w.Unwatched c) :
    w'.Watching settings kept' := by
  have live : ∀ c, w'.Live c ↔ w.Live c ∧ c ≠ gone := by
    intro c
    rw [Live, Live, accepted, destructed, List.mem_append, List.mem_singleton]
    tauto
  have knotes : ∀ fd filter, fd ≠ settings.fdOf gone →
      w'.poller.kernel.knotes (fd, filter) = w.poller.kernel.knotes (fd, filter) := by
    intro fd filter other
    rw [poller]
    exact if_neg other
  have entries : w'.poller.poller = w.poller.poller := by rw [poller]; rfl
  have same : ∀ c, w.Live c → c ≠ gone → SameAt w.heap w.poller c w'.heap w'.poller := by
    intro c live other
    refine ⟨by rw [heap], by rw [heap], by rw [heap], by rw [entries], by rw [entries],
      fun filter => knotes _ filter ?_⟩
    rw [watching.fd]
    exact fun same => other (watching.apart c gone live alive same)
  refine ⟨by rw [heap]; exact watching.fd, by rw [entries]; exact watching.entries,
    fun c other first second => watching.apart c other ((live c).mp first).1 ((live other).mp second).1,
    fun c alive => watching.auxApart c ((live c).mp alive).1,
    by rw [heap, accepted]; exact watching.fresh,
    fun fd free => ?_, fun c alive clear apart => ?_, fun c alive clear known => ?_⟩
  · by_cases own : fd = settings.fdOf gone
    · subst own
      have entry := unregistered.entry
      have record := unregistered.record
      rw [watching.fd] at entry record
      refine ⟨by rwa [entries], by rwa [entries], fun filter enabled => ?_⟩
      obtain ⟨udata, knote⟩ := enabled
      rw [poller] at knote
      simp [KqueueSystem.polling] at knote
    · have before : w.Free settings fd := by
        refine ⟨free.1, fun c alive => ?_⟩
        by_cases last : c = gone
        · rw [last]
          exact Ne.symm own
        · exact free.2 c ((live c).mpr ⟨alive, last⟩)
      obtain ⟨entry, record, silent⟩ := watching.clean fd before
      refine ⟨by rwa [entries], by rwa [entries], fun filter => ?_⟩
      rw [Kqueue.Enabled, knotes fd filter own]
      exact silent filter
  · obtain ⟨alive, other⟩ := (live c).mp alive
    exact (watching.unwatched c alive (fewer c clear) ((unwatched c alive.1).mp apart)).frame
      (same c alive other)
  · obtain ⟨alive, other⟩ := (live c).mp alive
    exact (watching.watched c alive (fewer c clear)
      fun apart => known ((unwatched c alive.1).mpr apart)).frame (same c alive other)

/-- An operation on one channel leaves the other connections alone. -/
theorem Watching.operate (watching : w.Watching settings kept) {id : ChannelId} {op : ChannelOp}
    (there : id ∈ settings.aux ∨ w.Live id)
    (ran : KqueueSystem.impl.operate w.heap w.poller id op = .ok (w'.heap, w'.poller))
    (accepted : w'.accepted = w.accepted) (destructed : w'.destructed = w.destructed)
    (fewer : ∀ c, kept' c → kept c)
    (unwatched : ∀ c, w.Live c → c ≠ id → (w'.Unwatched c ↔ w.Unwatched c))
    (left : w.Live id → kept' id → w'.Unwatched id → Unregistered w'.heap w'.poller id)
    (known : w.Live id → kept' id → ¬ w'.Unwatched id → Registered w'.heap w'.poller id ∅) :
    w'.Watching settings kept' := by
  obtain ⟨maps, channels⟩ := operate_maps ran
  have live : ∀ c, w'.Live c ↔ w.Live c := fun c => by rw [Live, Live, accepted, destructed]
  have used : ∀ fd, w.Free settings fd → fd ≠ (w.heap id).fd := by
    intro fd free
    rw [watching.fd]
    rcases there with aux | there
    · exact (free.1 id aux).symm
    · exact (free.2 id there).symm
  have same : ∀ c, w.Live c → c ≠ id → SameAt w.heap w.poller c w'.heap w'.poller := by
    intro c alive other
    refine operate_sameAt ran other ?_
    rw [watching.fd, watching.fd]
    rcases there with aux | there
    · exact (watching.auxApart c alive id aux).symm
    · exact fun same => other (watching.apart c id alive there same)
  refine ⟨fun other => ((operate_calls ran).2 other).1.trans (watching.fd other),
    fun fd other found => ?_,
    fun c other first second => watching.apart c other ((live c).mp first) ((live other).mp second),
    fun c alive => watching.auxApart c ((live c).mp alive), fun other new apart => ?_, fun fd free => ?_,
    fun c alive clear apart => ?_, fun c alive clear stays => ?_⟩
  · rcases operate_entry ran found with ⟨_, rfl, own⟩ | ⟨_, before⟩
    · rw [own, watching.fd]
    · exact watching.entries fd other before
  · have different : other ≠ id := by
      rintro rfl
      rcases there with aux | there
      · exact apart aux
      · exact new (accepted ▸ there.1)
    rw [channels other different]
    exact watching.fresh other (accepted ▸ new) apart
  · have free : w.Free settings fd := ⟨free.1, fun c alive => free.2 c ((live c).mpr alive)⟩
    have other := used fd free
    obtain ⟨entry, record, silent⟩ := watching.clean fd free
    refine ⟨by rwa [maps.entry fd other], by rwa [maps.record fd other], fun filter => ?_⟩
    rw [Kqueue.Enabled, operate_knotes_other ran other]
    exact silent filter
  · have alive := (live c).mp alive
    by_cases own : c = id
    · subst own
      exact left alive clear apart
    · exact (watching.unwatched c alive (fewer c clear) ((unwatched c alive own).mp apart)).frame
        (same c alive own)
  · have alive := (live c).mp alive
    by_cases own : c = id
    · subst own
      exact known alive clear stays
    · exact (watching.watched c alive (fewer c clear)
        fun apart => stays ((unwatched c alive own).mpr apart)).frame (same c alive own)

/-- What an operation of a frame leaves at its own channel. -/
def Settled (heap : ChannelHeap) (sys : KqueueSystem) (frame : Frame) (id : ChannelId) : Prop :=
  match frame with
  | .connectDestroyedRest _ => Unregistered heap sys id
  | _ => Registered heap sys id ∅

theorem Settled.registered {heap : ChannelHeap} {sys : KqueueSystem} {frame : Frame}
    {id : ChannelId} {op : ChannelOp} (settled : Settled heap sys frame id)
    (operates : Operates settings w frame id op) (stays : frame ≠ .connectDestroyedRest id) :
    Registered heap sys id ∅ := by
  cases operates with
  | remove => exact absurd rfl stays
  | _ => exact settled

/-- An operation on a watched channel succeeds as the caller's rules promise. -/
theorem settled_update {heap heap' : ChannelHeap} {sys sys' : KqueueSystem}
    {id : ChannelId} {opt : Opt} {seen : Finset Direction}
    (registered : Registered heap sys id seen)
    (rules : (opt = .disRead → .read ∈ seen) ∧ (opt = .disWrite → .write ∈ seen))
    (ran : KqueueSystem.impl.operate heap sys id (.update opt) = .ok (heap', sys')) :
    Registered heap' sys' id ∅ := by
  rw [operate_registered registered rules] at ran
  cases ran
  exact registered.update (by simp)

/-- A removal succeeds on a watched channel without interest. -/
theorem settled_remove {heap heap' : ChannelHeap} {sys sys' : KqueueSystem} {id : ChannelId}
    {seen : Finset Direction} (registered : Registered heap sys id seen)
    (ran : KqueueSystem.impl.operate heap sys id .remove = .ok (heap', sys')) :
    Unregistered heap' sys' id := by
  have idle : (heap id).isNoneEvent = true := by
    by_contra interest
    simp only [PollerImpl.operate, if_neg interest] at ran
    cases ran
  rw [operate_remove registered idle] at ran
  cases ran
  exact registered.remove idle

/-- What a frame finds when it operates on the channel of its connection. -/
structure Ready (w : World KqueueSystem) (frame : Frame) (id : ChannelId) : Prop where
  connecting : frame = .connectEstablishedStore id → w.state id = .kConnecting
  known : frame ≠ .connectEstablishedStore id → frame ≠ .handleWrite id → ¬ w.Unwatched id

/-- A channel that is writing is watched. -/
theorem Watching.known (watching : w.Watching settings kept) {frame : Frame} {id : ChannelId}
    {op : ChannelOp} (live : w.Live id) (clear : kept id) (ready : w.Ready frame id)
    (operates : Operates settings w frame id op) (later : frame ≠ .connectEstablishedStore id) :
    ¬ w.Unwatched id := by
  cases operates with
  | disableWriting writing =>
    intro unwatched
    have idle := (watching.unwatched id live clear unwatched).idle
    rw [Channel.isWriting, idle] at writing
    exact absurd writing (by decide)
  | _ => exact ready.known later (by simp)

theorem Watching.settled (watching : w.Watching settings kept) {frame : Frame} {id : ChannelId}
    {op : ChannelOp} (live : w.Live id) (clear : kept id) (own : id ∉ settings.aux)
    (ready : w.Ready frame id) (operates : Operates settings w frame id op)
    {heap : ChannelHeap} {sys : KqueueSystem}
    (ran : KqueueSystem.impl.operate w.heap w.poller id op = .ok (heap, sys)) :
    Settled heap sys frame id := by
  have registered : frame ≠ .connectEstablishedStore id → Registered w.heap w.poller id ∅ :=
    fun later => watching.watched id live clear (watching.known live clear ready operates later)
  cases operates with
  | watch aux => exact absurd aux own
  | connectEstablished =>
    have unregistered := watching.unwatched id live clear (Or.inl (ready.connecting rfl))
    rw [operate_unregistered unregistered (Or.inl rfl)] at ran
    cases ran
    exact unregistered.enableReading.mono (Finset.empty_subset _)
  | handleClose | connectDestroyed | enableWriting =>
    exact settled_update (registered (by simp)) (by simp) ran
  | remove => exact settled_remove (registered (by simp)) ran
  | disableWriting writing =>
    exact settled_update ((registered (by simp)).writing writing) (by simp) ran

/-- What the poller's part relies on of the connections before and after a step. -/
structure Managed (settings : Settings) (kept' : ConnId → Prop) (w w' : World KqueueSystem) :
    Prop where
  destructed : ∀ c ∈ w.destructed, c ∈ w.accepted
  own : ∀ c ∈ w.accepted, c ∉ settings.aux
  unborn : ∀ c, c ∉ w.accepted → w'.state c = .kConnecting
  once : ∀ c, w.destroyers c ≤ 1
  more : ∀ c, kept' c → w'.state c = .kConnected → w'.destroyers c ≠ 0

theorem Watching.step (watching : w.Watching settings kept) (orderly : w.Orderly)
    (posts : ∀ frame, frame ∈ w.stack ∨ frame ∈ w.others → frame.postsCalls = true)
    {action : Action KqueueSystem.polling.Answer}
    (step : Step settings KqueueSystem.polling w action w') (fewer : ∀ c, kept' c → kept c)
    (managed : Managed settings kept' w w')
    (ready : ∀ frame id op, w.running action = some frame → w.stack.head? = some frame →
      Operates settings w frame id op →
      id ∈ settings.aux ∨ w.Live id ∧ (kept' id → w.Ready frame id))
    (closed : ∀ c, w.Live c → w.Unreferenced c → w'.destructed = w.destructed ++ [c] →
      Unregistered w.heap w.poller c) : w'.Watching settings kept' := by
  have unwatched (only : ∀ frame, w.running action = some frame → frame.registers = none) :
      ∀ c ∈ w.accepted, w'.Unwatched c ↔ w.Unwatched c := by
    intro c member
    refine step.unwatched orderly posts member fun frame runs => ?_
    rw [only frame runs]
    simp
  cases step.touches orderly posts with
  | quiet heap poller accepted destructed only =>
    refine watching.same (fun id => ?_) (by rw [poller]) (by rw [poller]) (by rw [poller])
      accepted destructed fewer (unwatched only)
    rw [heap, poller]
    exact ⟨rfl, rfl, rfl, rfl, rfl, fun _ => rfl⟩
  | construct fresh heap poller accepted destructed only =>
    exact watching.construct managed.destructed fresh heap poller accepted destructed
      (managed.unborn _ (fresh_accepted fresh)) fewer (unwatched only)
  | @operate frame id op runs head operates ran accepted destructed =>
    have there := ready frame id op runs head operates
    have mine : w.Live id → kept' id → Settled w'.heap w'.poller frame id ∧
        (w'.Unwatched id ↔ frame = .connectDestroyedRest id) := by
      intro live clear
      have own := managed.own id live.1
      have ready := (there.resolve_left own).2 clear
      refine ⟨watching.settled live (fewer id clear) own ready operates ran,
        step.unwatched_own orderly posts runs live.1 accepted operates (managed.once id)
          (managed.more id clear) fun none => ?_⟩
      refine watching.known live (fewer id clear) ready operates ?_
      rintro rfl
      cases none
    refine watching.operate (there.imp_right And.left) ran accepted destructed fewer
      (fun c alive other => ?_) (fun live clear apart => ?_) fun live clear stays => ?_
    · refine step.unwatched orderly posts alive.1 fun frame' runs' registers => ?_
      rw [runs, Option.some.injEq] at runs'
      subst runs'
      cases operates <;> cases registers <;> exact other rfl
    · obtain ⟨settled, removed⟩ := mine live clear
      rw [removed.mp apart] at settled
      exact settled
    · obtain ⟨settled, removed⟩ := mine live clear
      exact settled.registered operates fun same => stays (removed.mpr same)
  | poll idle polled accepted destructed =>
    obtain ⟨kernel, entries, records, _⟩ := poll_same polled
    refine watching.same (fun id => poll_sameAt polled) entries records kernel accepted
      destructed fewer (unwatched fun frame runs => ?_)
    rw [idle] at runs
    cases runs
  | close idle alive unreferenced heap poller accepted destructed =>
    refine watching.close alive (closed _ alive unreferenced destructed) heap poller accepted
      destructed fewer fun c member => unwatched (fun frame runs => ?_) c member
    rw [idle] at runs
    cases runs

structure Channels (settings : Settings) (w : World KqueueSystem) : Prop where
  fd : ∀ id, (w.heap id).fd = settings.fdOf id
  entries : ∀ fd id, w.poller.poller.channels.find fd = some id → settings.fdOf id = fd
  apart : ∀ c other, w.Live c → w.Live other → settings.fdOf c = settings.fdOf other → c = other
  auxApart : ∀ c ∈ w.accepted, ∀ id ∈ settings.aux, settings.fdOf id ≠ settings.fdOf c
  fresh : ∀ id, id ∉ w.accepted → id ∉ settings.aux →
    (w.heap id).index = KqueuePoller.kNew ∧ (w.heap id).events = kNoneEvent
  idle : ∀ id, ¬ w.Live id → (w.heap id).isWriting = false
  clean : ∀ fd, w.Free settings fd → Clean w.poller fd
  unwatched : ∀ c, w.Live c → w.Unwatched c → Unregistered w.heap w.poller c
  watched : ∀ c, w.Live c → ¬ w.Unwatched c → Registered w.heap w.poller c ∅

theorem Channels.watching (channels : w.Channels settings) : w.Watching settings fun _ => True :=
  ⟨channels.fd, channels.entries, channels.apart, fun c live => channels.auxApart c live.1,
    channels.fresh, channels.clean,
    fun c live _ => channels.unwatched c live, fun c live _ => channels.watched c live⟩

theorem Watching.channels (watching : w.Watching settings fun _ => True)
    (auxApart : ∀ c ∈ w.accepted, ∀ id ∈ settings.aux, settings.fdOf id ≠ settings.fdOf c)
    (idle : ∀ id, ¬ w.Live id → (w.heap id).isWriting = false) : w.Channels settings :=
  ⟨watching.fd, watching.entries, watching.apart, auxApart, watching.fresh, idle,
    watching.clean, fun c live => watching.unwatched c live trivial,
    fun c live => watching.watched c live trivial⟩

theorem start_channels (settings : Settings) :
    (start settings KqueueSystem.new).Channels settings := by
  refine (start_watching settings _).channels (by simp [start]) fun _ _ => ?_
  show ((0 : EventMask) &&& kWriteEvent != 0) = false
  decide

theorem Owned.live_of_connecting (owned : w.Owned settings) (accepted : c ∈ w.accepted)
    (connecting : w.state c = .kConnecting) : w.Live c := by
  refine owned.owned c fun spent => ?_
  cases connecting.symm.trans (owned.spent c accepted spent)

/-- The frames of the loop thread operate on connections that are to be destroyed. -/
theorem Channels.ready (channels : w.Channels settings) (orderly : w.Orderly)
    (owned : w.Owned settings) {mentions : KqueueSystem → ChannelId → Prop}
    (established : w.Established settings mentions) {frame : Frame} {id : ChannelId}
    {op : ChannelOp} (head : w.stack.head? = some frame)
    (operates : Operates settings w frame id op) :
    id ∈ settings.aux ∧ op = .update .enRead ∨ w.Live id ∧ w.Ready frame id := by
  have present := List.mem_of_mem_head? head
  have watched : w.destroyers id ≠ 0 → w.state id ≠ .kConnecting → w.Live id ∧ w.Ready frame id := by
    intro more begun
    refine ⟨owned.owned id more, fun first => ?_, fun _ _ unwatched => unwatched.elim begun more⟩
    subst first
    exact absurd (orderly.knows _ present) begun
  have opened : w.Open id → w.Live id ∧ w.Ready frame id := by
    intro open_
    have begun : w.state id ≠ .kConnecting := by rcases open_ with h | h <;> simp [h]
    have unclosed : w.state id ≠ .kDisconnected := by rcases open_ with h | h <;> simp [h]
    exact watched (owned.open_owned begun unclosed) begun
  cases operates with
  | watch aux => exact Or.inl ⟨aux, rfl⟩
  | connectEstablished =>
    have connecting : w.state id = .kConnecting := orderly.knows _ present
    have live := owned.live_of_connecting
      (owned.establishing id (Or.inl ⟨_, present, rfl⟩)) connecting
    exact Or.inr ⟨live, fun _ => connecting, fun later => absurd rfl later⟩
  | handleClose | connectDestroyed => exact Or.inr (opened (orderly.knows _ present))
  | remove =>
    have ended := owned.ended id present
    exact Or.inr (watched (destroyers_of_stack present rfl) (by simp [ended.closed]))
  | enableWriting =>
    have begun : w.state id ≠ .kConnecting := established.stack _ present
    exact Or.inr (watched (owned.sending _ present id rfl) begun)
  | disableWriting writing =>
    have live : w.Live id := by
      by_contra dead
      rw [channels.idle id dead] at writing
      cases writing
    exact Or.inr ⟨live, by simp, fun _ other => absurd rfl other⟩

/-- Only open channels begin to write. -/
theorem Channels.idle_step (channels : w.Channels settings) (orderly : w.Orderly)
    (owned : w.Owned settings) {mentions : KqueueSystem → ChannelId → Prop}
    (established : w.Established settings mentions)
    {action : Action KqueueSystem.polling.Answer}
    (step : Step settings KqueueSystem.polling w action w') {id : ChannelId} (dead : ¬ w'.Live id) :
    (w'.heap id).isWriting = false := by
  cases step.touches orderly owned.posts with
  | quiet heap _ accepted destructed =>
    rw [heap]
    exact channels.idle id fun live => dead (by rwa [Live, accepted, destructed])
  | construct _ heap _ accepted destructed =>
    rw [heap]
    refine channels.idle id fun live => dead ?_
    rw [Live, accepted, destructed]
    exact ⟨List.mem_append_left _ live.1, live.2⟩
  | @operate frame own op _ head operates ran accepted destructed =>
    have dead : ¬ w.Live id := fun live => dead (by rwa [Live, accepted, destructed])
    have before := channels.idle id dead
    by_cases same : id = own
    · subst same
      rcases channels.ready orderly owned established head operates with ⟨_, rfl⟩ | ⟨live, _⟩
      · have events := ((operate_calls ran).2 id).2
        rw [ChannelOp.apply, ChannelHeap.events_change_same] at events
        rw [Channel.isWriting, events, Channel.newEvents_and_write]
        exact before
      · exact absurd live dead
    · rw [(operate_maps ran).2 id same]
      exact before
  | poll _ polled accepted destructed =>
    rw [Channel.isWriting, (poll_sameAt polled).events]
    exact channels.idle id fun live => dead (by rwa [Live, accepted, destructed])
  | @close gone _ alive unreferenced heap _ accepted destructed =>
    rw [heap]
    by_cases live : w.Live id
    · have own : id = gone := by
        by_contra other
        exact dead ⟨accepted ▸ live.1, by simp [destructed, live.2, other]⟩
      subst own
      have unregistered := channels.unwatched id alive
        (Or.inr (unreferenced_destroyers unreferenced))
      rw [Channel.isWriting, unregistered.idle]
      decide
    · exact channels.idle id live

theorem Channels.step (channels : w.Channels settings) (orderly : w.Orderly)
    (owned : w.Owned settings) (owned' : w'.Owned settings)
    {mentions : KqueueSystem → ChannelId → Prop} (established : w.Established settings mentions)
    {action : Action KqueueSystem.polling.Answer}
    (step : Step settings KqueueSystem.polling w action w') : w'.Channels settings := by
  have managed : Managed settings (fun _ => True) w w' := by
    refine ⟨owned.destructed, owned.own, fun c =>
      step.unborn orderly (owned.unborn c) (owned.establishing c), owned.once,
      fun c _ connected => ?_⟩
    exact owned'.open_owned (by simp [connected]) (by simp [connected])
  have watching : w'.Watching settings fun _ => True := by
    refine channels.watching.step orderly owned.posts step (fun _ clear => clear) managed
      (fun frame id op _ head operates => ?_) fun c live unreferenced _ => ?_
    · have ready := channels.ready orderly owned established head operates
      exact ready.imp And.left fun ready => ⟨ready.1, fun _ => ready.2⟩
    · exact channels.unwatched c live (Or.inr (unreferenced_destroyers unreferenced))
  refine watching.channels ?_ fun id dead => channels.idle_step orderly owned established step dead
  rcases step.destroyers orderly owned.posts with ⟨accepted, _⟩ | ⟨new, fresh, accepted, _⟩
  · rw [accepted]
    exact channels.auxApart
  · intro c member id aux
    rw [accepted, List.mem_append, List.mem_singleton] at member
    rcases member with old | rfl
    · exact channels.auxApart c old id aux
    · exact fresh.2.2.1 id aux

end World

end Muduo.Source
