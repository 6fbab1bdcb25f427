import Muduo.Source.ReactorLifetime

/-!
# What KqueuePoller knows of referenced connections

As for the channels of a reactor in general, but one connection at a time: a late
store of `forceClose` may leave the channel of its own connection in any state, and
touches no other descriptor.
-/
namespace Muduo.Source
open Muduo.Support

namespace KqueueSystem

variable {heap heap' : ChannelHeap} {sys sys' : KqueueSystem} {id : ChannelId}

/-- `kevent` reports channels with an enabled filter. -/
theorem poll_enabled {answer : Option (List (Int × Filter))} {active : List ChannelId}
    (reports : polling.reports sys answer = true)
    (polled : polling.poll heap sys answer = .ok (heap', sys', active)) :
    ∀ id ∈ active, ∃ fd filter, sys.kernel.knotes (fd, filter) = some ⟨true, id⟩ := by
  simp only [polling, poll] at polled
  split at polled
  · cases polled
    simp
  · cases polled
    simp
  · next records _ reported =>
    simp only [check_ok] at polled
    obtain ⟨_, polled⟩ := polled
    cases polled
    intro id member
    rw [fill_active] at member
    obtain ⟨record, listed, rfl⟩ := List.mem_map.mp member
    obtain ⟨ready, rfl, rfl⟩ := Option.map_eq_some_iff.mp reported
    obtain ⟨key, asked, found⟩ := List.mem_filterMap.mp listed
    obtain ⟨⟨enabled, udata⟩, present, rfl⟩ := Option.map_eq_some_iff.mp found
    simp only [polling, Bool.and_eq_true, List.all_eq_true] at reports
    have on := reports.2 key asked
    rw [present] at on
    simp only [Option.any_some] at on
    subst on
    exact ⟨key.1, key.2, present⟩

/-- Closing a descriptor leaves no knote that points elsewhere. -/
theorem addressed_closed {fdOf : ChannelId → Int} (addressed : sys.kernel.Addressed fdOf) (fd : Int) :
    (polling.closed sys fd).kernel.Addressed fdOf := by
  intro key knote found
  simp only [polling] at found
  split at found
  · cases found
  · exact addressed key knote found

end KqueueSystem

namespace Sharing
open World KqueueSystem

variable {settings : Settings} {s s' : Sharing KqueueSystem} {w : World KqueueSystem} {c : ConnId}

/-- What the poller knows of the connections that no late store has touched. -/
abbrev Watched (settings : Settings) (s : Sharing KqueueSystem) : Prop :=
  s.world.Watching settings s.world.Tidy

/-- An open connection is to be destroyed, unless a late store has opened it. -/
theorem Accounted.open_destroyers (accounted : s.Accounted) (born : c ∈ s.world.accepted)
    (tidy : s.world.Tidy c) (unclosed : s.world.state c ≠ .kDisconnected) :
    s.world.destroyers c ≠ 0 := by
  refine accounted.entered born ?_
  rwa [Tidy, if_neg unclosed] at tidy

/-- The frames of the loop thread operate on connections that exist. -/
theorem Serving.ready (serving : s.Serving settings Mentions)
    {action : Action KqueueSystem.polling.Answer}
    (alive : ∀ c, s.world.subject action = some c → c ∉ s.world.destructed)
    {frame : Frame} {id : ChannelId} {op : ChannelOp} (runs : s.world.running action = some frame)
    (head : s.world.stack.head? = some frame) (operates : Operates settings s.world frame id op) :
    id ∈ settings.aux ∨ s.world.Live id ∧ (s.world.Tidy id → s.world.Ready frame id) := by
  obtain ⟨accounted, placed, _, sending⟩ := serving
  have present := List.mem_of_mem_head? head
  have orderly := accounted.claimed.orderly
  have intact : frame.conn = some id → id ∉ s.world.destructed :=
    fun own => alive id (subject_of_running (by rw [runs]; exact own))
  have born : s.world.state id ≠ .kConnecting → id ∈ s.world.accepted := by
    intro begun
    by_contra unborn
    exact begun (placed.unborn id unborn)
  have later : s.world.state id ≠ .kConnecting →
      (s.world.Tidy id → frame ≠ .handleWrite id → s.world.destroyers id ≠ 0) →
      frame.conn = some id → s.world.Live id ∧ (s.world.Tidy id → s.world.Ready frame id) := by
    intro begun more own
    refine ⟨⟨born begun, intact own⟩, fun tidy => ⟨fun first => ?_, fun _ other unwatched => ?_⟩⟩
    · subst first
      exact absurd (orderly.knows _ present) begun
    · exact unwatched.elim begun (more tidy other)
  cases operates with
  | watch aux => exact Or.inl aux
  | connectEstablished =>
    have connecting : s.world.state id = .kConnecting := orderly.knows _ present
    exact Or.inr ⟨⟨placed.establishing id (Or.inl ⟨_, present, rfl⟩), intact rfl⟩,
      fun _ => ⟨fun _ => connecting, fun later => absurd rfl later⟩⟩
  | handleClose | connectDestroyed =>
    have open_ : s.world.Open id := orderly.knows _ present
    have begun : s.world.state id ≠ .kConnecting := by rcases open_ with h | h <;> simp [h]
    have unclosed : s.world.state id ≠ .kDisconnected := by rcases open_ with h | h <;> simp [h]
    exact Or.inr (later begun
      (fun tidy _ => accounted.open_destroyers (born begun) tidy unclosed) rfl)
  | remove =>
    have closed := accounted.closed id (accounted.destroying present rfl)
    have begun : s.world.state id ≠ .kConnecting := by rcases closed with h | h <;> simp [h]
    exact Or.inr (later begun (fun _ _ => destroyers_of_stack present rfl) rfl)
  | enableWriting =>
    have begun : s.world.state id ≠ .kConnecting := placed.established.stack _ present
    exact Or.inr (later begun (fun tidy _ => sending _ present id rfl tidy) rfl)
  | disableWriting =>
    have begun : s.world.state id ≠ .kConnecting := placed.established.stack _ present
    exact Or.inr (later begun (fun _ other => absurd rfl other) rfl)

theorem Serving.watched_step (serving : s.Serving settings Mentions) (watched : s.Watched settings)
    (serving' : s'.Serving settings Mentions) {action : SharedAction KqueueSystem.polling.Answer}
    (step : s.Step settings KqueueSystem.polling action s') : s'.Watched settings := by
  have claimed := serving.accounted.claimed
  cases step with
  | @run own w other _ alive taken =>
    have managed : Managed settings w.Tidy s.world w := by
      refine ⟨serving.placed.destructed, serving.placed.own,
        fun c => taken.unborn claimed.orderly (serving.placed.unborn c)
          (serving.placed.establishing c), fun c => ?_,
        fun c tidy connected => ?_⟩
      · have once := claimed.once c
        split at once <;> omega
      · have born : c ∈ w.accepted := by
          by_contra unborn
          cases connected.symm.trans (serving'.placed.unborn c unborn)
        exact serving'.accounted.open_destroyers born tidy (by simp [connected])
    refine watched.step claimed.orderly claimed.posts taken
      (fun c => serving.accounted.tidy_step taken) managed (fun frame id op runs head operates => ?_)
      fun c _ _ grown => ?_
    · exact (serving.ready alive runs head operates).imp_right
        fun ready => ⟨ready.1, fun tidy => ready.2 (serving.accounted.tidy_step taken tidy)⟩
    · simp [taken.destructed_kept other] at grown
  | keep | drop => exact watched
  | @destruct gone live last =>
    obtain ⟨tidy, _, spent, _⟩ := serving.accounted.released live last
    exact watched.close live (watched.unwatched gone live tidy (Or.inr spent)) rfl rfl rfl rfl
      (fun _ clear => clear) fun _ _ => Iff.rfl

/-- A destroyed connection's channel is not dispatched any more. -/
structure Lasting (settings : Settings) (s : Sharing KqueueSystem) : Prop where
  serving : s.Serving settings Mentions
  watched : s.Watched settings
  addressed : s.world.poller.kernel.Addressed settings.fdOf
  undispatched : ∀ c, s.world.Live c → s.world.Tidy c → s.world.destroyers c = 0 →
    s.world.Undispatched c

theorem start_lasting (settings : Settings) :
    (start settings KqueueSystem.new).Lasting settings where
  serving := start_serving settings (PollerKind.new_mentions .kqueue)
  watched := start_watching settings _
  addressed key knote found := by cases found
  undispatched c live := by simp [start, World.start, Live] at live

theorem Lasting.addressed_step (lasting : s.Lasting settings)
    {action : Action KqueueSystem.polling.Answer}
    (step : s.world.Step settings KqueueSystem.polling action w) :
    w.poller.kernel.Addressed settings.fdOf := by
  have claimed := lasting.serving.accounted.claimed
  cases step.touches claimed.orderly claimed.posts with
  | quiet _ poller | construct _ _ poller =>
    rw [poller]
    exact lasting.addressed
  | operate _ _ _ ran => exact addressed_operate lasting.watched.fd lasting.addressed ran
  | poll _ polled =>
    rw [(poll_same polled).1]
    exact lasting.addressed
  | close _ _ _ _ poller =>
    rw [poller]
    exact addressed_closed lasting.addressed _

/-- The kernel does not report a channel that was removed. -/
theorem Lasting.unreported (lasting : s.Lasting settings) (live : s.world.Live c)
    (tidy : s.world.Tidy c) (spent : s.world.destroyers c = 0)
    {reported : KqueueSystem.polling.Answer} {heap : ChannelHeap} {sys : KqueueSystem}
    {active : List ChannelId} (reports : KqueueSystem.polling.reports s.world.poller reported = true)
    (polled : KqueueSystem.polling.poll s.world.heap s.world.poller reported =
      .ok (heap, sys, active)) : c ∉ active := by
  intro member
  obtain ⟨fd, filter, knote⟩ := poll_enabled reports polled c member
  have own : settings.fdOf c = fd := lasting.addressed _ _ knote
  have silent := (lasting.watched.unwatched c live tidy (Or.inr spent)).silent filter
  rw [lasting.watched.fd, own] at silent
  exact silent ⟨c, knote⟩

theorem Lasting.undispatched_step (lasting : s.Lasting settings)
    {action : Action KqueueSystem.polling.Answer} (other : ∀ c, action ≠ .destruct c)
    (step : s.world.Step settings KqueueSystem.polling action w) (live : w.Live c)
    (tidy : w.Tidy c) (spent : w.destroyers c = 0) : w.Undispatched c := by
  obtain ⟨accounted, placed, phased, _⟩ := lasting.serving
  have claimed := accounted.claimed
  have before := accounted.tidy_step step tidy
  by_cases runs : s.world.running action = some (.connectDestroyedRest c)
  · exact step.undispatched claimed.orderly phased placed.outermost runs
  · have destructed := step.destructed_kept other
    have old : s.world.Live c ∧ s.world.destroyers c = 0 := by
      rcases step.destroyers claimed.orderly claimed.posts with
        ⟨accepted, count⟩ | ⟨new, _, accepted, count⟩
      · have counted := count c
        rw [if_neg runs] at counted
        exact ⟨⟨accepted ▸ live.1, destructed ▸ live.2⟩, by omega⟩
      · have counted := count c
        have older : c ≠ new := by
          rintro rfl
          rw [if_pos rfl] at counted
          omega
        have born := live.1
        rw [accepted, List.mem_append, List.mem_singleton] at born
        exact ⟨⟨born.resolve_right older, destructed ▸ live.2⟩, by omega⟩
    obtain ⟨active, stack⟩ := lasting.undispatched c old.1 before old.2
    refine ⟨fun member => ?_, fun callbacks member => ?_⟩
    · rcases step.activated member with kept | ⟨_, _, _, _, reports, polled, new⟩
      · exact active kept
      · exact lasting.unreported old.1 before old.2 reports polled new
    · rcases step.dispatched member with ⟨callbacks, kept⟩ | listed
      · exact stack callbacks kept
      · exact active listed

theorem Lasting.step (lasting : s.Lasting settings)
    {action : SharedAction KqueueSystem.polling.Answer}
    (serves : ∀ own, action = .run own → own.serves = true)
    (step : s.Step settings KqueueSystem.polling action s') : s'.Lasting settings := by
  have serving := lasting.serving.step KqueueSystem.lawful serves step
  have watched := lasting.serving.watched_step lasting.watched serving step
  cases step with
  | run other _ _ taken =>
    exact ⟨serving, watched, lasting.addressed_step taken, fun c =>
      lasting.undispatched_step other taken⟩
  | keep | drop => exact ⟨serving, watched, lasting.addressed, lasting.undispatched⟩
  | @destruct gone =>
    refine ⟨serving, watched, addressed_closed lasting.addressed _, fun c live tidy spent => ?_⟩
    have before : s.world.Live c := ⟨live.1, fun gone => live.2 (List.mem_append_left _ gone)⟩
    obtain ⟨active, stack⟩ := lasting.undispatched c before tidy spent
    exact ⟨active, stack⟩

/-- The poller has no entry for a connection that nobody holds. -/
theorem Lasting.unknown (lasting : s.Lasting settings) (live : s.world.Live c)
    (last : s.refs c = 0) (fd : Int) : s.world.poller.poller.channels.find fd ≠ some c := by
  intro found
  obtain ⟨tidy, _, spent, _⟩ := lasting.serving.accounted.released live last
  have absent := (lasting.watched.unwatched c live tidy (Or.inr spent)).entry
  have own : settings.fdOf c = fd := lasting.watched.entries fd c found
  rw [lasting.watched.fd, own, found] at absent
  cases absent

/-- Entries are entered by channels of other components and of existing connections. -/
theorem Lasting.present_step (lasting : s.Lasting settings)
    (present : ∀ fd id, s.world.poller.poller.channels.find fd = some id →
      id ∈ settings.aux ∨ s.world.Live id)
    {action : SharedAction KqueueSystem.polling.Answer}
    (step : s.Step settings KqueueSystem.polling action s') {fd : Int} {id : ChannelId}
    (found : s'.world.poller.poller.channels.find fd = some id) :
    id ∈ settings.aux ∨ s'.world.Live id := by
  have claimed := lasting.serving.accounted.claimed
  cases step with
  | @run own w other _ alive taken =>
    have destructed := taken.destructed_kept other
    have lives : s.world.Live id → w.Live id := fun live =>
      ⟨taken.accepted_mono live.1, by rw [destructed]; exact live.2⟩
    cases taken.touches claimed.orderly claimed.posts with
    | quiet _ poller | construct _ _ poller =>
      rw [poller] at found
      exact (present fd id found).imp_right lives
    | operate runs head operates ran =>
      rcases operate_entry ran found with ⟨_, rfl, _⟩ | ⟨_, before⟩
      · exact (lasting.serving.ready alive runs head operates).imp_right fun ready => lives ready.1
      · exact (present fd id before).imp_right lives
    | poll _ polled =>
      rw [(poll_same polled).2.1] at found
      exact (present fd id found).imp_right lives
    | close _ _ _ _ _ _ grown => simp [destructed] at grown
  | keep | drop => exact present fd id found
  | @destruct gone live last =>
    refine (present fd id found).imp_right fun there => ⟨there.1, fun member => ?_⟩
    rcases List.mem_append.mp member with old | own
    · exact there.2 old
    · rw [List.mem_singleton.mp own] at found
      exact lasting.unknown live last fd found

/-- A channel of another component joins. -/
theorem Lasting.grow (lasting : s.Lasting settings) {settings' : Settings}
    (fdOf : settings'.fdOf = settings.fdOf) (more : ∀ id ∈ settings.aux, id ∈ settings'.aux)
    (new : ∀ id ∈ settings'.aux, id ∈ settings.aux ∨ id ∉ s.world.accepted ∧
      ∀ c, s.world.Live c → settings.fdOf id ≠ settings.fdOf c) : s.Lasting settings' := by
  obtain ⟨⟨accounted, placed, phased, sending⟩, watched, addressed, undispatched⟩ := lasting
  obtain ⟨outermost, establishing, unborn, own, destructed, established⟩ := placed
  have begun : ∀ id, s.world.Begun settings id → s.world.Begun settings' id :=
    fun id begun => begun.imp_left (more id)
  have frames : ∀ frame, s.world.FrameBegun settings frame → s.world.FrameBegun settings' frame := by
    intro frame begunFrame
    cases frame with
    | handleEvent id => exact begun id begunFrame
    | post task => cases task <;> exact begunFrame
    | _ => exact begunFrame
  refine ⟨⟨accounted, ⟨outermost, establishing, unborn, fun c born aux => ?_, destructed, ?_⟩,
    phased, sending⟩, watched.grow fdOf more fun id aux c live => ?_, by rwa [fdOf], undispatched⟩
  · rcases new c aux with old | ⟨apart, _⟩
    · exact own c born old
    · exact apart born
  · exact ⟨fun frame member => frames frame (established.stack frame member),
      fun frame member => frames frame (established.others frame member),
      fun task member => frames _ (established.tasks task member),
      fun id member => begun id (established.active id member),
      fun id mentioned => begun id (established.poller id mentioned)⟩
  · rcases new id aux with old | ⟨_, apart⟩
    · exact watched.auxApart c live id old
    · exact apart c live

/-- A socket of another component is closed that the poller knows nothing about. -/
theorem Lasting.closed (lasting : s.Lasting settings) {fd : Int} (free : s.world.Free settings fd) :
    Lasting settings { s with world.poller := KqueueSystem.polling.closed s.world.poller fd } := by
  obtain ⟨⟨accounted, placed, phased, sending⟩, watched, addressed, undispatched⟩ := lasting
  obtain ⟨⟨orderly, posts, once⟩, balance, closed, ended, spared, late⟩ := accounted
  obtain ⟨outermost, establishing, unborn, own, destructed, established⟩ := placed
  have knotes : ∀ other filter, other ≠ fd →
      (KqueueSystem.polling.closed s.world.poller fd).kernel.knotes (other, filter) =
        s.world.poller.kernel.knotes (other, filter) := fun other filter apart => if_neg apart
  refine ⟨⟨⟨⟨orderly.restacked rfl rfl orderly.waiting orderly.knows, posts, once⟩, balance, closed,
      ended, spared, late⟩, ⟨outermost, establishing, unborn, own, destructed, established.stack,
      established.others, established.tasks, established.active, fun id mentioned =>
        established.poller id (KqueueSystem.lawful.closed_mentions mentioned)⟩, phased, sending⟩,
    ?_, addressed_closed addressed fd, fun c live tidy spent => ?_⟩
  · refine watched.frame (fun c live => ?_) (fun _ => ⟨rfl, rfl, rfl⟩) rfl rfl
      (fun other filter on => ?_) rfl rfl (fun _ clear => clear) fun _ _ => Iff.rfl
    · refine ⟨rfl, rfl, rfl, rfl, rfl, fun filter => knotes _ filter ?_⟩
      rw [watched.fd]
      exact free.2 c live
    · by_cases own : other = fd
      · subst own
        obtain ⟨udata, knote⟩ := on
        simp [KqueueSystem.polling] at knote
      · obtain ⟨udata, knote⟩ := on
        rw [knotes other filter own] at knote
        exact ⟨udata, knote⟩
  · obtain ⟨active, stack⟩ := undispatched c live tidy spent
    exact ⟨active, stack⟩

end Sharing

end Muduo.Source
