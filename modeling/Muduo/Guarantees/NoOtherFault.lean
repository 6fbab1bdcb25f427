import Muduo.Guarantees.CloseOnce
import Muduo.Guarantees.Teardown
import Muduo.Source.ReactorRecords

/-!
# No other of these assertions fails

The ways into a failing assertion that are known of a reactor over KqueuePoller are
few: a late store of `forceClose`, a `connectDestroyed` in half-close or over late
interest, a close of a closed connection, a server on another loop that is destroyed
while its connections live, and a connection let go in front of its completion. As long as
no step takes one of them, whatever comes next fails no assertion of
`removeConnectionInLoop`, `TcpConnection`, `Channel::remove`, `KqueuePoller` or `Buffer`, and
no write-complete functor finds its connection destructed. `~TcpServer` runs outside of the
connections' callbacks here, and a connection outlives its `handleEvent`; so the assertion of
`~Channel` is not among these.
-/
namespace Muduo.Guarantees
open Muduo.Support Muduo.Source Muduo.Source.World Muduo.Source.KqueueSystem

variable {settings : Settings} {w w' : World KqueueSystem} {c : ConnId}

/-- The step takes none of the known ways into a fault. -/
def Cautious {σ answer : Type} (settings : Settings) (w : World σ) (action : Action answer) :
    Prop :=
  (NoLateStore w action ∧ Destroyable w action) ∧ (NotClosedAgain settings w action ∧
    Swaps w action) ∧
    match action with
    | .destroyElsewhere _ => False
    | .destruct c => .writeComplete c ∉ w.tasks
    | _ => True

instance {σ answer : Type} (settings : Settings) (w : World σ) (action : Action answer) :
    Decidable (Cautious settings w action) := by
  delta Cautious
  refine @instDecidableAnd _ _ inferInstance (@instDecidableAnd _ _ inferInstance ?_)
  induction action using Source.Action.casesOn <;> infer_instance

/-- The other components' channels have descriptors of their own. -/
def DistinctAux (settings : Settings) : Prop :=
  ∀ id ∈ settings.aux, ∀ other ∈ settings.aux, settings.fdOf id = settings.fdOf other → id = other

/-- The channels of other components are new to the poller, or watched by it. -/
def Joined (settings : Settings) (w : World KqueueSystem) : Prop :=
  ∀ id ∈ settings.aux, Unregistered w.heap w.poller id ∨ Registered w.heap w.poller id ∅

theorem start_joined (settings : Settings) : Joined settings (start settings .new) := by
  refine fun id _ => Or.inl ⟨rfl, rfl, ?_, ?_, fun filter enabled => ?_⟩
  · exact FdMap.find_empty _
  · exact FdMap.find_empty _
  · obtain ⟨_, knote⟩ := enabled
    cases knote

theorem joined_frame (joined : Joined settings w)
    (same : ∀ id ∈ settings.aux, SameAt w.heap w.poller id w'.heap w'.poller) :
    Joined settings w' :=
  fun id aux => (joined id aux).imp (·.frame (same id aux)) (·.frame (same id aux))

/-- The loop's operations on a channel of another component enable reading. -/
theorem joined_operate (joined : Joined settings w) (distinct : DistinctAux settings)
    (tearing : Tearing settings w) {frame : Frame} {id : ChannelId} {op : ChannelOp}
    (head : w.stack.head? = some frame) (operates : Operates settings w frame id op)
    (ran : KqueueSystem.impl.operate w.heap w.poller id op = .ok (w'.heap, w'.poller)) :
    Joined settings w' := by
  obtain ⟨orderly, _, established, owned, _, channels⟩ := tearing
  intro other aux
  have there := channels.ready orderly owned established head operates
  by_cases same : other = id
  · subst same
    have enables : op = .update .enRead :=
      (there.resolve_right fun live => owned.own other live.1.1 aux).2
    subst enables
    refine Or.inr ?_
    rcases joined other aux with unregistered | registered
    · rw [operate_unregistered unregistered (Or.inl rfl), Except.ok.injEq, Prod.mk.injEq] at ran
      rw [← ran.1, ← ran.2]
      exact unregistered.enableReading.mono (Finset.empty_subset _)
    · exact settled_update registered (by simp) ran
  · have apart : (w.heap other).fd ≠ (w.heap id).fd := by
      rw [channels.fd, channels.fd]
      rcases there with ⟨member, _⟩ | ⟨live, _⟩
      · exact fun equal => same (distinct other aux id member equal)
      · exact channels.auxApart id live.1 other aux
    have untouched := operate_sameAt ran same apart
    exact (joined other aux).imp (·.frame untouched) (·.frame untouched)

theorem joined_step (joined : Joined settings w) (distinct : DistinctAux settings)
    (tearing : Tearing settings w) {action : Action KqueueSystem.polling.Answer}
    (step : Step settings KqueueSystem.polling w action w') : Joined settings w' := by
  cases step.touches tearing.orderly tearing.owned.posts with
  | quiet heap poller | construct _ heap poller =>
    refine joined_frame joined fun id _ => ?_
    rw [heap, poller]
    exact ⟨rfl, rfl, rfl, rfl, rfl, fun _ => rfl⟩
  | operate _ head operates ran => exact joined_operate joined distinct tearing head operates ran
  | poll _ polled => exact joined_frame joined fun _ _ => poll_sameAt polled
  | @close gone _ live _ heap poller =>
    refine joined_frame joined fun id aux => ?_
    have apart := tearing.channels.auxApart gone live.1 id aux
    rw [heap, poller]
    refine ⟨rfl, rfl, rfl, rfl, rfl, fun filter => if_neg ?_⟩
    rw [tearing.channels.fd]
    exact apart

/-- What holds along a cautious run. -/
structure Secure (settings : Settings) (w : World KqueueSystem) : Prop where
  passes : ∀ frame ∈ w.stack, Passes w frame
  buffered : w.Buffered
  establishable : w.Establishable
  listing : w.Listing settings
  completing : w.Completing
  joined : Joined settings w

theorem start_secure (settings : Settings) : Secure settings (start settings .new) where
  passes := by simp [start]
  buffered := start_buffered settings _
  establishable := start_establishable settings _
  listing := start_listing settings _
  completing := start_completing settings _
  joined := start_joined settings

theorem secure_step (distinct : DistinctAux settings) (tearing : Tearing settings w)
    (tearing' : Tearing settings w') (secure : Secure settings w)
    {action : Action KqueueSystem.polling.Answer} (cautious : Cautious settings w action)
    (ran : w.step settings KqueueSystem.polling action = .ok w') : Secure settings w' := by
  obtain ⟨orderly, counted, established, owned, _, channels⟩ := tearing
  obtain ⟨_, ⟨unclosed, swaps⟩, spares⟩ := cautious
  have step := step_ok ran
  refine ⟨passes_step orderly established secure.passes unclosed step,
    secure.buffered.step swaps ran, secure.establishable.step orderly owned step,
    secure.listing.step orderly counted owned tearing'.counted (fun own same => ?_) step,
    secure.completing.step orderly owned channels.idle (fun own same => ?_) step,
    joined_step secure.joined distinct ⟨orderly, counted, established, owned, ‹_›, channels⟩ step⟩
  · subst same
    exact spares
  · subst same
    exact spares

theorem secure_of_run (distinct : DistinctAux settings)
    {actions : List (Action KqueueSystem.polling.Answer)}
    (run : Run (Guarded (Cautious settings) (Graph (step settings KqueueSystem.polling)))
      (start settings .new) actions w) : Tearing settings w ∧ Secure settings w := by
  have tearing {actions : List (Action KqueueSystem.polling.Answer)} {w : World KqueueSystem}
      (run : Run (Guarded (Cautious settings) (Graph (step settings KqueueSystem.polling)))
        (start settings .new) actions w) : Tearing settings w :=
    tearing_of_run (run.mono fun _ _ _ taken => ⟨taken.1.1.2, taken.1.1.1, taken.2⟩)
  refine ⟨tearing run, run.invariant_given (fun _ _ => tearing) (start_secure settings) ?_⟩
  exact fun _ _ _ before after secure taken => secure_step distinct before after secure taken.1 taken.2

/-- The poller is ready for every operation of the loop thread. -/
theorem operable (tearing : Tearing settings w) (joined : Joined settings w) {frame : Frame}
    {id : ChannelId} {op : ChannelOp} (head : w.stack.head? = some frame)
    (operates : Operates settings w frame id op) :
    ∃ result, KqueueSystem.impl.operate w.heap w.poller id op = .ok result := by
  obtain ⟨orderly, _, established, owned, _, channels⟩ := tearing
  rcases channels.ready orderly owned established head operates with ⟨aux, rfl⟩ | ⟨live, ready⟩
  · rcases joined id aux with unregistered | registered
    · exact ⟨_, operate_unregistered unregistered (Or.inl rfl)⟩
    · exact ⟨_, operate_registered registered (by simp)⟩
  · have registered : frame ≠ .connectEstablishedStore id → Registered w.heap w.poller id ∅ :=
      fun later => channels.watched id live
        (channels.watching.known live trivial ready operates later)
    cases operates with
    | watch aux => exact absurd aux (owned.own id live.1)
    | connectEstablished =>
      have unregistered := channels.unwatched id live (Or.inl (ready.connecting rfl))
      exact ⟨_, operate_unregistered unregistered (Or.inl rfl)⟩
    | handleClose | connectDestroyed | enableWriting =>
      exact ⟨_, operate_registered (registered (by simp)) (by simp)⟩
    | remove =>
      have ended := owned.ended id (List.mem_of_mem_head? head)
      exact ⟨_, operate_remove (registered (by simp)) ended.idle⟩
    | disableWriting writing =>
      exact ⟨_, operate_registered ((registered (by simp)).writing writing) (by simp)⟩

/-- Each comparison of `state_` on the loop thread goes on. -/
theorem tested (passes : ∀ frame ∈ w.stack, Passes w frame) (establishable : w.Establishable)
    {frame : Frame} (present : frame ∈ w.stack) {test : StateTest} (same : frame.test = some test) :
    w.state test.conn = test.expected ∨ ∃ frames, test.no = .ok frames := by
  cases frame with
  | handleCloseSecond c =>
    have passing := passes _ present
    cases same
    exact Or.inl passing
  | connectEstablished c =>
    have listed : c ∈ w.establishers :=
      List.mem_append_left _ (List.mem_filterMap.mpr ⟨_, present, rfl⟩)
    cases same
    exact Or.inl (establishable.connecting c listed)
  | _ => cases same <;> exact Or.inr ⟨_, rfl⟩

/-- `fillActiveChannels` finds room for what `kevent` reports. -/
theorem polled {reported : KqueueSystem.polling.Answer}
    (reports : KqueueSystem.polling.reports w.poller reported = true) :
    ∃ result, KqueueSystem.polling.poll w.heap w.poller reported = .ok result := by
  cases reported with
  | none => exact ⟨_, rfl⟩
  | some ready =>
    simp only [polling, Bool.and_eq_true, decide_eq_true_eq] at reports
    have room : (report w.poller.kernel ready).length ≤ w.poller.poller.eventsSize :=
      le_trans (List.length_filterMap_le _ _) reports.1.2
    simp only [polling, Option.map_some]
    cases records : report w.poller.kernel ready with
    | nil => exact ⟨_, rfl⟩
    | cons record rest =>
      rw [records] at room
      exact ⟨_, if_neg (Nat.not_lt.mpr room)⟩

/-- Calls on other threads rely on nothing. -/
theorem sound_of_foreign {frame : Frame} (calling : frame.foreign = true) (buffered : w.Buffered) :
    Sound settings KqueueSystem.polling w frame where
  tested test same := by
    cases frame with
    | forceClose | forceCloseSecond => cases same; exact Or.inr ⟨_, rfl⟩
    | send | shutdown | forceCloseStore | post => cases same
    | _ => cases calling
  operable _ _ operates := by cases operates <;> cases calling
  entered c same := by
    subst same
    cases calling
  intact c same := by
    subst same
    cases calling
  input c := (buffered c).1
  output c := (buffered c).2

theorem prepared_of_secure (tearing : Tearing settings w) (secure : Secure settings w)
    (action : Action KqueueSystem.polling.Answer) :
    Prepared settings KqueueSystem.polling w action where
  running frame runs := by
    by_cases foreign : frame.foreign = true
    · exact sound_of_foreign foreign secure.buffered
    · have head := tearing.orderly.running_head runs (Bool.eq_false_iff.mpr foreign)
      have present := List.mem_of_mem_head? head
      refine ⟨fun _ => tested secure.passes secure.establishable present,
        fun _ _ => operable tearing secure.joined head, fun c same _ => ?_, fun c same => ?_,
        fun c => (secure.buffered c).1, fun c => (secure.buffered c).2⟩
      · subst same
        exact secure.listing.closing c present
      · subst same
        exact (secure.completing c (Or.inr present)).2
  removed c _ posted := secure.listing.posted c posted
  destructed c _ live unreferenced :=
    tearing.owned.spent c live.1 (unreferenced_destroyers unreferenced)
  polled _ _ := polled

/-- Wakeup and acceptor have channels beside those of the server's connections. -/
def sharedSettings : Settings := ⟨fun id => (id : Int), [1, 2], true, true⟩

/-- The wakeup channel is watched; a connection sends, is closed by its peer and let go. -/
def closedByPeer : List (Action KqueueSystem.polling.Answer) :=
  [.call .queueInLoop, .other 0, .poll none, .loop .none, .loop .none, .loop (.loopCall (.watch 1)),
    .loop (.loopCall (.newConnection 5)), .loop .none, .loop .none,
    .loop (.call (.send 5 ⟨[97], Message.byte_le⟩)), .loop .none, .loop .none,
    .loop (.write (.accepted 1)), .loop .return, .loop .return, .loop .none,
    .poll (some [(5, .read)]), .loop .none, .loop .none, .loop (.readv (.bytes [])), .loop .none,
    .loop .none, .loop .return, .loop .none, .loop .none, .loop .none, .loop .none, .loop .none,
    .loop .return, .loop .none, .loop .none, .loop .none, .loop .none, .destruct 5]

end Muduo.Guarantees
