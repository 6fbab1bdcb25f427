import Muduo.Source.ReactorChannels

/-!
# Destroying the server tears down every connection

`connectDestroyed` does the missing part of a close for `kConnected` only. A
connection in half-close keeps its interest, and so does one that was closed by
the high-water callback of a `sendInLoop` that then enabled writing: in both
cases `Channel::remove` fails its assertion. All other connections are torn down.
-/
namespace Muduo.Guarantees
open Muduo.Support Muduo.Source Muduo.Source.World

variable {settings : Settings} {w : World KqueueSystem}

/-- `connectDestroyed` and the destructor proceed, and where no
`connectDestroyed` is to come any more the connection is torn down. -/
structure TornDown (settings : Settings) (w : World KqueueSystem) : Prop where
  proceeds : ∀ frame, w.stack.head? = some frame → frame.destroys ≠ none →
    ∃ w', w.step settings KqueueSystem.polling (.loop .none) = .ok w'
  destructs : ∀ c, w.Live c → w.Unreferenced c →
    ∃ w', w.step settings KqueueSystem.polling (.destruct c) = .ok w'
  finished : ∀ c, w.Live c → w.destroyers c = 0 →
    w.state c = .kDisconnected ∧ (w.heap c).isNoneEvent = true ∧
      (∀ fd, w.poller.poller.channels.find fd ≠ some c) ∧ w.trace.count (.down c) = 1

/-- What holds along runs without late stores that destroy connections in time. -/
structure Tearing (settings : Settings) (w : World KqueueSystem) : Prop where
  orderly : w.Orderly
  counted : w.Counted
  established : w.Established settings KqueueSystem.Mentions
  owned : w.Owned settings
  reading : w.Reading
  channels : w.Channels settings

theorem tearing_of_run {actions : List (Action KqueueSystem.polling.Answer)}
    (run : Run (Guarded Destroyable (Guarded NoLateStore
        (Graph (step settings KqueueSystem.polling)))) (start settings .new) actions w) :
    Tearing settings w := by
  have reading : (start settings KqueueSystem.new).Reading := by
    intro c open_
    rcases open_ with open_ | open_ <;> cases open_
  refine run.invariant ⟨start_orderly settings _, start_counted settings _,
    start_established settings (PollerKind.new_mentions .kqueue), start_owned settings _, reading,
    start_channels settings⟩ ?_
  intro w action w' tearing taken
  obtain ⟨guard, onTime, ran⟩ := taken
  obtain ⟨orderly, counted, established, owned, reading, channels⟩ := tearing
  have taken := step_ok ran
  have owned' := owned.step orderly KqueueSystem.lawful established onTime guard taken
  exact ⟨taken.orderly orderly, counted_step orderly counted onTime taken,
    established.step KqueueSystem.lawful orderly taken, owned',
    reading.step KqueueSystem.lawful orderly owned onTime taken,
    channels.step orderly owned owned' established taken⟩

/-- A connection that is to be destroyed and established is known to the poller. -/
theorem Tearing.registered (tearing : Tearing settings w) {c : ConnId}
    (more : w.destroyers c ≠ 0) (begun : w.state c ≠ .kConnecting) :
    KqueueSystem.Registered w.heap w.poller c ∅ :=
  tearing.channels.watched c (tearing.owned.owned c more) fun unwatched =>
    unwatched.elim begun more

theorem Tearing.tornDown (tearing : Tearing settings w) : TornDown settings w where
  proceeds frame head destroys := by
    obtain ⟨rest, stack⟩ := List.head?_eq_some_iff.mp head
    have present := List.mem_of_mem_head? head
    cases frame with
    | connectDestroyed c => exact step_of_test stack rfl (Or.inr ⟨_, rfl⟩)
    | connectDestroyedStore c =>
      have open_ : w.Open c := tearing.orderly.knows _ present
      have begun : w.state c ≠ .kConnecting := by rcases open_ with h | h <;> simp [h]
      have registered := tearing.registered (destroyers_of_stack present rfl) begun
      have disabled : KqueueSystem.impl.operate w.heap w.poller c (.update .disAll) = _ :=
        KqueueSystem.operate_registered registered (by simp)
      obtain ⟨w', down⟩ : ∃ w', w.goDown KqueueSystem.polling c = .ok w' :=
        ⟨_, operate_ok.mpr ⟨_, _, disabled, rfl⟩⟩
      exact ⟨_, by simp only [step, stack, advance, Frame.test, down]; rfl⟩
    | connectDestroyedRest c =>
      have ended := tearing.owned.ended c present
      have registered := tearing.registered (destroyers_of_stack present rfl) (by simp [ended.closed])
      have removed := KqueueSystem.operate_remove registered ended.idle
      obtain ⟨w', left⟩ : ∃ w', w.operate KqueueSystem.polling c .remove = .ok w' :=
        ⟨_, operate_ok.mpr ⟨_, _, removed, rfl⟩⟩
      exact ⟨_, by simp only [step, stack, advance, Frame.test, left]; rfl⟩
    | _ => exact absurd rfl destroys
  destructs c live unreferenced := by
    have closed := tearing.owned.spent c live.1 (unreferenced_destroyers unreferenced)
    exact ⟨_, by rw [step, if_pos ⟨live, unreferenced⟩, if_pos closed]⟩
  finished c live spent := by
    have closed := tearing.owned.spent c live.1 spent
    have unregistered := tearing.channels.unwatched c live (Or.inr spent)
    refine ⟨closed, by rw [Channel.isNoneEvent, unregistered.idle]; rfl, fun fd found => ?_, ?_⟩
    · have own := tearing.channels.entries fd c found
      have entry := unregistered.entry
      rw [tearing.channels.fd, own] at entry
      cases entry.symm.trans found
    · have downs := tearing.counted.downs c
      rw [if_pos closed] at downs
      rw [← downs]
      exact (List.count_filter rfl).symm

/-- `connectDestroyed` on a connection that is neither `kConnected` nor without
interest: it goes on to `Channel::remove`, whose assertion fails. -/
theorem remove_fails {c : ConnId} {rest : List Frame} (stack : w.stack = .connectDestroyed c :: rest)
    (skips : w.state c ≠ .kConnected) (busy : (w.heap c).isNoneEvent = false) :
    ∃ w', w.step settings KqueueSystem.polling (.loop .none) = .ok w' ∧
      w'.step settings KqueueSystem.polling (.loop .none) =
        .error (.assertFailed .channelRemove) := by
  refine ⟨{ w with stack := .connectDestroyedRest c :: rest }, ?_, ?_⟩
  · simp [step, stack, advance, Frame.test, skips]
  · have removed : World.operate KqueueSystem.polling
        { w with stack := .connectDestroyedRest c :: rest } c .remove =
          .error (.assertFailed .channelRemove) := by
      simp [World.operate, PollerImpl.operate, busy]
    simp only [step, advance, Frame.test, removed]

theorem busy_of_open {c : ConnId} (reading : w.Reading) (open_ : w.Open c) :
    (w.heap c).isNoneEvent = false := by
  have wants := reading c open_
  refine Bool.eq_false_iff.mpr fun idle => ?_
  rw [show (w.heap c).events = kNoneEvent by simpa [Channel.isNoneEvent] using idle] at wants
  exact Channel.not_wants_none _ wants

/-- For any connections, threads, calls and answers: while no `forceClose` stores late
and each `connectDestroyed` finds its connection `kConnected`, or `kDisconnected` and
without interest, connections are torn down. A `connectDestroyed` that finds an established
connection otherwise ends in the failing assertion of `Channel::remove`. -/
theorem teardown_exact (settings : Settings) (actions : List (Action KqueueSystem.polling.Answer))
    (w : World KqueueSystem)
    (run : Run (Guarded Destroyable (Guarded NoLateStore
        (Graph (step settings KqueueSystem.polling)))) (start settings .new) actions w) :
    TornDown settings w ∧
      ∀ c, w.stack.head? = some (.connectDestroyed c) → w.state c ≠ .kConnecting →
        ¬ Destroyable w (.loop .none : Action KqueueSystem.polling.Answer) →
        ∃ w', w.step settings KqueueSystem.polling (.loop .none) = .ok w' ∧
          w'.step settings KqueueSystem.polling (.loop .none) =
            .error (.assertFailed .channelRemove) := by
  have tearing := tearing_of_run run
  refine ⟨tearing.tornDown, fun c head begun broken => ?_⟩
  simp only [Destroyable, running, head, not_or, not_and] at broken
  obtain ⟨skips, busy⟩ := broken
  obtain ⟨rest, stack⟩ := List.head?_eq_some_iff.mp head
  refine remove_fails stack skips ?_
  by_cases closed : w.state c = .kDisconnected
  · exact Bool.eq_false_iff.mpr (busy closed)
  · exact busy_of_open tearing.reading (by cases state : w.state c <;> simp_all [Open])

/-- The server is destroyed while its connection is `kConnected`. -/
def destroyedOpen : List (Action KqueueSystem.polling.Answer) :=
  PollerKind.opening none 5 ++
    [.loop .return, .destroy 5, .loop .none, .loop .none, .loop .return, .loop .none]

theorem teardown_exact_open :
    ∃ w, Run (Guarded Destroyable (Guarded NoLateStore
        (Graph (step PollerKind.exampleSettings KqueueSystem.polling))))
        (start PollerKind.exampleSettings .new) destroyedOpen w ∧
      (w.Live 5 ∧ w.destroyers 5 = 0) ∧ TornDown PollerKind.exampleSettings w := by
  have ends : endsIn (fun w action => Destroyable w action ∧ NoLateStore w action)
      (step PollerKind.exampleSettings KqueueSystem.polling) Fault.notEnabled
      (start PollerKind.exampleSettings .new) destroyedOpen
      (fun w => decide (w.Live 5 ∧ w.destroyers 5 = 0)) = true := by
    decide +kernel
  obtain ⟨w, run, removed⟩ := run_of_endsIn _ _ ends
  have run : Run (Guarded Destroyable (Guarded NoLateStore
      (Graph (step PollerKind.exampleSettings KqueueSystem.polling)))) _ _ w :=
    run.mono fun _ _ _ taken => ⟨taken.1.1, taken.1.2, taken.2⟩
  exact ⟨w, run, of_decide_eq_true removed, (teardown_exact _ _ w run).1⟩

/-- The connection is in half-close when the server is destroyed. -/
theorem half_closed_not_torn_down :
    ∃ w, Run (Guarded NoLateStore (Graph (step PollerKind.exampleSettings KqueueSystem.polling)))
        (start PollerKind.exampleSettings .new)
        (PollerKind.opening none 5 ++ [.loop (.call (.shutdown 5)), .loop .none, .loop .none,
          .loop .return, .destroy 5, .loop .none]) w ∧
      w.stack.head? = some (.connectDestroyedRest 5) ∧ w.state 5 = .kDisconnecting ∧
      w.step PollerKind.exampleSettings KqueueSystem.polling (.loop .none) =
        .error (.assertFailed .channelRemove) ∧
      ¬ TornDown PollerKind.exampleSettings w := by
  refine ⟨_, run_of_checked Fault.notEnabled rfl, rfl, rfl, rfl, fun tornDown => ?_⟩
  obtain ⟨w', ran⟩ := tornDown.proceeds _ rfl (by simp [Frame.destroys])
  cases ran

end Muduo.Guarantees
