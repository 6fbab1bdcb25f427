import Muduo.Source.TestServerRuns

/-!
# The echo server sends back what it receives

The message callback takes everything that `handleRead` has put into `input_buffer_` and
sends it, on the loop thread and before the next function of the library runs. So on a
connection that is not down each byte that was read is with the callback, with the running
`sendInLoop`, in `output_buffer_`, or taken by the kernel, and they are in their order.
-/
namespace Muduo.Guarantees
open Muduo.Support Muduo.Source Muduo.Source.World

/-- Each byte that was read is handed over once, in the order of reading. -/
structure Answered {σ : Type} (s : TestServer σ) (c : ConnId) : Prop where
  handed : s.received c =
    (pieces s.world.trace c).flatten ++ s.world.inFlight c ++ s.answering c
  carried : Support.Carries (pieces s.world.trace c)
    (acceptedBytes s.world.trace c ++ (s.world.conns c).outputBuffer.value)
  /-- and what the kernel has not taken yet is waited for -/
  writing : (s.world.heap c).isWriting = true ↔ (s.world.conns c).outputBuffer.value ≠ []

theorem echoing_of_run {kind : PollerKind} {settings : Settings}
    {actions : List (Action kind.polling.Answer)} {s : TestServer kind.State}
    (run : Run (Graph (TestServer.step settings kind.polling)) (.start settings kind.new) actions
      s) :
    TestServer.Echoing settings kind.Mentions s :=
  run.invariant (TestServer.start_echoing settings kind.new_mentions)
    fun _ _ _ echoing taken => echoing.step kind.lawful (TestServer.step_ok taken)

/-- For any connections, other components, functors of other threads and answers of the
kernel. -/
theorem answers_handed (kind : PollerKind) (settings : Settings)
    (actions : List (Action kind.polling.Answer)) (s : TestServer kind.State)
    (run : Run (Graph (TestServer.step settings kind.polling)) (.start settings kind.new) actions s)
    (c : ConnId) (up : .down c ∉ s.world.trace) : Answered s c := by
  have echoing := echoing_of_run run
  obtain ⟨outgoing, carries⟩ := echoing.flowing.delivering.streaming c up
  exact ⟨echoing.handed up, carries, outgoing.interest⟩

/-- Two bytes are read from a connection and sent back; the kernel takes the first of them,
and the other one waits in `output_buffer_`. -/
def oneTakenBack : List (Action KqueueSystem.polling.Answer) :=
  PollerKind.opening none 5 ++
    [.loop .return, .loop .return, .loop .none, .poll (some [(5, .read)]), .loop .none, .loop .none,
      .loop (.readv (.bytes [97, 98])), .loop (.loopCall (.input 5 .retrieveAllAsString)),
      .loop (.call (.send 5 ⟨[97, 98], Message.two_bytes_le⟩)), .loop .none, .loop .none,
      .loop (.write (.accepted 1)), .loop .none, .loop .return, .loop .none]

theorem answers_handed_one_taken_back :
    ∃ s, Run (Graph (TestServer.step PollerKind.exampleSettings KqueueSystem.polling))
        (.start PollerKind.exampleSettings .new) oneTakenBack s ∧
      s.received 5 = [97, 98] ∧ pieces s.world.trace 5 = [[97], [98]] ∧ Answered s 5 := by
  have ends : endsIn (fun _ _ => True)
      (TestServer.step PollerKind.exampleSettings KqueueSystem.polling) Fault.notEnabled
      (.start PollerKind.exampleSettings .new) oneTakenBack
      (fun s => decide (s.received 5 = [97, 98] ∧ pieces s.world.trace 5 = [[97], [98]] ∧
        .down 5 ∉ s.world.trace)) = true := by
    decide +kernel
  obtain ⟨s, run, test⟩ := run_of_endsIn _ _ ends
  obtain ⟨received, handed, up⟩ := of_decide_eq_true test
  exact ⟨s, run.unguarded, received, handed, answers_handed .kqueue _ _ s run.unguarded 5 up⟩

/-- What comes back is what was read. -/
structure Echoed {σ : Type} (s : TestServer σ) (c : ConnId) : Prop where
  /-- also on a connection that is down -/
  sent : acceptedBytes s.world.trace c <+: s.received c
  whole : .down c ∉ s.world.trace → s.received c =
    acceptedBytes s.world.trace c ++ (s.world.conns c).outputBuffer.value ++
      s.world.inFlight c ++ s.answering c
  /-- between two functions of the library, the rest is in `output_buffer_` -/
  idle : .down c ∉ s.world.trace → s.world.stack = [] →
    s.received c = acceptedBytes s.world.trace c ++ (s.world.conns c).outputBuffer.value

/-- As long as no append compacts an output buffer, which puts retrieved bytes into it. -/
theorem echo (kind : PollerKind) (settings : Settings)
    (actions : List (Action kind.polling.Answer)) (s : TestServer kind.State)
    (run : Run (Guarded (fun s action => s.world.InPlace action)
      (Graph (TestServer.step settings kind.polling))) (.start settings kind.new) actions s)
    (c : ConnId) : Echoed s c := by
  have kept : TestServer.Echoing settings kind.Mentions s ∧ s.Exact := by
    refine @Run.invariant _ _ _ _ _ _
      (fun s => TestServer.Echoing settings kind.Mentions s ∧ s.Exact) run
      ⟨TestServer.start_echoing settings kind.new_mentions,
        TestServer.start_exact settings kind.new⟩ ?_
    rintro _ _ _ ⟨echoing, exactly⟩ ⟨inPlace, taken⟩
    have step := TestServer.step_ok taken
    exact ⟨echoing.step kind.lawful step, exactly.step echoing kind.lawful inPlace step⟩
  obtain ⟨echoing, exactly⟩ := kept
  refine ⟨exactly.sent c, exactly.whole echoing, fun up empty => ?_⟩
  have whole := exactly.whole echoing up
  rw [echoing.program.answered empty c] at whole
  simpa [World.inFlight, empty] using whole

theorem echo_one_taken_back :
    ∃ s, Run (Guarded (fun s action => s.world.InPlace action)
          (Graph (TestServer.step PollerKind.exampleSettings KqueueSystem.polling)))
        (.start PollerKind.exampleSettings .new) oneTakenBack s ∧
      s.world.stack = [] ∧ acceptedBytes s.world.trace 5 = [97] ∧
      (s.world.conns 5).outputBuffer.value = [98] ∧ Echoed s 5 := by
  have ends : endsIn (fun s action => s.world.InPlace action)
      (TestServer.step PollerKind.exampleSettings KqueueSystem.polling) Fault.notEnabled
      (.start PollerKind.exampleSettings .new) oneTakenBack
      (fun s => decide (s.world.stack = [] ∧ acceptedBytes s.world.trace 5 = [97] ∧
        (s.world.conns 5).outputBuffer.value = [98])) = true := by
    decide +kernel
  obtain ⟨s, run, test⟩ := run_of_endsIn _ _ ends
  obtain ⟨empty, taken, waits⟩ := of_decide_eq_true test
  exact ⟨s, run, empty, taken, waits, echo .kqueue _ _ s run 5⟩

end Muduo.Guarantees
