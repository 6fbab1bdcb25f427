import Muduo.Source.ReactorEvents
import Muduo.Source.ReactorPollers

/-!
# A connection is announced before anything happens on it

`connectEstablished` is the only way out of `kConnecting`, and every other function of a
connection is reached past it: through a channel that it has enabled, or through a test
of `state_`.
-/
namespace Muduo.Guarantees
open Muduo.Support Muduo.Source Muduo.Source.World

/-- For any connections, threads, calls, callbacks and answers of the kernel: nothing is
called, read, sent, closed or shut down on a connection before its up callback, and there
is one up callback only. -/
theorem up_first (kind : PollerKind) (settings : Settings)
    (actions : List (Action kind.polling.Answer)) (w : World kind.State)
    (run : Run (Graph (World.step settings kind.polling)) (start settings kind.new) actions w)
    (c : ConnId) :
    w.state c = .kConnecting ∧ w.story c = [] ∨
      w.state c ≠ .kConnecting ∧ ∃ rest, w.story c = .up c :: rest ∧ .up c ∉ rest := by
  have announced : w.Announced settings kind.Mentions :=
    run.invariant (start_announced settings kind.new_mentions) fun _ _ _ announced taken =>
      announced.step kind.lawful (step_ok taken)
  by_cases connecting : w.state c = .kConnecting
  · exact Or.inl ⟨connecting, announced.untold c connecting⟩
  · exact Or.inr ⟨connecting, announced.told c connecting⟩

/-- A connection is accepted; then a functor of another thread shuts it down. -/
def shutFromOutside : List (Action KqueueSystem.polling.Answer) :=
  PollerKind.opening none 5 ++
    [.call (.shutdown 5), .other 0, .other 0, .loop .return, .loop .return, .loop .none,
      .poll none, .loop .none, .loop .none, .loop .none]

theorem up_first_shut_from_outside :
    ∃ w, Run (Graph (World.step PollerKind.exampleSettings KqueueSystem.polling))
        (start PollerKind.exampleSettings .new) shutFromOutside w ∧
      w.story 5 = [.up 5, .shutdownWrite 5] ∧
      (w.state 5 = .kConnecting ∧ w.story 5 = [] ∨
        w.state 5 ≠ .kConnecting ∧ ∃ rest, w.story 5 = .up 5 :: rest ∧ .up 5 ∉ rest) := by
  have ends : endsIn (fun _ _ => True)
      (World.step PollerKind.exampleSettings KqueueSystem.polling) Fault.notEnabled
      (start PollerKind.exampleSettings .new) shutFromOutside
      (fun w => w.story 5 == [.up 5, .shutdownWrite 5]) = true := by
    decide +kernel
  obtain ⟨w, run, told⟩ := run_of_endsIn _ _ ends
  exact ⟨w, run.unguarded, by simpa using told, up_first .kqueue _ _ w run.unguarded 5⟩

end Muduo.Guarantees
