import Muduo.Source.ReactorServerRuns

/-!
# Servers constructed and destroyed on one loop

The poller's map must not outlive the channels it leads to: a kernel gives out the
number of a closed descriptor again, and the registration of its new channel tests
that the map has no entry for it. Connections are removed before they go. An acceptor
is not: after it has listened, its entry stays when its server is destroyed.
-/
namespace Muduo.Guarantees
open Muduo.Support Muduo.Source

/-- Every entry of `channels_` leads to a channel that exists, whose descriptor is open,
and the first operation of no such channel finds an entry of another. -/
structure Outlived (hosting : Hosting) (host : Host KqueueSystem) : Prop where
  entries : ∀ fd id, host.world.poller.poller.channels.find fd = some id →
    hosting.fdOf id = fd ∧ host.Exists hosting id
  registers : ∀ id opt, host.Exists hosting id →
    KqueueSystem.polling.operate host.world.heap host.world.poller id (.update opt) ≠
      .error (.assertFailed .updateChannelAbsent)

section Cycles

variable {hosting : Hosting} {host : Host KqueueSystem}
  {actions : List (HostAction KqueueSystem.polling.Answer)}

theorem hosted_of_run
    (run : Run (Guarded Host.Unstarted (Graph (Host.step hosting KqueueSystem.polling)))
      (.start hosting .new) actions host) : host.Hosted hosting :=
  run.invariant (Host.start_hosted hosting) fun _ _ _ hosted taken =>
    hosted.step taken.1 (Host.step_ok taken.2)

theorem retained_of_run (run : Run (Graph (Host.step hosting KqueueSystem.polling))
    (.start hosting .new) actions host) : host.Retained hosting :=
  run.invariant (Host.start_retained hosting) fun _ _ _ retained taken =>
    retained.step (Host.step_ok taken)

theorem outlived_of_hosted (hosted : host.Hosted hosting) : Outlived hosting host := by
  have entries : ∀ fd id, host.world.poller.poller.channels.find fd = some id →
      hosting.fdOf id = fd ∧ host.Exists hosting id := by
    intro fd id found
    refine ⟨(hosted.retained.fd id).symm.trans (hosted.entered fd id found).1, ?_⟩
    rcases hosted.present fd id found with aux | live
    · exact hosted.exists_of_aux aux
    · exact Or.inr (Or.inr live)
  refine ⟨entries, fun id opt there => hosted.entered.registers fun other found => ?_⟩
  rw [hosted.retained.fd] at found
  obtain ⟨same, exists_⟩ := entries _ other found
  exact hosted.distinct exists_ there same

/-- The entry of an acceptor that has listened leads nowhere once its server is gone. -/
theorem Outlived.listens (outlived : Outlived hosting host) (retained : host.Retained hosting)
    {k : ServerId} (listens : k ∈ host.listenning) : k ∉ host.destroyed := by
  obtain ⟨wakeup, unborn⟩ := retained.apart k (retained.listed k listens)
  rcases (outlived.entries _ k (retained.entered k listens)).2 with same | server | live
  · exact absurd same wakeup
  · exact server.2
  · exact absurd live.1 unborn

end Cycles

/-- For any loop, any servers and connections on it and any interleaving with other
threads and users: while `~TcpServer` starts on no server that has listened, the map does
not outlive its channels; once such a server is destroyed, it does. -/
theorem server_cycles_exact (hosting : Hosting)
    (actions : List (HostAction KqueueSystem.polling.Answer)) (host : Host KqueueSystem) :
    (Run (Guarded Host.Unstarted (Graph (Host.step hosting KqueueSystem.polling)))
        (.start hosting .new) actions host → Outlived hosting host) ∧
      (Run (Graph (Host.step hosting KqueueSystem.polling)) (.start hosting .new) actions host →
        (∃ k ∈ host.listenning, k ∈ host.destroyed) → ¬ Outlived hosting host) := by
  refine ⟨fun run => outlived_of_hosted (hosted_of_run run), fun run stale outlived => ?_⟩
  obtain ⟨k, listens, gone⟩ := stale
  exact outlived.listens (retained_of_run run) listens gone

/-- Descriptors repeat after a hundred channels. -/
def exampleHosting : Hosting := ⟨fun id => ((id % 100 : Nat) : Int), 3, fun _ => 8, false⟩

/-- The loop comes to a functor of the user. -/
def untilFunctor : List (HostAction KqueueSystem.polling.Answer) :=
  ([.call .queueInLoop, .other 0, .poll none, .loop .none, .loop .none] :
    List (Action KqueueSystem.polling.Answer)).map fun action => .run (.run action)

/-- One server listens; another is destroyed before it was started, and a connection gets
its descriptor. -/
def reusedDescriptor : List (HostAction KqueueSystem.polling.Answer) :=
  [.construct 8, .construct 105] ++ untilFunctor ++
    [.listen 8, .destroyServer 105, .destroyAcceptor,
      .run (.run (.loop (.loopCall (.newConnection 5)))), .run (.run (.loop .none)),
      .run (.run (.loop .none))]

theorem server_cycles_exact_reused :
    ∃ host, Run (Guarded Host.Unstarted (Graph (Host.step exampleHosting KqueueSystem.polling)))
        (.start exampleHosting .new) reusedDescriptor host ∧
      (host.destroyed = [105] ∧ host.world.poller.poller.channels.find 5 = some 5) ∧
      Outlived exampleHosting host := by
  have ends : endsIn Host.Unstarted (Host.step exampleHosting KqueueSystem.polling)
      Fault.notEnabled (.start exampleHosting .new) reusedDescriptor
      (fun host => decide (host.destroyed = [105] ∧
        host.world.poller.poller.channels.find 5 = some 5)) = true := by
    decide +kernel
  obtain ⟨host, run, reused⟩ := run_of_endsIn _ _ ends
  exact ⟨host, run, of_decide_eq_true reused, (server_cycles_exact _ _ host).1 run⟩

/-- A server that listens is destroyed, and the next one gets its descriptor. -/
def restartedServer : List (HostAction KqueueSystem.polling.Answer) :=
  [.construct 8] ++ untilFunctor ++ [.listen 8, .destroyServer 8, .destroyAcceptor, .construct 108]

theorem restart_finds_entry :
    ∃ host, Run (Graph (Host.step exampleHosting KqueueSystem.polling))
        (.start exampleHosting .new) restartedServer host ∧ host.destroying = [] ∧
      host.step exampleHosting KqueueSystem.polling (.listen 108) =
        .error (.assertFailed .updateChannelAbsent) ∧
      ¬ Outlived exampleHosting host := by
  refine ⟨_, run_of_exec rfl, rfl, rfl, fun outlived => ?_⟩
  have there := (outlived.entries 8 8 rfl).2
  rcases there with same | server | live
  · cases same
  · exact server.2 (by decide)
  · cases live.1

end Muduo.Guarantees
