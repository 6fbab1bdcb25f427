import Muduo.Source.ReactorCluster
import Muduo.Source.ReactorWatching

/-!
# A connection outlives its dispatch

`Channel` is dispatched through a plain pointer. As long as the server stays, the
functor of `connectDestroyed` is the last to hold a connection that nobody else
keeps, and it is released at the end of its batch: by then the poller has forgotten
the channel, and no `handleEvent` of it can follow.
-/
namespace Muduo.Guarantees
open Muduo.Support Muduo.Source

section Lifetime

variable {σ : Type} {answer : Type}

/-- `~TcpServer` does not start. -/
def ServerStays (_ : Cluster σ) : ClusterAction answer → Prop
  | .on _ _ => True
  | .destroyServer => False

instance (cluster : Cluster σ) (action : ClusterAction answer) :
    Decidable (ServerStays cluster action) := by
  delta ServerStays
  induction action using ClusterAction.casesOn <;> infer_instance

/-- Nothing uses the connection or its channel any more. -/
structure Released (s : Sharing KqueueSystem) (c : ConnId) : Prop where
  torn : c ∈ s.torn
  closed : s.world.state c = .kDisconnected
  unknown : ∀ fd, s.world.poller.poller.channels.find fd ≠ some c
  active : c ∉ s.world.active
  dispatched : ∀ callbacks, .handleEvent c callbacks ∉ s.world.stack

variable {deployment : Deployment} {cluster cluster' : Cluster KqueueSystem}

/-- What holds of every loop while the server stays. -/
structure Enduring (deployment : Deployment) (cluster : Cluster KqueueSystem) : Prop where
  staying : cluster.destroying = false
  lasting : ∀ loop, (cluster.loops loop).Lasting (deployment.settings loop)

theorem start_enduring (deployment : Deployment) : Enduring deployment (.start deployment .new) :=
  ⟨rfl, fun _ => Sharing.start_lasting _⟩

/-- A part of `~TcpServer` is permitted after its start only. -/
theorem serves_of_permits {loop : LoopId} {action : Action answer} {cluster : Cluster σ}
    (staying : cluster.destroying = false)
    (permitted : cluster.Permits deployment loop (.run action)) : action.serves = true := by
  cases action with
  | destroy => cases staying.symm.trans permitted
  | destroyElsewhere => cases staying.symm.trans permitted.1
  | _ => rfl

theorem Enduring.step (enduring : Enduring deployment cluster)
    {action : ClusterAction KqueueSystem.polling.Answer} (stays : ServerStays cluster action)
    (step : cluster.Step deployment KqueueSystem.polling action cluster') :
    Enduring deployment cluster' := by
  obtain ⟨staying, lasting⟩ := enduring
  refine ⟨?_, step.each (fun loop s => s.Lasting (deployment.settings loop)) lasting ?_⟩
  · cases step with
    | on => exact staying
    | destroyServer => exact stays.elim
  · rintro loop action s - permitted taken
    refine (lasting loop).step (fun own same => ?_) taken
    subst same
    exact serves_of_permits staying permitted

theorem enduring_of_run {actions : List (ClusterAction KqueueSystem.polling.Answer)}
    (run : Run (Guarded ServerStays (Graph (Cluster.step deployment KqueueSystem.polling)))
      (.start deployment .new) actions cluster) : Enduring deployment cluster :=
  run.invariant (start_enduring deployment) fun _ _ _ enduring taken =>
    enduring.step taken.1 (Cluster.step_ok taken.2)

theorem released_of_lasting {settings : Settings} {s : Sharing KqueueSystem} {c : ConnId}
    (lasting : s.Lasting settings) (live : s.world.Live c) (last : s.refs c = 0) :
    Released s c := by
  obtain ⟨tidy, closed, spent, torn⟩ := lasting.serving.accounted.released live last
  obtain ⟨active, stack⟩ := lasting.undispatched c live tidy spent
  exact ⟨torn, closed, lasting.unknown live last, active, stack⟩

end Lifetime

/-- For any deployment and any interleaving of its loops, threads and users in which the
server is not destroyed: when nobody holds a connection any more, its
`connectDestroyed` has run and nothing leads to its channel. -/
theorem connection_outlives_dispatch (deployment : Deployment)
    (actions : List (ClusterAction KqueueSystem.polling.Answer)) (cluster : Cluster KqueueSystem)
    (run : Run (Guarded ServerStays (Graph (Cluster.step deployment KqueueSystem.polling)))
      (.start deployment .new) actions cluster) (loop : LoopId) (c : ConnId)
    (live : (cluster.loops loop).world.Live c) (last : (cluster.loops loop).refs c = 0) :
    Released (cluster.loops loop) c :=
  released_of_lasting ((enduring_of_run run).lasting loop) live last

/-- Another thread closes the connection; the main loop removes it, and the IO loop
comes to the end of the batch that destroys it. -/
def closedConnection : List (ClusterAction KqueueSystem.polling.Answer) :=
  Cluster.opening none 5 ++
    Cluster.runOn 1 ([.call (.forceClose 5), .other 0, .other 0, .other 0, .poll none] ++
      List.replicate 7 (.loop .none) ++ [.loop .return, .loop .none]) ++
    Cluster.runOn mainLoop [.loop .return] ++
    Cluster.runOn 1 ([.removeElsewhere 5, .loop .none, .poll none] ++ List.replicate 5 (.loop .none))

theorem connection_outlives_dispatch_closed :
    ∃ cluster, Run (Guarded ServerStays
        (Graph (Cluster.step Cluster.exampleDeployment KqueueSystem.polling)))
        (.start Cluster.exampleDeployment .new) closedConnection cluster ∧
      ((cluster.loops 1).world.Live 5 ∧ (cluster.loops 1).refs 5 = 0) ∧
      Released (cluster.loops 1) 5 := by
  have ends : endsIn ServerStays (Cluster.step Cluster.exampleDeployment KqueueSystem.polling)
      Fault.notEnabled (.start Cluster.exampleDeployment .new) closedConnection
      (fun cluster => decide
        ((cluster.loops 1).world.Live 5 ∧ (cluster.loops 1).refs 5 = 0)) = true := by
    decide +kernel
  obtain ⟨cluster, run, unheld⟩ := run_of_endsIn _ _ ends
  have unheld := of_decide_eq_true unheld
  exact ⟨cluster, run, unheld,
    connection_outlives_dispatch _ _ cluster run 1 5 unheld.1 unheld.2⟩

end Muduo.Guarantees
