import Muduo.Source.TcpServerStartRuns

/-!
# A started server is the server of a deployment

The loops of the server with its pool, from its construction on, run as in the deployment
that has as many IO loops as the pool has in the end. What holds in every run of a
deployment therefore holds of the server that is started.
-/
namespace Muduo.Guarantees
open Muduo.Support Muduo.Source

section PooledDeployment

variable {σ : Type} {deployment : Deployment} {impl : Polling σ} {poller : σ}

/-- The step of the loops in an action, if it is one. -/
def loopsOf {answer : Type} : PooledAction answer → Option (ClusterAction answer)
  | .run action => some action
  | _ => none

/-- A condition on the steps of the loops. -/
def OnLoops {answer : Type} (guard : TcpServer σ → ClusterAction answer → Prop) (s : PooledServer σ)
    (action : PooledAction answer) : Prop :=
  ∀ own, loopsOf action = some own → guard s.server own

/-- A pool grows: the loops beyond it hold no connections. -/
structure Grown (deployment : Deployment) (cluster : Cluster σ) (fewer more : Nat) : Prop where
  fewer_le : fewer ≤ more
  unstarted : ∀ loop, fewer < loop → (cluster.loops loop).world.table = []

theorem holding_grown {cluster : Cluster σ} {fewer more : Nat}
    (grown : Grown deployment cluster fewer more) :
    cluster.Holding (deployment.withThreads more) ↔
      cluster.Holding (deployment.withThreads fewer) := by
  simp only [Cluster.Holding, Deployment.loops, Deployment.withThreads, List.mem_range,
    Nat.lt_succ_iff]
  constructor
  · rintro ⟨loop, _, entries⟩
    refine ⟨loop, ?_, entries⟩
    by_contra beyond
    exact entries (grown.unstarted loop (not_le.mp beyond))
  · rintro ⟨loop, member, entries⟩
    exact ⟨loop, member.trans grown.fewer_le, entries⟩

theorem permits_grown {cluster : Cluster σ} {fewer more : Nat}
    (grown : Grown deployment cluster fewer more) {loop : LoopId}
    {action : SharedAction impl.Answer}
    (settled : (TcpServer.constructs (.on loop action)).isSome = true → fewer = more)
    (permitted : cluster.Permits (deployment.withThreads fewer) loop action) :
    cluster.Permits (deployment.withThreads more) loop action := by
  by_cases same : fewer = more
  · rwa [← same]
  have holding := holding_grown grown
  cases action with
  | keep | drop | destruct => exact trivial
  | run own =>
    cases own with
    | loop input =>
      cases input with
      | loopCall call =>
        cases call with
        | newConnection c => exact absurd (settled rfl) same
        | _ => simpa only [Cluster.Permits, holding] using permitted
      | _ => simpa only [Cluster.Permits, holding] using permitted
    | _ => exact permitted

/-- A step of the smaller deployment is a step of the larger one. -/
theorem step_grown {server server' : TcpServer σ} {fewer more : Nat}
    (grown : Grown deployment server.cluster fewer more) {action : ClusterAction impl.Answer}
    (settled : (TcpServer.constructs action).isSome = true → fewer = more)
    (ran : server.step (deployment.withThreads fewer) impl action = .ok server') :
    server.step (deployment.withThreads more) impl action = .ok server' := by
  have removes : TcpServer.removes (deployment.withThreads more) server.cluster action =
      TcpServer.removes (deployment.withThreads fewer) server.cluster action := rfl
  have loops (cluster : Cluster σ)
      (stepped : server.cluster.step (deployment.withThreads fewer) impl action = .ok cluster) :
      server.cluster.step (deployment.withThreads more) impl action = .ok cluster := by
    cases action with
    | destroyServer => exact stepped
    | on loop action =>
      simp only [Cluster.step] at stepped ⊢
      split at stepped
      · next permitted =>
        have member : loop ∈ (deployment.withThreads more).loops := by
          have small := permitted.1
          have grown := grown.fewer_le
          simp only [Deployment.loops, Deployment.withThreads, List.mem_range] at small ⊢
          omega
        rw [if_pos ⟨member, permits_grown grown settled permitted.2⟩]
        exact stepped
      · cases stepped
  unfold TcpServer.step at ran ⊢
  split at ran
  · cases ran
  · next cluster stepped => rw [loops cluster stepped, removes]; exact ran

variable {guard : TcpServer σ → ClusterAction impl.Answer → Prop} {s s' : PooledServer σ}
  {actions : List (PooledAction impl.Answer)}

/-- The step of an action in the deployment that the pool will have, with `more` loops. -/
theorem loops_of_step (starting : s.Starting deployment poller) {action : PooledAction impl.Answer}
    {own : ClusterAction impl.Answer} (loops : loopsOf action = some own)
    (step : s.Step deployment impl action s') {more : Nat} (grown : s.pool.loops.length ≤ more)
    (settled : s.listenning = true → s.pool.loops.length = more) :
    s.server.step (deployment.withThreads more) impl own = .ok s'.server := by
  have grownTo : Grown deployment s.server.cluster s.pool.loops.length more := by
    refine ⟨grown, fun loop beyond => ?_⟩
    rw [starting.unstarted loop beyond]
    rfl
  cases step with
  | run constructs stepped =>
    cases loops
    exact step_grown grownTo (fun some => by simp [constructs] at some) stepped
  | accept constructs listenning _ stepped =>
    cases loops
    exact step_grown grownTo (fun _ => settled listenning) stepped
  | _ => cases loops

theorem stays_of_step {action : PooledAction impl.Answer} (loops : loopsOf action = none)
    (step : s.Step deployment impl action s') : s'.server = s.server := by
  cases step with
  | run | accept => cases loops
  | _ => rfl

theorem deployed_of_run (starting : s.Starting deployment poller)
    (run : Run (Guarded (OnLoops guard) (Graph (PooledServer.step deployment impl))) s actions s') :
    Run (Guarded guard (Graph (TcpServer.step (s'.deployed deployment) impl))) s.server
      (actions.filterMap loopsOf) s'.server := by
  induction run with
  | nil => exact .nil _
  | @cons s _ _ action _ taken rest ih =>
    have step := PooledServer.step_ok taken.2
    have later := ih (starting.step step)
    cases loops : loopsOf action with
    | none =>
      rw [List.filterMap_cons_none loops, ← stays_of_step loops step]
      exact later
    | some own =>
      have whole := PooledServer.loops_of_run starting (.cons taken.2 rest.unguarded)
      rw [List.filterMap_cons_some loops]
      refine .cons ⟨taken.1 own loops, ?_⟩ later
      exact loops_of_step starting loops step whole.1 fun listenning =>
        (congrArg List.length (whole.2 listenning)).symm

end PooledDeployment

/-- For any deployment, poller, condition on the steps of the loops and interleaving of the
callers of `start` and `setThreadNum`, the loops, the clients and the other threads. -/
theorem pooled_deployment {σ : Type} (deployment : Deployment) (impl : Polling σ) (name : String)
    (poller : σ) (guard : TcpServer σ → ClusterAction impl.Answer → Prop)
    (actions : List (PooledAction impl.Answer)) (s : PooledServer σ)
    (run : Run (Guarded (OnLoops guard) (Graph (PooledServer.step deployment impl)))
      (.new deployment name poller) actions s) :
    Run (Guarded guard (Graph (TcpServer.step (s.deployed deployment) impl)))
      (.start (s.deployed deployment) name poller) (actions.filterMap loopsOf) s.server :=
  deployed_of_run (PooledServer.new_starting ..) run

/-- The main loop polls before the server is started, and accepts a connection for its one
IO loop afterwards. -/
def startedLate : List (PooledAction KqueueSystem.polling.Answer) :=
  (Cluster.runOn mainLoop [.call .queueInLoop, .other 0, .poll none, .loop .none,
      .loop .none]).map .run ++
    [.setThreadNum loopThread 1, .start loopThread] ++ List.replicate 4 (.advance loopThread .granted) ++
    [.run (.on 1 (.run (.connectElsewhere 5)))]

theorem pooled_deployment_started_late :
    ∃ s, Run (Guarded (OnLoops fun _ _ => True)
        (Graph (PooledServer.step Cluster.singleLoop KqueueSystem.polling)))
        (.new Cluster.singleLoop "server" .new) startedLate s ∧
      (s.deployed Cluster.singleLoop = Cluster.exampleDeployment ∧
        s.server.accepted = [(1, 5)]) ∧
      Run (Guarded (fun _ _ => True)
          (Graph (TcpServer.step (s.deployed Cluster.singleLoop) KqueueSystem.polling)))
        (.start (s.deployed Cluster.singleLoop) "server" .new) (startedLate.filterMap loopsOf)
        s.server := by
  have ran : ∃ s, exec (PooledServer.step Cluster.singleLoop KqueueSystem.polling)
      (.new Cluster.singleLoop "server" .new) startedLate = .ok s ∧
      (s.deployed Cluster.singleLoop = Cluster.exampleDeployment ∧
        s.server.accepted = [(1, 5)]) := ⟨_, rfl, rfl, rfl⟩
  obtain ⟨s, ends, state⟩ := ran
  have run := (run_of_exec ends).mono fun _ _ _ taken =>
    show Guarded (OnLoops fun _ _ => True) _ _ _ _ from ⟨fun _ _ => trivial, taken⟩
  exact ⟨s, run, state, pooled_deployment _ _ _ _ _ _ s run⟩

end Muduo.Guarantees
