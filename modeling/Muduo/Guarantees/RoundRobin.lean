import Muduo.Source.TcpServerStartRuns

/-!
# The loops take connections in turn

From the first connection on the loops of the pool are fixed, whatever `setThreadNum` is
called with; connections go to them one after the other, from the first one again after the
last. Without a pool all of them live on the main loop.
-/
namespace Muduo.Guarantees
open Muduo.Support Muduo.Source

section RoundRobin

variable {σ : Type} {deployment : Deployment} {s : PooledServer σ} {poller : σ}

/-- Connections accepted on a loop. -/
def onLoop (s : PooledServer σ) (loop : LoopId) : Nat :=
  s.server.accepted.countP fun conn => conn.1 = loop

/-- Connection number `k` is on loop `k` modulo the pool's size: the loops of the pool differ
by one connection at most, and the main loop has one only if there is no pool. -/
structure TakesTurns (s : PooledServer σ) : Prop where
  numbered : s.pool.loops = List.range' 1 s.pool.loops.length
  inTurn : ∀ k conn, s.server.accepted[k]? = some conn →
    if s.pool.loops = [] then conn.1 = mainLoop else conn.1 = k % s.pool.loops.length + 1
  fair : ∀ loop ∈ s.pool.loops, ∀ other ∈ s.pool.loops, onLoop s loop ≤ onLoop s other + 1
  main : s.pool.loops ≠ [] → onLoop s mainLoop = 0

theorem onLoop_eq (starting : s.Starting deployment poller) (loop : LoopId) :
    onLoop s loop = (turns s.pool.serving s.server.accepted.length).count loop := by
  rw [← starting.inTurn, onLoop, List.count, List.countP_map]
  exact List.countP_congr fun conn _ => by simp

theorem takesTurns_of_starting (starting : s.Starting deployment poller) : TakesTurns s where
  numbered := starting.numbered
  inTurn k conn present := by
    have early : k < s.server.accepted.length := (List.getElem?_eq_some_iff.mp present).1
    have own : (s.server.accepted.map Prod.fst)[k]? = some conn.1 := by
      rw [List.getElem?_map, present, Option.map_some]
    rw [starting.inTurn, getElem?_turns s.pool.serving_nonempty early] at own
    split
    · next empty =>
      rw [EventLoopThreadPool.serving, if_pos empty, List.length_singleton, Nat.mod_one] at own
      exact (Option.some.inj own).symm
    · next threads =>
      rw [EventLoopThreadPool.serving, if_neg threads, starting.numbered] at own
      obtain ⟨inside, value⟩ := List.getElem?_eq_some_iff.mp own
      simp only [List.getElem_range', List.length_range', Nat.one_mul] at value
      rw [← value, Nat.add_comm]
  fair loop member other present := by
    have threads : s.pool.loops ≠ [] := List.ne_nil_of_mem member
    have all : s.pool.serving = s.pool.loops := if_neg threads
    have nodup : s.pool.serving.Nodup := by
      rw [all, starting.numbered]
      exact List.nodup_range'
    rw [onLoop_eq starting, onLoop_eq starting]
    exact turns_fair nodup (all ▸ member) (all ▸ present) _
  main threads := by
    have all : s.pool.serving = s.pool.loops := if_neg threads
    rw [onLoop_eq starting, List.count_eq_zero]
    intro chosen
    have member := mem_of_mem_turns chosen
    rw [all, starting.numbered, List.mem_range'_1] at member
    exact absurd member.1 (by decide)

end RoundRobin

/-- For any deployment, poller and interleaving of the callers of `start` and
`setThreadNum`, the loops, the clients and the other threads. -/
theorem round_robin {σ : Type} (deployment : Deployment) (impl : Polling σ) (name : String)
    (poller : σ) (actions : List (PooledAction impl.Answer)) (s : PooledServer σ)
    (run : Run (Graph (PooledServer.step deployment impl)) (.new deployment name poller) actions s) :
    TakesTurns s ∧ ∀ later s', s.listenning = true →
      Run (Graph (PooledServer.step deployment impl)) s later s' → s'.pool.loops = s.pool.loops :=
  have starting := PooledServer.starting_of_run run
  ⟨takesTurns_of_starting starting, fun _ _ listenning later =>
    (PooledServer.loops_of_run starting later).2 listenning⟩

/-- The accept channel's callback on the main loop accepts a connection for a loop of the
pool, which polls then. -/
def acceptFor {answer : Type} (loop : LoopId) (c : ConnId) : PooledAction answer :=
  .run (.on loop (.run (.connectElsewhere c)))

/-- Two IO loops, three connections, and a `setThreadNum` in between. -/
def threeClients : List (PooledAction KqueueSystem.polling.Answer) :=
  [.setThreadNum loopThread 2, .start loopThread] ++ List.replicate 5 (.advance loopThread .granted) ++
    (Cluster.runOn mainLoop [.call .queueInLoop, .other 0, .poll none, .loop .none,
      .loop .none]).map .run ++
    [acceptFor 1 5, acceptFor 2 6, .setThreadNum 7 4, acceptFor 1 7]

theorem round_robin_three_clients :
    ∃ s, Run (Graph (PooledServer.step Cluster.exampleDeployment KqueueSystem.polling))
        (.new Cluster.exampleDeployment "server" .new) threeClients s ∧
      (s.server.accepted = [(1, 5), (2, 6), (1, 7)] ∧ s.listenning = true) ∧ TakesTurns s ∧
      ∀ later s', s.listenning = true →
        Run (Graph (PooledServer.step Cluster.exampleDeployment KqueueSystem.polling)) s later s' →
          s'.pool.loops = s.pool.loops := by
  have ran : ∃ s, exec (PooledServer.step Cluster.exampleDeployment KqueueSystem.polling)
      (.new Cluster.exampleDeployment "server" .new) threeClients = .ok s ∧
      (s.server.accepted = [(1, 5), (2, 6), (1, 7)] ∧ s.listenning = true) := by
    refine ⟨_, rfl, rfl, rfl⟩
  obtain ⟨s, ends, state⟩ := ran
  exact ⟨s, run_of_exec ends, state, round_robin _ _ _ _ _ s (run_of_exec ends)⟩

end Muduo.Guarantees
