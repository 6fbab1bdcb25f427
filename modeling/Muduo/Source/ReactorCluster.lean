import Muduo.Source.ReactorPollers
import Muduo.Source.ReactorSharing

/-!
# A server on its main loop and the IO loops of its pool

The main loop accepts, and `removeConnectionInLoop` and `~TcpServer` run on its
thread; each connection lives on the loop that `getNextLoop` chose for it. Between
`closeCallback_` and its removal a connection of an IO loop waits in the queue of
the main loop. `~TcpServer` begins in a functor and takes one connection after the
other; on the main loop each is destroyed at once, with the callbacks this brings.
-/
namespace Muduo.Source
open Muduo.Support

/-- The main loop, then the loops of the pool. -/
abbrev LoopId := Nat

def mainLoop : LoopId := 0

structure Deployment where
  /-- `num_threads_` -/
  numThreads : Nat
  fdOf : LoopId → ChannelId → Int
  aux : LoopId → List ChannelId
  writeCompleteCallback : Bool

def Deployment.settings (deployment : Deployment) (loop : LoopId) : Settings where
  fdOf := deployment.fdOf loop
  aux := deployment.aux loop
  serverHere := loop = mainLoop
  writeCompleteCallback := deployment.writeCompleteCallback

def Deployment.loops (deployment : Deployment) : List LoopId := List.range (deployment.numThreads + 1)

structure Cluster (σ : Type) where
  loops : LoopId → Sharing σ
  /-- `~TcpServer` has started -/
  destroying : Bool

inductive ClusterAction (answer : Type) where
  | on (loop : LoopId) (action : SharedAction answer)
  | destroyServer

namespace Cluster

variable {σ : Type}

def start (deployment : Deployment) (poller : σ) : Cluster σ where
  loops loop := .start (deployment.settings loop) poller
  destroying := false

def main (cluster : Cluster σ) : World σ := (cluster.loops mainLoop).world

/-- Actions of one loop, one after the other. -/
def runOn {answer : Type} (loop : LoopId) (actions : List (Action answer)) :
    List (ClusterAction answer) :=
  actions.map fun action => .on loop (.run action)

/-- A functor of the user runs on the main loop, which accepts a connection meanwhile; the
first IO loop establishes it. -/
def opening {answer : Type} (silence : answer) (c : ConnId) : List (ClusterAction answer) :=
  runOn mainLoop [.call .queueInLoop, .other 0, .poll silence, .loop .none, .loop .none] ++
    runOn 1 [.connectElsewhere c, .poll silence, .loop .none, .loop .none, .loop .none, .loop .none,
      .loop .return, .loop .none]

/-- Two loops, connections on the descriptors of their names. -/
def exampleDeployment : Deployment := ⟨1, fun _ id => (id : Int), fun _ => [], true⟩

/-- The same without IO loops. -/
def singleLoop : Deployment := { exampleDeployment with numThreads := 0 }

/-- `~TcpServer` has connections left to destroy. -/
def Holding (deployment : Deployment) (cluster : Cluster σ) : Prop :=
  ∃ loop ∈ deployment.loops, (cluster.loops loop).world.table ≠ []

instance (deployment : Deployment) (cluster : Cluster σ) : Decidable (cluster.Holding deployment) := by
  unfold Holding; infer_instance

/-- The server's functions run on the main loop's thread, where that thread stands:
`newConnection` in a callback, a removal as a functor, `~TcpServer` in a functor. -/
def Permits {answer : Type} (deployment : Deployment) (cluster : Cluster σ) (loop : LoopId) :
    SharedAction answer → Prop
  | .run (.loop (.loopCall (.newConnection _))) =>
    cluster.destroying = false ∧ deployment.numThreads = 0
  | .run (.connectElsewhere _) =>
    cluster.destroying = false ∧ cluster.main.stack.head? = some .user
  | .run (.removeElsewhere _) => cluster.main.stack = [] ∧ cluster.main.phase.inFunctors = true
  | .run (.destroy _) => cluster.destroying = true
  | .run (.destroyElsewhere _) => cluster.destroying = true ∧ cluster.main.stack = [.user]
  | .run (.loop _) =>
    ¬ (loop = mainLoop ∧ cluster.destroying = true ∧ cluster.main.stack = [.user] ∧
      cluster.Holding deployment)
  | _ => True

instance {answer : Type} (deployment : Deployment) (cluster : Cluster σ) (loop : LoopId)
    (action : SharedAction answer) : Decidable (cluster.Permits deployment loop action) := by
  delta Permits
  rcases action with action | _ | _ | _
  · induction action using Action.casesOn with
    | loop input =>
      induction input using Input.casesOn with
      | loopCall call => induction call using LoopCall.casesOn <;> infer_instance
      | _ => infer_instance
    | _ => infer_instance
  all_goals infer_instance

def step (deployment : Deployment) (impl : Polling σ) (cluster : Cluster σ) :
    ClusterAction impl.Answer → Except Fault (Cluster σ)
  | .on loop action =>
    if loop ∈ deployment.loops ∧ cluster.Permits deployment loop action then
      match (cluster.loops loop).step (deployment.settings loop) impl action with
      | .ok s => .ok { cluster with loops := Function.update cluster.loops loop s }
      | .error e => .error e
    else .error .notEnabled
  | .destroyServer =>
    if cluster.destroying = false ∧ cluster.main.stack = [.user] then
      .ok { cluster with destroying := true }
    else .error .notEnabled

/-- The outcomes of an action. -/
inductive Step (deployment : Deployment) (impl : Polling σ) (cluster : Cluster σ) :
    ClusterAction impl.Answer → Cluster σ → Prop
  | on {loop : LoopId} {action : SharedAction impl.Answer} {s : Sharing σ} :
      loop ∈ deployment.loops → cluster.Permits deployment loop action →
      (cluster.loops loop).Step (deployment.settings loop) impl action s →
      Step deployment impl cluster (.on loop action)
        { cluster with loops := Function.update cluster.loops loop s }
  | destroyServer : cluster.destroying = false → cluster.main.stack = [.user] →
      Step deployment impl cluster .destroyServer { cluster with destroying := true }

variable {deployment : Deployment} {impl : Polling σ} {cluster cluster' : Cluster σ}

theorem step_ok {action : ClusterAction impl.Answer}
    (ran : cluster.step deployment impl action = .ok cluster') :
    Step deployment impl cluster action cluster' := by
  cases action with
  | on loop action =>
    simp only [step] at ran
    split at ran
    · next permitted =>
      split at ran <;> cases ran
      next s stepped => exact .on permitted.1 permitted.2 (Sharing.step_ok stepped)
    · cases ran
  | destroyServer =>
    simp only [step] at ran
    split at ran <;> cases ran
    next ready => exact .destroyServer ready.1 ready.2

/-- What each loop keeps on its own steps, every loop keeps on the steps of all. -/
theorem Step.each (inv : LoopId → Sharing σ → Prop) {action : ClusterAction impl.Answer}
    (step : cluster.Step deployment impl action cluster') (before : ∀ loop, inv loop (cluster.loops loop))
    (preserved : ∀ loop own s, action = .on loop own → cluster.Permits deployment loop own →
      (cluster.loops loop).Step (deployment.settings loop) impl own s → inv loop s) :
    ∀ loop, inv loop (cluster'.loops loop) := by
  cases step with
  | destroyServer => exact before
  | @on loop own s _ permitted taken =>
    intro other
    show inv other (Function.update cluster.loops loop s other)
    by_cases same : other = loop
    · subst same
      rw [Function.update_self]
      exact preserved other own s rfl permitted taken
    · rw [Function.update_of_ne same]
      exact before other

theorem claimed_of_run {guard : Cluster σ → ClusterAction impl.Answer → Prop} {poller : σ}
    {actions : List (ClusterAction impl.Answer)}
    (run : Run (Guarded guard (Graph (step deployment impl))) (start deployment poller) actions
      cluster) : ∀ loop, (cluster.loops loop).Claimed :=
  run.invariant (fun _ => Sharing.start_claimed ..) fun _ _ _ claimed taken =>
    (step_ok taken.2).each (fun _ s => s.Claimed) claimed fun loop _ _ _ _ step =>
      (claimed loop).step step

end Cluster

end Muduo.Source
