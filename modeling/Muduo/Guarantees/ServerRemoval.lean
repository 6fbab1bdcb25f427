import Muduo.Source.ReactorCluster

/-!
# Removals and the destruction of the server

`removeConnection` captures the server and may wait in the queue of the main loop.
Nothing takes it back: a removal that is queued when `~TcpServer` starts still runs,
and so does one that a closing connection asks for afterwards. `connectDestroyed`
itself runs once at most, since the destructor and a removal each take the entry of
`connections_` with them.
-/
namespace Muduo.Guarantees
open Muduo.Support Muduo.Source

section Removal

variable {σ : Type} {answer : Type}

/-- The connection whose `closeCallback_` an action calls. -/
def closeCalled (w : World σ) (action : Action answer) : Option ConnId :=
  match w.running action with
  | some (.handleCloseRest c) => some c
  | _ => none

/-- The connection whose `handleClose` begins. -/
def closeBegun (w : World σ) (action : Action answer) : Option ConnId :=
  match w.running action with
  | some (.handleClose c) => some c
  | _ => none

/-- `handleClose` has begun and not called `closeCallback_` yet. -/
def closesOn : Frame → Bool
  | .handleCloseSecond _ | .handleCloseStore _ | .handleCloseRest _ => true
  | _ => false

/-- No removal is queued, and none is about to be. -/
def Clear (w : World σ) : Prop := w.removing = [] ∧ ∀ frame ∈ w.stack, closesOn frame = false

instance (w : World σ) : Decidable (Clear w) := instDecidableAnd

/-- `~TcpServer` starts without a queued removal or a `handleClose` under way, and no
connection begins to close afterwards. -/
def Undisturbed (deployment : Deployment) (cluster : Cluster σ) : ClusterAction answer → Prop
  | .destroyServer => ∀ loop ∈ deployment.loops, Clear (cluster.loops loop).world
  | .on loop (.run action) =>
    cluster.destroying = true → closeBegun (cluster.loops loop).world action = none
  | .on _ _ => True

instance (deployment : Deployment) (cluster : Cluster σ) (action : ClusterAction answer) :
    Decidable (Undisturbed deployment cluster action) := by
  delta Undisturbed
  rcases action with ⟨loop, action⟩ | _
  · induction action using SharedAction.casesOn <;> infer_instance
  · infer_instance

/-- The action runs `removeConnectionInLoop`, as a functor or at once. -/
def RunsRemoval (cluster : Cluster σ) : ClusterAction answer → Prop
  | .on _ (.run (.removeElsewhere _)) => True
  | .on loop (.run action) =>
    loop = mainLoop ∧ closeCalled (cluster.loops loop).world action ≠ none
  | _ => False

/-- Once `~TcpServer` has started no removal is queued or about to be. -/
def Cleared (deployment : Deployment) (cluster : Cluster σ) : Prop :=
  cluster.destroying = true → ∀ loop ∈ deployment.loops, Clear (cluster.loops loop).world

/-- No removal collides with the destructor, and `connectDestroyed` has run or is to run at
most once on each connection. -/
structure Separate (deployment : Deployment) (cluster : Cluster σ) : Prop where
  cleared : Cleared deployment cluster
  once : ∀ loop c, (cluster.loops loop).world.destroyers c + (cluster.loops loop).torn.count c ≤ 1

variable {deployment : Deployment} {impl : Polling σ} {cluster cluster' : Cluster σ}

theorem closeCalled_eq {w : World σ} {action : Action answer} {c : ConnId}
    (runs : w.running action = some (.handleCloseRest c)) : closeCalled w action = some c := by
  simp [closeCalled, runs]

/-- In a clear state no `closeCallback_` is called. -/
theorem Clear.uncalled {w : World σ} (clear : Clear w) (orderly : w.Orderly) (action : Action answer) :
    closeCalled w action = none := by
  unfold closeCalled
  split
  · next c runs =>
    rcases World.running_mem runs with member | member
    · cases clear.2 _ member
    · cases orderly.calling _ member
  · rfl

/-- Only the begin of a `handleClose` leads on to a `closeCallback_`. -/
theorem closesOn_step {settings : Settings} {w w' : World σ} {action : Action impl.Answer}
    (step : w.Step settings impl action w') (clear : Clear w) (unbegun : closeBegun w action = none)
    {frame : Frame} (member : frame ∈ w'.stack) : closesOn frame = false := by
  cases step with
  | @loop running rest frames _ _ stack advance =>
    rcases List.mem_append.mp member with new | old
    · have known : closesOn running = false := clear.2 running (by simp [stack])
      have silent : ∀ c, running ≠ .handleClose c := by
        rintro c rfl
        simp [closeBegun, World.running, stack] at unbegun
      cases advance.follows.leads new with
      | call enters => cases frame <;> first | rfl | cases enters
      | closeFirst | closeSecond => exact absurd rfl (silent _)
      | closeStore | closeRest => cases known
      | _ => rfl
    · exact clear.2 frame (by simp [stack, old])
  | other _ advance => exact clear.2 frame (advance.control.stack ▸ member)
  | dispatch | destroy => simp at member; rcases member with rfl | rfl <;> rfl
  | @start task => cases task <;> (rw [List.mem_singleton.mp member]; rfl)
  | swap | again | poll | call | connectElsewhere | removeElsewhere | destroyElsewhere | destruct =>
    exact clear.2 frame member

/-- A removal is queued by `closeCallback_` only. -/
theorem clear_step {settings : Settings} {s s' : Sharing σ} {action : SharedAction impl.Answer}
    (step : s.Step settings impl action s') (orderly : s.world.Orderly) (clear : Clear s.world)
    (unbegun : ∀ own, action = .run own → closeBegun s.world own = none) : Clear s'.world := by
  cases step with
  | @run own w _ _ _ taken =>
    refine ⟨?_, fun frame => closesOn_step taken clear (unbegun own rfl)⟩
    have uncalled := clear.uncalled orderly own
    show w.removing = []
    cases taken.moves with
    | stay same => rw [same.removing, clear.1]
    | construct _ _ _ removing | erase _ _ _ _ removing => rw [removing, clear.1]
    | post runs => cases uncalled.symm.trans (closeCalled_eq runs)
    | remove _ posted => simp [clear.1] at posted
  | keep | drop | destruct => exact clear

theorem cleared_of_run {poller : σ} {actions : List (ClusterAction impl.Answer)}
    (run : Run (Guarded (Undisturbed deployment) (Graph (Cluster.step deployment impl)))
      (.start deployment poller) actions cluster) :
    Cleared deployment cluster := by
  have start : Cleared deployment (.start deployment poller) := by simp [Cleared, Cluster.start]
  refine @Run.invariant_given _ _ _ _ _ _ (fun cluster => ∀ loop, (cluster.loops loop).Claimed) _
    run (fun _ _ => Cluster.claimed_of_run) start ?_
  intro cluster action cluster' claimed _ before taken destroying
  obtain ⟨undisturbed, ran⟩ := taken
  cases Cluster.step_ok ran with
  | destroyServer => exact undisturbed
  | @on loop action s _ _ step =>
    intro other member
    show Clear (Function.update cluster.loops loop s other).world
    by_cases same : other = loop
    · subst same
      rw [Function.update_self]
      refine clear_step step (claimed other).orderly (before destroying other member) ?_
      rintro own rfl
      exact undisturbed destroying
    · rw [Function.update_of_ne same]
      exact before destroying other member

theorem separate_of_run {poller : σ} {actions : List (ClusterAction impl.Answer)}
    (run : Run (Guarded (Undisturbed deployment) (Graph (Cluster.step deployment impl)))
      (.start deployment poller) actions cluster) : Separate deployment cluster where
  cleared := cleared_of_run run
  once loop c := by
    have once := (Cluster.claimed_of_run run loop).once c
    split at once <;> omega

/-- With no removal queued, none can run. -/
theorem Cleared.no_removal (cleared : Cleared deployment cluster)
    (orderly : ∀ loop, (cluster.loops loop).world.Orderly)
    (destroying : cluster.destroying = true) {action : ClusterAction impl.Answer}
    (removal : RunsRemoval cluster action) :
    cluster.step deployment impl action = .error .notEnabled := by
  match action with
  | .on loop (.run (.removeElsewhere c)) =>
    simp only [Cluster.step]
    by_cases permitted : loop ∈ deployment.loops ∧
        cluster.Permits deployment loop (.run (.removeElsewhere c) : SharedAction impl.Answer)
    · have empty := (cleared destroying loop permitted.1).1
      rw [if_pos permitted]
      simp [Sharing.step, Sharing.Allows, Action.callee, World.subject, World.step, empty]
    · rw [if_neg permitted]
  | .on loop (.run (.loop _)) | .on loop (.run (.poll _)) | .on loop (.run (.destroy _))
  | .on loop (.run (.call _)) | .on loop (.run (.other _)) | .on loop (.run (.connectElsewhere _))
  | .on loop (.run (.destroyElsewhere _)) | .on loop (.run (.destruct _)) =>
    obtain ⟨rfl, called⟩ := removal
    have main : mainLoop ∈ deployment.loops := by simp [Deployment.loops, mainLoop]
    exact absurd ((cleared destroying _ main).uncalled (orderly _) _) called

end Removal

/-- For any deployment and any interleaving of its loops, threads and users: while each
`~TcpServer` starts with no removal queued and no close under way, and no connection begins
to close afterwards, no `closeCallback_` is called after that start, and removals and the
destructor do not collide. -/
theorem server_removal_exact (deployment : Deployment)
    (actions : List (ClusterAction KqueueSystem.polling.Answer)) (cluster : Cluster KqueueSystem)
    (run : Run (Guarded (Undisturbed deployment)
        (Graph (Cluster.step deployment KqueueSystem.polling)))
      (.start deployment .new) actions cluster) :
    Separate deployment cluster ∧
      (cluster.destroying = true →
        (∀ loop ∈ deployment.loops, ∀ own : Action KqueueSystem.polling.Answer,
          closeCalled (cluster.loops loop).world own = none) ∧
        ∀ action : ClusterAction KqueueSystem.polling.Answer, RunsRemoval cluster action →
          cluster.step deployment KqueueSystem.polling action = .error .notEnabled) := by
  have separate := separate_of_run run
  have orderly loop := (Cluster.claimed_of_run run loop).orderly
  refine ⟨separate, fun destroying => ⟨fun loop member own => ?_, fun action removal => ?_⟩⟩
  · exact (separate.cleared destroying loop member).uncalled (orderly loop) own
  · exact separate.cleared.no_removal orderly destroying removal

/-- The server is destroyed while its connection is up. -/
def destroyedServer : List (ClusterAction KqueueSystem.polling.Answer) :=
  Cluster.opening none 5 ++ [.destroyServer] ++ Cluster.runOn 1 [.destroyElsewhere 5] ++
    Cluster.runOn mainLoop [.loop .return] ++
    Cluster.runOn 1 [.poll none, .loop .none, .loop .none, .loop .none, .loop .none, .loop .return,
      .loop .none]

theorem server_removal_exact_destroyed :
    ∃ cluster, Run (Guarded (Undisturbed Cluster.exampleDeployment)
        (Graph (Cluster.step Cluster.exampleDeployment KqueueSystem.polling)))
        (.start Cluster.exampleDeployment .new) destroyedServer cluster ∧
      (cluster.destroying = true ∧ (cluster.loops 1).torn = [5]) ∧
      Separate Cluster.exampleDeployment cluster ∧
      cluster.step Cluster.exampleDeployment KqueueSystem.polling
        (.on 1 (.run (.removeElsewhere 5))) = .error .notEnabled := by
  have ends : endsIn (Undisturbed Cluster.exampleDeployment)
      (Cluster.step Cluster.exampleDeployment KqueueSystem.polling) Fault.notEnabled
      (.start Cluster.exampleDeployment .new) destroyedServer
      (fun cluster => decide (cluster.destroying = true ∧ (cluster.loops 1).torn = [5])) = true := by
    decide +kernel
  obtain ⟨cluster, run, destroyed⟩ := run_of_endsIn _ _ ends
  have destroyed := of_decide_eq_true destroyed
  obtain ⟨separate, silent⟩ := server_removal_exact _ _ cluster run
  exact ⟨cluster, run, destroyed, separate, (silent destroyed.1).2 _ trivial⟩

/-- The IO loop closes the connection; the server is destroyed before the main loop
comes to the removal. -/
def destroyedBeforeRemoval : List (ClusterAction KqueueSystem.polling.Answer) :=
  Cluster.opening none 5 ++
    Cluster.runOn 1 ([.call (.forceClose 5), .other 0, .other 0, .other 0, .poll none] ++
      List.replicate 7 (.loop .none) ++ [.loop .return, .loop .none]) ++
    [.destroyServer] ++ Cluster.runOn 1 [.destroyElsewhere 5] ++
    Cluster.runOn mainLoop [.loop .return, .loop .none, .poll none, .loop .none]

/-- The removal then runs all the same, and looks for the connection in `connections_`
of a server that is gone. -/
theorem removal_after_destruction :
    ∃ cluster, Run (Graph (Cluster.step Cluster.exampleDeployment KqueueSystem.polling))
        (.start Cluster.exampleDeployment .new) destroyedBeforeRemoval cluster ∧
      cluster.destroying = true ∧ cluster.main.stack = [] ∧
      cluster.step Cluster.exampleDeployment KqueueSystem.polling
        (.on 1 (.run (.removeElsewhere 5))) = .error (.assertFailed .removeConnection) ∧
      ¬ Separate Cluster.exampleDeployment cluster := by
  refine ⟨_, run_of_exec rfl, rfl, rfl, rfl, fun separate => ?_⟩
  cases (separate.cleared rfl 1 (by decide)).1

end Muduo.Guarantees
