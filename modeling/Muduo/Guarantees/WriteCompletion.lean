import Muduo.Source.ReactorReferences

/-!
# Write-complete functors and the end of a connection

The functor that `sendInLoop` and `handleWrite` queue has a plain pointer. The
connection's `connectDestroyed` keeps it alive: it is queued after the functor, or with it
in one batch. Two things break this order. `~TcpServer` calls `connectDestroyed` at once
on its own loop, in front of the functor; and a write may complete in the batch in which
`connectDestroyed` waits already, so that its functor comes a batch later.
-/
namespace Muduo.Guarantees
open Muduo.Support Muduo.Source

section Completion

variable {σ : Type} {answer : Type} {settings : Settings} {impl : Polling σ}
  {mentions : σ → ChannelId → Prop} {s s' : Sharing σ}

/-- While a write-complete functor is due, `~TcpServer`, a user or a call that lets go of its
connection leaves another reference that lasts until the functor has run. A write that
completes when `connectDestroyed` has left the queue finds one that outlasts the batch. -/
def KeepsCompletions (cluster : Cluster σ) : ClusterAction answer → Prop
  | .on loop action =>
    (∀ c ∈ (cluster.loops loop).releases action, (cluster.loops loop).world.CompletionDue c →
      1 < (cluster.loops loop).securing c) ∧
    ∀ c ∈ (cluster.loops loop).completes action, (cluster.loops loop).Taken c →
      (cluster.loops loop).outlasting c ≠ 0
  | .destroyServer => True

instance (cluster : Cluster σ) (action : ClusterAction answer) :
    Decidable (KeepsCompletions cluster action) := by
  delta KeepsCompletions
  induction action using ClusterAction.casesOn <;> infer_instance

/-- What holds along runs that meet the condition. -/
structure Completing (settings : Settings) (mentions : σ → ChannelId → Prop) (s : Sharing σ) :
    Prop where
  claimed : s.Claimed
  placed : s.world.Placed settings mentions
  sound : s.world.OutputSound
  alive : ∀ c, s.world.CompletionDue c → c ∉ s.world.destructed
  secured : ∀ c, s.world.CompletionDue c → s.securing c ≠ 0

theorem start_completing (settings : Settings) {poller : σ} (empty : ∀ id, ¬ mentions poller id) :
    Completing settings mentions (.start settings poller) where
  claimed := Sharing.start_claimed settings poller
  placed := World.start_placed settings empty
  sound := World.start_outputSound settings poller
  alive := by simp [Sharing.start, World.start]
  secured := by simp [Sharing.start, World.start, World.CompletionDue, World.tasks]

/-- The references of a completion that was due before. -/
theorem secured_of_retains {c : ConnId} {released : Option ConnId}
    (retains : s.Retains s' released c) (secured : s.securing c ≠ 0)
    (another : released = some c → 1 < s.securing c)
    (queued : .writeComplete c ∈ s'.world.pending → .writeComplete c ∈ s.world.pending)
    (due : s'.world.CompletionDue c) : s'.securing c ≠ 0 := by
  have bound := s.securing_le_total (c := c)
  cases retains with
  | stays grown same =>
    have enough : (if released = some c then 1 else 0) < s.securing c := by
      split
      · exact another ‹_›
      · omega
    by_cases later : .writeComplete c ∈ s'.world.pending
    · have before : s.securing c = s.outlasting c := if_pos (queued later)
      have after : s'.securing c = s'.outlasting c := if_pos later
      omega
    · have after : s'.securing c = s'.outlasting c + s'.batched c := if_neg later
      omega
  | holds held =>
    have kept := s'.outlasting_le_securing (c := c)
    omega
  | swaps empty same =>
    have after : s'.securing c = s'.outlasting c + s'.batched c := if_neg (by simp [empty])
    omega
  | ends stack batch same =>
    have later : .writeComplete c ∈ s'.world.pending := by
      rcases due with member | running
      · exact (World.mem_tasks.mp member).resolve_left (by simp [batch])
      · simp [stack] at running
    have before : s.securing c = s.outlasting c := if_pos (queued later)
    have after : s'.securing c = s'.outlasting c := if_pos later
    omega

/-- What outlasts the batch lasts until the functor that is queued now has run. -/
theorem secured_of_outlasting {c : ConnId} {released : Option ConnId}
    (retains : s.Retains s' released c) (outlasts : s.outlasting c ≠ 0)
    (stays : released ≠ some c) : s'.securing c ≠ 0 := by
  have kept := s'.outlasting_le_securing (c := c)
  cases retains with
  | stays grown =>
    rw [if_neg stays] at grown
    omega
  | holds held => omega
  | swaps empty same =>
    have after : s'.securing c = s'.outlasting c + s'.batched c := if_neg (by simp [empty])
    omega
  | ends _ _ same => omega

/-- A completion that is queued now is of a connection that outlasts the batch. -/
theorem outlasting_of_completing {c : ConnId} (inv : Completing settings mentions s)
    {action : Action answer} (completing : s.world.completing action = some c)
    (taken : s.Taken c → s.outlasting c ≠ 0) : s.outlasting c ≠ 0 := by
  by_cases left : s.Taken c
  · exact taken left
  · exact inv.claimed.outlasting (inv.placed.accepted_of_completing completing) left

theorem Completing.step (inv : Completing settings mentions s) (lawful : impl.Lawful mentions)
    {action : SharedAction impl.Answer} (step : s.Step settings impl action s')
    (another : ∀ c, s.releases action = some c → s.world.CompletionDue c → 1 < s.securing c)
    (lasting : ∀ c, s.completes action = some c → s.Taken c → s.outlasting c ≠ 0) :
    Completing settings mentions s' := by
  have claimed := inv.claimed.step step
  have placed := Sharing.placed_step inv.placed lawful inv.claimed step
  cases step with
  | @run own w other _ alive taken =>
    have due_or := fun c => taken.completionDue (c := c) inv.claimed.posts inv.sound
    refine ⟨claimed, placed, inv.sound.step taken, fun c due => ?_, fun c due => ?_⟩
    · show c ∉ w.destructed
      rw [taken.destructed_kept other]
      exact (due_or c due).elim (inv.alive c) fun new =>
        alive c (World.subject_of_completing new)
    · have retains := Sharing.retains_of_step (c := c) inv.claimed.orderly other taken
      by_cases new : s.world.completing own = some c
      · have outlasts := outlasting_of_completing inv new (lasting c new)
        obtain ⟨_, _, rfl, _⟩ := World.completing_eq new
        exact secured_of_outlasting retains outlasts (by simp [Sharing.releases])
      · have before := (due_or c due).resolve_right new
        exact secured_of_retains retains (inv.secured c before) (another c · before)
          (fun queued => (taken.completes inv.claimed.posts inv.sound queued).resolve_right new) due
  | @keep own held =>
    refine ⟨claimed, placed, inv.sound, inv.alive, fun c due => ?_⟩
    have retains : s.Retains { s with kept := Function.update s.kept own (s.kept own + 1) }
        none c := by
      refine .stays ?_ rfl
      simp only [Sharing.outlasting, Function.update_apply]
      split <;> simp_all
    exact secured_of_retains retains (inv.secured c due) (by simp) id due
  | @drop own held =>
    refine ⟨claimed, placed, inv.sound, inv.alive, fun c due => ?_⟩
    have retains : s.Retains { s with kept := Function.update s.kept own (s.kept own - 1) }
        (some own) c := by
      refine .stays ?_ rfl
      simp only [Sharing.outlasting, Function.update_apply, Option.some.injEq, eq_comm (a := own)]
      split
      · next same =>
        subst same
        omega
      · exact Nat.le_refl _
    exact secured_of_retains retains (inv.secured c due) (another c · due) id due
  | @destruct own live last =>
    refine ⟨claimed, placed, inv.sound, fun c due gone => ?_, inv.secured⟩
    rcases List.mem_append.mp gone with old | new
    · exact inv.alive c due old
    · cases List.mem_singleton.mp new
      have bound := s.securing_le_refs (c := own)
      exact inv.secured own due (by omega)

variable {deployment : Deployment} {cluster : Cluster σ}

theorem completing_of_run (lawful : impl.Lawful mentions) {poller : σ}
    (empty : ∀ id, ¬ mentions poller id) {actions : List (ClusterAction impl.Answer)}
    (run : Run (Guarded KeepsCompletions (Graph (Cluster.step deployment impl)))
      (.start deployment poller) actions cluster) :
    ∀ loop, Completing (deployment.settings loop) mentions (cluster.loops loop) := by
  have start : ∀ loop, Completing (deployment.settings loop) mentions
      ((Cluster.start deployment poller).loops loop) := fun _ => start_completing _ empty
  refine @Run.invariant _ _ _ _ _ _ (fun cluster => ∀ loop, Completing (deployment.settings loop)
    mentions (cluster.loops loop)) run start fun _ _ _ before taken => ?_
  obtain ⟨keeps, ran⟩ := taken
  refine (Cluster.step_ok ran).each (fun loop => Completing (deployment.settings loop) mentions)
    before ?_
  rintro loop own s rfl - step
  exact (before loop).step lawful step keeps.1 keeps.2

/-- A step outside the condition leaves a completion without a reference that lasts. -/
theorem forsaken_of_step {cluster' : Cluster σ} {action : ClusterAction impl.Answer}
    (before : ∀ loop, Completing (deployment.settings loop) mentions (cluster.loops loop))
    (step : cluster.Step deployment impl action cluster')
    (careless : ¬ KeepsCompletions cluster action) :
    ∃ loop c, (cluster'.loops loop).Forsaken c := by
  cases step with
  | destroyServer => exact absurd trivial careless
  | @on loop own s _ _ taken =>
    simp only [KeepsCompletions, Option.mem_def, not_and_or, Classical.not_forall] at careless
    refine ⟨loop, ?_⟩
    simp only [Function.update_self]
    rcases careless with ⟨c, released, due, last⟩ | ⟨c, completes, _, none⟩
    · exact ⟨c, Sharing.forsaken_of_releases (before loop).claimed taken released due
        (Nat.le_of_not_lt last)⟩
    · exact ⟨c, Sharing.forsaken_of_completes (before loop).sound taken completes
        (not_not.mp none)⟩

end Completion

/-- For any deployment and any interleaving of its loops, threads and users, wherever
`~TcpServer` comes, and over either poller: in a run whose steps keep the condition, a
connection whose write-complete functor is queued or runs is referenced and has not been
destructed. The first step outside the condition forsakes such a functor. -/
theorem write_completion_exact (kind : PollerKind) (deployment : Deployment)
    (actions : List (ClusterAction kind.polling.Answer)) (cluster : Cluster kind.State)
    (run : Run (Guarded KeepsCompletions (Graph (Cluster.step deployment kind.polling)))
      (.start deployment kind.new) actions cluster) :
    (∀ loop c, (cluster.loops loop).world.CompletionDue c →
      (cluster.loops loop).refs c ≠ 0 ∧ c ∉ (cluster.loops loop).world.destructed) ∧
    ∀ action cluster', cluster.step deployment kind.polling action = .ok cluster' →
      ¬ KeepsCompletions cluster action → ∃ loop c, (cluster'.loops loop).Forsaken c := by
  have inv := completing_of_run kind.lawful kind.new_mentions run
  refine ⟨fun loop c due => ⟨fun none => ?_, (inv loop).alive c due⟩,
    fun action cluster' ran careless => forsaken_of_step inv (Cluster.step_ok ran) careless⟩
  have bound := (cluster.loops loop).securing_le_refs (c := c)
  exact (inv loop).secured c due (by omega)

/-- A functor sends on a connection of its loop, and all of it is written. -/
def sent : List (ClusterAction KqueueSystem.polling.Answer) :=
  Cluster.runOn mainLoop (PollerKind.opening none 5 ++
    [.loop .return, .loop (.call (.send 5 ⟨[97], Message.byte_le⟩)), .loop .none, .loop .none,
      .loop (.write (.accepted 1))])

/-- The functor goes on with `~TcpServer`, which destroys the connection. -/
def destroyed : List (ClusterAction KqueueSystem.polling.Answer) :=
  [.destroyServer] ++
    Cluster.runOn mainLoop [.destroy 5, .loop .none, .loop .none, .loop .return, .loop .none]

/-- The rest of the functor, and the loop up to its next batch. -/
def nextBatch : List (ClusterAction KqueueSystem.polling.Answer) :=
  Cluster.runOn mainLoop [.loop .return, .loop .none, .poll none, .loop .none, .loop .none]

/-- A user who has copied the reference keeps the connection for its functor. -/
theorem write_completion_exact_kept :
    ∃ cluster, Run (Guarded KeepsCompletions
        (Graph (Cluster.step Cluster.singleLoop KqueueSystem.polling)))
        (.start Cluster.singleLoop .new)
        (sent ++ [.on mainLoop (.keep 5)] ++ destroyed ++ nextBatch) cluster ∧
      cluster.main.stack = [.writeComplete 5] ∧
      ((cluster.loops mainLoop).refs 5 ≠ 0 ∧ 5 ∉ cluster.main.destructed) := by
  have ends : endsIn KeepsCompletions (Cluster.step Cluster.singleLoop KqueueSystem.polling)
      Fault.notEnabled (.start Cluster.singleLoop .new)
      (sent ++ [.on mainLoop (.keep 5)] ++ destroyed ++ nextBatch)
      (fun cluster => decide (cluster.main.stack = [.writeComplete 5])) = true := by
    decide +kernel
  obtain ⟨cluster, run, runs⟩ := run_of_endsIn _ _ ends
  have stack := of_decide_eq_true runs
  refine ⟨cluster, run, stack, (write_completion_exact .kqueue _ _ cluster run).1 mainLoop 5 ?_⟩
  exact Or.inr (stack ▸ List.mem_singleton.mpr rfl)

/-- Nobody keeps the connection: its write-complete functor comes after its end. -/
theorem completion_after_destruction :
    ∃ cluster, Run (Graph (Cluster.step Cluster.singleLoop KqueueSystem.polling))
        (.start Cluster.singleLoop .new)
        (sent ++ destroyed ++ [.on mainLoop (.destruct 5)] ++ nextBatch) cluster ∧
      cluster.main.stack = [.writeComplete 5] ∧
      ((cluster.loops mainLoop).refs 5 = 0 ∧ 5 ∈ cluster.main.destructed) ∧
      cluster.step Cluster.singleLoop KqueueSystem.polling (.on mainLoop (.run (.loop .none))) =
        .error .outOfRange :=
  ⟨_, run_of_exec rfl, rfl, ⟨rfl, by decide⟩, rfl⟩

end Muduo.Guarantees
