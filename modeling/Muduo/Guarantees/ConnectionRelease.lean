import Muduo.Guarantees.ConnectionLifetime
import Muduo.Source.ReactorEstablishing

/-!
# A closed connection is let go

While the server stays, a loop that has come to rest has its open connections in the
table of the server, which keeps one reference to each, and no closed one: these are in
the hands of users only, and the last of them to drop its reference runs the destructor.
-/
namespace Muduo.Guarantees
open Muduo.Support Muduo.Source

section Release

variable {σ : Type} {settings : Settings} {impl : Polling σ} {s s' : Sharing σ}

/-- The loop is between two functions, nothing is queued for it, and no other thread is in
a call to it. -/
structure AtRest (s : Sharing σ) : Prop where
  stack : s.world.stack = []
  others : s.world.others = []
  tasks : s.world.tasks = []
  begun : s.begun = []
  removing : s.world.removing = []

/-- Where a connection of a loop at rest stands. -/
structure Allocated (settings : Settings) (impl : Polling σ) (s : Sharing σ) (c : ConnId) : Prop where
  listed : c ∈ s.world.table ↔ s.world.Open c
  alive : c ∈ s.world.table → c ∉ s.world.destructed
  shared : c ∈ s.world.table → s.refs c = s.kept c + 1
  closed : c ∉ s.world.table → s.world.state c = .kDisconnected ∧ s.refs c = s.kept c
  freed : c ∉ s.world.table → s.kept c = 0 → c ∉ s.world.destructed →
    ∃ s', s.step settings impl (.destruct c) = .ok s'

/-- A new connection comes with its `connectEstablished`. -/
theorem accepted_establishing {w w' : World σ} {c : ConnId} (orderly : w.Orderly)
    {action : Action impl.Answer} (step : World.Step settings impl w action w')
    (born : c ∈ w'.accepted) : c ∈ w.accepted ∨ w'.Establishing c := by
  cases step with
  | loop _ advance =>
    refine (advance.accepted born).imp_right fun new => ?_
    exact Or.inl ⟨_, List.mem_append_left _ new, rfl⟩
  | @other frame before after _ _ others advance =>
    refine (advance.accepted born).imp_right fun new => ?_
    cases advance.follows.foreign (orderly.calling frame (by simp [others])) _ new
  | connectElsewhere =>
    refine (List.mem_append.mp born).imp_right fun new => Or.inr ?_
    rw [List.mem_singleton.mp new, World.tasks_queue]
    exact List.mem_append_right _ (List.mem_singleton.mpr rfl)
  | _ => exact Or.inl born

/-- What there is to a connection besides its references. -/
structure Held (s : Sharing σ) : Prop where
  connecting : ∀ c ∈ s.world.accepted, s.world.state c = .kConnecting → s.world.Establishing c
  destructed : ∀ c ∈ s.world.destructed, c ∈ s.world.accepted ∧ s.world.destroyers c = 0

theorem start_held (settings : Settings) (poller : σ) : Held (.start settings poller) := by
  constructor <;> simp [Sharing.start, World.start]

theorem Held.step (held : Held s) (claimed : s.Claimed) {action : SharedAction impl.Answer}
    (step : s.Step settings impl action s') : Held s' := by
  obtain ⟨connecting, destructed⟩ := held
  cases step with
  | @run own w other _ _ taken =>
    refine ⟨fun c born state => ?_, fun c gone => ?_⟩
    · rcases accepted_establishing claimed.orderly taken born with old | new
      · have before : s.world.state c = .kConnecting := by
          by_contra begun
          exact taken.state_ne begun state
        rcases connecting c old before with frame | queued
        · exact Or.inl (World.Starting.frame_step taken state frame)
        · rcases taken.queued queued with stays | ⟨_, _, _, stack⟩
          · exact Or.inr stays
          · exact Or.inl ⟨_, by rw [stack]; exact List.mem_singleton.mpr rfl, rfl⟩
      · exact new
    · rw [show w.destructed = s.world.destructed from taken.destructed_kept other] at gone
      obtain ⟨born, none⟩ := destructed c gone
      refine ⟨taken.accepted_mono born, ?_⟩
      rcases taken.destroyers claimed.orderly claimed.posts with ⟨_, count⟩ | ⟨new, fresh, _, count⟩
      · have counted := count c
        have kept : w.destroyers c = 0 := by omega
        exact kept
      · have counted := count c
        have old : c ≠ new := by
          rintro rfl
          exact World.fresh_accepted fresh born
        rw [if_neg old] at counted
        exact counted.trans none
  | keep | drop => exact ⟨connecting, destructed⟩
  | @destruct c live last =>
    refine ⟨connecting, fun own gone => ?_⟩
    rcases List.mem_append.mp gone with old | new
    · exact destructed own old
    · cases List.mem_singleton.mp new
      exact ⟨live.1, (Sharing.unheld_of_refs last).destroyers⟩

/-- At rest, the table and the users are all that hold a connection. -/
theorem AtRest.refs (rest : AtRest s) (c : ConnId) : s.refs c = s.world.table.count c + s.kept c := by
  obtain ⟨stack, others, tasks, begun, removing⟩ := rest
  simp [Sharing.refs, stack, others, tasks, begun, removing]

theorem AtRest.allocated {c : ConnId} (rest : AtRest s) (accounted : s.Accounted) (held : Held s)
    (born : c ∈ s.world.accepted) : Allocated settings impl s c := by
  have refs := rest.refs c
  have balance := accounted.balance c
  have idle : s.world.closing c + s.world.removing.count c = 0 := by
    simp [World.closing, rest.stack, rest.removing]
  rw [if_pos born, idle, Nat.zero_add] at balance
  have unforced : ¬ s.Forced c := by
    rintro (posting | queued | ⟨_, frame, member, _⟩)
    · simp [rest.others] at posting
    · simp [rest.tasks] at queued
    · simp [rest.stack] at member
  have closed : c ∉ s.world.table → s.world.state c = .kDisconnected := fun gone => by
    have downs : s.world.downs c ≠ 0 := by
      rw [List.count_eq_zero.mpr gone] at balance
      omega
    refine (accounted.closed c downs).resolve_left fun disconnecting => unforced ?_
    exact accounted.late c downs (Or.inr disconnecting)
  have open_ : c ∈ s.world.table → s.world.Open c := fun listed => by
    have more := List.count_pos_iff.mpr listed
    have established : s.world.state c ≠ .kConnecting := fun connecting => by
      rcases held.connecting c born connecting with ⟨frame, member, _⟩ | queued
      · simp [rest.stack] at member
      · simp [rest.tasks] at queued
    have unclosed : s.world.state c ≠ .kDisconnected := fun disconnected => by
      have downs := accounted.ended c disconnected
      omega
    cases state : s.world.state c <;> simp_all [World.Open]
  refine ⟨⟨open_, fun state => ?_⟩, fun listed gone => ?_, fun listed => ?_, fun gone => ?_,
    fun gone unkept exists_ => ?_⟩
  · by_contra gone
    rcases state with state | state <;> cases state.symm.trans (closed gone)
  · have none := (held.destructed c gone).2
    have more := List.count_pos_iff.mpr listed
    unfold World.destroyers at none
    omega
  · have more := List.count_pos_iff.mpr listed
    omega
  · rw [List.count_eq_zero.mpr gone, Nat.zero_add] at refs
    exact ⟨closed gone, refs⟩
  · rw [List.count_eq_zero.mpr gone, Nat.zero_add, unkept] at refs
    refine ⟨s.destructed settings impl c, ?_⟩
    simp [Sharing.step, World.Live, born, exists_, refs, closed gone]

variable {deployment : Deployment} {cluster cluster' : Cluster σ}

/-- What holds of every loop while the server stays, whatever its poller. -/
structure Keeping (cluster : Cluster σ) : Prop where
  staying : cluster.destroying = false
  accounted : ∀ loop, (cluster.loops loop).Accounted
  held : ∀ loop, Held (cluster.loops loop)

theorem Keeping.step (keeping : Keeping cluster) {action : ClusterAction impl.Answer}
    (stays : ServerStays cluster action)
    (step : cluster.Step deployment impl action cluster') : Keeping cluster' := by
  obtain ⟨staying, accounted, held⟩ := keeping
  have loops : ∀ loop, (cluster'.loops loop).Accounted ∧ Held (cluster'.loops loop) := by
    refine step.each (fun _ s => s.Accounted ∧ Held s) (fun loop => ⟨accounted loop, held loop⟩) ?_
    rintro loop action s - permitted taken
    refine ⟨(accounted loop).step (fun own same => ?_) taken,
      (held loop).step (accounted loop).claimed taken⟩
    subst same
    exact serves_of_permits staying permitted
  refine ⟨?_, fun loop => (loops loop).1, fun loop => (loops loop).2⟩
  cases step with
  | on => exact staying
  | destroyServer => exact stays.elim

end Release

/-- For any deployment and any interleaving of its loops, threads and users in which the
server is not destroyed, over either poller: a loop that has come to rest. -/
theorem connections_released (kind : PollerKind) (deployment : Deployment)
    (actions : List (ClusterAction kind.polling.Answer)) (cluster : Cluster kind.State)
    (run : Run (Guarded ServerStays (Graph (Cluster.step deployment kind.polling)))
      (.start deployment kind.new) actions cluster) (loop : LoopId)
    (rest : AtRest (cluster.loops loop)) (c : ConnId)
    (born : c ∈ (cluster.loops loop).world.accepted) :
    Allocated (deployment.settings loop) kind.polling (cluster.loops loop) c := by
  have keeping : Keeping cluster := by
    refine run.invariant ⟨rfl, fun _ => Sharing.start_accounted _ _, fun _ => start_held _ _⟩ ?_
    exact fun _ _ _ keeping taken => keeping.step taken.1 (Cluster.step_ok taken.2)
  exact rest.allocated (keeping.accounted loop) (keeping.held loop) born

theorem connections_released_closed :
    ∃ cluster, Run (Guarded ServerStays
        (Graph (Cluster.step Cluster.exampleDeployment KqueueSystem.polling)))
        (.start Cluster.exampleDeployment .new) closedConnection cluster ∧
      5 ∉ (cluster.loops 1).world.table ∧
      Allocated (Cluster.exampleDeployment.settings 1) KqueueSystem.polling (cluster.loops 1) 5 := by
  have ends : endsIn ServerStays (Cluster.step Cluster.exampleDeployment KqueueSystem.polling)
      Fault.notEnabled (.start Cluster.exampleDeployment .new) closedConnection
      (fun cluster => decide ((cluster.loops 1).world.stack = [] ∧
        (cluster.loops 1).world.others = [] ∧ (cluster.loops 1).world.tasks = [] ∧
        (cluster.loops 1).begun = [] ∧ (cluster.loops 1).world.removing = [] ∧
        5 ∈ (cluster.loops 1).world.accepted ∧ 5 ∉ (cluster.loops 1).world.table)) = true := by
    decide +kernel
  obtain ⟨cluster, run, test⟩ := run_of_endsIn _ _ ends
  obtain ⟨stack, others, tasks, begun, removing, born, gone⟩ := of_decide_eq_true test
  exact ⟨cluster, run, gone, connections_released .kqueue _ _ cluster run 1
    ⟨stack, others, tasks, begun, removing⟩ 5 born⟩

end Muduo.Guarantees
