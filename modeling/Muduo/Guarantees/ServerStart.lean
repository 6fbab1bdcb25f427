import Muduo.Source.TcpServerStartRuns

/-!
# Calls of `start` from any threads

`start` may be called many times, from any thread. One call starts the pool and lets the
acceptor listen; none of the assertions on the way fails. A first call from another
thread than the main loop's ends in the `abort` of `assertInLoopThread`; beyond that a call
fails where the system refuses a pipe or `::listen`, or the poller the accept channel. After
an exception of the pool nobody takes the start up again.
-/
namespace Muduo.Guarantees
open Muduo.Support Muduo.Source

section ServerStart

variable {σ : Type} {deployment : Deployment} {impl : Polling σ} {s : PooledServer σ} {poller : σ}

/-- Why an action has no outcome: it is not possible, the loops fail in a step of theirs, or
`start` does not return. -/
inductive Fails (s : PooledServer σ) {answer : Type} (action : PooledAction answer) :
    StartFault → Prop
  | notEnabled : Fails s action (.loop .notEnabled)
  | loop {own : Fault} {step : ClusterAction answer} : action = .run step →
      Fails s action (.loop own)
  | notInLoopThread {thread : ThreadId} {answer : StartAnswer} : thread ≠ loopThread →
      action = .advance thread answer → s.starting thread = .exchanged →
      Fails s action .notInLoopThread
  | noPipe {i : Int} : action = .advance loopThread .noPipe →
      s.starting loopThread = .creating i → i < s.pool.numThreads → Fails s action .createWakeupFd
  | listenFails : action = .advance loopThread .listenFails →
      s.starting loopThread = .created → Fails s action .socketListen
  | channelFails {own : Fault} : action = .advance loopThread (.channelFails own) →
      s.starting loopThread = .created → Fails s action (.acceptChannel own)

/-- One call is inside of `start`, the acceptor listens once and after the pool, and where an
action does not return the system or another thread than the loop's is to blame. -/
structure StartsOnce (deployment : Deployment) (impl : Polling σ) (s : PooledServer σ) : Prop where
  alone : ∀ thread other, s.starting thread ≠ .outside → s.starting other ≠ .outside → thread = other
  listens : s.listens = if s.listenning = true then 1 else 0
  numbered : s.pool.loops = List.range' 1 s.pool.loops.length
  accepts : s.server.accepted ≠ [] → s.listenning = true ∧ ∀ thread, s.starting thread = .outside
  fails : ∀ action fault, s.step deployment impl action = .error fault → Fails s action fault
  aborts : ∀ thread answer, thread ≠ loopThread → s.starting thread = .exchanged →
    s.step deployment impl (.advance thread answer) = .error .notInLoopThread
  proceeds : s.starting loopThread ≠ .outside →
    ∃ s', s.step deployment impl (.advance loopThread .granted) = .ok s'

theorem alone_of_stage (stage : s.Stage) {thread other : ThreadId}
    (first : s.starting thread ≠ .outside) (second : s.starting other ≠ .outside) :
    thread = other := by
  cases stage with
  | fresh _ outside | listening _ outside | abandoned _ outside => simp [outside] at first
  | exchanged _ own | creating _ own | created _ own =>
    rw [own] at first second
    exact (PooledServer.alone_eq rfl first).1.trans (PooledServer.alone_eq rfl second).1.symm

theorem listens_of_stage (stage : s.Stage) :
    s.listens = if s.listenning = true then 1 else 0 := by
  cases stage with
  | listening _ _ _ listenning once => rw [once, if_pos listenning]
  | fresh _ _ _ _ silent none | exchanged _ _ _ _ silent none | creating _ _ _ silent none
  | created _ _ _ silent none | abandoned _ _ silent none => rw [none, if_neg (by simp [silent])]

/-- A statement of `start` does not return. -/
theorem advance_fails (stage : s.Stage) {answer : Type} {thread : ThreadId} {asked : StartAnswer}
    {fault : StartFault} (failed : s.advance thread asked = .error fault) :
    Fails s (.advance thread asked : PooledAction answer) fault := by
  unfold PooledServer.advance at failed
  split at failed
  · cases failed
    exact .notEnabled
  · next stands =>
    obtain ⟨_, _, pool, _⟩ := stage.exchanged_of stands
    unfold EventLoopThreadPool.start at failed
    rw [if_neg (by simp [pool])] at failed
    by_cases own : thread = loopThread
    · simp [own] at failed
    · simp only [ne_eq, own, not_false_eq_true, if_true, Except.error.injEq] at failed
      subst failed
      exact .notInLoopThread own rfl stands
  · next i stands =>
    obtain ⟨rfl, _⟩ := stage.creating_of stands
    split at failed
    · next more =>
      cases asked <;> cases failed
      · exact .noPipe rfl stands more
      · exact .notEnabled
      · exact .notEnabled
    · cases failed
  · next stands =>
    obtain ⟨rfl, _, _, _, silent, _⟩ := stage.created_of stands
    rw [if_neg (by simp [silent]), if_pos rfl] at failed
    cases asked <;> cases failed
    · exact .notEnabled
    · exact .notEnabled
    · exact .listenFails rfl stands
    · exact .channelFails rfl stands

theorem run_fails {own action : ClusterAction impl.Answer} {fault : StartFault}
    (failed : s.run deployment impl own = .error fault) : Fails s (.run action) fault := by
  unfold PooledServer.run at failed
  split at failed <;> cases failed
  exact .loop rfl

/-- The choice of a loop succeeds, so that only the loops can fail. -/
theorem newConnection_fails (starting : s.Starting deployment poller)
    (listenning : s.listenning = true) {conn : ServerConn} {own action : ClusterAction impl.Answer}
    {fault : StartFault} (failed : s.newConnection deployment impl conn own = .error fault) :
    Fails s (.run action) fault := by
  obtain ⟨_, started, _⟩ := starting.stage.listening_of listenning
  obtain ⟨loop, pool, chosen, _⟩ := starting.rotates.getNextLoop started
  simp only [PooledServer.newConnection, chosen] at failed
  split at failed
  · split at failed <;> cases failed
    next ran => exact run_fails ran
  · cases failed
    exact .notEnabled

theorem pooled_step_fails (starting : s.Starting deployment poller) {action : PooledAction impl.Answer}
    {fault : StartFault} (failed : s.step deployment impl action = .error fault) :
    Fails s action fault := by
  cases action with
  | advance thread answer => exact advance_fails starting.stage failed
  | listen answer =>
    -- no functor is ever queued: the main loop's thread listens at once
    simp only [PooledServer.step, starting.queued, lt_irrefl, false_and, if_false] at failed
    cases failed
    exact .notEnabled
  | setThreadNum thread num =>
    simp only [PooledServer.step] at failed
    split at failed <;> cases failed
    exact .notEnabled
  | start thread =>
    simp only [PooledServer.step] at failed
    split at failed
    · split at failed <;> cases failed
    · cases failed
      exact .notEnabled
  | run action =>
    simp only [PooledServer.step] at failed
    split at failed
    · cases failed
      exact .notEnabled
    cases constructs : TcpServer.constructs action with
    | none =>
      rw [constructs] at failed
      exact run_fails failed
    | some conn =>
      simp only [constructs] at failed
      split at failed
      · next listenning => exact newConnection_fails starting listenning failed
      · cases failed
        exact .notEnabled

theorem aborts_of_stage (stage : s.Stage) {thread : ThreadId} (answer : StartAnswer)
    (other : thread ≠ loopThread) (stands : s.starting thread = .exchanged) :
    s.step deployment impl (.advance thread answer) = .error .notInLoopThread := by
  obtain ⟨_, _, pool, _⟩ := stage.exchanged_of stands
  simp [PooledServer.step, PooledServer.advance, stands, EventLoopThreadPool.start, pool, other]

/-- With all it asks for, the call of the main loop's thread goes on. -/
theorem proceeds_of_stage (stage : s.Stage) (inside : s.starting loopThread ≠ .outside) :
    ∃ s', s.step deployment impl (.advance loopThread .granted) = .ok s' := by
  simp only [PooledServer.step, PooledServer.advance]
  cases stands : s.starting loopThread with
  | outside => exact absurd stands inside
  | exchanged =>
    obtain ⟨_, _, pool, _⟩ := stage.exchanged_of stands
    simp [EventLoopThreadPool.start, pool]
  | creating i =>
    dsimp only
    split <;> exact ⟨_, rfl⟩
  | created =>
    obtain ⟨_, _, _, _, silent, _⟩ := stage.created_of stands
    simp [silent, PooledServer.listen]

theorem startsOnce_of_starting (starting : s.Starting deployment poller) :
    StartsOnce deployment impl s where
  alone _ _ := alone_of_stage starting.stage
  listens := listens_of_stage starting.stage
  numbered := starting.numbered
  accepts some := by
    have listenning : s.listenning = true := by
      by_contra silent
      exact some (starting.unheard (Bool.eq_false_iff.mpr silent))
    exact ⟨listenning, fun thread => by rw [(starting.stage.listening_of listenning).1]⟩
  fails _ _ := pooled_step_fails starting
  aborts _ answer := aborts_of_stage starting.stage answer
  proceeds := proceeds_of_stage starting.stage

/-- An abandoned server never listens. -/
theorem silent_of_abandoned (starting : s.Starting deployment poller) (abandoned : s.Abandoned)
    {later : List (PooledAction impl.Answer)} {s' : PooledServer σ}
    (run : Run (Graph (PooledServer.step deployment impl)) s later s') :
    s'.listenning = false ∧ s'.server.accepted = [] := by
  have kept : s'.Starting deployment poller ∧ s'.Abandoned := by
    refine @Run.invariant _ _ _ _ _ _ (fun s => s.Starting deployment poller ∧ s.Abandoned) run
      ⟨starting, abandoned⟩ ?_
    rintro _ _ _ ⟨starting, abandoned⟩ ran
    have step := PooledServer.step_ok ran
    exact ⟨starting.step step, abandoned.step starting step⟩
  exact ⟨kept.2.silent, kept.1.unheard kept.2.silent⟩

end ServerStart

/-- For any deployment, poller and interleaving of the callers of `start` and
`setThreadNum`, the loops, the clients and the other threads. -/
theorem start_once {σ : Type} (deployment : Deployment) (impl : Polling σ) (name : String)
    (poller : σ) (actions : List (PooledAction impl.Answer)) (s : PooledServer σ)
    (run : Run (Graph (PooledServer.step deployment impl)) (.new deployment name poller) actions s) :
    StartsOnce deployment impl s ∧ ∀ later s', s.Abandoned →
      Run (Graph (PooledServer.step deployment impl)) s later s' →
        s'.listenning = false ∧ s'.server.accepted = [] :=
  have starting := PooledServer.starting_of_run run
  ⟨startsOnce_of_starting starting, fun _ _ abandoned => silent_of_abandoned starting abandoned⟩

/-- Two threads call `start`; the call of the main loop's thread comes first. -/
def twoCallers {answer : Type} : List (PooledAction answer) :=
  [.setThreadNum loopThread 2, .start loopThread, .start 7] ++
    List.replicate 5 (.advance loopThread .granted)

/-- The system has no thread for the second loop; then `start` is called again. -/
def oneThreadOnly {answer : Type} : List (PooledAction answer) :=
  [.setThreadNum loopThread 2, .start loopThread, .advance loopThread .granted,
    .advance loopThread .granted, .advance loopThread .noThread, .start loopThread]

theorem start_once_two_callers :
    (∃ s, Run (Graph (PooledServer.step Cluster.exampleDeployment KqueueSystem.polling))
        (.new Cluster.exampleDeployment "server" .new) twoCallers s ∧
      (s.pool.loops = [1, 2] ∧ s.listens = 1 ∧ s.starting 7 = .outside) ∧
      StartsOnce Cluster.exampleDeployment KqueueSystem.polling s) ∧
    ∃ s, Run (Graph (PooledServer.step Cluster.exampleDeployment KqueueSystem.polling))
        (.new Cluster.exampleDeployment "server" .new) oneThreadOnly s ∧
      ∀ later s', Run (Graph (PooledServer.step Cluster.exampleDeployment KqueueSystem.polling)) s
        later s' → s'.listenning = false ∧ s'.server.accepted = [] := by
  have ran : ∃ s, exec (PooledServer.step Cluster.exampleDeployment KqueueSystem.polling)
      (.new Cluster.exampleDeployment "server" .new) twoCallers = .ok s ∧
      (s.pool.loops = [1, 2] ∧ s.listens = 1 ∧ s.starting 7 = .outside) := ⟨_, rfl, rfl, rfl, rfl⟩
  have thrown : ∃ s, exec (PooledServer.step Cluster.exampleDeployment KqueueSystem.polling)
      (.new Cluster.exampleDeployment "server" .new) oneThreadOnly = .ok s ∧ s.Abandoned := by
    refine ⟨_, rfl, rfl, ?_, rfl⟩
    simp [PooledServer.goto, PooledServer.new]
  constructor
  · obtain ⟨s, ends, state⟩ := ran
    exact ⟨s, run_of_exec ends, state, (start_once _ _ _ _ _ s (run_of_exec ends)).1⟩
  · obtain ⟨s, ends, abandoned⟩ := thrown
    exact ⟨s, run_of_exec ends,
      fun later s' => (start_once _ _ _ _ _ s (run_of_exec ends)).2 later s' abandoned⟩

end Muduo.Guarantees
