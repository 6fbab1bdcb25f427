import Muduo.Source.TcpServerExecution
import Muduo.Source.TcpServerStart

/-!
# Runs of a server that is started

`started_.exchange` lets one thread through, so that the start goes through its stages once.
What the pool and the acceptor are in each of them decides every assertion on the way.
-/
namespace Muduo.Source
open Muduo.Support

namespace Cluster

variable {σ : Type} {deployment : Deployment} {impl : Polling σ} {cluster cluster' : Cluster σ}

/-- A loop outside the deployment does not move. -/
theorem step_outside {action : ClusterAction impl.Answer}
    (ran : cluster.step deployment impl action = .ok cluster') {loop : LoopId}
    (outside : loop ∉ deployment.loops) : cluster'.loops loop = cluster.loops loop := by
  cases Cluster.step_ok ran with
  | destroyServer => rfl
  | @on other _ _ member _ _ =>
    have different : loop ≠ other := fun same => outside (same ▸ member)
    exact Function.update_of_ne different _ _

end Cluster

namespace TcpServer

variable {σ : Type} {deployment : Deployment} {impl : Polling σ} {server server' : TcpServer σ}

/-- What a step leaves of the loops and of the accepted connections. -/
theorem step_effect {action : ClusterAction impl.Answer}
    (ran : server.step deployment impl action = .ok server') :
    server.cluster.step deployment impl action = .ok server'.cluster ∧
      server'.accepted = server.accepted ++ (constructs action).toList := by
  cases step_ok ran with
  | loops stepped constructs => simpa [constructs] using stepped
  | accept stepped constructs accepted =>
    obtain ⟨_, rfl⟩ := newConnection_ok.mp accepted
    simpa [constructs] using stepped
  | remove stepped constructs _ removed =>
    obtain ⟨_, rfl⟩ := removeConnectionInLoop_ok.mp removed
    simpa [constructs] using stepped

end TcpServer

namespace PooledServer

variable {σ : Type} {deployment : Deployment} {impl : Polling σ} {s s' : PooledServer σ}

/-- The outcomes of an action. -/
inductive Step (deployment : Deployment) (impl : Polling σ) (s : PooledServer σ) :
    PooledAction impl.Answer → PooledServer σ → Prop
  | setThreadNum {thread : ThreadId} {num : Int} : num ≤ TcpServer.kMaxInt →
      Step deployment impl s (.setThreadNum thread num)
        { s with pool := s.pool.setThreadNum num }
  | startAgain {thread : ThreadId} : s.started = true → Step deployment impl s (.start thread) s
  | exchange {thread : ThreadId} : s.starting thread = .outside → s.started = false →
      Step deployment impl s (.start thread) ({ s with started := true }.goto thread .exchanged)
  | startPool {thread : ThreadId} {answer : StartAnswer} {pool : EventLoopThreadPool} :
      s.starting thread = .exchanged → s.pool.start thread = .ok pool →
      Step deployment impl s (.advance thread answer)
        ({ s with pool := pool }.goto thread (.creating 0))
  | startLoop {thread : ThreadId} {i : Int} :
      s.starting thread = .creating i → i < s.pool.numThreads →
      Step deployment impl s (.advance thread .granted)
        ({ s with pool := s.pool.startLoop }.goto thread (.creating (i + 1)))
  | threw {thread : ThreadId} {i : Int} :
      s.starting thread = .creating i → i < s.pool.numThreads →
      Step deployment impl s (.advance thread .noThread) (s.goto thread .outside)
  | poolStarted {thread : ThreadId} {answer : StartAnswer} {i : Int} :
      s.starting thread = .creating i → s.pool.numThreads ≤ i →
      Step deployment impl s (.advance thread answer) (s.goto thread .created)
  | listen : s.starting loopThread = .created → s.listenning = false →
      Step deployment impl s (.advance loopThread .granted) (s.listened.goto loopThread .outside)
  | queue {thread : ThreadId} {answer : StartAnswer} :
      s.starting thread = .created → thread ≠ loopThread →
      Step deployment impl s (.advance thread answer)
        ({ s with queued := s.queued + 1 }.goto thread .outside)
  | listenQueued : 0 < s.queued →
      Step deployment impl s (.listen .granted) ({ s with queued := s.queued - 1 }.listened)
  | run {action : ClusterAction impl.Answer} {server : TcpServer σ} :
      TcpServer.constructs action = none →
      s.server.step (s.deployed deployment) impl action = .ok server →
      Step deployment impl s (.run action) { s with server := server }
  | accept {action : ClusterAction impl.Answer} {conn : ServerConn} {pool : EventLoopThreadPool}
      {server : TcpServer σ} : TcpServer.constructs action = some conn → s.listenning = true →
      s.pool.getNextLoop loopThread = .ok (conn.1, pool) →
      s.server.step (s.deployed deployment) impl action = .ok server →
      Step deployment impl s (.run action) { s with server := server, pool := pool }

theorem listen_ok {answer : StartAnswer} (ran : s.listen answer = .ok s') :
    answer = .granted ∧ s.listened = s' := by
  cases answer <;> cases ran
  exact ⟨rfl, rfl⟩

theorem advance_ok {thread : ThreadId} {answer : StartAnswer}
    (ran : s.advance thread answer = .ok s') :
    Step deployment impl s (.advance thread answer) s' := by
  unfold advance at ran
  split at ran
  · cases ran
  · next exchanged =>
    split at ran <;> cases ran
    next pool started => exact .startPool exchanged started
  · next i creating =>
    split at ran
    · next more =>
      cases answer <;> cases ran
      · exact .startLoop creating more
      · exact .threw creating more
    · next enough =>
      cases ran
      exact .poolStarted creating (not_lt.mp enough)
  · next created =>
    split at ran
    · cases ran
    · next idle =>
      split at ran
      · next own =>
        subst own
        split at ran <;> cases ran
        next listened =>
        obtain ⟨rfl, rfl⟩ := listen_ok listened
        exact .listen created (Bool.eq_false_iff.mpr idle)
      · next other =>
        cases ran
        exact .queue created other

theorem run_ok {action : ClusterAction impl.Answer} :
    s.run deployment impl action = .ok s' ↔
      ∃ server, s.server.step (s.deployed deployment) impl action = .ok server ∧
        { s with server := server } = s' := by
  unfold run
  split <;> simp [*]

theorem step_ok {action : PooledAction impl.Answer}
    (ran : s.step deployment impl action = .ok s') : Step deployment impl s action s' := by
  cases action with
  | setThreadNum thread num =>
    simp only [step] at ran
    split at ran <;> cases ran
    next allowed => exact .setThreadNum allowed.2
  | start thread =>
    simp only [step] at ran
    split at ran
    · next allowed =>
      split at ran <;> cases ran
      · next again => exact .startAgain again
      · next first => exact .exchange allowed.1 (Bool.eq_false_iff.mpr first)
    · cases ran
  | advance thread => exact advance_ok ran
  | listen =>
    simp only [step] at ran
    split at ran
    · next allowed =>
      obtain ⟨rfl, rfl⟩ := listen_ok ran
      exact .listenQueued allowed.1
    · cases ran
  | run action =>
    simp only [step] at ran
    split at ran
    · cases ran
    cases constructs : TcpServer.constructs action with
    | none =>
      rw [constructs] at ran
      obtain ⟨server, stepped, rfl⟩ := run_ok.mp ran
      exact .run constructs stepped
    | some conn =>
      simp only [constructs] at ran
      split at ran
      · next listenning =>
        unfold newConnection at ran
        split at ran
        · cases ran
        · next loop pool chosen =>
          split at ran
          · next own =>
            split at ran <;> cases ran
            next moved =>
            obtain ⟨server, stepped, rfl⟩ := run_ok.mp moved
            exact .accept constructs listenning (own ▸ chosen) stepped
          · cases ran
      · cases ran

/-- All threads but one are outside of `start`. -/
def alone (thread : ThreadId) (pc : StartPc) : ThreadId → StartPc :=
  Function.update (fun _ => .outside) thread pc

theorem alone_eq {thread other : ThreadId} {pc next : StartPc}
    (stands : alone thread pc other = next) (inside : next ≠ .outside) :
    other = thread ∧ next = pc := by
  unfold alone at stands
  by_cases same : other = thread
  · subst same
    rw [Function.update_self] at stands
    exact ⟨rfl, stands.symm⟩
  · rw [Function.update_of_ne same] at stands
    exact absurd stands.symm inside

@[simp] theorem update_alone (thread : ThreadId) (pc next : StartPc) :
    Function.update (alone thread pc) thread next = alone thread next := by
  simp only [alone, Function.update_idem]

@[simp] theorem alone_outside (thread : ThreadId) : alone thread .outside = fun _ => .outside :=
  Function.update_eq_self thread _

/-- How far the server has been started; an exception leaves it where nobody goes on. -/
inductive Stage (s : PooledServer σ) : Prop
  | fresh : s.started = false → s.starting = (fun _ => .outside) → s.pool.started = false →
      s.pool.loops = [] → s.listenning = false → s.listens = 0 → Stage s
  | exchanged {thread : ThreadId} : s.started = true → s.starting = alone thread .exchanged →
      s.pool.started = false → s.pool.loops = [] → s.listenning = false → s.listens = 0 → Stage s
  | creating : s.started = true → s.starting = alone loopThread (.creating s.pool.loops.length) →
      s.pool.started = true → s.listenning = false → s.listens = 0 → Stage s
  | created : s.started = true → s.starting = alone loopThread .created →
      s.pool.started = true → s.listenning = false → s.listens = 0 → Stage s
  | listening : s.started = true → s.starting = (fun _ => .outside) → s.pool.started = true →
      s.listenning = true → s.listens = 1 → Stage s
  | abandoned : s.started = true → s.starting = (fun _ => .outside) → s.listenning = false →
      s.listens = 0 → Stage s

theorem new_stage (deployment : Deployment) (name : String) (poller : σ) :
    (new deployment name poller).Stage := .fresh rfl rfl rfl rfl rfl rfl

section Stands

variable {thread : ThreadId}

theorem Stage.exchanged_of (stage : s.Stage) (stands : s.starting thread = .exchanged) :
    s.started = true ∧ s.starting = alone thread .exchanged ∧ s.pool.started = false ∧
      s.pool.loops = [] ∧ s.listenning = false ∧ s.listens = 0 := by
  cases stage with
  | fresh _ outside | listening _ outside | abandoned _ outside => simp [outside] at stands
  | exchanged started own pool loops silent none =>
    rw [own] at stands
    obtain ⟨rfl, _⟩ := alone_eq stands (by simp)
    exact ⟨started, own, pool, loops, silent, none⟩
  | creating _ own | created _ own =>
    rw [own] at stands
    cases (alone_eq stands (by simp)).2

theorem Stage.creating_of (stage : s.Stage) {i : Int} (stands : s.starting thread = .creating i) :
    thread = loopThread ∧ i = s.pool.loops.length ∧ s.started = true ∧
      s.starting = alone loopThread (.creating s.pool.loops.length) ∧ s.pool.started = true ∧
      s.listenning = false ∧ s.listens = 0 := by
  cases stage with
  | fresh _ outside | listening _ outside | abandoned _ outside => simp [outside] at stands
  | creating started own pool silent none =>
    rw [own] at stands
    obtain ⟨rfl, same⟩ := alone_eq stands (by simp)
    exact ⟨rfl, StartPc.creating.inj same, started, own, pool, silent, none⟩
  | exchanged _ own | created _ own =>
    rw [own] at stands
    cases (alone_eq stands (by simp)).2

theorem Stage.created_of (stage : s.Stage) (stands : s.starting thread = .created) :
    thread = loopThread ∧ s.started = true ∧ s.starting = alone loopThread .created ∧
      s.pool.started = true ∧ s.listenning = false ∧ s.listens = 0 := by
  cases stage with
  | fresh _ outside | listening _ outside | abandoned _ outside => simp [outside] at stands
  | created started own pool silent none =>
    rw [own] at stands
    obtain ⟨rfl, _⟩ := alone_eq stands (by simp)
    exact ⟨rfl, started, own, pool, silent, none⟩
  | exchanged _ own | creating _ own =>
    rw [own] at stands
    cases (alone_eq stands (by simp)).2

end Stands

theorem Stage.fresh_of (stage : s.Stage) (first : s.started = false) :
    s.starting = (fun _ => .outside) ∧ s.pool.started = false ∧ s.pool.loops = [] ∧
      s.listenning = false ∧ s.listens = 0 := by
  cases stage with
  | fresh _ outside pool loops silent none => exact ⟨outside, pool, loops, silent, none⟩
  | exchanged started | creating started | created started | listening started
  | abandoned started =>
    cases first.symm.trans started

/-- A change of the loops and of the pool's cursor and `num_threads_`. -/
theorem Stage.congr (stage : s.Stage) (started : s'.started = s.started)
    (starting : s'.starting = s.starting) (pool : s'.pool.started = s.pool.started)
    (loops : s'.pool.loops = s.pool.loops) (listenning : s'.listenning = s.listenning)
    (listens : s'.listens = s.listens) : s'.Stage := by
  cases stage with
  | fresh a b c d e f =>
    exact .fresh (started.trans a) (starting.trans b) (pool.trans c) (loops.trans d)
      (listenning.trans e) (listens.trans f)
  | exchanged a b c d e f =>
    exact .exchanged (started.trans a) (starting.trans b) (pool.trans c) (loops.trans d)
      (listenning.trans e) (listens.trans f)
  | creating a b c d e =>
    exact .creating (started.trans a) (by rw [starting, b, loops]) (pool.trans c)
      (listenning.trans d) (listens.trans e)
  | created a b c d e =>
    exact .created (started.trans a) (starting.trans b) (pool.trans c) (listenning.trans d)
      (listens.trans e)
  | listening a b c d e =>
    exact .listening (started.trans a) (starting.trans b) (pool.trans c) (listenning.trans d)
      (listens.trans e)
  | abandoned a b c d =>
    exact .abandoned (started.trans a) (starting.trans b) (listenning.trans c) (listens.trans d)

theorem Stage.listening_of (stage : s.Stage) (listenning : s.listenning = true) :
    s.starting = (fun _ => .outside) ∧ s.pool.started = true ∧ s.listens = 1 := by
  cases stage with
  | listening _ outside pool _ once => exact ⟨outside, pool, once⟩
  | fresh _ _ _ _ silent | exchanged _ _ _ _ silent | creating _ _ _ silent
  | created _ _ _ silent | abandoned _ _ silent => cases silent.symm.trans listenning

end PooledServer

namespace EventLoopThreadPool

variable {pool pool' : EventLoopThreadPool} {thread : ThreadId} {loop : LoopId}

theorem start_ok (started : pool.start thread = .ok pool') :
    thread = loopThread ∧ pool' = { pool with started := true } := by
  unfold start at started
  split at started
  · cases started
  · split at started <;> cases started
    next own => exact ⟨not_not.mp own, rfl⟩

end EventLoopThreadPool

namespace PooledServer

variable {σ : Type} {deployment : Deployment} {impl : Polling σ} {s s' : PooledServer σ}
  {poller : σ}

/-- What holds from the construction of the server on. -/
structure Starting (deployment : Deployment) (poller : σ) (s : PooledServer σ) : Prop where
  stage : s.Stage
  queued : s.queued = 0
  numThreads : s.pool.numThreads ≤ TcpServer.kMaxInt
  numbered : s.pool.loops = List.range' 1 s.pool.loops.length
  rotates : s.pool.Rotates s.server.accepted.length
  inTurn : s.server.accepted.map Prod.fst = turns s.pool.serving s.server.accepted.length
  unheard : s.listenning = false → s.server.accepted = []
  unstarted : ∀ loop, s.pool.loops.length < loop →
    s.server.cluster.loops loop = .start (deployment.settings loop) poller

theorem new_starting (deployment : Deployment) (name : String) (poller : σ) :
    (new deployment name poller).Starting deployment poller where
  stage := new_stage ..
  queued := rfl
  numThreads := show (0 : Int) ≤ TcpServer.kMaxInt by decide
  numbered := rfl
  rotates := ⟨rfl, show (0 : Int) ≤ TcpServer.kMaxInt by decide⟩
  inTurn := rfl
  unheard _ := rfl
  unstarted _ _ := rfl

/-- The loops that there are not yet stay as they are in a step of the others. -/
theorem Starting.unstarted_step (starting : s.Starting deployment poller)
    {action : ClusterAction impl.Answer} {server : TcpServer σ}
    (stepped : s.server.step (s.deployed deployment) impl action = .ok server) (loop : LoopId)
    (beyond : s.pool.loops.length < loop) :
    server.cluster.loops loop = .start (deployment.settings loop) poller := by
  have outside : loop ∉ (s.deployed deployment).loops := by
    simp only [Deployment.loops, deployed, Deployment.withThreads, List.mem_range]
    omega
  rw [Cluster.step_outside (TcpServer.step_effect stepped).1 outside]
  exact starting.unstarted loop beyond

theorem Starting.step (starting : s.Starting deployment poller) {action : PooledAction impl.Answer}
    (step : s.Step deployment impl action s') : s'.Starting deployment poller := by
  have stage := starting.stage
  cases step with
  | setThreadNum bounded =>
    exact { starting with
      stage := stage.congr rfl rfl rfl rfl rfl rfl
      numThreads := bounded
      rotates := ⟨starting.rotates.cursor, starting.rotates.bounded⟩ }
  | startAgain => exact starting
  | @exchange thread _ first =>
    obtain ⟨all, pool, loops, silent, none⟩ := stage.fresh_of first
    have own : ({ s with started := true }.goto thread .exchanged).starting =
        alone thread .exchanged := by
      simp only [goto, all, alone]
    exact { starting with stage := .exchanged rfl own pool loops silent none }
  | startPool stands ran =>
    obtain ⟨started, own, _, empty, silent, none⟩ := stage.exchanged_of stands
    obtain ⟨rfl, rfl⟩ := EventLoopThreadPool.start_ok ran
    refine { starting with stage := .creating started ?_ rfl silent none, rotates := ?_ }
    · simp [goto, own, empty]
    · exact ⟨starting.rotates.cursor, starting.rotates.bounded⟩
  | startLoop stands more =>
    obtain ⟨rfl, rfl, started, own, pool, silent, none⟩ := stage.creating_of stands
    have unheard := starting.unheard silent
    have cursor := starting.rotates.cursor
    have length : s.pool.startLoop.loops.length = s.pool.loops.length + 1 := by
      simp [EventLoopThreadPool.startLoop]
    refine { starting with
      stage := .creating started ?_ pool silent none
      numbered := ?_
      rotates := ⟨?_, ?_⟩
      inTurn := ?_
      unstarted := fun loop beyond => starting.unstarted loop (by simp only [goto] at beyond; omega) }
    · simp [goto, own, length]
    · show s.pool.startLoop.loops = List.range' 1 s.pool.startLoop.loops.length
      rw [length, List.range'_1_concat, ← starting.numbered]
      simp [EventLoopThreadPool.startLoop, Nat.add_comm]
    · simpa [goto, EventLoopThreadPool.startLoop, unheard] using cursor
    · have bounded := starting.numThreads
      show ((s.pool.startLoop.loops.length : Nat) : Int) ≤ TcpServer.kMaxInt
      rw [length]
      omega
    · simp [goto, unheard, turns]
  | threw stands =>
    obtain ⟨rfl, rfl, started, own, _, silent, none⟩ := stage.creating_of stands
    exact { starting with stage := .abandoned started (by simp [goto, own]) silent none }
  | poolStarted stands =>
    obtain ⟨rfl, rfl, started, own, pool, silent, none⟩ := stage.creating_of stands
    exact { starting with stage := .created started (by simp [goto, own]) pool silent none }
  | listen stands =>
    obtain ⟨_, started, own, pool, _, none⟩ := stage.created_of stands
    refine { starting with
      stage := .listening started (by simp [goto, listened, own]) pool rfl ?_
      unheard := fun silent => by cases silent }
    show s.listens + 1 = 1
    rw [none]
  | queue stands other => exact absurd (stage.created_of stands).1 other
  | listenQueued waiting =>
    have none := starting.queued
    omega
  | run constructs stepped =>
    obtain ⟨_, accepted⟩ := TcpServer.step_effect stepped
    rw [constructs, Option.toList_none, List.append_nil] at accepted
    refine { starting with
      stage := stage.congr rfl rfl rfl rfl rfl rfl
      rotates := ?_
      inTurn := ?_
      unheard := fun silent => accepted.trans (starting.unheard silent)
      unstarted := starting.unstarted_step stepped }
    · simpa only [accepted] using starting.rotates
    · simpa only [accepted] using starting.inTurn
  | @accept _ conn pool _ constructs listenning chosen stepped =>
    obtain ⟨_, accepted⟩ := TcpServer.step_effect stepped
    obtain ⟨_, started, _⟩ := stage.listening_of listenning
    obtain ⟨loop, pool', same, turn, rotates⟩ := starting.rotates.getNextLoop started
    have moved := EventLoopThreadPool.getNextLoop_keeps chosen
    cases chosen.symm.trans same
    have loops : pool.loops = s.pool.loops := by rw [moved]
    have serving : pool.serving = s.pool.serving := by simp only [EventLoopThreadPool.serving, loops]
    rw [constructs, Option.toList_some] at accepted
    have length : (s.server.accepted ++ [conn]).length = s.server.accepted.length + 1 := by simp
    refine { starting with
      stage := stage.congr rfl rfl (by rw [moved]) loops rfl rfl
      numThreads := by rw [moved]; exact starting.numThreads
      numbered := by rw [loops]; exact starting.numbered
      rotates := by rw [accepted, length]; exact rotates
      inTurn := ?_
      unheard := fun silent => by cases silent.symm.trans listenning
      unstarted := fun loop beyond => starting.unstarted_step stepped loop (by rwa [loops] at beyond) }
    show _ = turns pool.serving _
    rw [accepted, length, serving, turns_succ, turn, List.map_append, starting.inTurn]
    rfl

/-- Nobody goes on with a start that has begun, and nothing listens. -/
structure Abandoned (s : PooledServer σ) : Prop where
  started : s.started = true
  outside : s.starting = fun _ => .outside
  silent : s.listenning = false

/-- Nobody takes the start of an abandoned server up again. -/
theorem Abandoned.step (abandoned : s.Abandoned) (starting : s.Starting deployment poller)
    {action : PooledAction impl.Answer} (step : s.Step deployment impl action s') :
    s'.Abandoned := by
  obtain ⟨started, outside, silent⟩ := abandoned
  cases step with
  | setThreadNum | startAgain | run => exact ⟨started, outside, silent⟩
  | exchange _ first => cases first.symm.trans started
  | startPool stands | startLoop stands | threw stands | poolStarted stands | listen stands
  | queue stands => simp [outside] at stands
  | listenQueued waiting =>
    have none := starting.queued
    omega
  | accept _ listenning => cases silent.symm.trans listenning

theorem starting_of_run {name : String} {actions : List (PooledAction impl.Answer)}
    (run : Run (Graph (step deployment impl)) (new deployment name poller) actions s) :
    s.Starting deployment poller :=
  run.invariant (new_starting deployment name poller) fun _ _ _ starting ran =>
    starting.step (step_ok ran)

/-- The loops of a step's pool: one more while the pool starts, and none once it listens. -/
theorem Step.loops {action : PooledAction impl.Answer} (stage : s.Stage)
    (step : s.Step deployment impl action s') :
    s.pool.loops.length ≤ s'.pool.loops.length ∧
      (s.listenning = true → s'.listenning = true ∧ s'.pool.loops = s.pool.loops) := by
  cases step with
  | startLoop stands =>
    obtain ⟨_, _, _, _, _, silent, _⟩ := stage.creating_of stands
    refine ⟨?_, fun listenning => by cases silent.symm.trans listenning⟩
    simp [goto, EventLoopThreadPool.startLoop]
  | startPool stands ran =>
    obtain ⟨_, rfl⟩ := EventLoopThreadPool.start_ok ran
    exact ⟨le_rfl, fun listenning => ⟨listenning, rfl⟩⟩
  | @accept _ _ pool _ _ _ chosen =>
    have same : pool.loops = s.pool.loops := by
      rw [EventLoopThreadPool.getNextLoop_keeps chosen]
    exact ⟨by rw [same], fun listenning => ⟨listenning, same⟩⟩
  | _ => exact ⟨le_rfl, fun listenning => ⟨by first | exact listenning | rfl, rfl⟩⟩

theorem loops_of_run {actions : List (PooledAction impl.Answer)}
    (starting : s.Starting deployment poller)
    (run : Run (Graph (step deployment impl)) s actions s') :
    s.pool.loops.length ≤ s'.pool.loops.length ∧
      (s.listenning = true → s'.pool.loops = s.pool.loops) := by
  induction run with
  | nil => exact ⟨le_rfl, fun _ => rfl⟩
  | cons ran _ ih =>
    have taken := step_ok ran
    have moved := taken.loops starting.stage
    have later := ih (starting.step taken)
    refine ⟨moved.1.trans later.1, fun listenning => ?_⟩
    obtain ⟨still, same⟩ := moved.2 listenning
    exact (later.2 still).trans same

end PooledServer

end Muduo.Source
