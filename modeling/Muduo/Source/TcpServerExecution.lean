import Muduo.Source.ReactorLifetime
import Muduo.Source.TcpServer

/-!
# Accepts and removals on the loops of a server

While the server is not destroyed, each step of a loop constructs a connection, removes
one, or leaves the rosters of the server as they are.
-/
namespace Muduo.Source
open Muduo.Support

namespace World

variable {σ : Type} {settings : Settings} {impl : Polling σ} {w w' : World σ} {c : ConnId}

theorem Step.closes {action : Action impl.Answer} (step : Step settings impl w action w')
    (c : ConnId) : w'.closes c = w.closes c +
      if w.running action = some (.handleCloseRest c) then 1 else 0 := by
  unfold World.closes
  rw [step.callbacks, List.count_append]
  congr 1
  unfold newCallbacks
  cases w.running action with
  | none => simp
  | some frame => simp [count_close_callbacks]

theorem closeCalls_eq_some {answer : Type} {action : Action answer} :
    w.closeCalls action = some c ↔ w.running action = some (.handleCloseRest c) := by
  unfold closeCalls
  split
  · next own runs => simp [runs]
  · next other => exact iff_of_false (by simp) (other c)

theorem removes_eq_some {answer : Type} {action : Action answer} :
    w.removes settings action = some c ↔ action = .removeElsewhere c ∨
      settings.serverHere = true ∧ w.running action = some (.handleCloseRest c) := by
  cases action with
  | removeElsewhere => simp [removes, running]
  | _ =>
    simp only [removes, reduceCtorEq, false_or, ← closeCalls_eq_some]
    split <;> simp_all

/-- What the server does in a step of a loop. -/
inductive Deals {answer : Type} (settings : Settings) (w : World σ) (action : Action answer)
    (w' : World σ) : Prop
  | nothing : action.constructs = none → w.removes settings action = none →
      w'.accepted = w.accepted → w'.table = w.table →
      (∀ c, w'.closes c + w.removing.count c = w.closes c + w'.removing.count c) →
      Deals settings w action w'
  | construct {new : ConnId} : action.constructs = some new → w.removes settings action = none →
      w.Fresh settings new →
      w'.accepted = w.accepted ++ [new] → w'.table = w.table ++ [new] →
      (∀ c, w'.closes c + w.removing.count c = w.closes c + w'.removing.count c) →
      Deals settings w action w'
  | remove {gone : ConnId} : action.constructs = none → w.removes settings action = some gone →
      gone ∈ w.table → w'.accepted = w.accepted → w'.table = w.table.erase gone →
      (∀ c, w'.closes c + w.removing.count c =
        w.closes c + w'.removing.count c + if c = gone then 1 else 0) →
      Deals settings w action w'

theorem constructs_ok {action : Action impl.Answer} (constructs : action.constructs = some c)
    (ran : w.step settings impl action = .ok w') : w'.accepted = w.accepted ++ [c] := by
  cases action with
  | loop input =>
    cases input with
    | loopCall call =>
      cases call with
      | newConnection new =>
        cases constructs
        simp only [step] at ran
        split at ran
        · unfold continueLoop at ran
          split at ran <;> simp_all
        · next frame rest stack =>
          cases frame <;> simp [advance, Frame.test, loopCall] at ran
          by_cases fresh : settings.serverHere = true ∧ w.Fresh settings c
          · simp only [if_pos fresh, Except.ok.injEq] at ran
            subst ran
            rfl
          · simp [if_neg fresh] at ran
      | _ => cases constructs
    | _ => cases constructs
  | connectElsewhere new =>
    cases constructs
    cases step_ok ran
    rfl
  | _ => cases constructs

theorem Step.deals {action : Action impl.Answer} (serves : action.serves = true)
    (ran : w.step settings impl action = .ok w') : Deals settings w action w' := by
  have step := step_ok ran
  have closes := step.closes
  cases constructs : action.constructs with
  | some new =>
    have grown := constructs_ok constructs ran
    cases step.moves with
    | stay same => simp [same.accepted] at grown
    | construct fresh accepted table removing silent =>
      cases List.append_cancel_left (accepted.symm.trans grown)
      refine .construct constructs ?_ fresh accepted table fun c => ?_
      · refine Option.eq_none_iff_forall_ne_some.mpr fun c removes => ?_
        rcases removes_eq_some.mp removes with rfl | ⟨_, runs⟩
        · cases constructs
        · exact silent c runs
      · rw [closes c, if_neg (silent c), removing, Nat.add_zero]
    | post _ _ accepted => simp [accepted] at grown
    | erase _ _ accepted => simp [accepted] at grown
    | remove _ _ _ accepted => simp [accepted] at grown
  | none =>
    cases step.moves with
    | stay same silent =>
      refine .nothing constructs ?_ same.accepted same.table fun c => ?_
      · refine Option.eq_none_iff_forall_ne_some.mpr fun c removes => ?_
        rcases removes_eq_some.mp removes with rfl | ⟨_, runs⟩
        · cases step with
          | removeElsewhere _ present =>
            have fewer := List.length_erase_of_mem present
            have kept := congrArg List.length same.table
            have held := List.length_pos_of_mem present
            simp only [queue] at kept
            omega
        · exact silent c runs
      · rw [closes c, if_neg (silent c), same.removing, Nat.add_zero]
    | construct _ _ _ _ _ origin =>
      rcases origin with rfl | ⟨rfl, _⟩ <;> cases constructs
    | @post own runs elsewhere accepted table removing =>
      refine .nothing constructs ?_ accepted table fun c => ?_
      · refine Option.eq_none_iff_forall_ne_some.mpr fun c removes => ?_
        rcases removes_eq_some.mp removes with rfl | ⟨here, _⟩
        · cases runs
        · cases elsewhere.symm.trans here
      · have pushed := World.count_push w.removing own c
        rw [closes c, removing, pushed, runs]
        simp only [Option.some.injEq, Frame.handleCloseRest.injEq, eq_comm (a := c)]
        omega
    | @erase own cause present accepted table removing =>
      rcases cause with ⟨runs, here⟩ | rfl | rfl
      · refine .remove constructs (removes_eq_some.mpr (Or.inr ⟨here, runs⟩)) present accepted table
          fun c => ?_
        rw [closes c, removing, runs]
        simp only [Option.some.injEq, Frame.handleCloseRest.injEq, eq_comm (a := c)]
        omega
      · cases serves
      · cases serves
    | @remove own called posted present accepted table removing =>
      refine .remove constructs (removes_eq_some.mpr (Or.inl called)) present accepted table
        fun c => ?_
      subst called
      have taken := World.count_erase posted c
      rw [closes c, removing]
      simp only [running, reduceCtorEq, if_false]
      omega

/-- Each `closeCallback_` that was called has taken its connection from the table, or its
removal is queued. -/
def Listed (w : World σ) : Prop :=
  ∀ c, w.closes c + w.table.count c = w.removing.count c + if c ∈ w.accepted then 1 else 0

theorem start_listed (settings : Settings) (poller : σ) : (start settings poller).Listed := by
  intro c
  simp [start, closes, callbacks]

theorem Listed.step (listed : w.Listed) {answer : Type} {action : Action answer}
    (deals : w.Deals settings action w') : w'.Listed := by
  intro c
  have before := listed c
  cases deals with
  | nothing _ _ accepted table closes =>
    have same := closes c
    rw [accepted, table]
    omega
  | @construct new _ _ fresh accepted table closes =>
    have same := closes c
    have pushed := World.count_push w.table new c
    rw [table, pushed]
    by_cases own : c = new
    · subst own
      rw [if_neg (fresh_accepted fresh)] at before
      rw [if_pos rfl, if_pos (by simp [accepted])]
      omega
    · have kept : c ∈ w'.accepted ↔ c ∈ w.accepted := by simp [accepted, own]
      rw [if_neg own, if_congr kept rfl rfl]
      omega
  | @remove gone _ _ present accepted table closes =>
    have moved := closes c
    have erased := World.count_erase present c
    rw [accepted, table]
    omega

/-- The assertion of `removeConnectionInLoop` holds for an entry of the table. -/
theorem removes_ok {action : Action impl.Answer} (removes : w.removes settings action = some c)
    (present : c ∈ w.table) :
    w.step settings impl action ≠ .error (.assertFailed .removeConnection) := by
  rcases removes_eq_some.mp removes with rfl | ⟨here, runs⟩
  · simp only [step, removeConnectionInLoop, if_pos present]
    split <;> simp
  · have ran (onLoop : Bool) (input : Input) :
        w.advance settings impl onLoop (.handleCloseRest c) input = .error .notEnabled ∨
          ∃ v, w.advance settings impl onLoop (.handleCloseRest c) input = .ok (v, []) := by
      cases input <;> simp [advance, Frame.test, here, removeConnectionInLoop, note, present]
    cases action with
    | loop input =>
      obtain ⟨rest, stack⟩ := List.head?_eq_some_iff.mp runs
      rcases ran true input with failed | ⟨v, ok⟩ <;> simp [step, *]
    | other position =>
      have present : w.others[position]? = some (.handleCloseRest c) := runs
      rcases ran false .none with failed | ⟨v, ok⟩ <;> simp [step, *]
    | _ => cases runs

end World

namespace Sharing

variable {σ : Type} {settings : Settings} {impl : Polling σ} {mentions : σ → ChannelId → Prop}
  {s s' : Sharing σ} {c : ConnId}

/-- A connection that was not accepted has no entry, and no close. -/
theorem Serving.unborn (serving : s.Serving settings mentions) (unborn : c ∉ s.world.accepted) :
    s.world.table.count c = 0 ∧ s.world.closing c = 0 ∧ s.world.removing.count c = 0 := by
  have once := serving.accounted.claimed.once c
  have balance := serving.accounted.balance c
  have untouched : s.world.downs c = 0 := by
    by_contra more
    have connecting := serving.placed.unborn c unborn
    rcases serving.accounted.closed c more with state | state <;> cases connecting.symm.trans state
  rw [if_neg unborn] at once balance
  unfold World.destroyers at once
  omega

/-- A connection that is removed has its entry, if this is its first `closeCallback_`. -/
theorem Serving.entry (serving : s.Serving settings mentions) (listed : s.world.Listed)
    {action : Action impl.Answer} (removes : s.world.removes settings action = some c)
    (enabled : action = .removeElsewhere c → c ∈ s.world.removing) (once : s.world.closes c ≤ 1)
    (first : s.world.closeCalls action = some c → s.world.closes c = 0) : c ∈ s.world.table := by
  have balance := listed c
  have orderly := serving.accounted.claimed.orderly
  refine List.count_pos_iff.mp ?_
  rcases World.removes_eq_some.mp removes with rfl | ⟨_, runs⟩
  · have posted := List.count_pos_iff.mpr (enabled rfl)
    have born : c ∈ s.world.accepted := by
      by_contra unborn
      have none := serving.unborn unborn
      omega
    rw [if_pos born] at balance
    omega
  · have closing : 0 < s.world.closing c := List.count_pos_iff.mpr
      (List.mem_of_mem_head? (orderly.running_head runs rfl))
    have born : c ∈ s.world.accepted := by
      by_contra unborn
      have none := serving.unborn unborn
      omega
    have untouched := first (World.closeCalls_eq_some.mpr runs)
    rw [if_pos born] at balance
    omega

theorem step_run {action : Action impl.Answer} (ran : s.step settings impl (.run action) = .ok s') :
    s.world.step settings impl action = .ok s'.world := by
  simp only [step] at ran
  split at ran
  · rw [check_ok] at ran
    obtain ⟨_, ran⟩ := ran
    split at ran <;> cases ran
    next stepped => exact stepped
  · cases ran

/-- An assertion fails in the world, not in the account of references. -/
theorem step_fails {action : Action impl.Answer} {assertion : Assertion}
    (failed : s.step settings impl (.run action) = .error (.assertFailed assertion)) :
    s.world.step settings impl action = .error (.assertFailed assertion) := by
  simp only [step] at failed
  split at failed
  · split at failed
    · cases failed
    · split at failed <;> cases failed
      next stepped => exact stepped
  · cases failed

/-- A loop whose server stays, and whose connections call `closeCallback_` once at most. -/
structure Rostered (settings : Settings) (mentions : σ → ChannelId → Prop) (s : Sharing σ) :
    Prop where
  serving : s.Serving settings mentions
  listed : s.world.Listed
  once : ∀ c, s.world.closes c ≤ 1

theorem start_rostered (settings : Settings) {poller : σ} (empty : ∀ id, ¬ mentions poller id) :
    (start settings poller).Rostered settings mentions where
  serving := start_serving settings empty
  listed := World.start_listed settings poller
  once c := by simp [start, World.start, World.closes, World.callbacks]

theorem Rostered.step (rostered : s.Rostered settings mentions) (lawful : impl.Lawful mentions)
    {action : SharedAction impl.Answer} (serves : ∀ own, action = .run own → own.serves = true)
    (first : ∀ own c, action = .run own → s.world.closeCalls own = some c → s.world.closes c = 0)
    (ran : s.step settings impl action = .ok s') : s'.Rostered settings mentions := by
  obtain ⟨serving, listed, once⟩ := rostered
  have step := step_ok ran
  refine ⟨serving.step lawful serves step, ?_, ?_⟩
  · cases step with
    | run => exact listed.step (World.Step.deals (serves _ rfl) (step_run ran))
    | keep | drop | destruct => exact listed
  · intro c
    cases step with
    | @run own w _ _ _ taken =>
      have closes := taken.closes c
      have before := once c
      show w.closes c ≤ 1
      split at closes
      · next runs =>
        have untouched := first own c rfl (World.closeCalls_eq_some.mpr runs)
        omega
      · omega
    | keep | drop | destruct => exact once c

/-- The table lists a connection once. -/
theorem Rostered.mem_erase (rostered : s.Rostered settings mentions) {gone : ConnId}
    (present : gone ∈ s.world.table) : c ∈ s.world.table.erase gone ↔ c ≠ gone ∧ c ∈ s.world.table := by
  by_cases own : c = gone
  · subst own
    refine iff_of_false (fun member => ?_) (by simp)
    have once := rostered.serving.accounted.claimed.once c
    have erased := World.count_erase present c
    have left := List.count_pos_iff.mpr member
    rw [if_pos rfl] at erased
    unfold World.destroyers at once
    split at once <;> omega
  · rw [List.mem_erase_of_ne own, and_iff_right own]

end Sharing

namespace Cluster

variable {σ : Type} {deployment : Deployment} {impl : Polling σ} {mentions : σ → ChannelId → Prop}
  {cluster cluster' : Cluster σ}

/-- The connection has been constructed. -/
def Constructed (cluster : Cluster σ) (conn : ServerConn) : Prop :=
  conn.2 ∈ (cluster.loops conn.1).world.accepted

/-- The table of its loop lists the connection. -/
def Lists (cluster : Cluster σ) (conn : ServerConn) : Prop :=
  conn.2 ∈ (cluster.loops conn.1).world.table

/-- What the server does in a step of its loops. -/
inductive Deals {answer : Type} (deployment : Deployment) (cluster : Cluster σ)
    (action : ClusterAction answer) (cluster' : Cluster σ) : Prop
  | nothing : TcpServer.constructs action = none → TcpServer.removes deployment cluster action = none →
      (∀ conn, cluster'.Constructed conn ↔ cluster.Constructed conn) →
      (∀ conn, cluster'.Lists conn ↔ cluster.Lists conn) → Deals deployment cluster action cluster'
  | construct {new : ServerConn} : TcpServer.constructs action = some new →
      TcpServer.removes deployment cluster action = none → ¬ cluster.Constructed new →
      (∀ conn, cluster'.Constructed conn ↔ conn = new ∨ cluster.Constructed conn) →
      (∀ conn, cluster'.Lists conn ↔ conn = new ∨ cluster.Lists conn) →
      Deals deployment cluster action cluster'
  | remove {gone : ServerConn} : TcpServer.constructs action = none →
      TcpServer.removes deployment cluster action = some gone → cluster.Lists gone →
      (∀ conn, cluster'.Constructed conn ↔ cluster.Constructed conn) →
      (∀ conn, cluster'.Lists conn ↔ conn ≠ gone ∧ cluster.Lists conn) →
      Deals deployment cluster action cluster'

theorem step_on {loop : LoopId} {action : SharedAction impl.Answer}
    (ran : cluster.step deployment impl (.on loop action) = .ok cluster') :
    cluster.Permits deployment loop action ∧
      ∃ s, (cluster.loops loop).step (deployment.settings loop) impl action = .ok s ∧
        { cluster with loops := Function.update cluster.loops loop s } = cluster' := by
  simp only [step] at ran
  split at ran
  · next permitted =>
    split at ran <;> cases ran
    next s stepped => exact ⟨permitted.2, s, stepped, rfl⟩
  · cases ran

/-- The rosters of the other loops stay. -/
theorem mem_rosters {loop : LoopId} {s : Sharing σ} (roster : World σ → List ConnId)
    (conn : ServerConn) : conn.2 ∈ roster (Function.update cluster.loops loop s conn.1).world ↔
      conn.1 = loop ∧ conn.2 ∈ roster s.world ∨
        conn.1 ≠ loop ∧ conn.2 ∈ roster (cluster.loops conn.1).world := by
  by_cases own : conn.1 = loop
  · rw [own, Function.update_self]
    simp
  · rw [Function.update_of_ne own]
    simp [own]

theorem mem_rosters_same {loop : LoopId} {s : Sharing σ} (roster : World σ → List ConnId)
    (same : roster s.world = roster (cluster.loops loop).world) (conn : ServerConn) :
    conn.2 ∈ roster (Function.update cluster.loops loop s conn.1).world ↔
      conn.2 ∈ roster (cluster.loops conn.1).world := by
  rw [mem_rosters roster conn]
  by_cases own : conn.1 = loop
  · simp [own, same]
  · simp [own]

theorem mem_rosters_push {loop : LoopId} {s : Sharing σ} (roster : World σ → List ConnId)
    {new : ConnId} (grown : roster s.world = roster (cluster.loops loop).world ++ [new])
    (conn : ServerConn) : conn.2 ∈ roster (Function.update cluster.loops loop s conn.1).world ↔
      conn = (loop, new) ∨ conn.2 ∈ roster (cluster.loops conn.1).world := by
  rw [mem_rosters roster conn, Prod.ext_iff]
  by_cases own : conn.1 = loop
  · simp [own, grown, or_comm]
  · simp [own]

/-- A step of the loops constructs a connection, removes one, or does neither. -/
theorem deals (rostered : ∀ loop, (cluster.loops loop).Rostered (deployment.settings loop) mentions)
    {action : ClusterAction impl.Answer}
    (serves : ∀ loop own, action = .on loop (.run own) → own.serves = true)
    (ran : cluster.step deployment impl action = .ok cluster') :
    Deals deployment cluster action cluster' := by
  cases action with
  | destroyServer =>
    cases Cluster.step_ok ran
    exact .nothing rfl rfl (fun _ => Iff.rfl) fun _ => Iff.rfl
  | on loop action =>
    obtain ⟨_, s, stepped, rfl⟩ := step_on ran
    cases action with
    | run own =>
      cases World.Step.deals (serves loop own rfl) (Sharing.step_run stepped) with
      | nothing constructs removes accepted table =>
        exact .nothing (by simp [TcpServer.constructs, constructs])
          (by simp [TcpServer.removes, removes]) (mem_rosters_same World.accepted accepted)
          (mem_rosters_same World.table table)
      | @construct new constructs removes fresh accepted table =>
        exact .construct (by rw [TcpServer.constructs, constructs, Option.map_some])
          (by simp [TcpServer.removes, removes]) (World.fresh_accepted fresh) (mem_rosters_push World.accepted accepted)
          (mem_rosters_push World.table table)
      | @remove gone constructs removes present accepted table =>
        have listed : cluster.Lists (loop, gone) := present
        refine .remove (by simp [TcpServer.constructs, constructs])
          (by rw [TcpServer.removes, removes, Option.map_some]) listed
          (mem_rosters_same World.accepted accepted) fun conn => ?_
        show conn.2 ∈ (Function.update cluster.loops loop s conn.1).world.table ↔ _
        rw [mem_rosters World.table conn, table, (rostered loop).mem_erase present, Lists, ne_eq conn,
          Prod.ext_iff]
        by_cases own : conn.1 = loop
        · simp [own]
        · simp [own]
    | keep | drop | destruct =>
      have same : s.world.accepted = (cluster.loops loop).world.accepted ∧
          s.world.table = (cluster.loops loop).world.table := by
        cases Sharing.step_ok stepped
        exact ⟨rfl, rfl⟩
      exact .nothing rfl rfl (mem_rosters_same World.accepted same.1)
        (mem_rosters_same World.table same.2)

theorem rostered_step (lawful : impl.Lawful mentions)
    (rostered : ∀ loop, (cluster.loops loop).Rostered (deployment.settings loop) mentions)
    {action : ClusterAction impl.Answer}
    (serves : ∀ loop own, action = .on loop (.run own) → own.serves = true)
    (first : ∀ loop own c, action = .on loop (.run own) →
      (cluster.loops loop).world.closeCalls own = some c → (cluster.loops loop).world.closes c = 0)
    (ran : cluster.step deployment impl action = .ok cluster') :
    ∀ loop, (cluster'.loops loop).Rostered (deployment.settings loop) mentions := by
  cases action with
  | destroyServer =>
    cases Cluster.step_ok ran
    exact rostered
  | on loop action =>
    obtain ⟨_, s, stepped, rfl⟩ := step_on ran
    intro other
    show (Function.update cluster.loops loop s other).Rostered (deployment.settings other) mentions
    by_cases same : other = loop
    · subst same
      rw [Function.update_self]
      refine (rostered other).step lawful (fun own run => ?_) (fun own c run => ?_) stepped
      · exact serves other own (by rw [run])
      · exact first other own c (by rw [run])
    · rw [Function.update_of_ne same]
      exact rostered other

/-- A first `closeCallback_` does not lead to a failing assertion. -/
theorem removes_ok
    (rostered : ∀ loop, (cluster.loops loop).Rostered (deployment.settings loop) mentions)
    {loop : LoopId} {own : Action impl.Answer} {c : ConnId}
    (removes : (cluster.loops loop).world.removes (deployment.settings loop) own = some c)
    (first : (cluster.loops loop).world.closeCalls own = some c →
      (cluster.loops loop).world.closes c = 0) :
    cluster.step deployment impl (.on loop (.run own)) ≠
      .error (.assertFailed .removeConnection) := by
  intro failed
  have failed : (cluster.loops loop).world.step (deployment.settings loop) impl own =
      .error (.assertFailed .removeConnection) := by
    simp only [step] at failed
    split at failed
    · split at failed <;> cases failed
      next stepped => exact Sharing.step_fails stepped
    · cases failed
  have enabled : own = .removeElsewhere c → c ∈ (cluster.loops loop).world.removing := by
    rintro rfl
    by_contra absent
    simp [World.step, absent] at failed
  have present := (rostered loop).serving.entry (rostered loop).listed removes enabled
    ((rostered loop).once c) first
  exact World.removes_ok removes present failed

end Cluster

namespace TcpServer

variable {σ : Type} {deployment : Deployment} {impl : Polling σ} {server server' : TcpServer σ}

theorem newConnection_ok {conn : ServerConn} :
    server.newConnection conn = .ok server' ↔ server.nextConnId ≠ kMaxInt ∧
      { server with
        nextConnId := server.nextConnId + 1
        connections := server.connections.insert
          (server.name ++ toString (server.nextConnId + 1)) conn
        connName := Function.update server.connName conn
          (server.name ++ toString (server.nextConnId + 1))
        accepted := server.accepted ++ [conn] } = server' := by
  unfold newConnection
  split <;> simp [*]

theorem removeConnectionInLoop_ok {conn : ServerConn} :
    server.removeConnectionInLoop conn = .ok server' ↔
      server.connections.lookup (server.connName conn) ≠ none ∧
      { server with
        connections := server.connections.erase (server.connName conn)
        removed := server.removed ++ [conn] } = server' := by
  unfold removeConnectionInLoop erase
  cases server.connections.lookup (server.connName conn) <;> simp

/-- The outcomes of an action. -/
inductive Step (deployment : Deployment) (impl : Polling σ) (server : TcpServer σ)
    (action : ClusterAction impl.Answer) : TcpServer σ → Prop
  | loops {cluster : Cluster σ} : server.cluster.step deployment impl action = .ok cluster →
      constructs action = none → removes deployment server.cluster action = none →
      Step deployment impl server action { server with cluster := cluster }
  | accept {cluster : Cluster σ} {conn : ServerConn} {server' : TcpServer σ} :
      server.cluster.step deployment impl action = .ok cluster → constructs action = some conn →
      { server with cluster := cluster }.newConnection conn = .ok server' →
      Step deployment impl server action server'
  | remove {cluster : Cluster σ} {conn : ServerConn} {server' : TcpServer σ} :
      server.cluster.step deployment impl action = .ok cluster → constructs action = none →
      removes deployment server.cluster action = some conn →
      { server with cluster := cluster }.removeConnectionInLoop conn = .ok server' →
      Step deployment impl server action server'

theorem step_ok {action : ClusterAction impl.Answer}
    (ran : server.step deployment impl action = .ok server') :
    Step deployment impl server action server' := by
  unfold step at ran
  split at ran
  · cases ran
  · next cluster stepped =>
    split at ran
    · next constructs => exact .accept stepped constructs ran
    · next constructs removes => exact .remove stepped constructs removes ran
    · next constructs removes =>
      cases ran
      exact .loops stepped constructs removes

end TcpServer

end Muduo.Source
