import Muduo.Guarantees.ConnectionLifetime
import Muduo.Source.TcpServerNames
import Muduo.Support.NamedTable

/-!
# The table of connections

A connection gets the name of the server with a number that no other has got, and keeps
it. So `connections_` has one entry for each connection that was accepted and is not
removed yet, and `removeConnectionInLoop` finds the entry of its own connection, whichever
loop the close comes from.
-/
namespace Muduo.Guarantees
open Muduo.Support Muduo.Source

section Table

variable {σ : Type} {answer : Type}

/-- The server stays and accepts fewer than `2^31 - 2` connections, and each of them calls
its `closeCallback_` once at most. -/
def Regular (server : TcpServer σ) (action : ClusterAction answer) : Prop :=
  ServerStays server.cluster action ∧
    (TcpServer.constructs action ≠ none → server.accepted.length + 1 < 2 ^ 31 - 2) ∧
    ∀ conn ∈ TcpServer.closeCalls server.cluster action,
      .closeCallback conn.2 ∉ (server.cluster.loops conn.1).world.trace

instance (server : TcpServer σ) (action : ClusterAction answer) :
    Decidable (Regular server action) := by
  unfold Regular; infer_instance

/-- Accepted, and not removed yet. -/
def Present (server : TcpServer σ) (conn : ServerConn) : Prop :=
  conn ∈ server.accepted ∧ conn ∉ server.removed

/-- `connections_` holds the present connections, under names of their own; it gains one by
`newConnection` and loses one by its removal. -/
structure TableLaw (deployment : Deployment) (impl : Polling σ) (server : TcpServer σ) : Prop where
  entries : ∀ name conn, server.connections.lookup name = some conn ↔
    Present server conn ∧ server.connName conn = name
  distinct : ∀ conn conn', Present server conn → Present server conn' →
    server.connName conn = server.connName conn' → conn = conn'
  constructed : ∀ conn, conn ∈ server.accepted ↔ server.cluster.Constructed conn
  /-- `newConnection` counts on without overflow, and overwrites no entry -/
  enters : ∀ (action : ClusterAction impl.Answer) conn, Regular server action →
    TcpServer.constructs action = some conn →
    server.nextConnId < TcpServer.kMaxInt ∧
      ∀ server', server.step deployment impl action = .ok server' →
        server.connections.lookup (server'.connName conn) = none ∧
          server'.connections = server.connections.insert (server'.connName conn) conn
  /-- `removeConnectionInLoop` erases the entry of its connection, and passes its assertion -/
  leaves : ∀ (action : ClusterAction impl.Answer) conn, Regular server action →
    TcpServer.removes deployment server.cluster action = some conn →
    server.step deployment impl action ≠ .error (.assertFailed .removeConnection) ∧
      ∀ server', server.step deployment impl action = .ok server' →
        server.connections.lookup (server.connName conn) = some conn ∧
          server'.connections = server.connections.erase (server.connName conn)

variable {deployment : Deployment} {impl : Polling σ} {mentions : σ → ChannelId → Prop}
  {server server' : TcpServer σ}

/-- What holds of a server in such a run. -/
structure Tabled (deployment : Deployment) (mentions : σ → ChannelId → Prop)
    (server : TcpServer σ) : Prop where
  staying : server.cluster.destroying = false
  rostered : ∀ loop, (server.cluster.loops loop).Rostered (deployment.settings loop) mentions
  registers : Registers server.connections server.connName {conn | server.cluster.Lists conn}
  constructed : ∀ conn, conn ∈ server.accepted ↔ server.cluster.Constructed conn
  present : ∀ conn, server.cluster.Lists conn ↔ Present server conn
  removed : ∀ conn ∈ server.removed, conn ∈ server.accepted
  counter : server.nextConnId = server.accepted.length + 1
  named : ∀ conn ∈ server.accepted, ∃ id ≤ server.nextConnId,
    server.connName conn = server.name ++ toString id

theorem start_tabled (deployment : Deployment) (name : String) {poller : σ}
    (empty : ∀ id, ¬ mentions poller id) :
    Tabled deployment mentions (.start deployment name poller) where
  staying := rfl
  rostered loop := Sharing.start_rostered _ empty
  registers := (Registers.empty _).congr fun conn => by
    simp [Cluster.Lists, TcpServer.start, Cluster.start, Sharing.start, World.start]
  constructed conn := by
    simp [Cluster.Constructed, TcpServer.start, Cluster.start, Sharing.start, World.start]
  present conn := by
    simp [Cluster.Lists, Present, TcpServer.start, Cluster.start, Sharing.start, World.start]
  removed conn member := by cases member
  counter := rfl
  named conn member := by cases member

theorem Tabled.numbered (tabled : Tabled deployment mentions server) : server.Named :=
  ⟨tabled.counter, tabled.named⟩

theorem Regular.serves (staying : server.cluster.destroying = false)
    {action : ClusterAction impl.Answer} {cluster : Cluster σ}
    (ran : server.cluster.step deployment impl action = .ok cluster) :
    ∀ loop own, action = .on loop (.run own) → own.serves = true := by
  rintro loop own rfl
  exact serves_of_permits staying (Cluster.step_on ran).1

theorem Regular.first {action : ClusterAction answer} (regular : Regular server action) :
    ∀ loop own c, action = .on loop (.run own) →
      (server.cluster.loops loop).world.closeCalls own = some c →
      (server.cluster.loops loop).world.closes c = 0 := by
  rintro loop own c rfl called
  have silent := regular.2.2 (loop, c) (by simp [TcpServer.closeCalls, called])
  exact List.count_eq_zero.mpr fun member => silent (List.mem_filter.mp member).1

theorem staying_step (staying : server.cluster.destroying = false)
    {action : ClusterAction impl.Answer} (stays : ServerStays server.cluster action)
    {cluster : Cluster σ} (ran : server.cluster.step deployment impl action = .ok cluster) :
    cluster.destroying = false := by
  cases Cluster.step_ok ran with
  | on => exact staying
  | destroyServer => exact stays.elim

/-- What the loops do in a step keeps the connections' rosters. -/
theorem Tabled.loops (tabled : Tabled deployment mentions server) (lawful : impl.Lawful mentions)
    {action : ClusterAction impl.Answer} (regular : Regular server action) {cluster : Cluster σ}
    (stepped : server.cluster.step deployment impl action = .ok cluster) :
    cluster.destroying = false ∧
      (∀ loop, (cluster.loops loop).Rostered (deployment.settings loop) mentions) ∧
      server.cluster.Deals deployment action cluster := by
  have serves := Regular.serves tabled.staying stepped
  exact ⟨staying_step tabled.staying regular.1 stepped,
    Cluster.rostered_step lawful tabled.rostered serves regular.first stepped,
    Cluster.deals tabled.rostered serves stepped⟩

/-- `newConnection` enters a connection under the next name. -/
theorem Tabled.accept (tabled : Tabled deployment mentions server) {cluster : Cluster σ}
    (staying : cluster.destroying = false)
    (rostered : ∀ loop, (cluster.loops loop).Rostered (deployment.settings loop) mentions)
    {new : ServerConn} (unborn : ¬ server.cluster.Constructed new)
    (same : ∀ conn, cluster.Constructed conn ↔ conn = new ∨ server.cluster.Constructed conn)
    (lists : ∀ conn, cluster.Lists conn ↔ conn = new ∨ server.cluster.Lists conn)
    (entered : { server with cluster := cluster }.newConnection new = .ok server') :
    Tabled deployment mentions server' := by
  have unknown : new ∉ server.accepted := fun member => unborn ((tabled.constructed new).mp member)
  have absent : server.connections.lookup
      (server.name ++ toString (server.nextConnId + 1)) = none :=
    tabled.registers.lookup_none fun conn listed => tabled.numbered.unused ((tabled.present conn).mp listed).1
  have before : { server with cluster := cluster }.Named := ⟨tabled.counter, tabled.named⟩
  have numbered := before.newConnection unknown entered
  obtain ⟨_, rfl⟩ := TcpServer.newConnection_ok.mp entered
  refine ⟨staying, rostered, ?_, fun conn => ?_, fun conn => ?_, fun conn member => ?_,
    numbered.counter, numbered.named⟩
  · refine (tabled.registers.insert absent fun listed => ?_).congr lists
    exact unknown ((tabled.present new).mp listed).1
  · rw [same conn, List.mem_append, List.mem_singleton, tabled.constructed conn, or_comm]
  · have kept : new ∉ server.removed := fun member => unknown (tabled.removed new member)
    rw [lists conn, tabled.present conn, Present, Present, List.mem_append, List.mem_singleton]
    by_cases own : conn = new
    · simp [own, kept]
    · simp [own]
  · exact List.mem_append_left _ (tabled.removed conn member)

/-- `removeConnectionInLoop` erases the entry of its connection. -/
theorem Tabled.remove (tabled : Tabled deployment mentions server) {cluster : Cluster σ}
    (staying : cluster.destroying = false)
    (rostered : ∀ loop, (cluster.loops loop).Rostered (deployment.settings loop) mentions)
    {gone : ServerConn} (listed : server.cluster.Lists gone)
    (same : ∀ conn, cluster.Constructed conn ↔ server.cluster.Constructed conn)
    (lists : ∀ conn, cluster.Lists conn ↔ conn ≠ gone ∧ server.cluster.Lists conn)
    (erased : { server with cluster := cluster }.removeConnectionInLoop gone = .ok server') :
    Tabled deployment mentions server' := by
  obtain ⟨_, rfl⟩ := TcpServer.removeConnectionInLoop_ok.mp erased
  refine ⟨staying, rostered, ?_, fun conn => (tabled.constructed conn).trans (same conn).symm,
    fun conn => ?_, fun conn member => ?_, tabled.counter, tabled.named⟩
  · refine (tabled.registers.erase listed).congr fun conn => ?_
    rw [Set.mem_ofPred_eq, lists conn, Set.mem_sdiff, Set.mem_singleton_iff, and_comm]
    rfl
  · rw [lists conn, tabled.present conn, Present, Present, List.mem_append, List.mem_singleton]
    tauto
  · rcases List.mem_append.mp member with old | own
    · exact tabled.removed conn old
    · rw [List.mem_singleton.mp own]
      exact ((tabled.present gone).mp listed).1

theorem Tabled.step (tabled : Tabled deployment mentions server) (lawful : impl.Lawful mentions)
    {action : ClusterAction impl.Answer} (regular : Regular server action)
    (ran : server.step deployment impl action = .ok server') :
    Tabled deployment mentions server' := by
  cases TcpServer.step_ok ran with
  | loops stepped constructs removes =>
    obtain ⟨staying, rostered, deals⟩ := tabled.loops lawful regular stepped
    cases deals with
    | nothing _ _ same lists =>
      exact ⟨staying, rostered, tabled.registers.congr lists,
        fun conn => (tabled.constructed conn).trans (same conn).symm,
        fun conn => (lists conn).trans (tabled.present conn), tabled.removed, tabled.counter,
        tabled.named⟩
    | construct own => cases constructs.symm.trans own
    | remove _ own => cases removes.symm.trans own
  | accept stepped constructs entered =>
    obtain ⟨staying, rostered, deals⟩ := tabled.loops lawful regular stepped
    cases deals with
    | nothing none | remove none => cases constructs.symm.trans none
    | construct own _ unborn same lists =>
      cases constructs.symm.trans own
      exact tabled.accept staying rostered unborn same lists entered
  | remove stepped constructs removes erased =>
    obtain ⟨staying, rostered, deals⟩ := tabled.loops lawful regular stepped
    cases deals with
    | nothing _ none => cases removes.symm.trans none
    | construct own => cases constructs.symm.trans own
    | remove _ own listed same lists =>
      cases removes.symm.trans own
      exact tabled.remove staying rostered listed same lists erased

theorem tabled_of_run (lawful : impl.Lawful mentions) {poller : σ}
    (empty : ∀ id, ¬ mentions poller id) {name : String}
    {actions : List (ClusterAction impl.Answer)}
    (run : Run (Guarded Regular (Graph (TcpServer.step deployment impl)))
      (.start deployment name poller) actions server) : Tabled deployment mentions server :=
  run.invariant (start_tabled deployment name empty) fun _ _ _ tabled taken =>
    tabled.step lawful taken.1 taken.2

theorem Tabled.enters (tabled : Tabled deployment mentions server)
    {action : ClusterAction impl.Answer} {conn : ServerConn} (regular : Regular server action)
    (constructs : TcpServer.constructs action = some conn) :
    server.nextConnId < TcpServer.kMaxInt ∧
      ∀ server', server.step deployment impl action = .ok server' →
        server.connections.lookup (server'.connName conn) = none ∧
          server'.connections = server.connections.insert (server'.connName conn) conn := by
  refine ⟨?_, fun server' ran => ?_⟩
  · have few := regular.2.1 (by simp [constructs])
    rw [tabled.counter, TcpServer.kMaxInt]
    omega
  · cases TcpServer.step_ok ran with
    | loops _ none | remove _ none => cases constructs.symm.trans none
    | accept _ own entered =>
      cases constructs.symm.trans own
      obtain ⟨_, rfl⟩ := TcpServer.newConnection_ok.mp entered
      dsimp only
      rw [Function.update_self]
      refine ⟨tabled.registers.lookup_none fun other listed => ?_, rfl⟩
      exact tabled.numbered.unused ((tabled.present other).mp listed).1

theorem Tabled.leaves (tabled : Tabled deployment mentions server)
    {action : ClusterAction impl.Answer} {conn : ServerConn} (regular : Regular server action)
    (removes : TcpServer.removes deployment server.cluster action = some conn) :
    server.step deployment impl action ≠ .error (.assertFailed .removeConnection) ∧
      ∀ server', server.step deployment impl action = .ok server' →
        server.connections.lookup (server.connName conn) = some conn ∧
          server'.connections = server.connections.erase (server.connName conn) := by
  have listed {cluster : Cluster σ} (stepped : server.cluster.step deployment impl action = .ok cluster) :
      TcpServer.constructs action = none ∧
        server.connections.lookup (server.connName conn) = some conn := by
    cases Cluster.deals tabled.rostered (Regular.serves tabled.staying stepped) stepped with
    | nothing _ none | construct _ none => cases removes.symm.trans none
    | remove none own listed =>
      cases removes.symm.trans own
      exact ⟨none, tabled.registers.lookup_name listed⟩
  refine ⟨fun failed => ?_, fun server' ran => ?_⟩
  · simp only [TcpServer.step] at failed
    split at failed
    · next stepped =>
      cases failed
      match action with
      | .on loop (.run own) =>
        obtain ⟨c, removed, rfl⟩ := Option.map_eq_some_iff.mp removes
        exact Cluster.removes_ok tabled.rostered removed (regular.first loop own c rfl) stepped
    · next stepped =>
      obtain ⟨none, found⟩ := listed stepped
      simp [none, removes, TcpServer.removeConnectionInLoop, TcpServer.erase, found] at failed
  · cases TcpServer.step_ok ran with
    | loops _ _ none => cases removes.symm.trans none
    | accept stepped own => cases (listed stepped).1.symm.trans own
    | remove stepped _ own erased =>
      cases removes.symm.trans own
      obtain ⟨_, rfl⟩ := TcpServer.removeConnectionInLoop_ok.mp erased
      exact ⟨(listed stepped).2, rfl⟩

theorem Tabled.law (tabled : Tabled deployment mentions server) : TableLaw deployment impl server where
  entries name conn := by
    rw [tabled.registers name conn, Set.mem_ofPred_eq, tabled.present conn]
  distinct conn conn' here there same :=
    tabled.registers.injOn ((tabled.present conn).mpr here) ((tabled.present conn').mpr there) same
  constructed := tabled.constructed
  enters _ _ regular constructs := tabled.enters regular constructs
  leaves _ _ regular removes := tabled.leaves regular removes

end Table

/-- For any deployment, poller and interleaving of the loops, their threads and users:
while the server stays, accepts fewer than `2^31 - 2` connections and no `closeCallback_` is
called twice, `connections_` is the table of the connections accepted and not removed. -/
theorem connection_table_law (kind : PollerKind) (deployment : Deployment) (name : String)
    (actions : List (ClusterAction kind.polling.Answer)) (server : TcpServer kind.State)
    (run : Run (Guarded Regular (Graph (TcpServer.step deployment kind.polling)))
      (.start deployment name kind.new) actions server) :
    TableLaw deployment kind.polling server :=
  (tabled_of_run kind.lawful kind.new_mentions run).law

/-- The IO loop closes its connection; the main loop comes to the removal. -/
def closedElsewhere : List (ClusterAction KqueueSystem.polling.Answer) :=
  Cluster.opening none 5 ++
    Cluster.runOn 1 ([.call (.forceClose 5), .other 0, .other 0, .other 0, .poll none] ++
      List.replicate 7 (.loop .none) ++ [.loop .return, .loop .none]) ++
    Cluster.runOn mainLoop [.loop .return]

theorem connection_table_law_closed_elsewhere :
    ∃ server, Run (Guarded Regular
        (Graph (TcpServer.step Cluster.exampleDeployment KqueueSystem.polling)))
        (.start Cluster.exampleDeployment "chat" .new)
        (closedElsewhere ++ [.on 1 (.run (.removeElsewhere 5))]) server ∧
      (server.accepted = [(1, 5)] ∧ server.removed = [(1, 5)]) ∧
      TableLaw Cluster.exampleDeployment KqueueSystem.polling server := by
  have ends : endsIn Regular (TcpServer.step Cluster.exampleDeployment KqueueSystem.polling)
      Fault.notEnabled (.start Cluster.exampleDeployment "chat" .new)
      (closedElsewhere ++ [.on 1 (.run (.removeElsewhere 5))])
      (fun server => decide (server.accepted = [(1, 5)] ∧ server.removed = [(1, 5)])) = true := by
    decide +kernel
  obtain ⟨server, run, removed⟩ := run_of_endsIn _ _ ends
  exact ⟨server, run, of_decide_eq_true removed, connection_table_law .kqueue _ "chat" _ server run⟩

end Muduo.Guarantees
