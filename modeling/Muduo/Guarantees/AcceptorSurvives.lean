import Muduo.Source.AcceptorExecution
import Muduo.Source.TcpServerNames
import Muduo.Support.NamedTable
import Muduo.Support.Transition

/-!
# What clients can do to the acceptor

`Socket::accept` calls `abort()` on every error of `::accept`. A client that resets its
connection after the poll, or connects when the process has no descriptor left, is enough
for that. Up to there the accept channel keeps its interest and `connections_` gets one
entry for each socket. The process survives exactly the runs in which every `::accept`
finds a connection to give and a number to give it.
-/
namespace Muduo.Guarantees
open Muduo.Support Muduo.Source Muduo.Source.AcceptLoop

/-- The process lives, the accept channel is watched, and `connections_` has one entry for
each accepted socket. -/
structure Survives {σ : Type} (listening : Listening) (impl : Polling σ) (s : AcceptLoop σ) :
    Prop where
  alive : s.phase ≠ .aborted
  interested : s.Interested listening
  /-- `connections_` holds the accepted connections, -/
  entries : ∀ name conn, s.server.connections.lookup name = some conn ↔
    conn ∈ s.server.accepted ∧ s.server.connName conn = name
  /-- one for each socket that `accept` has returned and that is not still in hand, -/
  counted : s.server.connections.keys.card + s.inHand = s.sockets.length
  /-- a step leaves it or enters one under a new name, -/
  changes : ∀ (action : AcceptAction impl.Answer) s', s.step listening impl action = .ok s' →
    s'.server.connections = s.server.connections ∨
      ∃ conn name, action = .newConnection conn ∧ s.server.connections.lookup name = none ∧
        s'.server.connections = s.server.connections.insert name conn
  /-- and `newConnection` never fails to enter the one in hand. -/
  enters : ∀ sock active conn, s.phase = .newConnection sock active → conn ∉ s.server.accepted →
    ∃ s', s.step listening impl (.newConnection conn) = .ok s'

/-- A call of `::accept` is made only where it succeeds. -/
def AcceptsInTime {σ answer : Type} (listening : Listening) (s : AcceptLoop σ) :
    AcceptAction answer → Prop
  | .accept _ => s.AcceptSucceeds listening
  | _ => True

instance {σ answer : Type} (listening : Listening) (s : AcceptLoop σ)
    (action : AcceptAction answer) : Decidable (AcceptsInTime listening s action) := by
  cases action <;> unfold AcceptsInTime <;> infer_instance

section Survival

variable {σ : Type} {listening : Listening} {impl : Polling σ} {mentions : σ → ChannelId → Prop}
  {s s' : AcceptLoop σ} {action : AcceptAction impl.Answer}

/-- What holds in every run, also after `abort()`. -/
structure Upheld (listening : Listening) (s : AcceptLoop σ) : Prop where
  interested : s.Interested listening
  registers : Registers s.server.connections s.server.connName {conn | conn ∈ s.server.accepted}
  named : s.server.Named
  distinct : s.server.accepted.Nodup
  handed : s.server.accepted.length + s.inHand = s.sockets.length
  few : s.sockets.length < 2 ^ 31 - 1

theorem start_upheld (deployment : Deployment) (name : String) (poller : σ) (others : List Int) :
    Upheld listening (.start listening deployment name poller others) where
  interested on := by cases on
  registers := (Registers.empty _).congr fun conn => by simp [AcceptLoop.start, TcpServer.start]
  named := ⟨rfl, fun conn member => by cases member⟩
  distinct := List.nodup_nil
  handed := rfl
  few := by simp [AcceptLoop.start]

/-- The next name is free. -/
theorem Upheld.absent (upheld : Upheld listening s) :
    s.server.connections.lookup (s.server.name ++ toString (s.server.nextConnId + 1)) = none :=
  upheld.registers.lookup_none fun _ member => upheld.named.unused member

theorem Upheld.step (upheld : Upheld listening s) (lawful : impl.Lawful mentions)
    (ran : s.step listening impl action = .ok s') : Upheld listening s' := by
  cases step_ok lawful ran with
  | keeps _ _ sockets server hand _ interested =>
    refine ⟨interested upheld.interested, ?_, ?_, ?_, ?_, ?_⟩
    · rw [server]; exact upheld.registers
    · rw [server]; exact upheld.named
    · rw [server]; exact upheld.distinct
    · rw [server, hand, sockets]; exact upheld.handed
    · rw [sockets]; exact upheld.few
  | accepted phase succeeds =>
    have handed := upheld.handed
    have room := succeeds.2
    have int := listening.limit_lt
    refine ⟨upheld.interested, upheld.registers, upheld.named, upheld.distinct, ?_, ?_⟩
    · simpa [inHand, phase] using handed
    · simp only [openCount] at room
      simp only [List.length_append, List.length_singleton]
      omega
  | refused phase =>
    have handed := upheld.handed
    refine ⟨upheld.interested, upheld.registers, upheld.named, upheld.distinct, ?_, upheld.few⟩
    simpa [inHand, phase] using handed
  | @entered conn sock active server phase unknown entered =>
    have handed := upheld.handed
    have named := upheld.named.newConnection unknown entered
    obtain ⟨_, rfl⟩ := TcpServer.newConnection_ok.mp entered
    refine ⟨upheld.interested, ?_, named, ?_, ?_, upheld.few⟩
    · refine (upheld.registers.insert upheld.absent unknown).congr fun other => ?_
      simp [or_comm]
    · exact List.nodup_append.mpr ⟨upheld.distinct, List.nodup_singleton _, by grind⟩
    · simpa [inHand, phase] using handed

/-- An answer against the condition is an error. -/
theorem aborted_of_step (lawful : impl.Lawful mentions)
    (ran : s.step listening impl action = .ok s') (late : ¬ AcceptsInTime listening s action) :
    s'.phase = .aborted := by
  cases step_ok lawful ran with
  | keeps other =>
    cases action with
    | accept answer => exact absurd rfl (other answer)
    | _ => exact absurd trivial late
  | accepted _ succeeds => exact absurd succeeds late
  | refused => rfl
  | entered => exact absurd trivial late

theorem aborted_lasts (lawful : impl.Lawful mentions) (aborted : s.phase = .aborted)
    (ran : s.step listening impl action = .ok s') : s'.phase = .aborted := by
  cases step_ok lawful ran with
  | keeps _ _ _ _ _ same => exact same.mpr aborted
  | accepted phase | entered phase => cases phase.symm.trans aborted
  | refused => rfl

theorem alive_of_step (lawful : impl.Lawful mentions) (alive : s.phase ≠ .aborted)
    (inTime : AcceptsInTime listening s action)
    (ran : s.step listening impl action = .ok s') : s'.phase ≠ .aborted := by
  cases step_ok lawful ran with
  | keeps _ _ _ _ _ same => exact fun aborted => alive (same.mp aborted)
  | accepted | entered => simp
  | refused _ fails => exact absurd inTime fails

theorem Upheld.changes (upheld : Upheld listening s) (lawful : impl.Lawful mentions)
    (ran : s.step listening impl action = .ok s') :
    s'.server.connections = s.server.connections ∨
      ∃ conn name, action = .newConnection conn ∧ s.server.connections.lookup name = none ∧
        s'.server.connections = s.server.connections.insert name conn := by
  cases step_ok lawful ran with
  | keeps _ _ _ server => exact .inl (by rw [server])
  | accepted | refused => exact .inl rfl
  | @entered conn _ _ _ _ _ entered =>
    obtain ⟨_, rfl⟩ := TcpServer.newConnection_ok.mp entered
    exact .inr ⟨conn, _, rfl, upheld.absent, rfl⟩

/-- `next_conn_id_` has not reached its end while a descriptor was left for the socket. -/
theorem Upheld.enters (upheld : Upheld listening s) {sock : Socket} {active : List ChannelId}
    {conn : ServerConn} (phase : s.phase = .newConnection sock active)
    (unknown : conn ∉ s.server.accepted) :
    ∃ s', s.step listening impl (.newConnection conn) = .ok s' := by
  have handed : s.server.accepted.length + 1 = s.sockets.length := by
    simpa [inHand, phase] using upheld.handed
  have few := upheld.few
  have counter := upheld.named.counter
  have short : s.server.nextConnId ≠ TcpServer.kMaxInt := by
    rw [counter, TcpServer.kMaxInt]
    omega
  obtain ⟨server, entered⟩ : ∃ server, s.server.newConnection conn = .ok server :=
    ⟨_, TcpServer.newConnection_ok.mpr ⟨short, rfl⟩⟩
  refine ⟨{ s with server := server, phase := .dispatching active }, ?_⟩
  simp only [AcceptLoop.step, phase, if_neg unknown, entered]

theorem Upheld.survives (upheld : Upheld listening s) (lawful : impl.Lawful mentions)
    (alive : s.phase ≠ .aborted) : Survives listening impl s where
  alive := alive
  interested := upheld.interested
  entries name conn := upheld.registers name conn
  counted := by
    rw [upheld.registers.card_keys upheld.distinct]
    exact upheld.handed
  changes _ _ ran := upheld.changes lawful ran
  enters _ _ _ phase unknown := upheld.enters phase unknown

end Survival

/-- For any poller, any server, other components and interleaving of the clients with the
loop: the process and the server's table survive exactly if each `::accept` found a
connection that its client had not reset, and a descriptor below the limit. -/
theorem acceptor_survives_exact (kind : PollerKind) (listening : Listening)
    (deployment : Deployment) (name : String) (others : List Int)
    (actions : List (AcceptAction kind.polling.Answer)) (s : AcceptLoop kind.State)
    (run : Run (Graph (AcceptLoop.step listening kind.polling))
      (.start listening deployment name kind.new others) actions s) :
    Survives listening kind.polling s ↔
      Run (Guarded (AcceptsInTime listening) (Graph (AcceptLoop.step listening kind.polling)))
        (.start listening deployment name kind.new others) actions s := by
  have upheld : Upheld listening s :=
    run.invariant (start_upheld deployment name kind.new others)
      fun _ _ _ kept taken => kept.step kind.lawful taken
  constructor
  · intro survives
    have alternatives := @Run.guarded_or _ _ _ (AcceptsInTime listening) _ _ _ (fun _ => True)
      (fun s => s.phase = .aborted) run trivial (fun _ _ _ _ _ => trivial)
      (fun _ _ _ _ taken late => aborted_of_step kind.lawful taken late)
      (fun _ _ _ _ aborted taken => aborted_lasts kind.lawful aborted taken)
    exact alternatives.resolve_right survives.alive
  · intro guarded
    have alive : s.phase ≠ .aborted :=
      @Run.invariant _ _ _ _ _ _ (fun s => s.phase ≠ .aborted) guarded (by simp [AcceptLoop.start])
        fun _ _ _ alive taken => alive_of_step kind.lawful alive taken.1 taken.2
    exact upheld.survives kind.lawful alive

/-- The accept channel is 6, the process may open sixteen descriptors or eleven. -/
def roomy : Listening := ⟨fun id => id, 6, 16, by decide⟩

def narrow : Listening := ⟨fun id => id, 6, 11, by decide⟩

/-- The standard streams are open, and the kqueue and the two ends of the wakeup pipe of the
main loop and of one IO loop. -/
def exampleLoop (listening : Listening) : AcceptLoop KqueueSystem :=
  .start listening Cluster.exampleDeployment "chat" .new [0, 1, 2, 3, 4, 5, 7, 8, 9]

/-- A client is accepted, while the next one leaves. -/
def acceptedOne : List (AcceptAction KqueueSystem.polling.Answer) :=
  [.listen, .connect 1, .poll (some [(6, .read)]), .connect 2, .dispatch, .reset 1 false,
    .accept (.socket 10), .newConnection (1, 10), .dispatch]

theorem acceptor_survives_exact_acceptedOne :
    ∃ s, Run (Guarded (AcceptsInTime narrow) (Graph (AcceptLoop.step narrow KqueueSystem.polling)))
        (exampleLoop narrow) acceptedOne s ∧
      s.server.accepted = [(1, 10)] ∧ Survives narrow KqueueSystem.polling s := by
  have ends : endsIn (AcceptsInTime narrow) (AcceptLoop.step narrow KqueueSystem.polling)
      Fault.notEnabled (exampleLoop narrow) acceptedOne
      (fun s => decide (s.server.accepted = [(1, 10)])) = true := by
    decide +kernel
  obtain ⟨s, run, accepted⟩ := run_of_endsIn _ _ ends
  exact ⟨s, run, of_decide_eq_true accepted,
    (acceptor_survives_exact .kqueue narrow _ _ _ _ s run.unguarded).mpr run⟩

theorem aborts_of_endsIn {listening : Listening}
    {actions : List (AcceptAction KqueueSystem.polling.Answer)}
    (ends : endsIn (fun _ _ => True) (AcceptLoop.step listening KqueueSystem.polling)
      Fault.notEnabled (exampleLoop listening) actions (fun s => decide (s.phase = .aborted)) = true) :
    ∃ s, Run (Graph (AcceptLoop.step listening KqueueSystem.polling)) (exampleLoop listening)
        actions s ∧
      s.phase = .aborted ∧ ¬ Survives listening KqueueSystem.polling s := by
  obtain ⟨s, run, aborted⟩ := run_of_endsIn _ _ ends
  have phase : s.phase = .aborted := of_decide_eq_true aborted
  exact ⟨s, run.unguarded, phase, fun survives => survives.alive phase⟩

/-- A client resets between the poll and `::accept`; its place in the queue is gone. -/
def leavesQueue : List (AcceptAction KqueueSystem.polling.Answer) :=
  [.connect 3, .poll (some [(6, .read)]), .reset 0 false, .dispatch, .accept (.error .eagain)]

/-- It resets later, and its place is kept. -/
def leavesPlace : List (AcceptAction KqueueSystem.polling.Answer) :=
  [.connect 3, .poll (some [(6, .read)]), .dispatch, .reset 0 true,
    .accept (.error .econnaborted)]

/-- It stays, where no descriptor is left for it. -/
def oneTooMany : List (AcceptAction KqueueSystem.polling.Answer) :=
  [.connect 3, .poll (some [(6, .read)]), .dispatch, .accept (.error .emfile)]

/-- A connection is served. Then one more client ends the process, in each of these ways. -/
theorem clients_abort_process :
    (∃ s, Run (Graph (AcceptLoop.step roomy KqueueSystem.polling)) (exampleLoop roomy)
        (acceptedOne ++ leavesQueue) s ∧
      s.phase = .aborted ∧ ¬ Survives roomy KqueueSystem.polling s) ∧
    (∃ s, Run (Graph (AcceptLoop.step roomy KqueueSystem.polling)) (exampleLoop roomy)
        (acceptedOne ++ leavesPlace) s ∧
      s.phase = .aborted ∧ ¬ Survives roomy KqueueSystem.polling s) ∧
    ∃ s, Run (Graph (AcceptLoop.step narrow KqueueSystem.polling)) (exampleLoop narrow)
        (acceptedOne ++ oneTooMany) s ∧
      s.phase = .aborted ∧ ¬ Survives narrow KqueueSystem.polling s :=
  ⟨aborts_of_endsIn (by decide +kernel), aborts_of_endsIn (by decide +kernel),
    aborts_of_endsIn (by decide +kernel)⟩

end Muduo.Guarantees
