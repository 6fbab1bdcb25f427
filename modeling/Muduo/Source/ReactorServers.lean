import Muduo.Source.ReactorWatching

/-!
# Servers that come and go on one loop

A loop without IO threads, and any number of servers constructed on it, one after
the other or side by side. `~TcpServer` runs in a frame of user code: it calls
`connectDestroyed` on its connections in turn, with the callbacks this brings, and
then its members go. `Acceptor` has no destructor of its own: with `accept_socket_`
its descriptor is closed, and nothing is said to the poller.
-/
namespace Muduo.Source
open Muduo.Support

/-- A server, by the name of its `accept_channel_`. -/
abbrev ServerId := ChannelId

/-- One loop with `wakeup_channel_`, and the servers that accept each connection. -/
structure Hosting where
  fdOf : ChannelId → Int
  wakeup : ChannelId
  owner : ConnId → ServerId
  writeCompleteCallback : Bool

structure Host (σ : Type) where
  sharing : Sharing σ
  /-- constructed servers -/
  servers : List ServerId
  /-- servers whose acceptor has got to `listenning_` -/
  listenning : List ServerId
  /-- destructors that run, innermost first, with the size of the stack they run on -/
  destroying : List (ServerId × Nat)
  destroyed : List ServerId

inductive HostAction (answer : Type) where
  | run (action : SharedAction answer)
  | construct (k : ServerId)
  /-- `Acceptor::listen`, as `TcpServer::start` has it run on the loop -/
  | listen (k : ServerId)
  /-- `~TcpServer` begins -/
  | destroyServer (k : ServerId)
  /-- the next turn of its loop -/
  | destroyConnection (c : ConnId)
  /-- its members are destroyed, `acceptor_` among them -/
  | destroyAcceptor

namespace Sharing

variable {σ : Type} {settings : Settings} {impl : Polling σ} {s s' : Sharing σ}

/-- User code on the loop thread enables reading of another component's channel. -/
theorem watch_ok {id : ChannelId} (code : s.world.stack.head? = some .user)
    (ran : s.step settings impl (.run (.loop (.loopCall (.watch id)))) = .ok s') :
    impl.operate s.world.heap s.world.poller id (.update .enRead) =
      .ok (s'.world.heap, s'.world.poller) := by
  obtain ⟨rest, stack⟩ := List.head?_eq_some_iff.mp code
  simp only [step] at ran
  split at ran
  · rw [check_ok] at ran
    obtain ⟨_, ran⟩ := ran
    split at ran <;> cases ran
    next w stepped =>
    simp only [World.step, stack, World.advance, Frame.test, World.loopCall] at stepped
    by_cases aux : id ∈ settings.aux
    · simp only [if_pos aux] at stepped
      cases operated : s.world.operate impl id (.update .enRead) with
      | error e => simp [operated] at stepped
      | ok v =>
        simp only [operated, Except.ok.injEq] at stepped
        obtain ⟨heap, poller, ran, rfl⟩ := World.operate_ok.mp operated
        subst stepped
        exact ran
    · simp [if_neg aux] at stepped
  · cases ran

/-- Without IO threads a connection is constructed by `newConnection` on the loop, and
nothing else joins `connections_`. -/
theorem Step.constructs (here : settings.serverHere = true) {action : SharedAction impl.Answer}
    (step : s.Step settings impl action s') :
    (s'.world.accepted = s.world.accepted ∧ ∀ c ∈ s'.world.table, c ∈ s.world.table) ∨
      ∃ c, action = .run (.loop (.loopCall (.newConnection c))) ∧
        s'.world.accepted = s.world.accepted ++ [c] ∧ s'.world.table = s.world.table ++ [c] := by
  cases step with
  | @run own w _ _ _ taken =>
    cases taken.moves with
    | stay same => exact Or.inl ⟨same.accepted, fun c member => same.table ▸ member⟩
    | construct _ accepted table _ _ origin =>
      rcases origin with rfl | ⟨_, elsewhere⟩
      · exact Or.inr ⟨_, rfl, accepted, table⟩
      · cases here.symm.trans elsewhere
    | post _ elsewhere => cases here.symm.trans elsewhere
    | erase _ _ accepted table | remove _ _ _ accepted table =>
      refine Or.inl ⟨accepted, fun c member => ?_⟩
      rw [table] at member
      exact List.mem_of_mem_erase member
  | keep | drop | destruct => exact Or.inl ⟨rfl, fun _ member => member⟩

end Sharing

namespace Host

variable {σ : Type}

def start (hosting : Hosting) (poller : σ) : Host σ where
  sharing := .start ⟨hosting.fdOf, [hosting.wakeup], true, hosting.writeCompleteCallback⟩ poller
  servers := []
  listenning := []
  destroying := []
  destroyed := []

def world (host : Host σ) : World σ := host.sharing.world

/-- The acceptors that a poll may report, next to `wakeup_channel_`. -/
def settings (hosting : Hosting) (host : Host σ) : Settings where
  fdOf := hosting.fdOf
  aux := hosting.wakeup :: host.listenning.filter (· ∉ host.destroyed)
  serverHere := true
  writeCompleteCallback := hosting.writeCompleteCallback

/-- The channel exists, with its open descriptor. -/
def Exists (hosting : Hosting) (host : Host σ) (id : ChannelId) : Prop :=
  id = hosting.wakeup ∨ (id ∈ host.servers ∧ id ∉ host.destroyed) ∨ host.world.Live id

/-- An object of its own, on a descriptor that the kernel may give out. -/
def New (hosting : Hosting) (host : Host σ) (id : ChannelId) : Prop :=
  id ≠ hosting.wakeup ∧ id ∉ host.servers ∧ id ∉ host.world.accepted ∧
    hosting.fdOf hosting.wakeup ≠ hosting.fdOf id ∧
    (∀ k ∈ host.servers, k ∉ host.destroyed → hosting.fdOf k ≠ hosting.fdOf id) ∧
    ∀ c ∈ host.world.accepted, c ∉ host.world.destructed → hosting.fdOf c ≠ hosting.fdOf id

instance (hosting : Hosting) (host : Host σ) (id : ChannelId) : Decidable (host.New hosting id) := by
  unfold New; infer_instance

/-- The innermost frame is in a destructor of a server. -/
def InDestructor (host : Host σ) : Prop :=
  ∃ entry ∈ host.destroying.head?, entry.2 = host.world.stack.length

instance (host : Host σ) : Decidable host.InDestructor := by
  unfold InDestructor; infer_instance

/-- The loop thread runs user code that is not in a destructor. -/
def InUserCode (host : Host σ) : Prop :=
  host.world.stack.head? = some .user ∧ ¬ host.InDestructor

instance (host : Host σ) : Decidable host.InUserCode := instDecidableAnd

/-- The server can be used: constructed, and not in its destructor. -/
def Serves (host : Host σ) (k : ServerId) : Prop :=
  k ∈ host.servers ∧ k ∉ host.destroyed ∧ k ∉ host.destroying.map Prod.fst

instance (host : Host σ) (k : ServerId) : Decidable (host.Serves k) := instDecidableAnd

/-- Connections come through an acceptor that listens; `~TcpServer` has its own steps. -/
def Permits {answer : Type} (hosting : Hosting) (host : Host σ) : SharedAction answer → Prop
  | .run (.loop (.loopCall (.newConnection c))) =>
    ¬ host.InDestructor ∧ host.Serves (hosting.owner c) ∧ hosting.owner c ∈ host.listenning ∧
      host.New hosting c
  | .run (.loop (.loopCall (.watch id))) => ¬ host.InDestructor ∧ id = hosting.wakeup
  | .run (.loop _) => ¬ host.InDestructor
  | .run (.destroy _) => False
  | _ => True

instance {answer : Type} (hosting : Hosting) (host : Host σ) (action : SharedAction answer) :
    Decidable (host.Permits hosting action) := by
  delta Permits
  rcases action with action | _ | _ | _
  · induction action using Action.casesOn with
    | loop input =>
      induction input using Input.casesOn with
      | loopCall call => induction call using LoopCall.casesOn <;> infer_instance
      | _ => infer_instance
    | _ => infer_instance
  all_goals infer_instance

/-- The channel whose memory an action reads. -/
def subject {answer : Type} (host : Host σ) : SharedAction answer → Option ChannelId
  | .run action => host.world.subject action
  | _ => none

def listened (host : Host σ) (k : ServerId) : Host σ := { host with listenning := host.listenning ++ [k] }

/-- `~TcpServer` has moved the connection out of its entry and calls `connectDestroyed`. -/
def connectionDestroyed (host : Host σ) (c : ConnId) : Host σ :=
  { host with
    sharing.world.table := host.world.table.erase c
    sharing.world.stack := .connectDestroyed c :: host.world.stack }

/-- The socket of the acceptor is closed; its channel goes as it is. -/
def acceptorDestroyed (hosting : Hosting) (impl : Polling σ) (host : Host σ) (k : ServerId)
    (rest : List (ServerId × Nat)) : Host σ :=
  { host with
    sharing.world.poller := impl.closed host.world.poller (hosting.fdOf k)
    destroying := rest
    destroyed := host.destroyed ++ [k] }

def step (hosting : Hosting) (impl : Polling σ) (host : Host σ) :
    HostAction impl.Answer → Except Fault (Host σ)
  | .run action =>
    if host.Permits hosting action then
      if ∃ id ∈ host.subject action, id ∈ host.destroyed then .error .outOfRange
      else
        match host.sharing.step (host.settings hosting) impl action with
        | .ok s => .ok { host with sharing := s }
        | .error e => .error e
    else .error .notEnabled
  | .construct k =>
    if host.New hosting k then .ok { host with servers := host.servers ++ [k] }
    else .error .notEnabled
  | .listen k =>
    if host.InUserCode ∧ host.Serves k ∧ k ∉ host.listenning then
      match host.sharing.step ((host.listened k).settings hosting) impl
          (.run (.loop (.loopCall (.watch k)))) with
      | .ok s => .ok { host.listened k with sharing := s }
      | .error e => .error e
    else .error .notEnabled
  | .destroyServer k =>
    if host.InUserCode ∧ host.Serves k then
      .ok { host with destroying := (k, host.world.stack.length) :: host.destroying }
    else .error .notEnabled
  | .destroyConnection c =>
    match host.destroying with
    | [] => .error .notEnabled
    | (k, size) :: _ =>
      if host.world.stack.length = size ∧ host.world.stack.head? = some .user ∧ hosting.owner c = k ∧
          c ∈ host.world.table then
        .ok (host.connectionDestroyed c)
      else .error .notEnabled
  | .destroyAcceptor =>
    match host.destroying with
    | [] => .error .notEnabled
    | (k, size) :: rest =>
      if host.world.stack.length = size ∧ ∀ c ∈ host.world.table, hosting.owner c ≠ k then
        .ok (host.acceptorDestroyed hosting impl k rest)
      else .error .notEnabled

/-- The outcomes of an action. -/
inductive Step (hosting : Hosting) (impl : Polling σ) (host : Host σ) :
    HostAction impl.Answer → Host σ → Prop
  | run {action : SharedAction impl.Answer} {s : Sharing σ} : host.Permits hosting action →
      host.sharing.Step (host.settings hosting) impl action s →
      Step hosting impl host (.run action) { host with sharing := s }
  | construct {k : ServerId} : host.New hosting k →
      Step hosting impl host (.construct k) { host with servers := host.servers ++ [k] }
  | listen {k : ServerId} {s : Sharing σ} : host.Serves k → k ∉ host.listenning →
      host.sharing.Step ((host.listened k).settings hosting) impl
        (.run (.loop (.loopCall (.watch k)))) s →
      impl.operate host.world.heap host.world.poller k (.update .enRead) =
        .ok (s.world.heap, s.world.poller) →
      Step hosting impl host (.listen k) { host.listened k with sharing := s }
  | destroyServer {k : ServerId} : host.Serves k →
      Step hosting impl host (.destroyServer k)
        { host with destroying := (k, host.world.stack.length) :: host.destroying }
  | destroyConnection {c : ConnId} : hosting.owner c ∈ host.destroying.map Prod.fst →
      host.world.stack.head? = some .user → c ∈ host.world.table →
      Step hosting impl host (.destroyConnection c) (host.connectionDestroyed c)
  | destroyAcceptor {k : ServerId} {size : Nat} {rest : List (ServerId × Nat)} :
      host.destroying = (k, size) :: rest →
      Step hosting impl host .destroyAcceptor (host.acceptorDestroyed hosting impl k rest)

variable {hosting : Hosting} {impl : Polling σ} {host host' : Host σ}

theorem step_ok {action : HostAction impl.Answer} (ran : host.step hosting impl action = .ok host') :
    Step hosting impl host action host' := by
  cases action with
  | run action =>
    simp only [step] at ran
    split at ran
    · next permitted =>
      rw [check_ok] at ran
      obtain ⟨_, ran⟩ := ran
      split at ran <;> cases ran
      next stepped => exact .run permitted (Sharing.step_ok stepped)
    · cases ran
  | construct k =>
    simp only [step] at ran
    split at ran <;> cases ran
    next new => exact .construct new
  | listen k =>
    simp only [step] at ran
    split at ran
    · next ready =>
      split at ran <;> cases ran
      next stepped =>
      exact .listen ready.2.1 ready.2.2 (Sharing.step_ok stepped)
        (Sharing.watch_ok ready.1.1 stepped)
    · cases ran
  | destroyServer k =>
    simp only [step] at ran
    split at ran <;> cases ran
    next ready => exact .destroyServer ready.2
  | destroyConnection c =>
    simp only [step] at ran
    split at ran
    · cases ran
    · next shape =>
      split at ran <;> cases ran
      next ready =>
      exact .destroyConnection (by simp [shape, ready.2.2.1]) ready.2.1 ready.2.2.2
  | destroyAcceptor =>
    simp only [step] at ran
    split at ran
    · cases ran
    · next shape =>
      split at ran <;> cases ran
      exact .destroyAcceptor shape

end Host

end Muduo.Source
