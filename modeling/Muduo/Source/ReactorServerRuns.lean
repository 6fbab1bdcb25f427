import Muduo.Source.ReactorServers

/-!
# Runs of a loop with servers

An acceptor that has listened keeps its entry in `channels_`, whatever becomes of its
server: no function removes the channel. Where only servers are destroyed that have
not listened, every entry belongs to an open socket, and the descriptors of two open
sockets differ.
-/
namespace Muduo.Source
open Muduo.Support

namespace Sharing
open KqueueSystem

variable {settings : Settings} {s s' : Sharing KqueueSystem}

/-- An entry of `channels_` that is no connection's stays. -/
theorem Step.keeps (claimed : s.Claimed) {action : SharedAction KqueueSystem.polling.Answer}
    (step : s.Step settings KqueueSystem.polling action s') :
    (∀ id, (s'.world.heap id).fd = (s.world.heap id).fd) ∧ ∀ fd id, id ∉ s.world.accepted →
      s.world.poller.poller.channels.find fd = some id →
      s'.world.poller.poller.channels.find fd = some id := by
  cases step with
  | @run own w _ _ _ taken =>
    cases taken.touches claimed.orderly claimed.posts with
    | quiet heap poller | construct _ heap poller =>
      rw [heap, poller]
      exact ⟨fun _ => rfl, fun _ _ _ found => found⟩
    | @operate frame id op runs head operates ran =>
      refine ⟨fun other => ((operate_calls ran).2 other).1, fun fd other apart found => ?_⟩
      refine operate_keeps ran found ?_
      rintro rfl rfl
      cases operates
      have more := World.destroyers_of_stack (List.mem_of_mem_head? head) rfl
      exact apart (claimed.accepted_of_destroyers more)
    | poll _ polled =>
      obtain ⟨_, entries, _⟩ := poll_same polled
      rw [entries]
      exact ⟨fun id => (poll_sameAt polled).fd, fun _ _ _ found => found⟩
    | close _ _ _ heap poller =>
      rw [heap, poller]
      exact ⟨fun _ => rfl, fun _ _ _ found => found⟩
  | keep | drop | destruct => exact ⟨fun _ => rfl, fun _ _ _ found => found⟩

theorem Step.entered (claimed : s.Claimed) (entered : Entered s.world.heap s.world.poller)
    {action : SharedAction KqueueSystem.polling.Answer}
    (step : s.Step settings KqueueSystem.polling action s') :
    Entered s'.world.heap s'.world.poller := by
  cases step with
  | @run own w _ _ _ taken =>
    cases taken.touches claimed.orderly claimed.posts with
    | quiet heap poller | construct _ heap poller =>
      rw [heap, poller]
      exact entered
    | operate _ _ _ ran => exact entered.operate ran
    | poll _ polled =>
      intro fd id found
      rw [(poll_same polled).2.1] at found
      have same : SameAt s.world.heap s.world.poller id w.heap w.poller := poll_sameAt polled
      rw [same.fd, same.index]
      exact entered fd id found
    | close _ _ _ heap poller =>
      rw [heap, poller]
      exact entered
  | keep | drop | destruct => exact entered

end Sharing

namespace Host
open KqueueSystem

section Entered

variable {σ : Type} {hosting : Hosting} {impl : Polling σ} {host host' : Host σ}

/-- `~TcpServer` takes the entry of a connection, and destroys it. -/
theorem claimed_connectionDestroyed (claimed : host.sharing.Claimed) {c : ConnId}
    (code : host.world.stack.head? = some .user) (present : c ∈ host.world.table) :
    (host.connectionDestroyed c).sharing.Claimed := by
  obtain ⟨orderly, posts, once⟩ := claimed
  obtain ⟨rest, stack⟩ := List.head?_eq_some_iff.mp code
  refine ⟨orderly.restacked rfl rfl (fun frame member => ?_) (fun frame member => ?_),
    fun frame member => ?_, fun other => ?_⟩
  · have below : frame ∈ host.world.stack := member
    rw [stack] at below
    rcases List.mem_cons.mp below with rfl | tail
    · rfl
    · exact orderly.waiting frame (by rw [show host.sharing.world.stack = _ from stack]; exact tail)
  · rcases List.mem_cons.mp member with rfl | old
    · trivial
    · exact orderly.knows frame old
  · rcases member with member | other
    · rcases List.mem_cons.mp member with rfl | old
      · rfl
      · exact posts frame (Or.inl old)
    · exact posts frame (Or.inr other)
  · refine Eq.trans ?_ (once other)
    have erased := World.count_erase present other
    have running := World.count_destroys_cons (.connectDestroyed c) host.world.stack other
    have own : ([c] : List ConnId).count other = if other = c then 1 else 0 := by
      rw [← List.nil_append [c], World.count_push, List.count_nil, Nat.zero_add]
    have after : (host.connectionDestroyed c).sharing.world.destroyers other =
        (host.world.table.erase c).count other +
          host.world.tasks.count (.connectDestroyed other) +
          ((.connectDestroyed c :: host.world.stack).filterMap Frame.destroys).count other := rfl
    have counted : host.sharing.world.destroyers other = host.world.table.count other +
        host.world.tasks.count (.connectDestroyed other) +
        (host.world.stack.filterMap Frame.destroys).count other := rfl
    simp only [Frame.destroys, Option.toList_some] at running
    have torn : (host.connectionDestroyed c).sharing.torn = host.sharing.torn := rfl
    rw [after, running, own, counted, torn]
    omega

theorem claimed_step (claimed : host.sharing.Claimed) {action : HostAction impl.Answer}
    (step : host.Step hosting impl action host') : host'.sharing.Claimed := by
  cases step with
  | run _ taken | listen _ _ taken => exact claimed.step taken
  | construct | destroyServer => exact claimed
  | destroyConnection _ code present => exact claimed_connectionDestroyed claimed code present
  | destroyAcceptor =>
    obtain ⟨orderly, posts, once⟩ := claimed
    exact ⟨orderly.restacked rfl rfl orderly.waiting orderly.knows, posts, once⟩

/-- New connections are no servers. -/
theorem Step.accepted {action : HostAction impl.Answer} (step : host.Step hosting impl action host') :
    ∀ c ∈ host'.world.accepted, c ∈ host.world.accepted ∨ host'.servers = host.servers ∧
      hosting.owner c ∈ host.listenning ∧ host.New hosting c := by
  intro c member
  cases step with
  | run permitted taken =>
    rcases taken.constructs rfl with ⟨same, _⟩ | ⟨new, rfl, accepted, _⟩
    · exact Or.inl (same ▸ member)
    · have born : c ∈ host.sharing.world.accepted ++ [new] := accepted ▸ member
      rcases List.mem_append.mp born with old | own
      · exact Or.inl old
      · rw [List.mem_singleton.mp own]
        exact Or.inr ⟨rfl, permitted.2.2⟩
  | listen _ _ taken =>
    rcases taken.constructs rfl with ⟨same, _⟩ | ⟨_, other, _⟩
    · exact Or.inl (same ▸ member)
    · cases other
  | construct | destroyServer | destroyConnection | destroyAcceptor => exact Or.inl member

theorem Step.destructed {action : HostAction impl.Answer}
    (step : host.Step hosting impl action host') :
    ∀ c ∈ host.world.destructed, c ∈ host'.world.destructed := by
  intro c gone
  have ofSharing {settings : Settings} {own : SharedAction impl.Answer} {s : Sharing σ}
      (taken : host.sharing.Step settings impl own s) : c ∈ s.world.destructed := by
    cases taken with
    | @run _ w other _ _ taken =>
      show c ∈ w.destructed
      rw [taken.destructed_kept other]
      exact gone
    | keep | drop => exact gone
    | destruct => exact List.mem_append_left _ gone
  cases step with
  | run _ taken | listen _ _ taken => exact ofSharing taken
  | construct | destroyServer | destroyConnection | destroyAcceptor => exact gone

/-- Connections come from acceptors that listen, on descriptors of their own. -/
theorem Step.live {action : HostAction impl.Answer} (step : host.Step hosting impl action host')
    {c : ConnId} (live : host'.world.Live c) :
    host.world.Live c ∨ hosting.owner c ∈ host.listenning ∧ host.New hosting c := by
  rcases step.accepted c live.1 with old | new
  · exact Or.inl ⟨old, fun gone => live.2 (step.destructed c gone)⟩
  · exact Or.inr new.2

theorem Step.table {action : HostAction impl.Answer} (step : host.Step hosting impl action host') :
    ∀ c ∈ host'.world.table, c ∈ host.world.table ∨ hosting.owner c ∈ host.listenning := by
  intro c member
  cases step with
  | run permitted taken =>
    rcases taken.constructs rfl with ⟨_, old⟩ | ⟨new, rfl, _, table⟩
    · exact Or.inl (old c member)
    · have held : c ∈ host.sharing.world.table ++ [new] := table ▸ member
      rcases List.mem_append.mp held with old | own
      · exact Or.inl old
      · rw [List.mem_singleton.mp own]
        exact Or.inr permitted.2.2.1
  | listen _ _ taken =>
    rcases taken.constructs rfl with ⟨_, old⟩ | ⟨_, other, _⟩
    · exact Or.inl (old c member)
    · cases other
  | destroyConnection => exact Or.inl (List.mem_of_mem_erase member)
  | construct | destroyServer | destroyAcceptor => exact Or.inl member

end Entered

variable {σ answer : Type} {hosting : Hosting} {host host' : Host KqueueSystem}

/-- Whatever is destroyed, an acceptor that has listened keeps its entry. -/
structure Retained (hosting : Hosting) (host : Host KqueueSystem) : Prop where
  claimed : host.sharing.Claimed
  fd : ∀ id, (host.world.heap id).fd = hosting.fdOf id
  apart : ∀ k ∈ host.servers, k ≠ hosting.wakeup ∧ k ∉ host.world.accepted
  listed : ∀ k ∈ host.listenning, k ∈ host.servers
  entered : ∀ k ∈ host.listenning,
    host.world.poller.poller.channels.find (hosting.fdOf k) = some k

theorem start_retained (hosting : Hosting) : (start hosting KqueueSystem.new).Retained hosting where
  claimed := Sharing.start_claimed ..
  fd _ := rfl
  apart := by simp [start]
  listed := by simp [start]
  entered := by simp [start]

theorem Retained.step (retained : host.Retained hosting)
    {action : HostAction KqueueSystem.polling.Answer}
    (step : host.Step hosting KqueueSystem.polling action host') : host'.Retained hosting := by
  have claimed := claimed_step retained.claimed step
  have grown := step.accepted
  obtain ⟨before, fd, apart, listed, entered⟩ := retained
  cases step with
  | run permitted taken =>
    obtain ⟨fds, kept⟩ := taken.keeps before
    refine ⟨claimed, fun id => (fds id).trans (fd id), fun k server => ⟨(apart k server).1, ?_⟩,
      listed, fun k listens => kept _ k (apart k (listed k listens)).2 (entered k listens)⟩
    intro born
    rcases grown k born with old | ⟨_, _, new⟩
    · exact (apart k server).2 old
    · exact new.2.1 server
  | @construct k new =>
    refine ⟨claimed, fd, fun other server => ?_,
      fun other listens => List.mem_append_left _ (listed other listens), entered⟩
    rcases List.mem_append.mp server with old | own
    · exact apart other old
    · rw [List.mem_singleton.mp own]
      exact ⟨new.1, new.2.2.1⟩
  | @listen k s serves _ taken ran =>
    obtain ⟨fds, kept⟩ := taken.keeps before
    refine ⟨claimed, fun id => (fds id).trans (fd id), fun other server => ⟨(apart other server).1, ?_⟩,
      fun other listens => ?_, fun other listens => ?_⟩
    · intro born
      rcases grown other born with old | ⟨_, _, new⟩
      · exact (apart other server).2 old
      · exact new.2.1 server
    · rcases List.mem_append.mp listens with old | own
      · exact listed other old
      · rw [List.mem_singleton.mp own]
        exact serves.1
    · rcases List.mem_append.mp listens with old | own
      · exact kept _ other (apart other (listed other old)).2 (entered other old)
      · rw [List.mem_singleton.mp own, ← fd k]
        exact (update_entered ran).1
  | destroyServer | destroyConnection | destroyAcceptor => exact ⟨claimed, fd, apart, listed, entered⟩

/-- `~TcpServer` starts on servers whose acceptor has not listened. -/
def Unstarted (host : Host σ) : HostAction answer → Prop
  | .destroyServer k => k ∉ host.listenning
  | _ => True

instance (host : Host σ) (action : HostAction answer) : Decidable (host.Unstarted action) := by
  delta Unstarted
  induction action using HostAction.casesOn <;> infer_instance

/-- No destroyed server has listened. -/
structure Hosted (hosting : Hosting) (host : Host KqueueSystem) : Prop where
  retained : host.Retained hosting
  lasting : host.sharing.Lasting (host.settings hosting)
  entered : Entered host.world.heap host.world.poller
  present : ∀ fd id, host.world.poller.poller.channels.find fd = some id →
    id ∈ (host.settings hosting).aux ∨ host.world.Live id
  listens : ∀ k ∈ host.listenning, k ∉ host.destroyed
  sockets : ∀ k ∈ host.servers, k ∉ host.destroyed → hosting.fdOf hosting.wakeup ≠ hosting.fdOf k ∧
    (∀ c, host.world.Live c → hosting.fdOf c ≠ hosting.fdOf k) ∧
    ∀ j ∈ host.servers, j ∉ host.destroyed → hosting.fdOf j = hosting.fdOf k → j = k
  owners : ∀ c ∈ host.world.table, hosting.owner c ∈ host.listenning
  idle : ∀ entry ∈ host.destroying, entry.1 ∈ host.servers ∧ entry.1 ∉ host.destroyed ∧
    entry.1 ∉ host.listenning
  single : (host.destroying.map Prod.fst).Nodup

theorem start_hosted (hosting : Hosting) : (start hosting KqueueSystem.new).Hosted hosting where
  retained := start_retained hosting
  lasting := Sharing.start_lasting _
  entered fd id found := by simp [start, world, Sharing.start, World.start, KqueueSystem.new,
    KqueuePoller.new] at found
  present fd id found := by simp [start, world, Sharing.start, World.start, KqueueSystem.new,
    KqueuePoller.new] at found
  listens := by simp [start]
  sockets := by simp [start]
  owners := by simp [start, world, Sharing.start, World.start]
  idle := by simp [start]
  single := by simp [start]

/-- A channel that a poll may report exists. -/
theorem Hosted.exists_of_aux (hosted : host.Hosted hosting) {id : ChannelId}
    (aux : id ∈ (host.settings hosting).aux) : host.Exists hosting id := by
  rcases List.mem_cons.mp aux with rfl | listens
  · exact Or.inl rfl
  · have listens := (List.mem_filter.mp listens).1
    exact Or.inr (Or.inl ⟨hosted.retained.listed id listens, hosted.listens id listens⟩)

/-- On one loop without IO threads the steps of `~TcpServer` are the host's. -/
theorem serves_of_permits {settings : Settings} {s s' : Sharing KqueueSystem}
    (here : settings.serverHere = true) {action : Action KqueueSystem.polling.Answer}
    (own : ∀ c, action ≠ .destroy c)
    (step : s.Step settings KqueueSystem.polling (.run action) s') : action.serves = true := by
  cases action with
  | destroy c => exact absurd rfl (own c)
  | destroyElsewhere c =>
    cases step with
    | run _ _ _ taken =>
      cases taken with
      | destroyElsewhere elsewhere => cases here.symm.trans elsewhere
  | _ => rfl

theorem Hosted.sockets_step (hosted : host.Hosted hosting)
    {action : HostAction KqueueSystem.polling.Answer}
    (step : host.Step hosting KqueueSystem.polling action host')
    (same : host'.servers = host.servers) (kept : host'.destroyed = host.destroyed) :
    ∀ k ∈ host'.servers, k ∉ host'.destroyed → hosting.fdOf hosting.wakeup ≠ hosting.fdOf k ∧
      (∀ c, host'.world.Live c → hosting.fdOf c ≠ hosting.fdOf k) ∧
      ∀ j ∈ host'.servers, j ∉ host'.destroyed → hosting.fdOf j = hosting.fdOf k → j = k := by
  rw [same, kept]
  intro k server there
  obtain ⟨wakeup, live, distinct⟩ := hosted.sockets k server there
  refine ⟨wakeup, fun c alive => ?_, distinct⟩
  rcases step.live alive with old | ⟨_, new⟩
  · exact live c old
  · exact Ne.symm (new.2.2.2.2.1 k server there)

/-- Two open sockets have different descriptors. -/
theorem Hosted.distinct (hosted : host.Hosted hosting) {id other : ChannelId}
    (first : host.Exists hosting id) (second : host.Exists hosting other)
    (same : hosting.fdOf id = hosting.fdOf other) : id = other := by
  have wakeup : ∀ c, host.world.Live c → hosting.fdOf hosting.wakeup ≠ hosting.fdOf c :=
    fun c live => hosted.lasting.watched.auxApart c live _ List.mem_cons_self
  rcases first with rfl | ⟨server, there⟩ | live <;>
    rcases second with rfl | ⟨server', there'⟩ | live'
  · rfl
  · exact absurd same (hosted.sockets other server' there').1
  · exact absurd same (wakeup other live')
  · exact absurd same.symm (hosted.sockets id server there).1
  · exact (hosted.sockets other server' there').2.2 id server there same
  · exact absurd same.symm ((hosted.sockets id server there).2.1 other live')
  · exact absurd same.symm (wakeup id live)
  · exact absurd same ((hosted.sockets other server' there').2.1 id live)
  · exact hosted.lasting.watched.apart id other live live' same

theorem Hosted.run (hosted : host.Hosted hosting)
    {action : SharedAction KqueueSystem.polling.Answer} {s : Sharing KqueueSystem}
    (permitted : host.Permits hosting action)
    (taken : host.sharing.Step (host.settings hosting) KqueueSystem.polling action s) :
    Hosted hosting { host with sharing := s } := by
  have step : host.Step hosting KqueueSystem.polling (.run action) { host with sharing := s } :=
    .run permitted taken
  have serves : ∀ own, action = .run own → own.serves = true := by
    rintro own rfl
    refine serves_of_permits rfl (fun c => ?_) taken
    rintro rfl
    exact permitted
  exact ⟨hosted.retained.step step, hosted.lasting.step serves taken,
    taken.entered hosted.retained.claimed hosted.entered,
    fun fd id => hosted.lasting.present_step hosted.present taken, hosted.listens,
    hosted.sockets_step step rfl rfl,
    fun c member => (step.table c member).elim (hosted.owners c) id, hosted.idle, hosted.single⟩

theorem Hosted.construct (hosted : host.Hosted hosting) {k : ServerId}
    (new : host.New hosting k) :
    Hosted hosting { host with servers := host.servers ++ [k] } := by
  have step : host.Step hosting KqueueSystem.polling (.construct k)
      { host with servers := host.servers ++ [k] } := .construct new
  refine ⟨hosted.retained.step step, hosted.lasting, hosted.entered, hosted.present, hosted.listens,
    fun other server there => ?_, hosted.owners, fun entry member => ?_, hosted.single⟩
  · obtain ⟨_, _, _, wakeup, servers, conns⟩ := new
    rcases List.mem_append.mp server with old | own
    · obtain ⟨apart, live, distinct⟩ := hosted.sockets other old there
      refine ⟨apart, live, fun j joined kept same => ?_⟩
      rcases List.mem_append.mp joined with before | last
      · exact distinct j before kept same
      · rw [List.mem_singleton.mp last] at same
        exact absurd same.symm (servers other old there)
    · rw [List.mem_singleton.mp own]
      refine ⟨wakeup, fun c live => conns c live.1 live.2, fun j joined kept same => ?_⟩
      rcases List.mem_append.mp joined with before | last
      · exact absurd same (servers j before kept)
      · exact List.mem_singleton.mp last
  · obtain ⟨server, there, silent⟩ := hosted.idle entry member
    exact ⟨List.mem_append_left _ server, there, silent⟩

theorem Hosted.listen (hosted : host.Hosted hosting) {k : ServerId} {s : Sharing KqueueSystem}
    (serves : host.Serves k) (first : k ∉ host.listenning)
    (taken : host.sharing.Step ((host.listened k).settings hosting) KqueueSystem.polling
      (.run (.loop (.loopCall (.watch k)))) s)
    (ran : KqueueSystem.polling.operate host.world.heap host.world.poller k (.update .enRead) =
      .ok (s.world.heap, s.world.poller)) :
    Hosted hosting { host.listened k with sharing := s } := by
  have step : host.Step hosting KqueueSystem.polling (.listen k)
      { host.listened k with sharing := s } := .listen serves first taken ran
  obtain ⟨server, there, used⟩ := serves
  have more : ∀ id ∈ (host.settings hosting).aux, id ∈ ((host.listened k).settings hosting).aux := by
    intro id aux
    simp only [settings, listened, List.mem_cons, List.mem_filter, List.mem_append] at aux ⊢
    tauto
  have lasting : host.sharing.Lasting ((host.listened k).settings hosting) := by
    refine hosted.lasting.grow rfl more fun id aux => ?_
    simp only [settings, listened, List.mem_cons, List.mem_filter, List.mem_append] at aux ⊢
    by_cases own : id = k
    · subst own
      exact Or.inr ⟨(hosted.retained.apart id server).2, fun c live =>
        Ne.symm ((hosted.sockets id server there).2.1 c live)⟩
    · exact Or.inl (by tauto)
  refine ⟨hosted.retained.step step, lasting.step (fun own same => by cases same; rfl) taken,
    taken.entered hosted.retained.claimed hosted.entered,
    fun fd id => lasting.present_step (fun fd id found =>
      (hosted.present fd id found).imp_left (more id)) taken,
    fun other listens => ?_, hosted.sockets_step step rfl rfl, fun c member => ?_,
    fun entry member => ?_, hosted.single⟩
  · rcases List.mem_append.mp listens with old | own
    · exact hosted.listens other old
    · rw [List.mem_singleton.mp own]
      exact there
  · exact List.mem_append_left _ ((step.table c member).elim (hosted.owners c) id)
  · obtain ⟨server, there, silent⟩ := hosted.idle entry member
    refine ⟨server, there, fun listens => ?_⟩
    rcases List.mem_append.mp listens with old | own
    · exact silent old
    · exact used (List.mem_map.mpr ⟨entry, member, List.mem_singleton.mp own⟩)

theorem Hosted.destroyServer (hosted : host.Hosted hosting) {k : ServerId}
    (serves : host.Serves k) (silent : k ∉ host.listenning) :
    Hosted hosting { host with destroying := (k, host.world.stack.length) :: host.destroying } := by
  have step : host.Step hosting KqueueSystem.polling (.destroyServer k)
      { host with destroying := (k, host.world.stack.length) :: host.destroying } :=
    .destroyServer serves
  obtain ⟨server, there, used⟩ := serves
  refine ⟨hosted.retained.step step, hosted.lasting, hosted.entered, hosted.present, hosted.listens,
    hosted.sockets, hosted.owners, fun entry member => ?_, List.nodup_cons.mpr ⟨used, hosted.single⟩⟩
  rcases List.mem_cons.mp member with rfl | old
  · exact ⟨server, there, silent⟩
  · exact hosted.idle entry old

theorem Hosted.destroyAcceptor (hosted : host.Hosted hosting) {k : ServerId} {size : Nat}
    {rest : List (ServerId × Nat)} (running : host.destroying = (k, size) :: rest) :
    (host.acceptorDestroyed hosting KqueueSystem.polling k rest).Hosted hosting := by
  have step : host.Step hosting KqueueSystem.polling .destroyAcceptor
      (host.acceptorDestroyed hosting KqueueSystem.polling k rest) := .destroyAcceptor running
  obtain ⟨server, there, silent⟩ := hosted.idle (k, size) (by simp [running])
  obtain ⟨wakeup, live, distinct⟩ := hosted.sockets k server there
  have gone : ∀ id, id ∈ host.destroyed ++ [k] ↔ id ∈ host.destroyed ∨ id = k := fun id => by simp
  have settings : (host.acceptorDestroyed hosting KqueueSystem.polling k rest).settings hosting =
      host.settings hosting := by
    simp only [Host.settings, acceptorDestroyed]
    congr 2
    refine List.filter_congr fun id listens => ?_
    have other : id ≠ k := fun same => silent (same ▸ listens)
    simp [other]
  have free : host.world.Free (host.settings hosting) (hosting.fdOf k) := by
    refine ⟨fun id aux same => ?_, fun c alive => live c alive⟩
    rcases List.mem_cons.mp aux with rfl | listens
    · exact wakeup same
    · have listens := (List.mem_filter.mp listens).1
      have own := distinct id (hosted.retained.listed id listens) (hosted.listens id listens) same
      exact silent (own ▸ listens)
  have single := hosted.single
  rw [running, List.map_cons, List.nodup_cons] at single
  refine ⟨hosted.retained.step step, ?_, hosted.entered, ?_, fun other listens => ?_,
    fun other server' there' => ?_, hosted.owners, fun entry member => ?_, single.2⟩
  · rw [settings]
    exact hosted.lasting.closed free
  · rw [settings]
    exact hosted.present
  · intro member
    rcases (gone other).mp member with old | rfl
    · exact hosted.listens other listens old
    · exact silent listens
  · have before : other ∉ host.destroyed := fun old => there' (List.mem_append_left _ old)
    obtain ⟨apart, alive, own⟩ := hosted.sockets other server' before
    exact ⟨apart, alive, fun j joined kept same =>
      own j joined (fun old => kept (List.mem_append_left _ old)) same⟩
  · have member : entry ∈ rest := member
    obtain ⟨server', there', silent'⟩ := hosted.idle entry (by simp [running, member])
    refine ⟨server', fun member' => ?_, silent'⟩
    rcases (gone entry.1).mp member' with old | own
    · exact there' old
    · exact single.1 (own ▸ List.mem_map.mpr ⟨entry, member, rfl⟩)

theorem Hosted.step (hosted : host.Hosted hosting)
    {action : HostAction KqueueSystem.polling.Answer} (unstarted : host.Unstarted action)
    (step : host.Step hosting KqueueSystem.polling action host') : host'.Hosted hosting := by
  cases step with
  | run permitted taken => exact hosted.run permitted taken
  | construct new => exact hosted.construct new
  | listen serves first taken ran => exact hosted.listen serves first taken ran
  | destroyServer serves => exact hosted.destroyServer serves unstarted
  | destroyConnection running _ present =>
    -- the connection was accepted by a server that has listened
    obtain ⟨entry, member, same⟩ := List.mem_map.mp running
    obtain ⟨_, _, silent⟩ := hosted.idle entry member
    rw [same] at silent
    exact absurd (hosted.owners _ present) silent
  | destroyAcceptor running => exact hosted.destroyAcceptor running

end Host

end Muduo.Source
