import Muduo.Source.Acceptor

/-!
# What a step of the acceptor's loop can do

An answer of `::accept` and an entry in `connections_` are the only steps that touch the
sockets or the server. No other component operates the accept channel, and the acceptor
only enables it.
-/
namespace Muduo.Source.AcceptLoop
open Muduo.Support

variable {σ : Type} {listening : Listening} {impl : Polling σ} {s s' : AcceptLoop σ}

/-- `accept_channel_` is interested in reading once `listen` has been called. -/
def Interested (listening : Listening) (s : AcceptLoop σ) : Prop :=
  s.listenning = true → (s.heap listening.acceptChannel).isReading = true

/-- `::accept` finds a connection to give and a number to give it. -/
def AcceptSucceeds (listening : Listening) (s : AcceptLoop σ) : Prop :=
  s.Waiting ∧ s.openCount < listening.limit

instance (listening : Listening) (s : AcceptLoop σ) : Decidable (s.AcceptSucceeds listening) := by
  unfold AcceptSucceeds; infer_instance

/-- Sockets in `conn_sock`, not yet in a connection. -/
def inHand (s : AcceptLoop σ) : Nat :=
  match s.phase with
  | .newConnection _ _ => 1
  | .functors | .dispatching _ | .handleRead _ | .aborted => 0

/-- The steps, by what they do to the sockets and to the server. -/
inductive Moves {answer : Type} (listening : Listening) (s : AcceptLoop σ) :
    AcceptAction answer → AcceptLoop σ → Prop
  | keeps {action : AcceptAction answer} {s' : AcceptLoop σ} :
      (∀ given, action ≠ .accept given) → (∀ conn, action ≠ .newConnection conn) →
      s'.sockets = s.sockets → s'.server = s.server → s'.inHand = s.inHand →
      (s'.phase = .aborted ↔ s.phase = .aborted) →
      (s.Interested listening → s'.Interested listening) → Moves listening s action s'
  | accepted {fd : Int} {active : List ChannelId} : s.phase = .handleRead active →
      s.AcceptSucceeds listening → Moves listening s (.accept (.socket fd))
        { s with queue := s.queue.tail
                 sockets := s.sockets ++ [⟨fd⟩]
                 phase := .newConnection ⟨fd⟩ active }
  | refused {errno : AcceptErrno} {active : List ChannelId} : s.phase = .handleRead active →
      ¬ s.AcceptSucceeds listening →
      Moves listening s (.accept (.error errno)) { s with phase := .aborted }
  | entered {conn : ServerConn} {sock : Socket} {active : List ChannelId} {server : TcpServer σ} :
      s.phase = .newConnection sock active → conn ∉ s.server.accepted →
      s.server.newConnection conn = .ok server → Moves listening s (.newConnection conn)
        { s with server := server, phase := .dispatching active }

/-- Errors are answered exactly where no connection can be given. -/
theorem Answers.error {errno : AcceptErrno} (answered : s.Answers listening (.error errno)) :
    ¬ s.AcceptSucceeds listening := by
  rintro ⟨waiting, room⟩
  cases errno with
  | eagain =>
    have none : s.queue = [] := answered
    simp [Waiting, none] at waiting
  | econnaborted =>
    have gone : s.queue.head?.map Pending.aborted = some true := answered
    simp [Waiting, gone] at waiting
  | emfile => exact absurd room (not_lt.mpr answered)

section Interest

variable {mentions : σ → ChannelId → Prop} {heap : ChannelHeap} {poller : σ}

/-- An operation of another channel leaves the interest of the accept channel. -/
theorem reading_operate (lawful : impl.Lawful mentions) {id : ChannelId} {op : ChannelOp}
    (other : id ≠ listening.acceptChannel)
    (ran : impl.operate s.heap s.poller id op = .ok (heap, poller)) :
    (heap listening.acceptChannel).isReading = (s.heap listening.acceptChannel).isReading := by
  have apart : (op.apply s.heap id listening.acceptChannel).events =
      (s.heap listening.acceptChannel).events := by
    cases op with
    | update opt => exact congrArg Channel.events (ChannelHeap.change_other _ _ _ other.symm opt)
    | remove => exact ChannelHeap.events_leave ..
  rw [Channel.isReading, Channel.isReading, lawful.operate_events ran, apart]

theorem reading_listen (lawful : impl.Lawful mentions)
    (ran : impl.operate s.heap s.poller listening.acceptChannel (.update .enRead) =
      .ok (heap, poller)) : (heap listening.acceptChannel).isReading = true := by
  have enabled : (heap listening.acceptChannel).events =
      Channel.newEvents (s.heap listening.acceptChannel).events .enRead :=
    (lawful.operate_events ran _).trans (ChannelHeap.events_change_same ..)
  rw [Channel.isReading, enabled, Channel.newEvents_and_read]
  rfl

theorem reading_poll (lawful : impl.Lawful mentions) {answer : impl.Answer}
    {active : List ChannelId} (ran : impl.poll s.heap s.poller answer = .ok (heap, poller, active)) :
    (heap listening.acceptChannel).isReading = (s.heap listening.acceptChannel).isReading := by
  rw [Channel.isReading, Channel.isReading, lawful.poll_events ran]

end Interest

theorem step_ok {mentions : σ → ChannelId → Prop} (lawful : impl.Lawful mentions)
    {action : AcceptAction impl.Answer} (ran : s.step listening impl action = .ok s') :
    Moves listening s action s' := by
  cases action with
  | connect client | reset slot keepsPlace | openOther fd | closeOther fd =>
    simp only [step] at ran
    split at ran <;> cases ran
    exact .keeps (by simp) (by simp) rfl rfl rfl Iff.rfl id
  | operate id op =>
    simp only [step] at ran
    split at ran
    · next allowed =>
      split at ran
      · next operated =>
        cases ran
        refine .keeps (by simp) (by simp) rfl rfl rfl Iff.rfl fun interested on => ?_
        exact (reading_operate lawful allowed.2 operated).trans (interested on)
      · cases ran
    · cases ran
  | listen =>
    simp only [step] at ran
    split at ran
    · split at ran
      · next operated =>
        cases ran
        exact .keeps (by simp) (by simp) rfl rfl rfl Iff.rfl fun _ _ => reading_listen lawful operated
      · cases ran
    · cases ran
  | poll answer =>
    simp only [step] at ran
    split at ran
    · next allowed =>
      split at ran
      · next polled =>
        split at ran <;> cases ran
        refine .keeps (by simp) (by simp) rfl rfl ?_ ?_ fun interested on => ?_
        · simp [inHand, allowed.1]
        · simp [allowed.1]
        · exact (reading_poll lawful polled).trans (interested on)
      · cases ran
    · cases ran
  | dispatch =>
    simp only [step] at ran
    split at ran
    · next phase =>
      cases ran
      exact .keeps (by simp) (by simp) rfl rfl (by simp [inHand, phase]) (by simp [phase]) id
    · next phase =>
      split at ran <;> cases ran
      · exact .keeps (by simp) (by simp) rfl rfl (by simp [inHand, phase]) (by simp [phase]) id
      · exact .keeps (by simp) (by simp) rfl rfl (by simp [inHand, phase]) (by simp [phase]) id
    · cases ran
  | accept answer =>
    simp only [step] at ran
    split at ran
    · next active phase =>
      split at ran <;> cases ran
      next answered =>
      cases answer with
      | socket fd => exact .accepted phase ⟨answered.1, answered.2.1⟩
      | error errno => exact .refused phase answered.error
    · cases ran
  | newConnection conn =>
    simp only [step] at ran
    split at ran
    · next sock active phase =>
      split at ran
      · cases ran
      · next unknown =>
        split at ran <;> cases ran
        next server entered =>
        exact .entered phase unknown entered
    · cases ran

end Muduo.Source.AcceptLoop
