import Muduo.Source.ReactorStreams

/-!
# The echo server (test/main.cc)

The callbacks that `testServer` sets, on one of the loops of its server: the connection
callback logs, and the message callback sends back what it finds in the buffer. The main
thread stays in `loop`, so that the server is not destroyed. Functors of the user and
callbacks of other components queue functors, accept connections and watch channels.
-/
namespace Muduo.Source
open Muduo.Support

/-- What is left of a callback that runs. -/
inductive Callback where
  | done
  /-- before `buffer->retrieveAllAsString()` -/
  | onMessage (c : ConnId)
  /-- before `ptr->send(tmp)` -/
  | reply (c : ConnId) (tmp : Message)
  | component
  deriving DecidableEq, Repr

/-- The callback that a frame of the library calls. -/
def Frame.callback : Frame → Callback
  | .handleRead c => .onMessage c
  | .handleEvent .. => .component
  | _ => .done

/-- The bytes that a `readv` stores. -/
def ReadvAnswer.stored : ReadvAnswer → Bytes
  | .bytes data => data
  | .error _ => []

structure TestServer (σ : Type) where
  world : World σ
  /-- what is left of the callbacks that run, innermost first -/
  callbacks : List Callback
  /-- what `readv` has stored for each connection -/
  received : ConnId → Bytes

namespace TestServer

variable {σ : Type}

def start (settings : Settings) (poller : σ) : TestServer σ where
  world := .start settings poller
  callbacks := []
  received _ := []

/-- What is left of a callback after its next statement, if that is the given one. -/
def next (w : World σ) : Callback → Input → Option (List Callback)
  | .done, .return => some []
  | .onMessage c, .loopCall (.input c' .retrieveAllAsString) =>
    if c' = c then
      match Buffer.retrieveAllAsString.run (w.conns c).inputBuffer with
      | .ok tmp _ =>
        if size_le : tmp.length ≤ kMaxSize then some [.reply c ⟨tmp, size_le⟩] else none
      | .error .. => none
    else none
  | .reply c tmp, .call (.send c' message) =>
    if c' = c ∧ message = tmp then some [.done] else none
  | .component, .return => some []
  | .component, .call .queueInLoop | .component, .loopCall (.newConnection _)
  | .component, .loopCall (.watch _) => some [.component]
  | _, _ => none

/-- The callback that a step of the library calls; a functor of the user is a component's. -/
def called (w w' : World σ) : List Callback :=
  if w.stack.count .user < w'.stack.count .user then
    [((w.stack.head?).map Frame.callback).getD .component]
  else []

/-- What a step reads from the connection's socket. -/
def stored (w : World σ) (input : Input) (c : ConnId) : Bytes :=
  match input with
  | .readv answer => if w.stack.head? = some (.handleRead c) then answer.stored else []
  | _ => []

/-- A step of the world, and the server after it. -/
def follow (settings : Settings) (impl : Polling σ) (s : TestServer σ) (action : Action impl.Answer)
    (after : World σ → TestServer σ) : Except Fault (TestServer σ) :=
  match s.world.step settings impl action with
  | .ok w => .ok (after w)
  | .error e => .error e

def step (settings : Settings) (impl : Polling σ) (s : TestServer σ) :
    Action impl.Answer → Except Fault (TestServer σ)
  | .loop input =>
    if s.world.stack.head? = some .user then
      match s.callbacks with
      | [] => .error .notEnabled
      | callback :: rest =>
        match next s.world callback input with
        | none => .error .notEnabled
        | some left =>
          s.follow settings impl (.loop input) fun w =>
            { s with world := w, callbacks := left ++ rest }
    else
      s.follow settings impl (.loop input) fun w =>
        { world := w
          callbacks := called s.world w ++ s.callbacks
          received := fun c => s.received c ++ stored s.world input c }
  | .destroy _ | .destroyElsewhere _ => .error .notEnabled
  | .call call =>
    if call = .queueInLoop then s.follow settings impl (.call call) fun w => { s with world := w }
    else .error .notEnabled
  | action => s.follow settings impl action fun w => { s with world := w }

variable {settings : Settings} {impl : Polling σ} {s s' : TestServer σ}

/-- The outcomes of an action. -/
inductive Step (settings : Settings) (impl : Polling σ) (s : TestServer σ) :
    Action impl.Answer → TestServer σ → Prop
  | callback {input : Input} {callback : Callback} {rest left : List Callback} {w : World σ} :
      s.world.stack.head? = some .user → s.callbacks = callback :: rest →
      next s.world callback input = some left →
      s.world.step settings impl (.loop input) = .ok w →
      Step settings impl s (.loop input) { s with world := w, callbacks := left ++ rest }
  | library {input : Input} {w : World σ} : s.world.stack.head? ≠ some .user →
      s.world.step settings impl (.loop input) = .ok w →
      Step settings impl s (.loop input)
        { world := w
          callbacks := called s.world w ++ s.callbacks
          received := fun c => s.received c ++ stored s.world input c }
  | outside {action : Action impl.Answer} {w : World σ} : (∀ input, action ≠ .loop input) →
      World.Plain action → (∀ c, action ≠ .destroy c) →
      s.world.step settings impl action = .ok w → Step settings impl s action { s with world := w }

theorem follow_ok {action : Action impl.Answer} {after : World σ → TestServer σ} :
    s.follow settings impl action after = .ok s' ↔
      ∃ w, s.world.step settings impl action = .ok w ∧ after w = s' := by
  unfold follow
  split <;> simp [*]

theorem step_ok {action : Action impl.Answer} (ran : s.step settings impl action = .ok s') :
    Step settings impl s action s' := by
  cases action with
  | loop input =>
    simp only [step] at ran
    split at ran
    · next user =>
      split at ran
      · cases ran
      · next callback rest callbacks =>
        split at ran
        · cases ran
        · next left goes =>
          obtain ⟨w, stepped, rfl⟩ := follow_ok.mp ran
          exact .callback user callbacks goes stepped
    · next library =>
      obtain ⟨w, stepped, rfl⟩ := follow_ok.mp ran
      exact .library library stepped
  | call call =>
    simp only [step] at ran
    split at ran
    · next posts =>
      subst posts
      obtain ⟨w, stepped, rfl⟩ := follow_ok.mp ran
      exact .outside (by simp) rfl (by simp) stepped
    · cases ran
  | destroy | destroyElsewhere => cases ran
  | _ =>
    simp only [step] at ran
    obtain ⟨w, stepped, rfl⟩ := follow_ok.mp ran
    exact .outside (by simp) trivial (by simp) stepped

end TestServer

end Muduo.Source
