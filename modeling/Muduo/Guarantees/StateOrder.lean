import Muduo.Source.ReactorPollers
import Muduo.Source.ReactorRuns

/-!
# The order of the connection states

Every function stores a later state than the one it has tested, except that the
store of `forceClose` may come after the loop thread has closed the connection:
its test and its store are two accesses of `state_`. Runs without such a late
store never move a connection back, and every late store does.
-/
namespace Muduo.Guarantees
open Muduo.Support Muduo.Source Muduo.Source.World

/-- `kConnecting < kConnected < kDisconnecting < kDisconnected`. -/
def rank : StateE → Nat
  | .kConnecting => 0
  | .kConnected => 1
  | .kDisconnecting => 2
  | .kDisconnected => 3

variable {σ : Type} {settings : Settings} {impl : Polling σ} {w w' : World σ}

/-- No connection moves back. -/
def Forward (w w' : World σ) : Prop := ∀ c, rank (w.state c) ≤ rank (w'.state c)

theorem Forward.trans {w'' : World σ} (first : Forward w w') (second : Forward w' w'') :
    Forward w w'' := fun c => le_trans (first c) (second c)

theorem forward_of_stores {frame : Frame} {c : ConnId} {s : StateE} (known : w.Knows false frame)
    (stores : w.Stores frame c s) (onTime : frame = .forceCloseStore c → w.state c ≠ .kDisconnected) :
    rank (w.state c) ≤ rank s := by
  cases stores with
  | shutdown open_ => rw [open_]; decide
  | forceClose => cases h : w.state c <;> simp_all [rank]
  | connectEstablished => rw [show w.state c = .kConnecting from known]; decide
  | handleClose | connectDestroyed => cases w.state c <;> decide

/-- A step moves no connection back exactly when it is no late store. -/
theorem step_forward (orderly : w.Orderly) {action : Action impl.Answer}
    (step : Step settings impl w action w') : Forward w w' ↔ NoLateStore w action := by
  rw [noLateStore_iff]
  constructor
  · intro forward c runs closed
    rcases step.state with ⟨_, silent⟩ | ⟨frame, c', s, runs', stores, changed⟩
    · exact silent _ runs c _ .forceClose
    · rw [runs, Option.some.injEq] at runs'
      subst runs'
      cases stores
      have back := forward c
      rw [changed, if_pos rfl, closed] at back
      exact absurd back (by decide)
  · intro onTime c
    rcases step.state with ⟨same, _⟩ | ⟨frame, c', s, runs, stores, changed⟩
    · rw [same]
    · rw [changed]
      split
      · next own =>
        subst own
        exact forward_of_stores (orderly.running_knows runs) stores
          fun late => onTime c (late ▸ runs)
      · exact le_rfl

/-- For any threads, connections and poller: along a run without late stores the
states only move forward, and `kDisconnected` is final. The next step moves a
connection back exactly when it is a late store. -/
theorem state_order_exact (settings : Settings) (impl : Polling σ) (poller : σ)
    (actions : List (Action impl.Answer)) (w : World σ)
    (run : Run (Guarded NoLateStore (Graph (step settings impl))) (start settings poller)
      actions w) :
    (∀ later w', Run (Guarded NoLateStore (Graph (step settings impl))) w later w' →
      Forward w w' ∧ ∀ c, w.state c = .kDisconnected → w'.state c = .kDisconnected) ∧
    ∀ action w', w.step settings impl action = .ok w' →
      (Forward w w' ↔ NoLateStore w action) := by
  have orderly : w.Orderly := orderly_of_run run
  refine ⟨fun later w' rest => ?_, fun action w' ran => step_forward orderly (step_ok ran)⟩
  have forward : Forward w w' := by
    induction rest generalizing actions with
    | nil => exact fun c => le_rfl
    | cons taken rest ih =>
      have first := (step_forward orderly (step_ok taken.2)).mpr taken.1
      exact first.trans (ih _ (run.snoc taken) ((step_ok taken.2).orderly orderly))
  refine ⟨forward, fun c closed => ?_⟩
  have rose := forward c
  rw [closed] at rose
  cases state : w'.state c <;> first | rfl | (rw [state] at rose; exact absurd rose (by decide))

/-- A connection is accepted, and another thread's `forceClose` reads `kConnected`. -/
def closingTwice : List (Action KqueueSystem.polling.Answer) :=
  PollerKind.opening none 5 ++ [.call (.forceClose 5), .other 0]

theorem state_order_exact_accepted :
    ∃ w, Run (Guarded NoLateStore
        (Graph (step PollerKind.exampleSettings KqueueSystem.polling)))
        (start PollerKind.exampleSettings .new) closingTwice w ∧
      ∀ w', w.step PollerKind.exampleSettings KqueueSystem.polling (.other 0) = .ok w' →
        (Forward w w' ↔ NoLateStore w (.other 0 : Action KqueueSystem.polling.Answer)) := by
  have ran : ∃ w, exec (checked NoLateStore Fault.notEnabled
      (step PollerKind.exampleSettings KqueueSystem.polling))
      (start PollerKind.exampleSettings .new) closingTwice = .ok w := ⟨_, rfl⟩
  obtain ⟨w, ran⟩ := ran
  have run := run_of_checked Fault.notEnabled ran
  exact ⟨w, run, (state_order_exact _ _ _ _ w run).2 (.other 0)⟩

/-- Before that call stores `kDisconnecting`, a `forceClose` on the loop thread closes
the connection: its state goes back from `kDisconnected`. -/
theorem late_store_moves_back :
    ∃ w w', Run (Graph (step PollerKind.exampleSettings KqueueSystem.polling))
        (start PollerKind.exampleSettings .new)
        (closingTwice ++ .loop (.call (.forceClose 5)) :: List.replicate 7 (.loop .none)) w ∧
      w.step PollerKind.exampleSettings KqueueSystem.polling (.other 0) = .ok w' ∧
      w.state 5 = .kDisconnected ∧ w'.state 5 = .kDisconnecting ∧ ¬ Forward w w' := by
  refine ⟨_, _, run_of_exec rfl, rfl, rfl, rfl, fun forward => ?_⟩
  have rose := forward 5
  exact absurd rose (by decide)

end Muduo.Guarantees
