import Muduo.Source.ReactorForcing

/-!
# Write interest and unsent output

`sendInLoop` asks for writability with its append, `handleWrite` stops asking with the
last byte, and `handleClose` drops all interest while output may be left. So the channel
of an open connection watches writability exactly while output waits, as long as no store
of `forceClose` from another thread reopens a closed one.
-/
namespace Muduo.Guarantees
open Muduo.Support Muduo.Source Muduo.Source.World

variable {σ : Type} {settings : Settings} {impl : Polling σ} {w w' : World σ} {c : ConnId}

/-- Other threads do not call `forceClose` of the connection. -/
def ForcedOnLoop {answer : Type} (c : ConnId) (_ : World σ) : Action answer → Prop
  | .call (.forceClose c') => c' ≠ c
  | _ => True

instance {answer : Type} (c : ConnId) (w : World σ) (action : Action answer) :
    Decidable (ForcedOnLoop c w action) := by
  delta ForcedOnLoop
  induction action using Source.Action.casesOn with
  | call call => induction call using Call.casesOn <;> infer_instance
  | _ => infer_instance

theorem ForcedOnLoop.apart {answer : Type} {action : Action answer} (own : ForcedOnLoop c w action) :
    ∀ c', action = .call (.forceClose c') → c' ≠ c := by
  rintro c' rfl
  exact own

/-- What holds while only the loop thread closes the connection by force. -/
structure ForcedHere (c : ConnId) (w : World σ) : Prop where
  delivering : w.Delivering
  unforced : w.Unforced c
  staysDown : w.StaysDown c

theorem start_forcedHere (settings : Settings) (poller : σ) (c : ConnId) :
    ForcedHere c (start settings poller) where
  delivering := start_delivering settings poller
  unforced := by simp [start, Unforced]
  staysDown := by simp [start, StaysDown]

theorem ForcedHere.step (forcedHere : ForcedHere c w) {mentions : σ → ChannelId → Prop}
    (lawful : impl.Lawful mentions) {action : Action impl.Answer}
    (own : ∀ c', action = .call (.forceClose c') → c' ≠ c)
    (step : Step settings impl w action w') : ForcedHere c w' where
  delivering := forcedHere.delivering.step lawful step
  unforced := forcedHere.unforced.step step own
  staysDown := forcedHere.staysDown.step forcedHere.delivering.orderly step
    (forcedHere.unforced.onTime forcedHere.delivering.orderly)

/-- An open connection has not had its down callback. -/
theorem ForcedHere.up (forcedHere : ForcedHere c w) (unclosed : w.state c ≠ .kDisconnected) :
    .down c ∉ w.trace :=
  fun down => unclosed (forcedHere.staysDown down)

/-- Then it watches writability exactly while it has output to send. -/
theorem ForcedHere.interest (forcedHere : ForcedHere c w) (unclosed : w.state c ≠ .kDisconnected) :
    (w.heap c).isWriting = true ↔ 0 < (w.conns c).outputBuffer.readableBytes := by
  have outgoing := (forcedHere.delivering.streaming c (forcedHere.up unclosed)).1
  rw [outgoing.wf.readableBytes_value, List.length_pos_iff]
  exact outgoing.interest

theorem forcedHere_of_run {mentions : σ → ChannelId → Prop} (lawful : impl.Lawful mentions)
    {poller : σ} {actions : List (Action impl.Answer)}
    (run : Run (Guarded (ForcedOnLoop c) (Graph (step settings impl))) (start settings poller)
      actions w) : ForcedHere c w :=
  run.invariant (start_forcedHere settings poller c) fun _ _ _ forcedHere taken =>
    forcedHere.step lawful (ForcedOnLoop.apart taken.1) (step_ok taken.2)

/-- For any other connections, threads, calls, callbacks and answers of the kernel: an open
connection that other threads do not close by force watches writability exactly while it
has output to send. -/
theorem write_interest (kind : PollerKind) (settings : Settings) (c : ConnId)
    (actions : List (Action kind.polling.Answer)) (w : World kind.State)
    (run : Run (Guarded (ForcedOnLoop c) (Graph (step settings kind.polling)))
      (start settings kind.new) actions w)
    (open_ : w.state c = .kConnected ∨ w.state c = .kDisconnecting) :
    (w.heap c).isWriting = true ↔ 0 < (w.conns c).outputBuffer.readableBytes := by
  refine (forcedHere_of_run kind.lawful run).interest ?_
  rcases open_ with state | state <;> simp [state]

/-- The kernel takes one byte of two, then another thread shuts down. -/
def halfSent : List (Action KqueueSystem.polling.Answer) :=
  PollerKind.opening none 5 ++
    [.loop (.call (.send 5 ⟨[97, 98], Message.two_bytes_le⟩)), .loop .none, .loop .none,
      .loop (.write (.accepted 1)), .loop .none, .call (.shutdown 5), .other 0]

theorem write_interest_half_sent :
    ∃ w, Run (Guarded (ForcedOnLoop 5) (Graph (step PollerKind.exampleSettings KqueueSystem.polling)))
        (start PollerKind.exampleSettings .new) halfSent w ∧
      w.state 5 = .kDisconnecting ∧
      ((w.heap 5).isWriting = true ↔ 0 < (w.conns 5).outputBuffer.readableBytes) := by
  have ends : endsIn (ForcedOnLoop 5) (step PollerKind.exampleSettings KqueueSystem.polling)
      Fault.notEnabled (start PollerKind.exampleSettings .new) halfSent
      (fun w => decide (w.state 5 = .kDisconnecting)) = true := by
    decide +kernel
  obtain ⟨w, run, closing⟩ := run_of_endsIn _ _ ends
  have closing := of_decide_eq_true closing
  exact ⟨w, run, closing, write_interest .kqueue _ 5 _ w run (Or.inr closing)⟩

end Muduo.Guarantees
