import Muduo.Source.ReactorOrder
import Muduo.Source.ReactorPollers

/-!
# Messages arrive in the order of their sends

A `send` that has returned is either done or its functor is queued, so a later `send`
from another thread stands behind it, whatever the two connections are. A `send` on the
loop thread does not wait for the queue: it goes in front of the messages that wait.
-/
namespace Muduo.Guarantees
open Muduo.Support Muduo.Source Muduo.Source.World

variable {σ : Type} {settings : Settings} {impl : Polling σ} {w w' : World σ} {a b : SendId}

/-- The loop thread does not accept `b` while `a` waits. -/
def NotOvertaken {answer : Type} (a b : SendId) (w : World σ) : Action answer → Prop
  | .loop _ => w.accepting = true → w.nextSend = b → a ∉ w.waiting
  | _ => True

instance {answer : Type} (w : World σ) (action : Action answer) :
    Decidable (NotOvertaken a b w action) := by
  delta NotOvertaken
  induction action using Source.Action.casesOn <;> infer_instance

/-- The state after the acceptance of `a`, when its `send` has returned. -/
structure Queued (a b : SendId) (w : World σ) : Prop where
  lined : w.Lined
  accepted : a < w.nextSend
  posted : a ∉ w.posting
  order : Precedes (· = a) (· = b) w.line

theorem Queued.step (queued : Queued a b w) (different : a ≠ b)
    {mentions : σ → ChannelId → Prop} (lawful : impl.Lawful mentions)
    {action : Action impl.Answer} (behind : NotOvertaken a b w action)
    (step : Step settings impl w action w') : Queued a b w' := by
  have other (x : SendId) : ¬ (x = b ∧ x = a) := fun both => different (both.2 ▸ both.1)
  refine ⟨queued.lined.step lawful step, lt_of_lt_of_le queued.accepted step.nextSend_le,
    fun member => ?_, ?_⟩
  · rcases step.posting_origin member with old | rfl
    · exact queued.posted old
    · exact lt_irrefl _ queued.accepted
  have order := queued.order
  cases step.shifts queued.lined.delivering.orderly queued.lined.direct with
  | @hand part left after x before later own =>
    rw [later]
    rw [before] at order
    exact order.replace (precedes_of_same (other x) fun y member => (own y member).1)
      (fun ⟨y, member, same⟩ => Or.inl ⟨y, (own y member).2, same⟩)
      fun ⟨y, member, same⟩ => Or.inl ⟨y, (own y member).2, same⟩
  | accept runs accepting _ later =>
    subst runs
    rw [later]
    have split : w.line = w.trace.filterMap Event.send ++ [] ++ w.waiting := by simp [line]
    rw [split] at order
    refine order.replace (List.pairwise_singleton ..) ?_ ?_
    · rintro ⟨y, member, rfl⟩
      rw [List.mem_singleton] at member
      exact absurd queued.accepted (by simp [member])
    · rintro ⟨y, member, rfl⟩
      rw [List.mem_singleton] at member
      have apart := behind accepting member.symm
      exact Or.inr fun z waits same => apart (same ▸ waits)
  | queue x later own =>
    rw [later]
    refine order.enqueue fun y member same => queued.posted ?_
    exact same ▸ (own y member).2

/-- `b` comes after `a`, the message that was sent on `c`. -/
structure ArrivesAfter (a b : SendId) (c : ConnId) (message : Message) (w : World σ) : Prop where
  /-- nothing of `a` is handed over after a part of `b` -/
  order : w.trace.Pairwise fun e e' => ¬ (e.send = some b ∧ e'.send = some a)
  /-- and nothing of `b` before all of `a`, unless the connection of `a` went down -/
  whole : (∃ e ∈ w.trace, e.send = some b) →
    handedOver w.trace (c, a) = message.bytes ∨ .down c ∈ w.trace
  /-- so in what a connection has sent and still holds, `a` stands in front -/
  stream : ∀ c', .down c' ∉ w.trace → ∃ first second front back, w.trace = first ++ second ∧
    acceptedBytes w.trace c' ++ (w.conns c').outputBuffer.value = front ++ back ∧
    Support.Carries (pieces first c') front ∧ Support.Carries (pieces second c') back ∧
    (∀ e ∈ first, e.send ≠ some b) ∧ ∀ e ∈ second, e.send ≠ some a

theorem Queued.trace (queued : Queued a b w) :
    Precedes (fun e => e.send = some a) (fun e => e.send = some b) w.trace := by
  have handed := (precedes_append.mp queued.order).1
  rw [precedes_filterMap] at handed
  simpa using handed

theorem Queued.arrivesAfter (queued : Queued a b w) (different : a ≠ b) {c : ConnId}
    {message : Message} (accepted : .accepted c a message ∈ w.trace) :
    ArrivesAfter a b c message w where
  order := queued.trace
  whole := by
    rintro ⟨e, member, sends⟩
    have handed : b ∈ w.trace.filterMap Event.send := List.mem_filterMap.mpr ⟨e, member, sends⟩
    have apart := (precedes_append.mp queued.order).2.2 ⟨b, handed, rfl⟩
    have none : a ∉ w.carried.map Carried.id := fun carried =>
      (mem_carried_ids.mp carried).elim (fun waits => apart a waits rfl) queued.posted
    refine queued.lined.delivering.ledger.settled (c, a) _ ⟨message, accepted, rfl⟩ ?_
    rw [List.map_map]
    rintro listed
    obtain ⟨p, carried, same⟩ := List.mem_map.mp listed
    exact none (List.mem_map.mpr ⟨p, carried, congrArg Prod.snd same⟩)
  stream c' up := by
    obtain ⟨first, second, split, none, rest⟩ := queued.trace.split fun e both =>
      different (Option.some.inj (both.2.symm.trans both.1))
    have carries := (queued.lined.delivering.streaming c' up).2
    rw [split, pieces_append, ← split] at carries
    obtain ⟨front, back, stream, whole, others⟩ := carries.split
    exact ⟨first, second, front, back, split, stream, whole, others, none, rest⟩

theorem lined_of_run {mentions : σ → ChannelId → Prop} (lawful : impl.Lawful mentions)
    {poller : σ} {actions : List (Action impl.Answer)}
    (run : Run (Graph (World.step settings impl)) (start settings poller) actions w) : w.Lined :=
  run.invariant (start_lined settings poller) fun _ _ _ lined taken =>
    lined.step lawful (step_ok taken)

/-- A `b` that is not accepted yet is nowhere in the line. -/
theorem queued_of_accepted (lined : w.Lined) {c : ConnId} {message : Message}
    (accepted : .accepted c a message ∈ w.trace) (returned : a ∉ w.posting)
    (later : w.nextSend ≤ b) : Queued a b w where
  lined := lined
  accepted := lined.delivering.numbered.accepted c a message accepted
  posted := returned
  order := precedes_of_absent fun x member same =>
    absurd (lined.numbered x member) (Nat.not_lt.mpr (same ▸ later))

/-- For any other connections, threads, calls, callbacks and answers of the kernel: when the
`send` of `a` has returned before that of `b` begins, `a` arrives first, unless the loop
thread itself sends `b` while `a` waits. -/
theorem send_order (kind : PollerKind) (settings : Settings) {a b : SendId} {c : ConnId}
    {message : Message} {earlier later : List (Action kind.polling.Answer)}
    {w₁ w₂ : World kind.State}
    (before : Run (Graph (World.step settings kind.polling)) (start settings kind.new) earlier w₁)
    (accepted : .accepted c a message ∈ w₁.trace) (returned : a ∉ w₁.posting)
    (next : w₁.nextSend ≤ b)
    (after : Run (Guarded (NotOvertaken a b) (Graph (World.step settings kind.polling))) w₁ later
      w₂) : ArrivesAfter a b c message w₂ := by
  have queued := queued_of_accepted (lined_of_run kind.lawful before) accepted returned next
  have different : a ≠ b := ne_of_lt (lt_of_lt_of_le queued.accepted next)
  have ends : Queued a b w₂ ∧ .accepted c a message ∈ w₂.trace := by
    refine @Run.invariant _ _ _ _ _ _
      (fun w => Queued a b w ∧ .accepted c a message ∈ w.trace) after ⟨queued, accepted⟩ ?_
    rintro s action s' ⟨queued, accepted⟩ taken
    obtain ⟨old, new, events, sends⟩ := (step_ok taken.2).sending
    refine ⟨queued.step different kind.lawful taken.1 (step_ok taken.2), ?_⟩
    exact sends.trace ▸ List.mem_append_left _ accepted
  exact ends.1.arrivesAfter different ends.2

/-- Another thread sends two bytes to a connection of the loop. -/
def sentFromOutside : List (Action KqueueSystem.polling.Answer) :=
  PollerKind.opening none 5 ++ [.call (.send 5 ⟨[97, 98], Message.two_bytes_le⟩), .other 0, .other 0]

/-- It sends two more, and the loop runs the two functors; the kernel takes three bytes. -/
def sentAgain : List (Action KqueueSystem.polling.Answer) :=
  [.call (.send 5 ⟨[99, 100], Message.two_bytes_le⟩), .other 0, .other 0, .loop .return,
    .loop .return, .loop .none, .poll none, .loop .none, .loop .none, .loop .none,
    .loop (.write (.accepted 2)), .loop .none, .loop .none, .loop (.write (.accepted 1)),
    .loop .none]

theorem send_order_from_outside :
    ∃ w₁ w₂, Run (Graph (World.step PollerKind.exampleSettings KqueueSystem.polling))
        (start PollerKind.exampleSettings .new) sentFromOutside w₁ ∧
      Run (Guarded (NotOvertaken 0 1)
        (Graph (World.step PollerKind.exampleSettings KqueueSystem.polling))) w₁ sentAgain w₂ ∧
      (∃ e ∈ w₂.trace, e.send = some 1) ∧
      ArrivesAfter 0 1 5 ⟨[97, 98], Message.two_bytes_le⟩ w₂ := by
  have ends : endsIn (fun _ _ => True)
      (World.step PollerKind.exampleSettings KqueueSystem.polling) Fault.notEnabled
      (start PollerKind.exampleSettings .new) sentFromOutside
      (fun w => decide (.accepted 5 0 ⟨[97, 98], Message.two_bytes_le⟩ ∈ w.trace) &&
        decide (0 ∉ w.posting ∧ w.nextSend ≤ 1) &&
        endsIn (NotOvertaken 0 1) (World.step PollerKind.exampleSettings KqueueSystem.polling)
          Fault.notEnabled w sentAgain (fun w => w.trace.any fun e => e.send == some 1)) = true := by
    decide +kernel
  obtain ⟨w₁, before, test⟩ := run_of_endsIn _ _ ends
  simp only [Bool.and_eq_true, decide_eq_true_eq] at test
  obtain ⟨⟨accepted, returned, next⟩, ends⟩ := test
  obtain ⟨w₂, after, sent⟩ := run_of_endsIn _ _ ends
  exact ⟨w₁, w₂, before.unguarded, after, by simpa using sent,
    send_order .kqueue _ before.unguarded accepted returned next after⟩

end Muduo.Guarantees
