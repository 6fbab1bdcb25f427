import Muduo.Source.ReactorDelivery
import Muduo.Source.ReactorPollers

/-!
# Every accepted message is delivered once

Whatever `send` accepts is cut into what has been handed to the kernel or to
`output_buffer_` and what one functor or one running `sendInLoop` still carries. Nothing
is handed over twice, and only a connection that went down loses a message.
-/
namespace Muduo.Guarantees
open Muduo.Support Muduo.Source Muduo.Source.World

variable {σ : Type} {w : World σ} {c : ConnId} {id : SendId} {message : Message}

/-- The places that carry a part of the message. -/
def carriers (w : World σ) (c : ConnId) (id : SendId) : List Carried :=
  w.carried.filter fun p => p.conn = c ∧ p.id = id

/-- Where the bytes of an accepted message are: on their way, handed over, or, in part at
least, gone with the connection. -/
inductive Account (w : World σ) (c : ConnId) (id : SendId) (message : Message) : Prop
  | underway {rest : Message} : carriers w c id = [⟨c, id, rest⟩] →
      handedOver w.trace (c, id) ++ rest.bytes = message.bytes → Account w c id message
  | whole : carriers w c id = [] → handedOver w.trace (c, id) = message.bytes →
      Account w c id message
  | lost : carriers w c id = [] → handedOver w.trace (c, id) ≠ message.bytes → .down c ∈ w.trace →
      Account w c id message

theorem carriers_single (delivering : w.Delivering) (c : ConnId) (id : SendId) :
    carriers w c id = [] ∨ ∃ rest, carriers w c id = [⟨c, id, rest⟩] := by
  have single := delivering.ledger.single
  rw [List.map_map] at single
  have keys : ((carriers w c id).map fun p => (p.conn, p.id)).Nodup :=
    single.sublist (List.filter_sublist.map _)
  have own : ∀ p ∈ carriers w c id, p.conn = c ∧ p.id = id := fun p member =>
    of_decide_eq_true (List.mem_filter.mp member).2
  rcases shape : carriers w c id with _ | ⟨p, _ | ⟨q, rest⟩⟩
  · exact Or.inl rfl
  · obtain ⟨rfl, rfl⟩ := own p (by simp [shape])
    exact Or.inr ⟨p.message, rfl⟩
  · obtain ⟨rfl, rfl⟩ := own p (by simp [shape])
    obtain ⟨conn, number⟩ := own q (by simp [shape])
    simp [shape, conn, number] at keys

theorem account_of_delivering (delivering : w.Delivering)
    (accepted : .accepted c id message ∈ w.trace) : Account w c id message := by
  have ledger : Balanced .. := delivering.ledger
  have due : w.Due (c, id) message.bytes := ⟨message, accepted, rfl⟩
  rcases carriers_single delivering c id with none | ⟨rest, one⟩
  · have settled := ledger.settled (c, id) _ due fun listed => by
      obtain ⟨_, listed, same⟩ := List.mem_map.mp listed
      obtain ⟨p, member, rfl⟩ := List.mem_map.mp listed
      have found : p ∈ carriers w c id :=
        List.mem_filter.mpr ⟨member, decide_eq_true (Prod.mk.inj same)⟩
      rw [none] at found
      cases found
    by_cases whole : handedOver w.trace (c, id) = message.bytes
    · exact .whole none whole
    · exact .lost none whole (settled.resolve_left whole)
  · have member : ⟨c, id, rest⟩ ∈ w.carried :=
      List.mem_of_mem_filter (one ▸ List.mem_singleton.mpr rfl)
    exact .underway one (ledger.owed (c, id) rest.bytes (List.mem_map.mpr ⟨_, member, rfl⟩) _ due)

/-- For any other connections, threads, calls, callbacks and answers of the kernel. -/
theorem sends_accounted (kind : PollerKind) (settings : Settings)
    (actions : List (Action kind.polling.Answer)) (w : World kind.State)
    (run : Run (Graph (World.step settings kind.polling)) (start settings kind.new) actions w)
    (c : ConnId) :
    (∀ id message, .accepted c id message ∈ w.trace → Account w c id message) ∧
      (.down c ∉ w.trace →
        Support.Carries (pieces w.trace c)
          (acceptedBytes w.trace c ++ (w.conns c).outputBuffer.value) ∧
        ((w.heap c).isWriting = true ↔ (w.conns c).outputBuffer.value ≠ [])) := by
  have delivering : w.Delivering :=
    run.invariant (start_delivering settings kind.new) fun _ _ _ delivering taken =>
      delivering.step kind.lawful (step_ok taken)
  refine ⟨fun id message accepted => account_of_delivering delivering accepted, fun up => ?_⟩
  obtain ⟨outgoing, carries⟩ := delivering.streaming c up
  exact ⟨carries, outgoing.interest⟩

/-- The kernel takes one byte of the two that the loop thread sends. -/
def partlyTaken : List (Action KqueueSystem.polling.Answer) :=
  PollerKind.opening none 5 ++
    [.loop (.call (.send 5 ⟨[97, 98], Message.two_bytes_le⟩)), .loop .none, .loop .none,
      .loop (.write (.accepted 1))]

theorem sends_accounted_partly_taken :
    ∃ w, Run (Graph (World.step PollerKind.exampleSettings KqueueSystem.polling))
        (start PollerKind.exampleSettings .new) partlyTaken w ∧
      handedOver w.trace (5, 0) = [97] ∧
      Account w 5 0 ⟨[97, 98], Message.two_bytes_le⟩ := by
  have ends : endsIn (fun _ _ => True)
      (World.step PollerKind.exampleSettings KqueueSystem.polling) Fault.notEnabled
      (start PollerKind.exampleSettings .new) partlyTaken
      (fun w => decide (.accepted 5 0 ⟨[97, 98], Message.two_bytes_le⟩ ∈ w.trace ∧
        handedOver w.trace (5, 0) = [97])) = true := by
    decide +kernel
  obtain ⟨w, run, test⟩ := run_of_endsIn _ _ ends
  obtain ⟨accepted, handed⟩ := of_decide_eq_true test
  exact ⟨w, run.unguarded, handed,
    (sends_accounted .kqueue _ _ w run.unguarded 5).1 0 _ accepted⟩

end Muduo.Guarantees
