import Std.Data.String.ToInt
import Muduo.Source.TcpServerExecution

/-!
# The names of connections

`newConnection` counts `next_conn_id_` up and appends it to the name of the server. So the
next name is one that no connection has.
-/
namespace Muduo.Source
open Muduo.Support

/-- Different numbers make different names. -/
theorem name_injective (name : String) : Function.Injective fun id : Int => name ++ toString id := by
  intro i j same
  exact Int.repr_injective ((String.append_right_inj name).mp same)

namespace TcpServer

variable {σ : Type} {server server' : TcpServer σ} {new conn : ServerConn}

/-- The accepted connections have names with the numbers counted so far. -/
structure Named (server : TcpServer σ) : Prop where
  counter : server.nextConnId = server.accepted.length + 1
  named : ∀ conn ∈ server.accepted, ∃ id ≤ server.nextConnId,
    server.connName conn = server.name ++ toString id

/-- No connection has got the next number. -/
theorem Named.unused (named : Named server) (born : conn ∈ server.accepted) :
    server.connName conn ≠ server.name ++ toString (server.nextConnId + 1) := by
  intro same
  obtain ⟨id, earlier, name⟩ := named.named conn born
  have equal : id = server.nextConnId + 1 := name_injective server.name (name.symm.trans same)
  omega

theorem Named.newConnection (named : Named server) (unknown : new ∉ server.accepted)
    (entered : server.newConnection new = .ok server') : Named server' := by
  obtain ⟨_, rfl⟩ := newConnection_ok.mp entered
  refine ⟨by simp [named.counter], fun conn member => ?_⟩
  rcases List.mem_append.mp member with old | own
  · have other : conn ≠ new := fun same => unknown (same ▸ old)
    obtain ⟨id, earlier, name⟩ := named.named conn old
    exact ⟨id, by simp; omega, by simpa [Function.update_of_ne other] using name⟩
  · rw [List.mem_singleton.mp own]
    exact ⟨server.nextConnId + 1, le_refl _, Function.update_self ..⟩

end TcpServer

end Muduo.Source
