import Mathlib.Data.Finmap
import Mathlib.Data.Set.Function

/-!
# Tables keyed by a name

A table registers a set of members when it maps the name of each member to this member,
and nothing else to anything. Then no two members have one name. A member that enters
under a name that is not in the table, and one that leaves under its own name, touch no
other entry.
-/
namespace Muduo.Support

variable {κ α : Type*} [DecidableEq κ]

/-- The table maps the names of the members to the members. -/
def Registers (table : Finmap fun _ : κ => α) (name : α → κ) (members : Set α) : Prop :=
  ∀ key x, table.lookup key = some x ↔ x ∈ members ∧ name x = key

namespace Registers

variable {table : Finmap fun _ : κ => α} {name : α → κ} {members : Set α} {key : κ} {x : α}

theorem empty (name : α → κ) : Registers (∅ : Finmap fun _ : κ => α) name ∅ := by
  intro key x
  simp

theorem lookup_name (registers : Registers table name members) (member : x ∈ members) :
    table.lookup (name x) = some x :=
  (registers _ _).mpr ⟨member, rfl⟩

/-- Members have names of their own. -/
theorem injOn (registers : Registers table name members) : Set.InjOn name members := by
  intro x member y other same
  have found := registers.lookup_name member
  rw [same, registers.lookup_name other] at found
  exact (Option.some.inj found).symm

theorem lookup_none (registers : Registers table name members)
    (apart : ∀ x ∈ members, name x ≠ key) : table.lookup key = none := by
  rw [Option.eq_none_iff_forall_ne_some]
  intro x found
  obtain ⟨member, same⟩ := (registers key x).mp found
  exact apart x member same

theorem congr {members' : Set α} (registers : Registers table name members)
    (same : ∀ x, x ∈ members' ↔ x ∈ members) : Registers table name members' := by
  intro key x
  rw [registers key x, same x]

/-- A new member enters under a new name. -/
theorem insert [DecidableEq α] (registers : Registers table name members)
    (absent : table.lookup key = none) (fresh : x ∉ members) :
    Registers (table.insert key x) (Function.update name x key) (insert x members) := by
  intro key' y
  by_cases own : y = x
  · subst own
    rw [Function.update_self]
    by_cases same : key' = key
    · subst same
      rw [Finmap.lookup_insert]
      exact iff_of_true rfl ⟨Set.mem_insert _ _, rfl⟩
    · rw [Finmap.lookup_insert_of_ne _ same]
      refine iff_of_false (fun found => fresh ((registers key' y).mp found).1) ?_
      exact fun entry => same entry.2.symm
  · rw [Function.update_of_ne own, Set.mem_insert_iff, or_iff_right own]
    by_cases same : key' = key
    · subst same
      rw [Finmap.lookup_insert]
      refine iff_of_false (fun found => own (Option.some.inj found).symm) fun entry => ?_
      cases absent.symm.trans ((registers key' y).mpr entry)
    · rw [Finmap.lookup_insert_of_ne _ same]
      exact registers key' y

/-- There are as many entries as members. -/
theorem card_keys {members : List α} (nodup : members.Nodup)
    (registers : Registers table name {x | x ∈ members}) :
    table.keys.card = members.length := by
  have keys : table.keys = (members.map name).toFinset := by
    ext key
    rw [Finmap.mem_keys, ← Finmap.lookup_isSome, Option.isSome_iff_exists, List.mem_toFinset,
      List.mem_map]
    exact exists_congr (registers key)
  have distinct : (members.map name).Nodup := nodup.map_on registers.injOn
  rw [keys, List.toFinset_card_of_nodup distinct, List.length_map]

/-- A member leaves under its own name. -/
theorem erase (registers : Registers table name members) (member : x ∈ members) :
    Registers (table.erase (name x)) name (members \ {x}) := by
  intro key y
  rw [Set.mem_sdiff, Set.mem_singleton_iff]
  by_cases same : key = name x
  · subst same
    rw [Finmap.lookup_erase]
    refine iff_of_false (by simp) fun entry => entry.1.2 ?_
    exact registers.injOn entry.1.1 member entry.2
  · rw [Finmap.lookup_erase_ne same, registers key y]
    have other : name y = key → y ≠ x := by
      rintro rfl rfl
      exact same rfl
    tauto

end Registers

end Muduo.Support
