import Mathlib.Data.Set.Insert
import Mathlib.Logic.Function.Basic

/-!
# Resources with at most one holder

Each holder holds at most one resource. `Exclusive` says that what is held exists and is
held once; a resource that exists and is held by no one is `Lost`. Holders acquire new
resources, hand them over and release them. All of it keeps `Exclusive` and no lost resource
is found again; only a hand-over to a holder that holds something loses a resource.
-/
namespace Muduo.Support

variable {η ρ : Type*} {holder : η → Option ρ} {resources : Set ρ}
  {h target source : η} {r lost : ρ}

structure Exclusive (holder : η → Option ρ) (resources : Set ρ) : Prop where
  present : ∀ h r, holder h = some r → r ∈ resources
  unique : ∀ h h' r, holder h = some r → holder h' = some r → h = h'

/-- The resource exists and no one holds it. -/
def Lost (holder : η → Option ρ) (resources : Set ρ) (r : ρ) : Prop :=
  r ∈ resources ∧ ∀ h, holder h ≠ some r

theorem Exclusive.empty : Exclusive (fun _ : η => none) (∅ : Set ρ) where
  present h r held := by cases held
  unique h h' r held := by cases held

variable [DecidableEq η]

/-- `target` gets what `source` holds, and `source` is left with nothing. -/
def handOver (holder : η → Option ρ) (target source : η) : η → Option ρ :=
  Function.update (Function.update holder target (holder source)) source none

/-- Who holds something after a hand-over. -/
theorem handOver_eq_some : handOver holder target source h = some r ↔
    h ≠ source ∧ (if h = target then holder source = some r else holder h = some r) := by
  unfold handOver
  by_cases giver : h = source
  · simp [giver]
  · by_cases taker : h = target <;> simp [giver, taker, Function.update_apply]

section Rules

variable (exclusive : Exclusive holder resources)
include exclusive

theorem Exclusive.acquire (fresh : r ∉ resources) :
    Exclusive (Function.update holder h (some r)) (insert r resources) where
  present h' r' held := by
    by_cases same : h' = h
    · subst same
      rw [Function.update_self] at held
      exact Or.inl (Option.some.inj held).symm
    · rw [Function.update_of_ne same] at held
      exact Or.inr (exclusive.present h' r' held)
  unique h₁ h₂ r' held₁ held₂ := by
    have others (other : η) (different : other ≠ h)
        (held : Function.update holder h (some r) other = some r') : r' ≠ r := by
      rw [Function.update_of_ne different] at held
      rintro rfl
      exact fresh (exclusive.present other _ held)
    by_cases first : h₁ = h <;> by_cases second : h₂ = h
    · exact first.trans second.symm
    · subst first
      rw [Function.update_self] at held₁
      exact absurd (Option.some.inj held₁).symm (others h₂ second held₂)
    · subst second
      rw [Function.update_self] at held₂
      exact absurd (Option.some.inj held₂).symm (others h₁ first held₁)
    · rw [Function.update_of_ne first] at held₁
      rw [Function.update_of_ne second] at held₂
      exact exclusive.unique h₁ h₂ r' held₁ held₂

theorem Exclusive.handOver (target source : η) :
    Exclusive (handOver holder target source) resources where
  present h r held := by
    rw [handOver_eq_some] at held
    obtain ⟨_, held⟩ := held
    split at held
    · exact exclusive.present _ _ held
    · exact exclusive.present _ _ held
  unique h₁ h₂ r held₁ held₂ := by
    rw [handOver_eq_some] at held₁ held₂
    obtain ⟨giver₁, held₁⟩ := held₁
    obtain ⟨giver₂, held₂⟩ := held₂
    split at held₁ <;> split at held₂
    · next first second => exact first.trans second.symm
    · exact absurd (exclusive.unique _ _ _ held₂ held₁) giver₂
    · exact absurd (exclusive.unique _ _ _ held₁ held₂) giver₁
    · exact exclusive.unique _ _ _ held₁ held₂

theorem Exclusive.release (held : holder h = some r) :
    Exclusive (Function.update holder h none) (resources \ {r}) where
  present h' r' held' := by
    by_cases same : h' = h
    · rw [same, Function.update_self] at held'
      cases held'
    · rw [Function.update_of_ne same] at held'
      refine ⟨exclusive.present h' r' held', ?_⟩
      rintro rfl
      exact same (exclusive.unique _ _ _ held' held)
  unique h₁ h₂ r' held₁ held₂ := by
    rw [Function.update_apply] at held₁ held₂
    split at held₁
    · cases held₁
    · split at held₂
      · cases held₂
      · exact exclusive.unique _ _ _ held₁ held₂

/-- What the receiver held is lost. -/
theorem Exclusive.lost_of_handOver (held : holder target = some r) (source : η) :
    Lost (Support.handOver holder target source) resources r := by
  refine ⟨exclusive.present _ _ held, fun h held' => ?_⟩
  obtain ⟨giver, held'⟩ := handOver_eq_some.mp held'
  split at held'
  · next taker => exact giver (taker.trans (exclusive.unique _ _ _ held held'))
  · next other => exact other (exclusive.unique _ _ _ held' held)

end Rules

/-- An acquisition by a holder without a resource loses nothing. -/
theorem lost_acquire_iff (free : holder h = none) (fresh : r ∉ resources) :
    Lost (Function.update holder h (some r)) (insert r resources) lost ↔
      Lost holder resources lost := by
  constructor
  · rintro ⟨exists', unheld⟩
    have different : lost ≠ r := by
      rintro rfl
      exact unheld h (Function.update_self ..)
    refine ⟨exists'.resolve_left different, fun h' held => ?_⟩
    have other : h' ≠ h := by
      rintro rfl
      rw [free] at held
      cases held
    exact unheld h' (by rwa [Function.update_of_ne other])
  · rintro ⟨exists', unheld⟩
    refine ⟨Or.inr exists', fun h' held => ?_⟩
    rw [Function.update_apply] at held
    split at held
    · cases held
      exact fresh exists'
    · exact unheld h' held

/-- A release takes the resource away with its holder. -/
theorem lost_release_iff (held : holder h = some r) :
    Lost (Function.update holder h none) (resources \ {r}) lost ↔ Lost holder resources lost := by
  constructor
  · rintro ⟨⟨exists', different⟩, unheld⟩
    refine ⟨exists', fun h' held' => ?_⟩
    have other : h' ≠ h := by
      rintro rfl
      exact different (Option.some.inj (held'.symm.trans held))
    exact unheld h' (by rwa [Function.update_of_ne other])
  · rintro ⟨exists', unheld⟩
    refine ⟨⟨exists', ?_⟩, fun h' held' => ?_⟩
    · rintro rfl
      exact unheld h held
    · rw [Function.update_apply] at held'
      split at held'
      · cases held'
      · exact unheld h' held'

/-- What is lost stays lost in a hand-over. -/
theorem Lost.handOver (gone : Lost holder resources lost) (target source : η) :
    Lost (handOver holder target source) resources lost := by
  refine ⟨gone.1, fun h held => ?_⟩
  obtain ⟨_, held⟩ := handOver_eq_some.mp held
  split at held
  · exact gone.2 _ held
  · exact gone.2 _ held

/-- A hand-over to a holder without a resource loses nothing. -/
theorem lost_of_lost_handOver (free : holder target = none)
    (gone : Lost (handOver holder target source) resources lost) : Lost holder resources lost := by
  refine ⟨gone.1, fun h held => ?_⟩
  by_cases giver : h = source
  · subst giver
    have different : target ≠ h := by
      rintro rfl
      rw [free] at held
      cases held
    exact gone.2 target (handOver_eq_some.mpr ⟨different, by rwa [if_pos rfl]⟩)
  · have different : h ≠ target := by
      rintro rfl
      rw [free] at held
      cases held
    exact gone.2 h (handOver_eq_some.mpr ⟨giver, by rwa [if_neg different]⟩)

end Muduo.Support
