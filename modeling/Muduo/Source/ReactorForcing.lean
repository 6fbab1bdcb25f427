import Muduo.Source.ReactorDelivery

/-!
# Calls of `forceClose`

`forceClose` stores `kDisconnecting` after its tests of `state_`. On the loop thread
nothing comes between; on another thread the connection may be closed meanwhile, and
then the store reopens it. Without such a call a closed connection stays closed.
-/
namespace Muduo.Source
open Muduo.Support

/-- A call of `forceClose`, up to its store. -/
def Frame.forces : Frame → Option ConnId
  | .forceClose c | .forceCloseSecond c | .forceCloseStore c => some c
  | _ => none

namespace World

variable {σ : Type} {settings : Settings} {impl : Polling σ} {w w' : World σ} {c : ConnId}

theorem enter_forces {call : Call} {frame : Frame} (entered : w.enter call = .ok frame)
    (forces : frame.forces = some c) : call = .forceClose c := by
  cases call with
  | queueInLoop => cases entered; cases forces
  | send | shutdown =>
    simp only [enter] at entered
    split at entered <;> cases entered
    cases forces
  | forceClose =>
    simp only [enter] at entered
    split at entered <;> cases entered
    cases forces
    rfl

/-- User code begins a `forceClose`, and only user code. -/
theorem Advance.forces {onLoop : Bool} {frame other : Frame} {input : Input} {frames : List Frame}
    (advance : Advance settings impl onLoop w frame input w' frames) (member : other ∈ frames)
    (forces : other.forces = some c) : frame.forces = some c ∨ input = .call (.forceClose c) := by
  cases advance.follows.leads member with
  | forceFirst | forceSecond | forceStore => exact Or.inl forces
  | call enters =>
    refine Or.inr ?_
    cases advance with
    | yes tested | no tested => cases tested
    | call entered =>
      simp only [List.mem_cons, List.not_mem_nil, or_false] at member
      rcases member with rfl | rfl
      · rw [enter_forces entered forces]
      · cases forces
    | adjust | watch =>
      rw [List.mem_singleton.mp member] at forces
      cases forces
    | construct =>
      simp only [List.mem_cons, List.not_mem_nil, or_false] at member
      rcases member with rfl | rfl <;> cases forces
    | «return» => cases member
  | _ => cases forces

/-- No other thread is inside a `forceClose` of the connection. -/
def Unforced (w : World σ) (c : ConnId) : Prop := ∀ frame ∈ w.others, frame.forces ≠ some c

theorem Unforced.step (unforced : w.Unforced c) {action : Action impl.Answer}
    (step : Step settings impl w action w') (own : ∀ c', action = .call (.forceClose c') → c' ≠ c) :
    w'.Unforced c := by
  intro frame member forces
  cases step with
  | loop _ advance => exact unforced frame (advance.control.others ▸ member) forces
  | @other running before after frames v others advance =>
    simp only [List.mem_append] at member
    rcases member with (old | new) | old
    · exact unforced frame (by simp [others, old]) forces
    · rcases advance.forces new forces with before | called
      · exact unforced running (by simp [others]) before
      · cases called
    · exact unforced frame (by simp [others, old]) forces
  | call entered =>
    rcases List.mem_append.mp member with old | new
    · exact unforced frame old forces
    · rw [List.mem_singleton.mp new] at forces
      exact own c (by rw [enter_forces entered forces]) rfl
  | _ => exact unforced frame member forces

/-- The loop thread stores at once after its test. -/
theorem Unforced.onTime (unforced : w.Unforced c) (orderly : w.Orderly) {answer : Type}
    {action : Action answer} (runs : w.running action = some (.forceCloseStore c)) : w.Open c := by
  cases action with
  | loop => exact orderly.knows _ (List.mem_of_mem_head? runs)
  | other => exact absurd rfl (unforced _ (List.mem_of_getElem? runs))
  | _ => cases runs

/-- The down callback is the last of the connection's states. -/
def StaysDown (w : World σ) (c : ConnId) : Prop := .down c ∈ w.trace → w.state c = .kDisconnected

theorem StaysDown.step (staysDown : w.StaysDown c) (orderly : w.Orderly)
    {action : Action impl.Answer} (step : Step settings impl w action w')
    (onTime : w.running action = some (.forceCloseStore c) → w.Open c) : w'.StaysDown c := by
  intro member
  have noted : .down c ∈ w.trace ∨ .down c ∈ w.newCallbacks action := by
    have listed : .down c ∈ w'.callbacks := List.mem_filter.mpr ⟨member, rfl⟩
    rw [step.callbacks, List.mem_append] at listed
    exact listed.imp_left fun old => (List.mem_filter.mp old).1
  rcases step.state with ⟨same, silent⟩ | ⟨frame, own, s, runs, stores, changed⟩
  · rw [same]
    refine staysDown (noted.resolve_right fun new => ?_)
    cases runs : w.running action with
    | none => simp [newCallbacks, runs] at new
    | some frame =>
      simp only [newCallbacks, runs, Option.map_some, Option.getD_some] at new
      cases frame <;> simp [Frame.callbacks] at new <;> subst new
      · exact silent _ runs c _ .handleClose
      · exact silent _ runs c _ .connectDestroyed
  · have known := orderly.running_knows runs
    simp only [newCallbacks, runs, Option.map_some, Option.getD_some] at noted
    by_cases other : c = own
    · subst other
      rw [changed, if_pos rfl]
      cases stores with
      | handleClose | connectDestroyed => rfl
      | shutdown open_ =>
        have closed := staysDown (noted.resolve_right (by simp [Frame.callbacks]))
        cases open_.symm.trans closed
      | connectEstablished =>
        have closed := staysDown (noted.resolve_right (by simp [Frame.callbacks]))
        cases closed.symm.trans known
      | forceClose =>
        have closed := staysDown (noted.resolve_right (by simp [Frame.callbacks]))
        simp [Open, closed] at onTime
        exact absurd runs onTime
    · rw [changed, if_neg other]
      refine staysDown (noted.resolve_right fun new => ?_)
      cases stores <;> simp [Frame.callbacks, other] at new

end World

end Muduo.Source
