import Mathlib.Init

/-!
# Labelled transition systems and their runs

A system is a relation `step s i s'`: action `i` may take `s` to `s'`. `Run`
composes steps along a list of actions; `Guarded` keeps the steps whose action
meets a condition on the state before it. An executable system `f : σ → ι →
Except ε σ` gives the relation `Graph f`, and `exec` evaluates one of its runs.
-/
namespace Muduo.Support

variable {σ ι ε : Type*}

/-- `Run step s is s'`: the actions `is`, taken in order, lead from `s` to `s'`. -/
inductive Run (step : σ → ι → σ → Prop) : σ → List ι → σ → Prop
  | nil (s : σ) : Run step s [] s
  | cons {s s' s'' : σ} {i : ι} {is : List ι} :
      step s i s' → Run step s' is s'' → Run step s (i :: is) s''

def Reachable (step : σ → ι → σ → Prop) (s s' : σ) : Prop := ∃ is, Run step s is s'

/-- The steps whose action meets `guard` in the state before it. -/
def Guarded (guard : σ → ι → Prop) (step : σ → ι → σ → Prop) : σ → ι → σ → Prop :=
  fun s i s' => guard s i ∧ step s i s'

variable {step : σ → ι → σ → Prop} {guard : σ → ι → Prop} {s s' s'' : σ} {is js : List ι} {i : ι}

theorem Run.append (first : Run step s is s') (second : Run step s' js s'') :
    Run step s (is ++ js) s'' := by
  induction first with
  | nil => exact second
  | cons taken _ ih => exact .cons taken (ih second)

theorem Run.snoc (run : Run step s is s') (last : step s' i s'') : Run step s (is ++ [i]) s'' :=
  run.append (.cons last (.nil s''))

/-- What holds at the start and survives every step holds at the end of a run. -/
theorem Run.invariant {inv : σ → Prop} (run : Run step s is s') (start : inv s)
    (preserved : ∀ s i s', inv s → step s i s' → inv s') : inv s' := by
  induction run with
  | nil => exact start
  | cons taken _ ih => exact ih (preserved _ _ _ start taken)

/-- An invariant may rest on what is known of every state that a run reaches. -/
theorem Run.invariant_given {known inv : σ → Prop} (run : Run step s is s')
    (reached : ∀ is s', Run step s is s' → known s') (start : inv s)
    (preserved : ∀ s i s', known s → known s' → inv s → step s i s' → inv s') : inv s' := by
  have both : (∃ is, Run step s is s') ∧ inv s' := by
    refine @Run.invariant _ _ _ _ _ _ (fun s' => (∃ is, Run step s is s') ∧ inv s') run
      ⟨⟨[], .nil s⟩, start⟩ ?_
    rintro before i after ⟨⟨is, earlier⟩, held⟩ taken
    have later := earlier.snoc taken
    exact ⟨⟨_, later⟩, preserved before i after (reached _ _ earlier) (reached _ _ later) held taken⟩
  exact both.2

theorem Run.mono {step' : σ → ι → σ → Prop} (run : Run step s is s')
    (weaker : ∀ s i s', step s i s' → step' s i s') : Run step' s is s' := by
  induction run with
  | nil => exact .nil _
  | cons taken _ ih => exact .cons (weaker _ _ _ taken) ih

theorem Run.unguarded (run : Run (Guarded guard step) s is s') : Run step s is s' :=
  run.mono fun _ _ _ taken => taken.2

/-- A run meets its guard throughout, or it ends in what a step against the guard leads to,
if no later step leaves that again. -/
theorem Run.guarded_or {inv bad : σ → Prop} (run : Run step s is s') (start : inv s)
    (preserved : ∀ s i s', inv s → step s i s' → inv s')
    (breaks : ∀ s i s', inv s → step s i s' → ¬ guard s i → bad s')
    (lasting : ∀ s i s', inv s → bad s → step s i s' → bad s') :
    Run (Guarded guard step) s is s' ∨ bad s' := by
  induction run with
  | nil s => exact .inl (.nil s)
  | @cons s s₁ s' i is taken rest ih =>
    have next := preserved _ _ _ start taken
    by_cases met : guard s i
    · exact (ih next).imp (.cons ⟨met, taken⟩) id
    · have kept (s i s') (held : inv s ∧ bad s) (taken : step s i s') : inv s' ∧ bad s' :=
        ⟨preserved s i s' held.1 taken, lasting s i s' held.1 held.2 taken⟩
      have ended : inv s' ∧ bad s' :=
        @Run.invariant _ _ _ _ _ _ (fun s => inv s ∧ bad s) rest
          ⟨next, breaks _ _ _ start taken met⟩ kept
      exact .inr ended.2

/-- The steps of an executable system. -/
def Graph (f : σ → ι → Except ε σ) : σ → ι → σ → Prop := fun s i s' => f s i = .ok s'

/-- Evaluate a list of actions, stopping at the first error. -/
def exec (f : σ → ι → Except ε σ) (s : σ) : List ι → Except ε σ
  | [] => .ok s
  | i :: is =>
    match f s i with
    | .ok s' => exec f s' is
    | .error e => .error e

theorem run_of_exec {f : σ → ι → Except ε σ} (h : exec f s is = .ok s') :
    Run (Graph f) s is s' := by
  induction is generalizing s with
  | nil => cases h; exact .nil _
  | cons i is ih =>
    simp only [exec] at h
    cases hf : f s i with
    | error e => simp [hf] at h
    | ok s₁ =>
      rw [hf] at h
      exact .cons hf (ih h)

/-- What is computed of the end of a run. -/
theorem run_of_map {α : Type*} {f : σ → ι → Except ε σ} {value : α} (view : σ → α)
    (h : (exec f s is).map view = .ok value) : ∃ s', Run (Graph f) s is s' ∧ view s' = value := by
  cases ran : exec f s is with
  | error e =>
    rw [ran] at h
    cases h
  | ok s' =>
    rw [ran] at h
    exact ⟨s', run_of_exec ran, Except.ok.inj h⟩

/-- An executable system that also checks a guard. -/
def checked (guard : σ → ι → Prop) [∀ s i, Decidable (guard s i)] (refused : ε)
    (f : σ → ι → Except ε σ) (s : σ) (i : ι) : Except ε σ :=
  if guard s i then f s i else .error refused

theorem run_of_checked {f : σ → ι → Except ε σ} [∀ s i, Decidable (guard s i)] (refused : ε)
    (h : exec (checked guard refused f) s is = .ok s') : Run (Guarded guard (Graph f)) s is s' := by
  refine (run_of_exec h).mono fun s i s' taken => ?_
  unfold Graph checked at taken
  split at taken
  · next holds => exact ⟨holds, taken⟩
  · cases taken

/-- A run of the checked system ends in a state that passes a test. -/
def endsIn (guard : σ → ι → Prop) [∀ s i, Decidable (guard s i)] (f : σ → ι → Except ε σ)
    (refused : ε) (s : σ) (is : List ι) (test : σ → Bool) : Bool :=
  match exec (checked guard refused f) s is with
  | .ok s' => test s'
  | .error _ => false

theorem run_of_endsIn {f : σ → ι → Except ε σ} [∀ s i, Decidable (guard s i)] (refused : ε)
    (test : σ → Bool) (h : endsIn guard f refused s is test = true) :
    ∃ s', Run (Guarded guard (Graph f)) s is s' ∧ test s' = true := by
  unfold endsIn at h
  split at h
  · next s' ran => exact ⟨s', run_of_checked refused ran, h⟩
  · cases h

end Muduo.Support
