import Mathlib.Data.List.Infix

/-!
Runs of a system whose steps are total functions of an action.

An action that is not enabled leaves the state as it is, so every list of actions is a run
and every interleaving of any number of parties is one such list. The rules below lift what
one step preserves to what a run preserves, also where only the steps meeting a side
condition preserve it.
-/

namespace Runs

variable {σ α : Type}

/-- The state after a list of actions. -/
def exec (step : σ → α → σ) (start : σ) (actions : List α) : σ :=
  actions.foldl step start

variable {step : σ → α → σ}

@[simp] theorem exec_nil (start : σ) : exec step start [] = start := rfl

@[simp] theorem exec_cons (start : σ) (action : α) (rest : List α) :
    exec step start (action :: rest) = exec step (step start action) rest := rfl

theorem exec_append (start : σ) (first second : List α) :
    exec step start (first ++ second) = exec step (exec step start first) second :=
  List.foldl_append

theorem exec_concat (start : σ) (actions : List α) (action : α) :
    exec step start (actions ++ [action]) = step (exec step start actions) action := by
  rw [exec_append, exec_cons, exec_nil]

/-- What every step preserves, every run preserves. -/
theorem exec_invariant (invariant : σ → Prop)
    (preserved : ∀ state action, invariant state → invariant (step state action))
    {start : σ} (initially : invariant start) (actions : List α) :
    invariant (exec step start actions) := by
  induction actions generalizing start with
  | nil => exact initially
  | cons action rest ih => exact ih (preserved start action initially)

/-- A reflexive and transitive relation that holds across every step that starts in a state
with an invariant holds across every run. -/
theorem exec_relation (invariant : σ → Prop) {related : σ → σ → Prop}
    (reflexive : ∀ state, related state state)
    (transitive : ∀ {first second third}, related first second → related second third →
      related first third)
    (preserved : ∀ state action, invariant state → invariant (step state action))
    (stepwise : ∀ state action, invariant state → related state (step state action))
    {start : σ} (initially : invariant start) (actions : List α) :
    related start (exec step start actions) := by
  induction actions generalizing start with
  | nil => exact reflexive start
  | cons action rest ih =>
      exact transitive (stepwise start action initially) (ih (preserved start action initially))

/-- Every step of the run is taken in a state that meets the condition for its action. -/
def Meets (step : σ → α → σ) (condition : σ → α → Prop) (start : σ) : List α → Prop
  | [] => True
  | action :: rest => condition start action ∧ Meets step condition (step start action) rest

instance decidableMeets {condition : σ → α → Prop}
    [decides : ∀ state action, Decidable (condition state action)] (start : σ) :
    ∀ actions : List α, Decidable (Meets step condition start actions)
  | [] => .isTrue trivial
  | action :: rest =>
      @instDecidableAnd _ _ (decides start action) (decidableMeets (step start action) rest)

theorem meets_append {condition : σ → α → Prop} {start : σ} {first second : List α} :
    Meets step condition start (first ++ second) ↔
      Meets step condition start first ∧
        Meets step condition (exec step start first) second := by
  induction first generalizing start with
  | nil => simp [Meets]
  | cons action rest ih => simp [Meets, ih, and_assoc]

/-- What holds of the last state, and of a state whenever it holds after a step, holds wherever
the run is. -/
theorem meets_of_last {condition : σ → Prop} {allowed : α → Prop}
    (backward : ∀ state action, condition (step state action) → condition state)
    {start : σ} {actions : List α} (all : ∀ action ∈ actions, allowed action)
    (last : condition (exec step start actions)) :
    Meets step (fun state action => allowed action ∧ condition state) start actions ∧
      condition start := by
  induction actions generalizing start with
  | nil => exact ⟨trivial, last⟩
  | cons action rest ih =>
      obtain ⟨met, next⟩ := ih (fun other member => all other (List.mem_cons_of_mem _ member)) last
      have first := backward start action next
      exact ⟨⟨⟨all action List.mem_cons_self, first⟩, met⟩, first⟩

/-- What every step meeting the condition preserves, every run of such steps preserves. -/
theorem exec_invariant_of_meets (invariant : σ → Prop) {condition : σ → α → Prop}
    (preserved : ∀ state action, condition state action → invariant state →
      invariant (step state action))
    {start : σ} (initially : invariant start) {actions : List α}
    (met : Meets step condition start actions) :
    invariant (exec step start actions) := by
  induction actions generalizing start with
  | nil => exact initially
  | cons action rest ih => exact ih (preserved start action met.1 initially) met.2

/-- Where the condition decides whether a step keeps the invariant, a run meets it exactly when
the invariant holds in every state the run reaches. -/
theorem meets_iff {invariant : σ → Prop} {condition : σ → α → Prop}
    (decided : ∀ state action, invariant state →
      (condition state action ↔ invariant (step state action)))
    {start : σ} (initially : invariant start) (actions : List α) :
    Meets step condition start actions ↔
      ∀ begun, begun <+: actions → invariant (exec step start begun) := by
  induction actions generalizing start with
  | nil =>
      simp only [Meets, true_iff, List.prefix_nil]
      rintro begun rfl
      exact initially
  | cons action rest ih =>
      constructor
      · rintro ⟨met, later⟩ begun front
        cases begun with
        | nil => exact initially
        | cons first more =>
            obtain ⟨same, tail⟩ := List.cons_prefix_cons.mp front
            subst same
            exact (ih ((decided start first initially).mp met)).mp later more tail
      · intro held
        have next : invariant (step start action) :=
          held [action] (List.cons_prefix_cons.mpr ⟨rfl, List.nil_prefix⟩)
        refine ⟨(decided start action initially).mpr next, (ih next).mpr ?_⟩
        intro more front
        exact held (action :: more) (List.cons_prefix_cons.mpr ⟨rfl, front⟩)

end Runs
