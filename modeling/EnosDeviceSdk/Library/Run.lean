/-
# Finite runs of a deterministic transition function

A component is a transition function on states, and a run is the left fold of
that function over a finite list of actions. The environment's choices (which
writes fail, what the clock reads, which allocation succeeds) travel inside the
actions, so a statement about every run is a statement about every list.

Three rules are packaged here once. An invariant that a step keeps holds after
every run. A property that a step keeps exactly when a side condition holds is
true throughout a run exactly when every step of the run meets the condition.
A preorder that steps respect relates the start of a run to its end.
-/

import Mathlib.Data.List.Basic

namespace EnosDeviceSdk.Library

universe u v w

variable {σ : Type u} {α : Type v}

/-- The state reached by performing the actions from left to right. -/
def runFrom (step : σ → α → σ) (start : σ) (actions : List α) : σ :=
  actions.foldl step start

@[simp]
theorem runFrom_nil (step : σ → α → σ) (start : σ) :
    runFrom step start [] = start := rfl

@[simp]
theorem runFrom_cons (step : σ → α → σ) (start : σ) (action : α) (rest : List α) :
    runFrom step start (action :: rest) = runFrom step (step start action) rest := rfl

theorem runFrom_append (step : σ → α → σ) (start : σ) (first second : List α) :
    runFrom step start (first ++ second) =
      runFrom step (runFrom step start first) second :=
  List.foldl_append

/-- Every step of the run is taken in a state that meets the condition. -/
def StepsMeet (step : σ → α → σ) (condition : σ → α → Prop) : σ → List α → Prop
  | _, [] => True
  | state, action :: rest =>
      condition state action ∧ StepsMeet step condition (step state action) rest

@[simp]
theorem stepsMeet_nil (step : σ → α → σ) (condition : σ → α → Prop) (state : σ) :
    StepsMeet step condition state [] := trivial

@[simp]
theorem stepsMeet_cons (step : σ → α → σ) (condition : σ → α → Prop)
    (state : σ) (action : α) (rest : List α) :
    StepsMeet step condition state (action :: rest) ↔
      condition state action ∧ StepsMeet step condition (step state action) rest :=
  Iff.rfl

/-- Whether a condition is met can be found out along a concrete run. -/
instance StepsMeet.instDecidable (step : σ → α → σ) (condition : σ → α → Prop)
    [hcondition : ∀ state action, Decidable (condition state action)] :
    ∀ state actions, Decidable (StepsMeet step condition state actions)
  | _, [] => .isTrue trivial
  | state, action :: rest =>
      have := StepsMeet.instDecidable step condition (step state action) rest
      inferInstanceAs (Decidable (condition state action ∧ _))

/-- A condition that every step meets is met along every run. -/
theorem stepsMeet_of_forall {step : σ → α → σ} {condition : σ → α → Prop}
    (hall : ∀ state action, condition state action) (state : σ) (actions : List α) :
    StepsMeet step condition state actions := by
  induction actions generalizing state with
  | nil => trivial
  | cons action rest ih => exact ⟨hall state action, ih (step state action)⟩

theorem StepsMeet.and {step : σ → α → σ} {first second : σ → α → Prop} {state : σ}
    {actions : List α} (hfirst : StepsMeet step first state actions)
    (hsecond : StepsMeet step second state actions) :
    StepsMeet step (fun state action => first state action ∧ second state action) state
      actions := by
  induction actions generalizing state with
  | nil => trivial
  | cons action rest ih => exact ⟨⟨hfirst.1, hsecond.1⟩, ih hfirst.2 hsecond.2⟩

theorem stepsMeet_append {step : σ → α → σ} {condition : σ → α → Prop} {state : σ}
    {before after : List α} :
    StepsMeet step condition state (before ++ after) ↔
      StepsMeet step condition state before ∧
        StepsMeet step condition (runFrom step state before) after := by
  induction before generalizing state with
  | nil => simp
  | cons action rest ih => simp [ih, and_assoc]

/-- A run of actions that stand for others is a run of those. -/
theorem runFrom_map {β : Type w} (step : σ → β → σ) (stands : α → β) (start : σ)
    (actions : List α) :
    runFrom step start (actions.map stands) =
      runFrom (fun state action => step state (stands action)) start actions :=
  List.foldl_map

theorem stepsMeet_map {β : Type w} (step : σ → β → σ) (condition : σ → β → Prop)
    (stands : α → β) (state : σ) (actions : List α) :
    StepsMeet step condition state (actions.map stands) ↔
      StepsMeet (fun state action => step state (stands action))
        (fun state action => condition state (stands action)) state actions := by
  induction actions generalizing state with
  | nil => exact Iff.rfl
  | cons action rest ih => exact and_congr Iff.rfl (ih _)

/-- The property holds in every state a run passes through, its start included. -/
def Always (step : σ → α → σ) (property : σ → Prop) : σ → List α → Prop
  | state, [] => property state
  | state, action :: rest =>
      property state ∧ Always step property (step state action) rest

@[simp]
theorem always_nil (step : σ → α → σ) (property : σ → Prop) (state : σ) :
    Always step property state [] ↔ property state := Iff.rfl

@[simp]
theorem always_cons (step : σ → α → σ) (property : σ → Prop)
    (state : σ) (action : α) (rest : List α) :
    Always step property state (action :: rest) ↔
      property state ∧ Always step property (step state action) rest := Iff.rfl

theorem Always.start {step : σ → α → σ} {property : σ → Prop} {state : σ}
    {actions : List α} (halways : Always step property state actions) :
    property state := by
  cases actions with
  | nil => exact halways
  | cons action rest => exact halways.1

/-- A property that always holds holds at the end of the run. -/
theorem Always.finish {step : σ → α → σ} {property : σ → Prop} {state : σ}
    {actions : List α} (halways : Always step property state actions) :
    property (runFrom step state actions) := by
  induction actions generalizing state with
  | nil => exact halways
  | cons action rest ih => exact ih halways.2

theorem Always.mono {step : σ → α → σ} {weaker stronger : σ → Prop} {state : σ}
    {actions : List α} (himp : ∀ reached, stronger reached → weaker reached)
    (halways : Always step stronger state actions) :
    Always step weaker state actions := by
  induction actions generalizing state with
  | nil => exact himp state halways
  | cons action rest ih => exact ⟨himp state halways.1, ih halways.2⟩

/-- A condition that follows from what always holds is met by every step. -/
theorem Always.stepsMeet {step : σ → α → σ} {property : σ → Prop} {condition : σ → α → Prop}
    (himp : ∀ reached action, property reached → condition reached action)
    {state : σ} {actions : List α} (halways : Always step property state actions) :
    StepsMeet step condition state actions := by
  induction actions generalizing state with
  | nil => trivial
  | cons action rest ih => exact ⟨himp state action halways.1, ih halways.2⟩

/-- The invariant rule: what the start satisfies and a step keeps holds after
every run. -/
theorem invariant_runFrom {step : σ → α → σ} {invariant : σ → Prop}
    (hstep : ∀ state action, invariant state → invariant (step state action))
    {start : σ} (hstart : invariant start) (actions : List α) :
    invariant (runFrom step start actions) := by
  induction actions generalizing start with
  | nil => exact hstart
  | cons action rest ih => exact ih (hstep start action hstart)

/-- The guarded invariant rule: a step has to keep the invariant only where it
meets the condition. -/
theorem always_of_stepsMeet {step : σ → α → σ} {invariant : σ → Prop}
    {condition : σ → α → Prop}
    (hstep : ∀ state action, invariant state → condition state action →
      invariant (step state action))
    {start : σ} (hstart : invariant start) {actions : List α}
    (hmeet : StepsMeet step condition start actions) :
    Always step invariant start actions := by
  induction actions generalizing start with
  | nil => exact hstart
  | cons action rest ih =>
      exact ⟨hstart, ih (hstep start action hstart hmeet.1) hmeet.2⟩

/-- The exact rule: under a side invariant that every step keeps, a step keeps
the property exactly when it meets the condition, so the property holds
throughout a run exactly when all steps of the run meet the condition. -/
theorem always_iff_stepsMeet {step : σ → α → σ} {invariant property : σ → Prop}
    {condition : σ → α → Prop}
    (hinvariant : ∀ state action, invariant state → invariant (step state action))
    (hexact : ∀ state action, invariant state → property state →
      (property (step state action) ↔ condition state action))
    {start : σ} (hside : invariant start) (hstart : property start)
    (actions : List α) :
    Always step property start actions ↔
      StepsMeet step condition start actions := by
  induction actions generalizing start with
  | nil => simpa using hstart
  | cons action rest ih =>
      rw [always_cons, stepsMeet_cons]
      constructor
      · rintro ⟨_, hrest⟩
        have hnext : property (step start action) := hrest.start
        exact ⟨(hexact start action hside hstart).mp hnext,
          (ih (hinvariant start action hside) hnext).mp hrest⟩
      · rintro ⟨hcondition, hrest⟩
        have hnext := (hexact start action hside hstart).mpr hcondition
        exact ⟨hstart, (ih (hinvariant start action hside) hnext).mpr hrest⟩

/-- The breaking rule: where a step that meets the condition keeps the invariant, and a step
that does not meet it breaks the property at once, the property holds throughout a run exactly
when all steps of the run meet the condition. -/
theorem always_iff_of_breaks {step : σ → α → σ} {invariant property : σ → Prop}
    {condition : σ → α → Prop} (hproperty : ∀ state, invariant state → property state)
    (hkeeps : ∀ state action, invariant state → condition state action →
      invariant (step state action))
    (hbreaks : ∀ state action, invariant state → ¬ condition state action →
      ¬ property (step state action))
    {start : σ} (hstart : invariant start) (actions : List α) :
    Always step property start actions ↔ StepsMeet step condition start actions := by
  induction actions generalizing start with
  | nil => simpa using hproperty start hstart
  | cons action rest ih =>
      rw [always_cons, stepsMeet_cons]
      constructor
      · rintro ⟨_, hrest⟩
        have hcondition : condition start action := by
          by_contra hmissed
          exact hbreaks start action hstart hmissed hrest.start
        exact ⟨hcondition, (ih (hkeeps start action hstart hcondition)).mp hrest⟩
      · rintro ⟨hcondition, hrest⟩
        exact ⟨hproperty start hstart, (ih (hkeeps start action hstart hcondition)).mpr hrest⟩

/-- The relation rule: a preorder that guarded steps respect relates the two ends of a
guarded run. -/
theorem relation_runFrom {step : σ → α → σ} {condition : σ → α → Prop}
    {relation : σ → σ → Prop} (hrefl : ∀ state, relation state state)
    (htrans : ∀ first second third, relation first second → relation second third →
      relation first third)
    (hstep : ∀ state action, condition state action → relation state (step state action))
    {start : σ} {actions : List α} (hmeet : StepsMeet step condition start actions) :
    relation start (runFrom step start actions) := by
  induction actions generalizing start with
  | nil => exact hrefl start
  | cons action rest ih =>
      exact htrans _ _ _ (hstep start action hmeet.1) (ih hmeet.2)

end EnosDeviceSdk.Library
