import Mathlib.Data.List.Basic
import Mathlib.Tactic

/-!
# Runs of a labelled step function

A component with several sources of events is given by a partial step function
on labels: `none` means that the event is not possible in the state.  A run is
a list of labels that can be taken one after the other, and its prefixes are
the moments at which a property of all reached states is to hold.
-/

namespace Stepping

variable {σ α : Type*} (step : σ → α → Option σ)

/-- The state after the labels, if all of them are possible in turn. -/
def runSteps : σ → List α → Option σ
  | state, [] => some state
  | state, label :: labels =>
      (step state label).bind fun next => runSteps next labels

@[simp] theorem runSteps_nil (state : σ) :
    runSteps step state [] = some state := rfl

@[simp] theorem runSteps_cons (state : σ) (label : α) (labels : List α) :
    runSteps step state (label :: labels) =
      (step state label).bind fun next => runSteps step next labels := rfl

theorem exists_runSteps_cons
    {state last : σ} {label : α} {labels : List α}
    (hrun : runSteps step state (label :: labels) = some last) :
    ∃ next,
      step state label = some next ∧
        runSteps step next labels = some last := by
  rw [runSteps_cons, Option.bind_eq_some_iff] at hrun
  exact hrun

theorem runSteps_append (state : σ) (left right : List α) :
    runSteps step state (left ++ right) =
      (runSteps step state left).bind fun next =>
        runSteps step next right := by
  induction left generalizing state with
  | nil => rfl
  | cons label left ih =>
      cases hstep : step state label with
      | none => simp [hstep]
      | some next => simp [hstep, ih]

theorem runSteps_concat
    {state last : σ} {labels : List α} {label : α}
    (hrun : runSteps step state (labels ++ [label]) = some last) :
    ∃ middle,
      runSteps step state labels = some middle ∧
        step middle label = some last := by
  rw [runSteps_append, Option.bind_eq_some_iff] at hrun
  rcases hrun with ⟨middle, hmiddle, hlast⟩
  refine ⟨middle, hmiddle, ?_⟩
  simpa using hlast

theorem exists_runSteps_prefix
    {state last : σ} {before after : List α}
    (hrun : runSteps step state (before ++ after) = some last) :
    ∃ middle,
      runSteps step state before = some middle ∧
        runSteps step middle after = some last := by
  rw [runSteps_append, Option.bind_eq_some_iff] at hrun
  exact hrun

/-- What holds at the start of a run and is kept by one more step of it holds
at its end.  The property may speak of the labels taken so far. -/
theorem runSteps_induction
    {initial : σ} (property : List α → σ → Prop)
    (hstart : property [] initial)
    (hkeep : ∀ labels label state next,
      runSteps step initial labels = some state →
        property labels state →
          step state label = some next →
            property (labels ++ [label]) next)
    {labels : List α} {last : σ}
    (hrun : runSteps step initial labels = some last) :
    property labels last := by
  induction labels using List.reverseRecOn generalizing last with
  | nil =>
      cases hrun
      exact hstart
  | append_singleton labels label ih =>
      obtain ⟨middle, hmiddle, hlast⟩ := runSteps_concat step hrun
      exact hkeep labels label middle last hmiddle (ih hmiddle) hlast

/-- If every step keeps a relation to a second machine, whose steps are total,
then so does every run. -/
theorem runSteps_simulates
    {τ β : Type*} {simulate : τ → β → τ} {image : α → β}
    {related : σ → τ → Prop}
    (hstep : ∀ state label next other,
      related state other → step state label = some next →
        related next (simulate other (image label)))
    {state last : σ} {other : τ} {labels : List α}
    (hrelated : related state other)
    (hrun : runSteps step state labels = some last) :
    related last ((labels.map image).foldl simulate other) := by
  induction labels generalizing state other with
  | nil =>
      cases hrun
      exact hrelated
  | cons label labels ih =>
      obtain ⟨next, hnext, hrest⟩ := exists_runSteps_cons step hrun
      exact ih (hstep state label next other hrelated hnext) hrest

/-- A property holds at every moment of a run. -/
def Always (initial : σ) (property : σ → Prop) (labels : List α) : Prop :=
  ∀ before after state,
    labels = before ++ after →
      runSteps step initial before = some state →
        property state

/-- If runs that meet a condition keep an invariant step by step, and what is
before a moment of such a run meets the condition too, then whatever follows
from the invariant holds at every moment of these runs. -/
theorem always_under_condition
    {initial : σ} {goal : σ → Prop}
    (property : List α → σ → Prop) (condition : List α → Prop)
    (hclosed : ∀ labels label, condition (labels ++ [label]) → condition labels)
    (hstart : property [] initial)
    (hkeep : ∀ labels label state next,
      runSteps step initial labels = some state →
        property labels state →
          condition (labels ++ [label]) →
            step state label = some next →
              property (labels ++ [label]) next)
    (hgoal : ∀ labels state, property labels state → goal state)
    {labels : List α} (hcondition : condition labels) :
    Always step initial goal labels := by
  intro before after state hlabels hstate
  have hbefore : condition before := by
    subst labels
    induction after using List.reverseRecOn with
    | nil => simpa using hcondition
    | append_singleton after label ih =>
        apply ih
        apply hclosed _ label
        simpa using hcondition
  apply hgoal before
  refine runSteps_induction step
    (fun labels state => condition labels → property labels state)
    ?_ ?_ hstate hbefore
  · intro _
    exact hstart
  · intro labels label middle next hmiddle hproperty hstep hnext
    exact hkeep labels label middle next hmiddle
      (hproperty (hclosed labels label hnext)) hnext hstep

end Stepping
