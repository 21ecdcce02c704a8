import Mathlib.Logic.Basic

namespace Runs

variable {σ ι : Type} (step : σ → ι → σ)

/-- A property holds at all times of a run. -/
def Throughout (holds : σ → Prop) (s : σ) : List ι → Prop
  | [] => holds s
  | i :: is => holds s ∧ Throughout holds (step s i) is

/-- Every step of a run meets a condition in the state it is taken from. -/
def EachStep (meets : σ → ι → Prop) (s : σ) : List ι → Prop
  | [] => True
  | i :: is => meets s i ∧ EachStep meets (step s i) is

instance EachStep.decidable (meets : σ → ι → Prop) [∀ s i, Decidable (meets s i)] (s : σ) :
    (is : List ι) → Decidable (EachStep step meets s is)
  | [] => instDecidableTrue
  | i :: is => @instDecidableAnd _ _ _ (decidable meets (step s i) is)

variable {step} {holds inv : σ → Prop} {meets : σ → ι → Prop}

theorem Throughout.first {s : σ} {is : List ι} (always : Throughout step holds s is) : holds s := by
  cases is with
  | nil => exact always
  | cons i is => exact always.1

theorem throughout_iff
    (exact_step : ∀ s i, inv s → holds s → (holds (step s i) ↔ meets s i))
    (kept : ∀ s i, inv s → meets s i → inv (step s i))
    {s : σ} (start : inv s) (now : holds s) (is : List ι) :
    Throughout step holds s is ↔ EachStep step meets s is := by
  induction is generalizing s with
  | nil => exact ⟨fun _ => trivial, fun _ => now⟩
  | cons i is ih =>
    constructor
    · rintro ⟨_, rest⟩
      have met := (exact_step s i start now).mp rest.first
      exact ⟨met, (ih (kept s i start met) rest.first).mp rest⟩
    · rintro ⟨met, rest⟩
      have next := (exact_step s i start now).mpr met
      exact ⟨now, (ih (kept s i start met) next).mpr rest⟩

theorem throughout_of_step (kept : ∀ s i, holds s → meets s i → holds (step s i)) {s : σ} (now : holds s)
    {is : List ι} (met : EachStep step meets s is) : Throughout step holds s is := by
  induction is generalizing s with
  | nil => exact now
  | cons i is ih => exact ⟨now, ih (kept s i now met.1) met.2⟩

theorem EachStep.of_inv {meets' : σ → ι → Prop}
    (kept : ∀ s i, inv s → meets s i → inv (step s i) ∧ meets' s i) {s : σ} {is : List ι}
    (met : EachStep step meets s is) (start : inv s) : EachStep step meets' s is := by
  induction is generalizing s with
  | nil => trivial
  | cons i is ih => exact ⟨(kept s i start met.1).2, ih met.2 (kept s i start met.1).1⟩

end Runs
