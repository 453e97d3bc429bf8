import Mathlib.Data.List.Basic

/-!
# Labelled steps and their runs

A system is a partial function `step : S → L → Option S`: a label is one thing that can happen, and the
function is `none` where it cannot happen.

* `steps step s ls`: the state after the labels `ls`, one after the other;
* `AllSteps step C s ls`: every step of that run meets the condition `C` (on the state before it and its label);
* `steps_invariant`: what one step preserves under `C`, a run whose steps all meet `C` preserves.
-/

namespace Foundations

variable {S L : Type} (step : S → L → Option S)

/-- The state after a list of labels, when each of them can happen in turn. -/
def steps : S → List L → Option S
  | s, [] => some s
  | s, l :: ls => (step s l).bind fun s' => steps s' ls

/-- Every step of the run from `s` over the labels meets `C`. -/
def AllSteps (C : S → L → Prop) : S → List L → Prop
  | _, [] => True
  | s, l :: ls => C s l ∧ ∀ s', step s l = some s' → AllSteps C s' ls

@[simp] theorem steps_nil (s : S) : steps step s [] = some s := rfl

theorem steps_cons {s s' : S} {l : L} {ls : List L} :
    steps step s (l :: ls) = some s' ↔ ∃ m, step s l = some m ∧ steps step m ls = some s' := by
  rw [steps, Option.bind_eq_some_iff]

/-- A condition on the labels alone. -/
theorem AllSteps.of_forall {C : S → L → Prop} {ls : List L} (h : ∀ l ∈ ls, ∀ s, C s l) (s : S) :
    AllSteps step C s ls := by
  induction ls generalizing s with
  | nil => trivial
  | cons l ls ih =>
    exact ⟨h l List.mem_cons_self s, fun s' _ => ih (fun l' hl' => h l' (List.mem_cons_of_mem _ hl')) s'⟩

/-- What each step that meets `C` preserves holds after a run whose steps all meet `C`. -/
theorem steps_invariant {C : S → L → Prop} {I : S → Prop}
    (hstep : ∀ s l s', I s → C s l → step s l = some s' → I s') {s s' : S} {ls : List L}
    (h0 : I s) (hC : AllSteps step C s ls) (hrun : steps step s ls = some s') : I s' := by
  induction ls generalizing s with
  | nil =>
    rw [steps_nil] at hrun
    exact Option.some.inj hrun ▸ h0
  | cons l ls ih =>
    obtain ⟨m, hm, hrest⟩ := (steps_cons step).mp hrun
    exact ih (hstep s l m h0 hC.1 hm) (hC.2 m hm) hrest

end Foundations
