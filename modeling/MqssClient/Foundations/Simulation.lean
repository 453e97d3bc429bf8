import MqssClient.Foundations.Transition

/-!
# Simulation

A system of labelled steps is compared with an abstract one, which may choose: its steps are a relation.

* `Runs astep a ms a'`: a run of the abstract system;
* `observed step obs s ls`: what is seen from outside of a run, step by step;
* `Simulation`: each step that meets a condition is matched by abstract steps of which the same is seen;
* `Simulation.run`: so is each run of such steps.
-/

namespace Foundations

variable {S L A M O : Type}

/-- A run of the abstract system. -/
inductive Runs (astep : A → M → A → Prop) : A → List M → A → Prop where
  | nil (a : A) : Runs astep a [] a
  | cons {a b c : A} {m : M} {ms : List M} (h : astep a m b) (hrest : Runs astep b ms c) : Runs astep a (m :: ms) c

section Runs

variable {astep : A → M → A → Prop} {a b c : A} {m : M} {ms ms' : List M}

theorem Runs.single (h : astep a m b) : Runs astep a [m] b := .cons h (.nil b)

theorem Runs.append (h : Runs astep a ms b) (h' : Runs astep b ms' c) : Runs astep a (ms ++ ms') c := by
  induction h with
  | nil => exact h'
  | cons hstep _ ih => exact .cons hstep (ih h')

end Runs

/-- What is seen of a run, when `obs` is what is seen of a step. -/
def observed (step : S → L → Option S) (obs : S → L → List O) : S → List L → List O
  | _, [] => []
  | s, l :: ls => obs s l ++ (step s l).elim [] fun s' => observed step obs s' ls

/-- Where `R` relates two states, a step of the one that meets `C` is matched by steps of the other: the same is seen of
them, and the states after it are related. -/
def Simulation (step : S → L → Option S) (obs : S → L → List O) (astep : A → M → A → Prop) (aobs : M → List O)
    (C : S → L → Prop) (R : S → A → Prop) : Prop :=
  ∀ s l s' a, R s a → C s l → step s l = some s' →
    ∃ ms a', Runs astep a ms a' ∧ ms.flatMap aobs = obs s l ∧ R s' a'

variable {step : S → L → Option S} {obs : S → L → List O} {astep : A → M → A → Prop} {aobs : M → List O}
  {C : S → L → Prop} {R : S → A → Prop}

/-- A run whose steps all meet the condition is matched by a run of which the same is seen. -/
theorem Simulation.run (h : Simulation step obs astep aobs C R) {s s' : S} {ls : List L} {a : A} (hR : R s a)
    (hC : AllSteps step C s ls) (hrun : steps step s ls = some s') :
    ∃ ms a', Runs astep a ms a' ∧ ms.flatMap aobs = observed step obs s ls ∧ R s' a' := by
  induction ls generalizing s a with
  | nil =>
    obtain rfl := Option.some.inj hrun
    exact ⟨[], a, .nil a, rfl, hR⟩
  | cons l ls ih =>
    obtain ⟨t, ht, hrest⟩ := (steps_cons step).mp hrun
    obtain ⟨ms, b, hms, hobs, hb⟩ := h s l t a hR hC.1 ht
    obtain ⟨ms', c, hms', hobs', hc⟩ := ih hb (hC.2 t ht) hrest
    refine ⟨ms ++ ms', c, hms.append hms', ?_, hc⟩
    rw [List.flatMap_append, hobs, hobs', observed, ht]
    rfl

end Foundations
