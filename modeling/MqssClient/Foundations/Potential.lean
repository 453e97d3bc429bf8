import MqssClient.Foundations.Transition
import Mathlib.Data.Nat.Init

/-!
# Potentials

A potential `μ` says how much a system still has to do. A step uses some of it up, and may bring more.

* `tally step w s ls`: what the steps of a run weigh together;
* `steps_potential`: what is left after a run and what it used up are what it brought and what was left before;
* `exists_steps_stuck`: steps that only use up come to an end.
-/

namespace Foundations

variable {S L : Type} (step : S → L → Option S)

/-- What the steps of a run weigh together. -/
def tally (w : S → L → Nat) : S → List L → Nat
  | _, [] => 0
  | s, l :: ls => w s l + (step s l).elim 0 fun s' => tally w s' ls

variable {step} {I : S → Prop} {C : S → L → Prop} {μ : S → Nat} {w c : S → L → Nat}

theorem tally_cons (w : S → L → Nat) {s s' : S} {l : L} (ls : List L) (h : step s l = some s') :
    tally step w s (l :: ls) = w s l + tally step w s' ls := by
  rw [tally, h, Option.elim_some]

theorem tally_one {s s' : S} {ls : List L} (hrun : steps step s ls = some s') :
    tally step (fun _ _ => 1) s ls = ls.length := by
  induction ls generalizing s with
  | nil => rfl
  | cons l ls ih =>
    obtain ⟨t, ht, hrest⟩ := (steps_cons step).mp hrun
    rw [tally_cons _ ls ht, ih hrest, List.length_cons, Nat.add_comm]

theorem tally_eq_zero {s : S} {ls : List L} (h : ∀ l ∈ ls, ∀ s, w s l = 0) : tally step w s ls = 0 := by
  induction ls generalizing s with
  | nil => rfl
  | cons l ls ih =>
    rw [tally, h l List.mem_cons_self s, Nat.zero_add]
    cases step s l with
    | none => rfl
    | some t => exact ih fun l' hl' => h l' (List.mem_cons_of_mem _ hl')

/-- What each step accounts for, a run accounts for. -/
theorem steps_potential (hinv : ∀ s l s', I s → C s l → step s l = some s' → I s')
    (hstep : ∀ s l s', I s → C s l → step s l = some s' → μ s' + w s l = μ s + c s l) {s s' : S} {ls : List L}
    (h0 : I s) (hC : AllSteps step C s ls) (hrun : steps step s ls = some s') :
    μ s' + tally step w s ls = μ s + tally step c s ls := by
  induction ls generalizing s with
  | nil =>
    obtain rfl := Option.some.inj hrun
    rfl
  | cons l ls ih =>
    obtain ⟨t, ht, hrest⟩ := (steps_cons step).mp hrun
    have hone := hstep s l t h0 hC.1 ht
    have hmore := ih (hinv s l t h0 hC.1 ht) (hC.2 t ht) hrest
    rw [tally_cons w ls ht, tally_cons c ls ht]
    omega

/-- Where each of some steps uses up potential, a run of them goes on until none is possible. -/
theorem exists_steps_stuck {D : L → Prop} (hinv : ∀ s l s', I s → D l → step s l = some s' → I s')
    (hstep : ∀ s l s', I s → D l → step s l = some s' → μ s' < μ s) (s : S) (h0 : I s) :
    ∃ ls s', (∀ l ∈ ls, D l) ∧ steps step s ls = some s' ∧ ∀ l, D l → step s' l = none := by
  induction hμ : μ s using Nat.strong_induction_on generalizing s with
  | _ n ih =>
    by_cases hstuck : ∀ l, D l → step s l = none
    · exact ⟨[], s, (by simp), rfl, hstuck⟩
    · push Not at hstuck
      obtain ⟨l, hl, hsome⟩ := hstuck
      obtain ⟨t, ht⟩ := Option.ne_none_iff_exists'.mp hsome
      obtain ⟨ls, s', hls, hrun, hend⟩ := ih (μ t) (hμ ▸ hstep s l t h0 hl ht) t (hinv s l t h0 hl ht) rfl
      refine ⟨l :: ls, s', fun l' hl' => ?_, (steps_cons step).mpr ⟨t, ht, hrun⟩, hend⟩
      rcases List.mem_cons.mp hl' with rfl | hl'
      · exact hl
      · exact hls l' hl'

end Foundations
