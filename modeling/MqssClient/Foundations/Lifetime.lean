import Mathlib.Data.List.Basic

/-!
# Objects and their lifetimes

Events make objects at addresses, change them and delete them. An address may be used again for another object.

* `Objects`, `Objects.apply`: what an event makes of the objects at their addresses;
* `Objects.Lives log a o since`: in the log, whose last event comes first, `o` was made at `a` before the events `since`,
  and still is there;
* `apply_foldr_iff`: what is at an address after a run is the object that lives there, with what happened to it since.
-/

namespace Foundations

variable {E κ α : Type}

/-- What an event makes, what it deletes, and how it changes the object at an address. -/
structure Objects (E κ α : Type) where
  born : E → List (κ × α)
  freed : E → Option κ
  update : E → κ → α → α

namespace Objects

variable [DecidableEq κ] (O : Objects E κ α)

/-- The objects after an event. -/
def apply (e : E) (heap : κ → Option α) (a : κ) : Option α :=
  match (O.born e).lookup a with
  | some o => some o
  | none => if O.freed e = some a then none else (heap a).map (O.update e a)

/-- The address was given to `o` before the events `since`, of which none gave it to another object or deleted it. -/
def Lives (log : List E) (a : κ) (o : α) (since : List E) : Prop :=
  ∃ e before, log = since ++ e :: before ∧ (O.born e).lookup a = some o ∧
    ∀ d ∈ since, (O.born d).lookup a = none ∧ O.freed d ≠ some a

/-- An object after some events, the last one first. -/
def after (a : κ) (o : α) (since : List E) : α := since.foldr (fun e o => O.update e a o) o

variable {O} {a : κ} {o : α} {e : E} {log since : List E}

theorem not_lives_nil : ¬ O.Lives [] a o since := by
  rintro ⟨e, before, h, -⟩
  cases since <;> cases h

theorem lives_cons_of_born (h : (O.born e).lookup a = some o) {o' : α} :
    O.Lives (e :: log) a o' since ↔ since = [] ∧ o' = o := by
  constructor
  · rintro ⟨e', before, heq, hborn, hsince⟩
    cases since with
    | nil =>
      cases heq
      exact ⟨rfl, Option.some.inj (hborn.symm.trans h)⟩
    | cons d since =>
      cases heq
      cases h.symm.trans (hsince e List.mem_cons_self).1
  · rintro ⟨rfl, rfl⟩
    exact ⟨e, log, rfl, h, fun d hd => by cases hd⟩

theorem lives_cons_of_not_born (h : (O.born e).lookup a = none) :
    O.Lives (e :: log) a o since ↔ O.freed e ≠ some a ∧ ∃ since', since = e :: since' ∧ O.Lives log a o since' := by
  constructor
  · rintro ⟨e', before, heq, hborn, hsince⟩
    cases since with
    | nil =>
      cases heq
      cases h.symm.trans hborn
    | cons d since =>
      cases heq
      exact ⟨(hsince e List.mem_cons_self).2, since, rfl, e', before, rfl, hborn,
        fun d hd => hsince d (List.mem_cons_of_mem _ hd)⟩
  · rintro ⟨hfreed, since, rfl, e', before, rfl, hborn, hsince⟩
    exact ⟨e', before, rfl, hborn, List.forall_mem_cons.mpr ⟨⟨h, hfreed⟩, hsince⟩⟩

/-- What is at an address after a run, from nothing. -/
theorem apply_foldr_iff : log.foldr O.apply (fun _ => none) a = some o ↔
    ∃ born since, O.Lives log a born since ∧ o = O.after a born since := by
  induction log generalizing o with
  | nil =>
    refine iff_of_false (fun h => by cases h) ?_
    rintro ⟨born, since, h, -⟩
    exact not_lives_nil h
  | cons e log ih =>
    rw [List.foldr_cons, apply]
    cases hborn : (O.born e).lookup a with
    | some born =>
      simp only [lives_cons_of_born hborn, Option.some.injEq]
      constructor
      · rintro rfl
        exact ⟨born, [], ⟨rfl, rfl⟩, rfl⟩
      · rintro ⟨_, _, ⟨rfl, rfl⟩, rfl⟩
        rfl
    | none =>
      simp only [lives_cons_of_not_born hborn]
      by_cases hfreed : O.freed e = some a
      · rw [if_pos hfreed]
        refine iff_of_false (fun h => by cases h) ?_
        rintro ⟨born, since, ⟨hne, -⟩, -⟩
        exact hne hfreed
      · rw [if_neg hfreed, Option.map_eq_some_iff]
        constructor
        · rintro ⟨o', ho', rfl⟩
          obtain ⟨born, since, hlives, rfl⟩ := ih.mp ho'
          exact ⟨born, e :: since, ⟨hfreed, since, rfl, hlives⟩, rfl⟩
        · rintro ⟨born, _, ⟨-, since, rfl, hlives⟩, rfl⟩
          exact ⟨_, ih.mpr ⟨born, since, hlives, rfl⟩, rfl⟩

end Objects

end Foundations
