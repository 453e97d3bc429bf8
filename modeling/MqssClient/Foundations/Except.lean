import Mathlib.Data.List.Forall2

/-!
# Computations that may raise an exception

Inversion rules for `Except`: what a sequence, a map over a list or a handler must have done to return, and
when it returns at all. `Returns x` says that `x` raises nothing.
-/

namespace Foundations

variable {ε α β : Type}

/-- The computation returns a value. -/
def Returns (x : Except ε α) : Prop := ∃ a, x = .ok a

instance (x : Except ε α) : Decidable (Returns x) :=
  match x with
  | .ok a => .isTrue ⟨a, rfl⟩
  | .error _ => .isFalse (by rintro ⟨a, h⟩; cases h)

@[simp] theorem returns_ok (a : α) : Returns (.ok a : Except ε α) := ⟨a, rfl⟩

@[simp] theorem not_returns_error (e : ε) : ¬ Returns (.error e : Except ε α) := by
  rintro ⟨a, h⟩
  cases h

@[simp] theorem ok_bind (a : α) (f : α → Except ε β) : (Except.ok a >>= f) = f a := rfl

@[simp] theorem error_bind (e : ε) (f : α → Except ε β) : (Except.error e >>= f) = .error e := rfl

@[simp] theorem pure_eq_ok (a : α) : (pure a : Except ε α) = .ok a := rfl

theorem bind_eq_ok {x : Except ε α} {f : α → Except ε β} {b : β} :
    (x >>= f) = .ok b ↔ ∃ a, x = .ok a ∧ f a = .ok b := by
  cases x <;> simp

theorem bind_eq_error {x : Except ε α} {f : α → Except ε β} {e : ε} :
    (x >>= f) = .error e ↔ x = .error e ∨ ∃ a, x = .ok a ∧ f a = .error e := by
  cases x <;> simp

theorem returns_bind {x : Except ε α} {f : α → Except ε β} :
    Returns (x >>= f) ↔ ∃ a, x = .ok a ∧ Returns (f a) := by
  cases x <;> simp

/-- A sequence whose second part cannot fail returns when its first part does. -/
theorem returns_bind_ok {x : Except ε α} {f : α → β} : Returns (x >>= fun a => .ok (f a)) ↔ Returns x := by
  cases x <;> simp

/-- A table that returns has returned its first value, or the rest of it has. -/
theorem ok_or_of_ite {c : Prop} [Decidable c] {a b : α} {x : Except ε α} (h : (if c then .ok a else x) = .ok b) :
    a = b ∨ x = .ok b := by
  split_ifs at h
  · exact Or.inl (Except.ok.inj h)
  · exact Or.inr h

theorem mapM_eq_ok {f : α → Except ε β} {l : List α} {r : List β} :
    l.mapM f = .ok r ↔ List.Forall₂ (fun a b => f a = .ok b) l r := by
  induction l generalizing r with
  | nil => simp [eq_comm]
  | cons a l ih =>
    rw [List.mapM_cons, bind_eq_ok]
    constructor
    · rintro ⟨b, hb, h⟩
      obtain ⟨bs, hbs, h⟩ := bind_eq_ok.mp h
      cases h
      exact .cons hb (ih.mp hbs)
    · intro h
      cases h with
      | cons hb hbs => exact ⟨_, hb, bind_eq_ok.mpr ⟨_, ih.mpr hbs, rfl⟩⟩

theorem exists_mem_of_forall₂ {R : α → β → Prop} {l : List α} {r : List β} (h : List.Forall₂ R l r) {a : α} (ha : a ∈ l) :
    ∃ b ∈ r, R a b := by
  induction h with
  | nil => cases ha
  | cons hab _ ih =>
    rcases List.mem_cons.mp ha with rfl | ha
    · exact ⟨_, List.mem_cons_self, hab⟩
    · obtain ⟨b, hb, hR⟩ := ih ha
      exact ⟨b, List.mem_cons_of_mem _ hb, hR⟩

theorem exists_of_mem_mapM {f : α → Except ε β} {l : List α} {r : List β} (h : l.mapM f = .ok r) {b : β}
    (hb : b ∈ r) : ∃ a ∈ l, f a = .ok b :=
  exists_mem_of_forall₂ (mapM_eq_ok.mp h).flip hb

theorem exists_of_mapM_eq_error {f : α → Except ε β} {l : List α} {e : ε} (h : l.mapM f = .error e) :
    ∃ a ∈ l, f a = .error e := by
  induction l with
  | nil => cases h
  | cons a l ih =>
    rw [List.mapM_cons] at h
    rcases bind_eq_error.mp h with h | ⟨b, -, h⟩
    · exact ⟨a, List.mem_cons_self, h⟩
    · rcases bind_eq_error.mp h with h | ⟨bs, -, h⟩
      · obtain ⟨a', ha', h⟩ := ih h
        exact ⟨a', List.mem_cons_of_mem a ha', h⟩
      · cases h

/-- A computation whose only exception is `e` raises it exactly when it does not return. -/
theorem eq_error_iff_not_returns {x : Except ε α} {e : ε} (h : ∀ e', x = .error e' → e' = e) :
    x = .error e ↔ ¬ Returns x := by
  cases x with
  | ok a => simp
  | error e' =>
    obtain rfl := h e' rfl
    simp

theorem returns_mapM {f : α → Except ε β} {l : List α} : Returns (l.mapM f) ↔ ∀ a ∈ l, Returns (f a) := by
  induction l with
  | nil => simp
  | cons a l ih =>
    rw [List.mapM_cons, returns_bind, List.forall_mem_cons, ← ih]
    constructor
    · rintro ⟨b, hb, h⟩
      obtain ⟨bs, hbs, -⟩ := returns_bind.mp h
      exact ⟨⟨b, hb⟩, ⟨bs, hbs⟩⟩
    · rintro ⟨⟨b, hb⟩, ⟨bs, hbs⟩⟩
      exact ⟨b, hb, returns_bind.mpr ⟨bs, hbs, returns_ok _⟩⟩

end Foundations
