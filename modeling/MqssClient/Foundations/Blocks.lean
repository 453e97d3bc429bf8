import Mathlib.Data.List.Basic

/-!
# Cutting a list into blocks

A list of rows is often passed on as the list of their elements, to be cut into blocks of one length again.

* `blocks n k l`: the first `k` blocks of length `n`; `cut n l`: as many as there are;
* `CutsBack n l rows`: cutting `l` leaves nothing over and gives `rows`;
* `cutsBack_iff`: it does exactly when the rows follow each other in `l` and each has length `n`.
-/

namespace Foundations

variable {α : Type}

/-- The first `k` blocks of length `n`. -/
def blocks (n : Nat) : Nat → List α → List (List α)
  | 0, _ => []
  | k + 1, l => l.take n :: blocks n k (l.drop n)

/-- All blocks of length `n`; what is left over at the end is dropped. -/
def cut (n : Nat) (l : List α) : List (List α) := blocks n (l.length / n) l

/-- Cutting `l` leaves nothing over and gives `rows`. -/
def CutsBack (n : Nat) (l : List α) (rows : List (List α)) : Prop := n ∣ l.length ∧ cut n l = rows

theorem blocks_flatten {n : Nat} {rows : List (List α)} (h : ∀ row ∈ rows, row.length = n) :
    blocks n rows.length rows.flatten = rows := by
  induction rows with
  | nil => rfl
  | cons row rows ih =>
    obtain ⟨hrow, hrows⟩ := List.forall_mem_cons.mp h
    rw [List.length_cons, List.flatten_cons, blocks, ← hrow, List.take_left, List.drop_left, hrow, ih hrows]

theorem flatten_blocks {n k : Nat} {l : List α} (h : l.length = n * k) : (blocks n k l).flatten = l := by
  induction k generalizing l with
  | zero => exact (List.eq_nil_of_length_eq_zero h).symm
  | succ k ih =>
    rw [Nat.mul_succ] at h
    rw [blocks, List.flatten_cons, ih (by rw [List.length_drop]; omega), List.take_append_drop]

theorem length_of_mem_blocks {n k : Nat} {l row : List α} (h : l.length = n * k) (hrow : row ∈ blocks n k l) :
    row.length = n := by
  induction k generalizing l with
  | zero => cases hrow
  | succ k ih =>
    rw [Nat.mul_succ] at h
    rcases List.mem_cons.mp hrow with rfl | hrow
    · rw [List.length_take]
      omega
    · exact ih (by rw [List.length_drop]; omega) hrow

theorem length_flatten_of_rows {n : Nat} {rows : List (List α)} (h : ∀ row ∈ rows, row.length = n) :
    rows.flatten.length = n * rows.length := by
  induction rows with
  | nil => simp
  | cons row rows ih =>
    obtain ⟨hrow, hrows⟩ := List.forall_mem_cons.mp h
    rw [List.flatten_cons, List.length_append, ih hrows, hrow, List.length_cons, Nat.mul_succ, Nat.add_comm]

theorem cutsBack_iff {n : Nat} (hn : 0 < n) {l : List α} {rows : List (List α)} :
    CutsBack n l rows ↔ rows.flatten = l ∧ ∀ row ∈ rows, row.length = n := by
  constructor
  · rintro ⟨hdvd, rfl⟩
    have hlen : l.length = n * (l.length / n) := (Nat.mul_div_cancel' hdvd).symm
    exact ⟨flatten_blocks hlen, fun row hrow => length_of_mem_blocks hlen hrow⟩
  · rintro ⟨rfl, hrows⟩
    have hlen := length_flatten_of_rows hrows
    refine ⟨⟨rows.length, hlen⟩, ?_⟩
    rw [cut, hlen, Nat.mul_div_cancel_left _ hn, blocks_flatten hrows]

end Foundations
