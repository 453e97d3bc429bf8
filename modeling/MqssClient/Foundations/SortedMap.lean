import Mathlib.Order.Lattice
import Mathlib.Data.List.Basic

/-!
# Maps kept as lists sorted by key

`SortedMap κ α` is a list of entries whose keys strictly increase, so each key occurs once and iteration
is in key order. `insertEntry` stores a value at a key, replacing the one stored there; `lookup` reads one.
Storing the entries of a list that is already sorted gives that list back (`entries_ofEntries`).
-/

namespace Foundations

variable {κ α : Type} [LinearOrder κ]

/-- Store `v` at `k` in a list of entries sorted by key. -/
def insertEntry (k : κ) (v : α) : List (κ × α) → List (κ × α)
  | [] => [(k, v)]
  | e :: es =>
    if k < e.1 then (k, v) :: e :: es
    else if k = e.1 then (k, v) :: es
    else e :: insertEntry k v es

/-- The value of the first entry at `k`. -/
def lookup (k : κ) (es : List (κ × α)) : Option α := (es.find? fun e => e.1 = k).map Prod.snd

/-- The keys strictly increase. -/
def Sorted (es : List (κ × α)) : Prop := es.Pairwise fun a b => a.1 < b.1

instance (es : List (κ × α)) : Decidable (Sorted es) := by
  unfold Sorted
  infer_instance

theorem mem_insertEntry {k : κ} {v : α} {es : List (κ × α)} {e : κ × α} (h : e ∈ insertEntry k v es) :
    e = (k, v) ∨ e ∈ es := by
  induction es with
  | nil => simpa [insertEntry] using h
  | cons a es ih =>
    unfold insertEntry at h
    split_ifs at h with h1 h2
    · exact List.mem_cons.mp h
    · rcases List.mem_cons.mp h with h | h
      · exact Or.inl h
      · exact Or.inr (List.mem_cons_of_mem _ h)
    · rcases List.mem_cons.mp h with h | h
      · exact Or.inr (h ▸ List.mem_cons_self)
      · exact (ih h).imp id (List.mem_cons_of_mem _)

theorem Sorted.insertEntry {es : List (κ × α)} (h : Sorted es) (k : κ) (v : α) :
    Sorted (insertEntry k v es) := by
  induction es with
  | nil => exact List.pairwise_singleton _ _
  | cons a es ih =>
    obtain ⟨ha, hes⟩ := List.pairwise_cons.mp h
    unfold Foundations.insertEntry
    split_ifs with h1 h2
    · refine List.pairwise_cons.mpr ⟨fun e he => ?_, h⟩
      rcases List.mem_cons.mp he with rfl | he
      · exact h1
      · exact h1.trans (ha e he)
    · subst h2
      exact List.pairwise_cons.mpr ⟨ha, hes⟩
    · refine List.pairwise_cons.mpr ⟨fun e he => ?_, ih hes⟩
      rcases mem_insertEntry he with rfl | he
      · exact lt_of_le_of_ne (not_lt.mp h1) (Ne.symm h2)
      · exact ha e he

/-- An entry above all others goes to the end. -/
theorem insertEntry_of_lt {k : κ} {v : α} {es : List (κ × α)} (h : ∀ e ∈ es, e.1 < k) :
    insertEntry k v es = es ++ [(k, v)] := by
  induction es with
  | nil => rfl
  | cons a es ih =>
    have ha : a.1 < k := h a List.mem_cons_self
    unfold insertEntry
    rw [if_neg (not_lt.mpr ha.le), if_neg ha.ne', ih fun e he => h e (List.mem_cons_of_mem _ he)]
    rfl

/-- A map from keys to values, iterated in key order. -/
structure SortedMap (κ α : Type) [LinearOrder κ] where
  entries : List (κ × α)
  sorted : Sorted entries

namespace SortedMap

@[ext] theorem ext {m m' : SortedMap κ α} (h : m.entries = m'.entries) : m = m' := by
  cases m
  cases m'
  congr

instance [DecidableEq α] : DecidableEq (SortedMap κ α) := fun m m' =>
  decidable_of_iff (m.entries = m'.entries) ⟨ext, fun h => h ▸ rfl⟩

/-- The map without entries. -/
def empty : SortedMap κ α := ⟨[], List.Pairwise.nil⟩

/-- Store `v` at `k`. -/
def insert (m : SortedMap κ α) (k : κ) (v : α) : SortedMap κ α :=
  ⟨insertEntry k v m.entries, m.sorted.insertEntry k v⟩

/-- Store entries one after the other. -/
def insertAll (m : SortedMap κ α) (es : List (κ × α)) : SortedMap κ α :=
  es.foldl (fun m e => m.insert e.1 e.2) m

/-- The map of a list of entries. -/
def ofEntries (es : List (κ × α)) : SortedMap κ α := empty.insertAll es

theorem entries_insertAll (m : SortedMap κ α) (es : List (κ × α)) (h : Sorted (m.entries ++ es)) :
    (m.insertAll es).entries = m.entries ++ es := by
  induction es generalizing m with
  | nil => rw [insertAll, List.foldl_nil, List.append_nil]
  | cons e es ih =>
    have hlt : ∀ a ∈ m.entries, a.1 < e.1 := fun a ha =>
      (List.pairwise_append.mp h).2.2 a ha e List.mem_cons_self
    have hins : (m.insert e.1 e.2).entries = m.entries ++ [e] := insertEntry_of_lt hlt
    have hrest := ih (m.insert e.1 e.2) (by rw [hins, List.append_assoc]; exact h)
    rw [hins, List.append_assoc] at hrest
    exact hrest

/-- The entries of a sorted list are stored as they stand. -/
theorem entries_ofEntries {es : List (κ × α)} (h : Sorted es) : (ofEntries es).entries = es :=
  entries_insertAll empty es h

end SortedMap

end Foundations
