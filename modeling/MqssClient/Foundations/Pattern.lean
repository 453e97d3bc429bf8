import Mathlib.Data.List.Basic

/-!
# Greedy backtracking patterns

Patterns built from character classes, greedy repetitions of a class, sequences and groups, matched by
backtracking: a repetition takes as many characters as it can and gives them back one at a time when what
follows does not match.

* `Pattern.run`: the matcher, with what follows as a continuation;
* `search`: the leftmost match, and `allMatches`: the matches a scan finds from left to right, each scan
  going on where the last match ended (for patterns that match no empty text);
* `Matches`: what a matched text and its groups look like;
* `matches_of_mem_allMatches`: every match of a scan has that form.

The groups of a match are listed as they close.
-/

namespace Foundations

variable {α : Type}

inductive Pattern (α : Type) : Type where
  | empty
  | one (p : α → Bool)
  | many (p : α → Bool)
  | seq (a b : Pattern α)
  | group (a : Pattern α)

namespace Pattern

/-- One or more characters of a class. -/
def many1 (p : α → Bool) : Pattern α := .seq (.one p) (.many p)

/-- Patterns one after the other. -/
def ofList (l : List (Pattern α)) : Pattern α := l.foldr .seq .empty

/-- The characters of a word, each as itself. -/
def word [DecidableEq α] (w : List α) : Pattern α := ofList (w.map fun c => .one (· = c))

/-- A greedy repetition: the longest run of the class after which `k` succeeds. -/
def greedy {β : Type} (p : α → Bool) (k : List α → Option β) : List α → Option β
  | [] => k []
  | c :: s => if p c then (greedy p k s).or (k (c :: s)) else k (c :: s)

/-- Match at the front of `s`, then go on with `k` on the rest and the groups closed so far. -/
def run {β : Type} : Pattern α → List α → List (List α) → (List α → List (List α) → Option β) → Option β
  | .empty, s, gs, k => k s gs
  | .one _, [], _, _ => none
  | .one p, c :: s, gs, k => if p c then k s gs else none
  | .many p, s, gs, k => greedy p (fun s' => k s' gs) s
  | .seq a b, s, gs, k => a.run s gs fun s' gs' => b.run s' gs' k
  | .group a, s, gs, k => a.run s gs fun s' gs' => k s' (gs' ++ [s.take (s.length - s'.length)])

end Pattern

/-- A matched text with the texts of its groups. -/
structure Match (α : Type) where
  text : List α
  groups : List (List α)

namespace Pattern

/-- The match at the front of `s`, and what follows it. -/
def matchAt (p : Pattern α) (s : List α) : Option (Match α × List α) :=
  p.run s [] fun s' gs => some (⟨s.take (s.length - s'.length), gs⟩, s')

/-- The leftmost match, and what follows it. -/
def search (p : Pattern α) : List α → Option (Match α × List α)
  | [] => p.matchAt []
  | c :: s => (p.matchAt (c :: s)).or (search p s)

/-- The first `n` matches of a scan. -/
def scan (p : Pattern α) : Nat → List α → List (Match α)
  | 0, _ => []
  | n + 1, s =>
    match p.search s with
    | none => []
    | some (m, rest) => m :: scan p n rest

/-- The matches of a scan; a text has at most as many of them as characters. -/
def allMatches (p : Pattern α) (s : List α) : List (Match α) := p.scan s.length s

/-- The pattern matches the text with these groups. -/
inductive Matches : Pattern α → List α → List (List α) → Prop
  | empty : Matches .empty [] []
  | one {p : α → Bool} {c : α} (h : p c) : Matches (.one p) [c] []
  | many {p : α → Bool} {w : List α} (h : ∀ c ∈ w, p c) : Matches (.many p) w []
  | seq {a b : Pattern α} {u v : List α} {gs hs : List (List α)} (ha : Matches a u gs) (hb : Matches b v hs) :
      Matches (.seq a b) (u ++ v) (gs ++ hs)
  | group {a : Pattern α} {u : List α} {gs : List (List α)} (ha : Matches a u gs) :
      Matches (.group a) u (gs ++ [u])

theorem greedy_eq_some {β : Type} {p : α → Bool} {k : List α → Option β} {s : List α} {r : β}
    (h : greedy p k s = some r) : ∃ w s', s = w ++ s' ∧ (∀ c ∈ w, p c) ∧ k s' = some r := by
  induction s with
  | nil => exact ⟨[], [], rfl, by simp, h⟩
  | cons c s ih =>
    unfold greedy at h
    split_ifs at h with hc
    · rcases Option.or_eq_some_iff.mp h with h | ⟨-, h⟩
      · obtain ⟨w, s', rfl, hw, hk⟩ := ih h
        refine ⟨c :: w, s', rfl, fun d hd => ?_, hk⟩
        rcases List.mem_cons.mp hd with rfl | hd
        · exact hc
        · exact hw d hd
      · exact ⟨[], c :: s, rfl, by simp, h⟩
    · exact ⟨[], c :: s, rfl, by simp, h⟩

theorem take_append_sub (u v : List α) : (u ++ v).take ((u ++ v).length - v.length) = u := by
  rw [List.length_append, Nat.add_sub_cancel, List.take_left]

/-- A successful run consumes a text of the pattern and goes on behind it. -/
theorem run_eq_some {β : Type} (a : Pattern α) {s : List α} {gs : List (List α)}
    {k : List α → List (List α) → Option β} {r : β} (h : a.run s gs k = some r) :
    ∃ u s' hs, s = u ++ s' ∧ Matches a u hs ∧ k s' (gs ++ hs) = some r := by
  induction a generalizing β s gs k r with
  | empty => exact ⟨[], s, [], rfl, .empty, by rw [List.append_nil]; exact h⟩
  | one p =>
    cases s with
    | nil => cases h
    | cons c s =>
      unfold run at h
      split_ifs at h with hc
      exact ⟨[c], s, [], rfl, .one hc, by rw [List.append_nil]; exact h⟩
  | many p =>
    obtain ⟨w, s', rfl, hw, hk⟩ := greedy_eq_some h
    exact ⟨w, s', [], rfl, .many hw, by rw [List.append_nil]; exact hk⟩
  | seq a b iha ihb =>
    obtain ⟨u, s', hs, rfl, ha, hk⟩ := iha h
    obtain ⟨v, s'', hs', rfl, hb, hk⟩ := ihb hk
    exact ⟨u ++ v, s'', hs ++ hs', (List.append_assoc _ _ _).symm, .seq ha hb,
      by rw [← List.append_assoc]; exact hk⟩
  | group a ih =>
    obtain ⟨u, s', hs, rfl, ha, hk⟩ := ih h
    rw [take_append_sub, List.append_assoc] at hk
    exact ⟨u, s', hs ++ [u], rfl, .group ha, hk⟩

theorem matchAt_eq_some {p : Pattern α} {s s' : List α} {m : Match α} (h : p.matchAt s = some (m, s')) :
    s = m.text ++ s' ∧ Matches p m.text m.groups := by
  obtain ⟨u, rest, gs, rfl, hm, hk⟩ := run_eq_some p h
  rw [take_append_sub, List.nil_append, Option.some.injEq, Prod.mk.injEq] at hk
  obtain ⟨rfl, rfl⟩ := hk
  exact ⟨rfl, hm⟩

theorem search_eq_some {p : Pattern α} {s s' : List α} {m : Match α} (h : p.search s = some (m, s')) :
    (∃ before, s = before ++ m.text ++ s') ∧ Matches p m.text m.groups := by
  induction s with
  | nil =>
    obtain ⟨hs, hm⟩ := matchAt_eq_some h
    exact ⟨⟨[], hs⟩, hm⟩
  | cons c s ih =>
    rcases Option.or_eq_some_iff.mp h with h | ⟨-, h⟩
    · obtain ⟨hs, hm⟩ := matchAt_eq_some h
      exact ⟨⟨[], hs⟩, hm⟩
    · obtain ⟨⟨before, hs⟩, hm⟩ := ih h
      exact ⟨⟨c :: before, by rw [hs]; rfl⟩, hm⟩

theorem matches_of_mem_scan {p : Pattern α} {n : Nat} {s : List α} {m : Match α} (h : m ∈ p.scan n s) :
    Matches p m.text m.groups := by
  induction n generalizing s with
  | zero => cases h
  | succ n ih =>
    unfold scan at h
    split at h
    · cases h
    · next m' rest hs =>
      rcases List.mem_cons.mp h with rfl | h
      · exact (search_eq_some hs).2
      · exact ih h

/-- Every match of a scan is a match of the pattern. -/
theorem matches_of_mem_allMatches {p : Pattern α} {s : List α} {m : Match α} (h : m ∈ p.allMatches s) :
    Matches p m.text m.groups := matches_of_mem_scan h

/-! ## Reading the parts of a match -/

section Inversion

variable {a b : Pattern α} {p : α → Bool} {w : List α} {gs : List (List α)}

theorem matches_empty_iff : Matches (.empty : Pattern α) w gs ↔ w = [] ∧ gs = [] := by
  constructor
  · intro h
    cases h
    exact ⟨rfl, rfl⟩
  · rintro ⟨rfl, rfl⟩
    exact .empty

theorem matches_one_iff : Matches (.one p) w gs ↔ (∃ c, p c ∧ w = [c]) ∧ gs = [] := by
  constructor
  · intro h
    cases h with
    | one hc => exact ⟨⟨_, hc, rfl⟩, rfl⟩
  · rintro ⟨⟨c, hc, rfl⟩, rfl⟩
    exact .one hc

theorem matches_many_iff : Matches (.many p) w gs ↔ (∀ c ∈ w, p c) ∧ gs = [] := by
  constructor
  · intro h
    cases h with
    | many hw => exact ⟨hw, rfl⟩
  · rintro ⟨h, rfl⟩
    exact .many h

theorem matches_seq_iff : Matches (.seq a b) w gs ↔
    ∃ u v hs hs', w = u ++ v ∧ gs = hs ++ hs' ∧ Matches a u hs ∧ Matches b v hs' := by
  constructor
  · intro h
    cases h with
    | seq ha hb => exact ⟨_, _, _, _, rfl, rfl, ha, hb⟩
  · rintro ⟨u, v, hs, hs', rfl, rfl, ha, hb⟩
    exact .seq ha hb

theorem matches_group_iff : Matches (.group a) w gs ↔ ∃ hs, gs = hs ++ [w] ∧ Matches a w hs := by
  constructor
  · intro h
    cases h with
    | group ha => exact ⟨_, rfl, ha⟩
  · rintro ⟨hs, rfl, h⟩
    exact .group h

/-- A match of patterns one after the other begins with a match of the first. -/
theorem matches_ofList_cons {l : List (Pattern α)} (h : Matches (.ofList (a :: l)) w gs) :
    ∃ u v hs hs', w = u ++ v ∧ gs = hs ++ hs' ∧ Matches a u hs ∧ Matches (.ofList l) v hs' :=
  matches_seq_iff.mp h

theorem matches_many1 (h : Matches (.many1 p) w gs) : w ≠ [] ∧ (∀ c ∈ w, p c) ∧ gs = [] := by
  obtain ⟨u, v, hs, hs', rfl, rfl, ha, hb⟩ := matches_seq_iff.mp h
  obtain ⟨⟨c, hc, rfl⟩, rfl⟩ := matches_one_iff.mp ha
  obtain ⟨hv, rfl⟩ := matches_many_iff.mp hb
  refine ⟨by simp, fun d hd => ?_, rfl⟩
  rcases List.mem_cons.mp hd with rfl | hd
  · exact hc
  · exact hv d hd

theorem matches_word [DecidableEq α] {s : List α} (h : Matches (.word s) w gs) : w = s ∧ gs = [] := by
  induction s generalizing w gs with
  | nil => exact matches_empty_iff.mp h
  | cons c s ih =>
    obtain ⟨u, v, hs, hs', rfl, rfl, ha, hb⟩ := matches_seq_iff.mp h
    obtain ⟨⟨d, hd, rfl⟩, rfl⟩ := matches_one_iff.mp ha
    obtain ⟨rfl, rfl⟩ := ih hb
    have hdc : d = c := by simpa using hd
    exact ⟨by rw [hdc]; rfl, rfl⟩

end Inversion

end Pattern

end Foundations
