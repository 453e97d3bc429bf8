import MqssClient.Foundations.Pattern
import Mathlib.Data.List.TakeWhile

/-!
# Scans of texts with a known form

* `greedy_eq_of_rejects`, `run_many_append`, `run_many1_append`: a repetition takes the whole run of its class when what
  follows rejects the characters of the class;
* `strip`, `run_word`: a word at the front of a text;
* `Inert`: a text in which no match begins;
* `allMatches_eq`: a scan, one match after the other;
* `allMatches_intercalate`: the scan of a list with separators;
* `runs`, `allMatches_many1`: the scan for the longest runs of a class.
-/

namespace Foundations

namespace Pattern

variable {α β : Type} {p : α → Bool}

/-! ## Repetitions that give nothing back -/

theorem greedy_eq_of_rejects {k : List α → Option β} (hk : ∀ c s, p c → k (c :: s) = none) (s : List α) :
    greedy p k s = k (s.dropWhile p) := by
  induction s with
  | nil => rfl
  | cons c s ih =>
    unfold greedy
    by_cases hc : p c
    · rw [if_pos hc, hk c s hc, Option.or_none, ih, List.dropWhile_cons_of_pos hc]
    · rw [if_neg hc, List.dropWhile_cons_of_neg hc]

theorem greedy_eq_of_accepts {k : List α → Option β} (hk : ∀ s, (k s).isSome) (s : List α) :
    greedy p k s = k (s.dropWhile p) := by
  induction s with
  | nil => rfl
  | cons c s ih =>
    unfold greedy
    by_cases hc : p c
    · rw [if_pos hc, ih, Option.or_of_isSome (hk _), List.dropWhile_cons_of_pos hc]
    · rw [if_neg hc, List.dropWhile_cons_of_neg hc]

theorem dropWhile_append_cons {c : α} (hc : ¬ p c) (t s : List α) :
    (t ++ c :: s).dropWhile p = t.dropWhile p ++ c :: s := by
  induction t with
  | nil => exact List.dropWhile_cons_of_neg hc
  | cons d t ih =>
    by_cases hd : p d
    · rw [List.cons_append, List.dropWhile_cons_of_pos hd, List.dropWhile_cons_of_pos hd, ih]
    · rw [List.cons_append, List.dropWhile_cons_of_neg hd, List.dropWhile_cons_of_neg hd, List.cons_append]

theorem dropWhile_append_self {w s : List α} (hw : ∀ c ∈ w, p c) (hs : ∀ c ∈ s.head?, ¬ p c) :
    (w ++ s).dropWhile p = s := by
  rw [List.dropWhile_append_of_pos hw]
  cases s with
  | nil => rfl
  | cons c s => exact List.dropWhile_cons_of_neg (hs c rfl)

variable {k : List α → List (List α) → Option β} {w s : List α} {gs : List (List α)}

theorem run_many_of_rejects (hk : ∀ c s, p c → k (c :: s) gs = none) :
    (many p).run s gs k = k (s.dropWhile p) gs :=
  greedy_eq_of_rejects hk s

theorem run_many_append (hw : ∀ c ∈ w, p c) (hs : ∀ c ∈ s.head?, ¬ p c) (hk : ∀ c s, p c → k (c :: s) gs = none) :
    (many p).run (w ++ s) gs k = k s gs := by
  rw [run_many_of_rejects hk, dropWhile_append_self hw hs]

theorem run_many1_append (hne : w ≠ []) (hw : ∀ c ∈ w, p c) (hs : ∀ c ∈ s.head?, ¬ p c)
    (hk : ∀ c s, p c → k (c :: s) gs = none) : (many1 p).run (w ++ s) gs k = k s gs := by
  obtain ⟨c, w, rfl⟩ := List.exists_cons_of_ne_nil hne
  obtain ⟨hc, hw⟩ := List.forall_mem_cons.mp hw
  rw [many1, run, List.cons_append, run, if_pos hc, run_many_append hw hs hk]

theorem run_group_many_append (hw : ∀ c ∈ w, p c) (hs : ∀ c ∈ s.head?, ¬ p c)
    (hk : ∀ c s gs, p c → k (c :: s) gs = none) :
    (group (many p)).run (w ++ s) gs k = k s (gs ++ [w]) := by
  rw [run, run_many_append hw hs, take_append_sub]
  exact fun c s hc => hk c s _ hc

theorem run_group_many1_append (hne : w ≠ []) (hw : ∀ c ∈ w, p c) (hs : ∀ c ∈ s.head?, ¬ p c)
    (hk : ∀ c s gs, p c → k (c :: s) gs = none) :
    (group (many1 p)).run (w ++ s) gs k = k s (gs ++ [w]) := by
  rw [run, run_many1_append hne hw hs, take_append_sub]
  exact fun c s hc => hk c s _ hc

theorem run_one_of_not {c : α} (h : ¬ p c) : (one p).run (c :: s) gs k = none := by
  rw [run, if_neg h]

theorem run_one {c : α} (h : p c) : (one p).run (c :: s) gs k = k s gs := by
  rw [run, if_pos h]

theorem run_group_many1_of_head (h : ∀ c ∈ s.head?, ¬ p c) : (group (many1 p)).run s gs k = none := by
  cases s with
  | nil => rfl
  | cons c s => rw [run, many1, run, run_one_of_not (h c rfl)]

theorem run_ofList_cons (a : Pattern α) (l : List (Pattern α)) :
    (ofList (a :: l)).run s gs k = a.run s gs fun s' gs' => (ofList l).run s' gs' k := rfl

section Word

variable [DecidableEq α]

/-- What follows a word at the front of a text. -/
def strip : List α → List α → Option (List α)
  | [], s => some s
  | _ :: _, [] => none
  | c :: w, d :: s => if d = c then strip w s else none

theorem strip_eq_some_iff {w s t : List α} : strip w s = some t ↔ s = w ++ t := by
  induction w generalizing s with
  | nil => simp [strip]
  | cons c w ih =>
    cases s with
    | nil => simp [strip]
    | cons d s => simp [strip, ih]

/-- A character that is not in the word, and what follows it, play no part. -/
theorem strip_append_cons {c : α} {w : List α} (hc : c ∉ w) (t s : List α) :
    strip w (t ++ c :: s) = (strip w t).map (· ++ c :: s) := by
  induction w generalizing t with
  | nil => rfl
  | cons d w ih =>
    obtain ⟨hcd, hc⟩ := List.ne_and_not_mem_of_not_mem_cons hc
    cases t with
    | nil => exact if_neg hcd
    | cons e t =>
      rw [List.cons_append, strip, strip]
      split_ifs
      · exact ih hc t
      · rfl

theorem run_word (w s : List α) : (word w).run s gs k = (strip w s).bind fun s' => k s' gs := by
  induction w generalizing s with
  | nil => rfl
  | cons c w ih =>
    cases s with
    | nil => rfl
    | cons d s =>
      have hone : (word (c :: w)).run (d :: s) gs k = if d = c then (word w).run s gs k else none := by
        show (if decide (d = c) then (word w).run s gs k else none) = _
        simp only [decide_eq_true_eq]
      rw [hone, strip, ih]
      split_ifs <;> rfl

theorem run_word_append (w s : List α) : (word w).run (w ++ s) gs k = k s gs := by
  rw [run_word, strip_eq_some_iff.mpr rfl, Option.bind_some]

theorem run_word_of_ne {c d : α} (h : d ≠ c) : (word (c :: w)).run (d :: s) gs k = none := by
  rw [run_word, strip, if_neg h, Option.bind_none]

/-- A fixed character outside the class rejects the class. -/
theorem run_word_of_class {c : α} (h : ¬ p c) (d : α) (s : List α) (gs : List (List α)) (hd : p d) :
    (word (c :: w)).run (d :: s) gs k = none :=
  run_word_of_ne fun hdc => h (hdc ▸ hd)

end Word

/-! ## Where a match begins -/

variable {a : Pattern α}

theorem search_of_matchAt {r : Match α × List α} (h : a.matchAt s = some r) : a.search s = some r := by
  cases s with
  | nil => exact h
  | cons c s => rw [search, h, Option.some_or]

theorem search_cons {c : α} (h : a.matchAt (c :: s) = none) : a.search (c :: s) = a.search s := by
  rw [search, h, Option.none_or]

/-- No match begins in the text. -/
def Inert (a : Pattern α) (w : List α) : Prop := ∀ s, a.search (w ++ s) = a.search s

theorem inert_of_matchAt (h : ∀ c ∈ w, ∀ s, a.matchAt (c :: s) = none) : Inert a w := by
  intro s
  induction w with
  | nil => rfl
  | cons c w ih =>
    rw [List.cons_append, search_cons (h c List.mem_cons_self _), ih fun d hd => h d (List.mem_cons_of_mem c hd)]

theorem Inert.append {w' : List α} (h : Inert a w) (h' : Inert a w') : Inert a (w ++ w') := by
  intro s
  rw [List.append_assoc, h, h']

/-- A pattern that begins with a fixed character finds nothing in a text without it. -/
theorem inert_of_word [DecidableEq α] {c : α} {v : List α} {l : List (Pattern α)} (h : c ∉ w) :
    Inert (ofList (word (c :: v) :: l)) w :=
  inert_of_matchAt fun _ hd _ => run_word_of_ne fun hdc => h (hdc ▸ hd)

/-! ## One match after the other -/

/-- A pattern that matches no empty text. -/
def Consuming (a : Pattern α) : Prop := ∀ w gs, Matches a w gs → w ≠ []

theorem Consuming.search_nil (ha : Consuming a) : a.search [] = none := by
  cases h : a.search [] with
  | none => rfl
  | some r =>
    obtain ⟨⟨before, hs⟩, hm⟩ := search_eq_some h
    simp only [List.nil_eq, List.append_eq_nil_iff] at hs
    exact absurd hs.1.2 (ha _ _ hm)

theorem Consuming.length_lt (ha : Consuming a) {m : Match α} {rest : List α} (h : a.search s = some (m, rest)) :
    rest.length < s.length := by
  obtain ⟨⟨before, rfl⟩, hm⟩ := search_eq_some h
  have hpos := List.length_pos_iff.mpr (ha _ _ hm)
  rw [List.length_append, List.length_append]
  omega

/-- As many rounds as characters are enough. -/
theorem scan_eq_scan (ha : Consuming a) {n n' : Nat} (hn : s.length ≤ n) (hn' : s.length ≤ n') :
    a.scan n s = a.scan n' s := by
  induction n generalizing n' s with
  | zero =>
    obtain rfl := List.length_eq_zero_iff.mp (Nat.le_zero.mp hn)
    cases n' with
    | zero => rfl
    | succ n' => rw [scan, scan, ha.search_nil]
  | succ n ih =>
    cases n' with
    | zero =>
      obtain rfl := List.length_eq_zero_iff.mp (Nat.le_zero.mp hn')
      rw [scan, scan, ha.search_nil]
    | succ n' =>
      rw [scan, scan]
      cases hs : a.search s with
      | none => rfl
      | some r =>
        have hlt := ha.length_lt hs
        exact congrArg (r.1 :: ·) (ih (by omega) (by omega))

theorem allMatches_eq (ha : Consuming a) (s : List α) :
    a.allMatches s = match a.search s with
      | none => []
      | some (m, rest) => m :: a.allMatches rest := by
  cases s with
  | nil => rw [ha.search_nil]; rfl
  | cons c s =>
    rw [allMatches, List.length_cons, scan]
    cases hs : a.search (c :: s) with
    | none => rfl
    | some r =>
      have hlt := ha.length_lt hs
      rw [List.length_cons] at hlt
      exact congrArg (r.1 :: ·) (scan_eq_scan ha (by omega) (Nat.le_refl _))

theorem allMatches_cons (ha : Consuming a) {m : Match α} {rest : List α} (h : a.search s = some (m, rest)) :
    a.allMatches s = m :: a.allMatches rest := by
  rw [allMatches_eq ha, h]

theorem allMatches_nil (ha : Consuming a) (h : a.search s = none) : a.allMatches s = [] := by
  rw [allMatches_eq ha, h]

theorem Inert.allMatches (ha : Consuming a) (h : Inert a w) (s : List α) : a.allMatches (w ++ s) = a.allMatches s := by
  rw [allMatches_eq ha, h, ← allMatches_eq ha]

/-- The scan of a list with separators: one match for each entry, when the match of an entry leaves nothing of it in which
another begins. -/
theorem allMatches_intercalate (ha : Consuming a) {ι : Type} {sep last : List α} (hsep : Inert a sep)
    (hlast : a.search last = none) (f : ι → List α) (m : ι → Match α) (entries : List ι)
    (h : ∀ i ∈ entries, ∀ s, ∃ rest, Inert a rest ∧ a.search (f i ++ s) = some (m i, rest ++ s)) :
    a.allMatches (sep.intercalate (entries.map f) ++ last) = entries.map m := by
  induction entries with
  | nil => exact allMatches_nil ha hlast
  | cons i entries ih =>
    obtain ⟨hi, hrest⟩ := List.forall_mem_cons.mp h
    cases entries with
    | nil =>
      obtain ⟨rest, hinert, hs⟩ := hi last
      rw [List.map_singleton, List.intercalate_singleton, allMatches_cons ha hs, hinert.allMatches ha,
        allMatches_nil ha hlast]
      rfl
    | cons j entries =>
      obtain ⟨rest, hinert, hs⟩ := hi (sep ++ (sep.intercalate ((j :: entries).map f) ++ last))
      rw [List.map_cons, List.map_cons, List.intercalate_cons_cons, List.append_assoc, List.append_assoc,
        ← List.map_cons, allMatches_cons ha hs, hinert.allMatches ha, hsep.allMatches ha, ih hrest]
      rfl

/-! ## Runs of a class -/

/-- The longest runs of a class, from left to right. -/
def runs (p : α → Bool) (s : List α) : List (List α) := (s.splitOnP fun c => !p c).filter fun w => !w.isEmpty

theorem runs_append_cons {c : α} (hc : ¬ p c) (u v : List α) : runs p (u ++ c :: v) = runs p u ++ runs p v := by
  rw [runs, List.splitOnP_append_cons u v (by simpa using hc), List.filter_append]
  rfl

theorem runs_nil : runs p ([] : List α) = [] := rfl

theorem runs_cons {c : α} (hc : ¬ p c) (s : List α) : runs p (c :: s) = runs p s := runs_append_cons hc [] s

theorem runs_eq_singleton (hne : w ≠ []) (hw : ∀ c ∈ w, p c) : runs p w = [w] := by
  rw [runs, List.splitOnP_eq_singleton fun c hc => by simpa using hw c hc]
  simpa using hne

/-- Characters outside the class in front of a text add no run. -/
theorem runs_append_of_forall_not (hw : ∀ c ∈ w, ¬ p c) (s : List α) : runs p (w ++ s) = runs p s := by
  induction w with
  | nil => rfl
  | cons c w ih =>
    rw [List.cons_append, runs_cons (hw c List.mem_cons_self), ih fun d hd => hw d (List.mem_cons_of_mem c hd)]

theorem runs_cons_pos {c : α} (hc : p c) (s : List α) :
    runs p (c :: s) = (c :: s).takeWhile p :: runs p ((c :: s).dropWhile p) := by
  have hne : (c :: s).takeWhile p ≠ [] := by rw [List.takeWhile_cons_of_pos hc]; exact List.cons_ne_nil _ _
  have hw : ∀ d ∈ (c :: s).takeWhile p, p d := fun _ => List.mem_takeWhile_imp
  conv_lhs => rw [← List.takeWhile_append_dropWhile (p := p) (l := c :: s)]
  cases hd : (c :: s).dropWhile p with
  | nil => rw [List.append_nil, runs_eq_singleton hne hw, runs_nil]
  | cons d t =>
    have hnot : ¬ p d := by
      have h := List.head?_dropWhile_not p (c :: s)
      rw [hd] at h
      simpa using h
    rw [runs_append_cons hnot, runs_eq_singleton hne hw, runs_cons hnot]
    rfl

theorem runs_eq_nil_iff : runs p s = [] ↔ ∀ c ∈ s, ¬ p c := by
  constructor
  · intro h
    induction s with
    | nil => exact fun _ hc => nomatch hc
    | cons c s ih =>
      by_cases hc : p c
      · rw [runs_cons_pos hc] at h
        cases h
      · rw [runs_cons hc] at h
        exact List.forall_mem_cons.mpr ⟨hc, ih h⟩
  · intro h
    rw [← List.append_nil s, runs_append_of_forall_not h, runs_nil]

/-- Characters outside the class behind a text add no run. -/
theorem runs_append_right (hw : ∀ c ∈ w, ¬ p c) (s : List α) : runs p (s ++ w) = runs p s := by
  cases w with
  | nil => rw [List.append_nil]
  | cons c w =>
    obtain ⟨hc, hw⟩ := List.forall_mem_cons.mp hw
    rw [runs_append_cons hc, runs_eq_nil_iff.mpr hw, List.append_nil]

theorem consuming_many1 : Consuming (many1 p) := fun _ _ h => (matches_many1 h).1

theorem search_many1_cons {c : α} (hc : p c) (s : List α) :
    (many1 p).search (c :: s) = some (⟨(c :: s).takeWhile p, []⟩, (c :: s).dropWhile p) := by
  have htake := take_append_sub ((c :: s).takeWhile p) ((c :: s).dropWhile p)
  rw [List.takeWhile_append_dropWhile] at htake
  apply search_of_matchAt
  rw [matchAt, many1, run, run, if_pos hc, run, greedy_eq_of_accepts fun _ => rfl, ← List.dropWhile_cons_of_pos hc, htake]

/-- The scan for one or more characters of a class finds its longest runs. -/
theorem allMatches_many1 (s : List α) : (many1 p).allMatches s = (runs p s).map (⟨·, []⟩) := by
  induction hn : s.length using Nat.strong_induction_on generalizing s with
  | _ n ih =>
    cases s with
    | nil => rfl
    | cons c s =>
      by_cases hc : p c
      · rw [allMatches_cons consuming_many1 (search_many1_cons hc s), runs_cons_pos hc, List.map_cons]
        refine congrArg _ (ih _ ?_ _ rfl)
        exact hn ▸ consuming_many1.length_lt (search_many1_cons hc s)
      · have hinert : Inert (many1 p) [c] := inert_of_matchAt fun d hd t => by
          rw [List.mem_singleton.mp hd]
          rw [matchAt, many1, run, run_one_of_not hc]
        rw [runs_cons hc, ← ih s.length (by rw [← hn, List.length_cons]; omega) s rfl]
        exact hinert.allMatches consuming_many1 s

end Pattern

end Foundations
