import MqssClient.Resource.Numerals
import Mathlib.Data.List.Chain
import Mathlib.Data.List.DropRight

/-!
# Dictionaries of a gate

* `Index`, `Entry`, `dictText`: a dictionary as it is printed, with any white space;
* `afterNone`, `tupleTexts_append_cons`: the scan for tuples goes on from one closing parenthesis to the next;
* `exists_leftover`, `Entry.carry`: what the scan of an entry leaves in front of what follows it;
* `tupleTexts_entry_none`, `tupleTexts_entry_eq_nil`: the scan of one entry; `bodyTuples_dictText`: that of a dictionary.
-/

namespace MqssClient

open Foundations Pattern

/-! ## Printed dictionaries -/

/-- An element of a tuple, and the white space around it. -/
structure Index where
  before : Gap
  value : Nat
  after : Gap

def Index.text (i : Index) : Bytes := i.before.text ++ (numeral i.value ++ i.after.text)

/-- What stands between the parentheses of a tuple; a tuple of one element ends in a comma. -/
def tupleText : List Index → Bytes
  | [i] => i.text ++ str ","
  | indices => (str ",").intercalate (indices.map Index.text)

/-- The value of an entry: `None`, or any text without braces. -/
inductive Value where
  | none (before after : Gap)
  | other (text : Bytes) (noBraces : 123 ∉ text ∧ 125 ∉ text)

namespace Value

def text : Value → Bytes
  | .none before after => before.text ++ (str "None" ++ after.text)
  | .other text _ => text

def isNone : Value → Bool
  | .none _ _ => true
  | .other _ _ => false

end Value

/-- An entry, the white space in front of it and of its colon, and its value. -/
structure Entry where
  before : Gap
  tuple : List Index
  gap : Gap
  value : Value

namespace Entry

def isNone (e : Entry) : Bool := e.value.isNone

/-- The entry up to its tuple's closing parenthesis. -/
def key (e : Entry) : Bytes := e.before.text ++ (str "(" ++ tupleText e.tuple)

/-- The entry behind that parenthesis. -/
def rest (e : Entry) : Bytes := e.gap.text ++ (str ":" ++ e.value.text)

def text (e : Entry) : Bytes := e.key ++ (str ")" ++ e.rest)

/-- The elements of the tuple. -/
def content (e : Entry) : List UInt32 := e.tuple.map fun i => UInt32.ofNat i.value

/-- The elements of the tuple as they are read. -/
def read (e : Entry) : Except Exn (List UInt32) := e.tuple.mapM fun i => readQubit (numeral i.value)

end Entry

def dictText (entries : List Entry) : Bytes :=
  str "\x7b" ++ ((str ",").intercalate (entries.map Entry.text) ++ str "\x7d")

/-- What follows an entry, by the entries after it. -/
def closing : List Entry → Bytes
  | [] => str "\x7d"
  | e :: entries => str "," ++ (e.text ++ closing entries)

theorem dictText_cons (e : Entry) (entries : List Entry) :
    dictText (e :: entries) = str "\x7b" ++ (e.text ++ closing entries) := by
  have hclosing : ∀ (e : Entry) (entries : List Entry),
      (str ",").intercalate ((e :: entries).map Entry.text) ++ str "\x7d" = e.text ++ closing entries := by
    intro e entries
    induction entries generalizing e with
    | nil => rw [List.map_singleton, List.intercalate_singleton]; rfl
    | cons e' entries ih =>
      rw [List.map_cons, List.map_cons, List.intercalate_cons_cons, List.append_assoc, List.append_assoc, ← List.map_cons,
        ih]
      rfl
  rw [dictText, hclosing]

/-- What follows an entry begins with a comma or a closing brace. -/
theorem closing_eq_cons (entries : List Entry) : ∃ c s, (c = 44 ∨ c = 125) ∧ closing entries = c :: s := by
  cases entries with
  | nil => exact ⟨125, [], Or.inr rfl, rfl⟩
  | cons e entries => exact ⟨44, _, Or.inl rfl, rfl⟩

/-! ## The characters of a dictionary -/

theorem not_mem_intercalate {c : UInt8} {sep : Bytes} {l : List Bytes} (hsep : c ∉ sep) (hl : ∀ s ∈ l, c ∉ s) :
    c ∉ sep.intercalate l := by
  induction l with
  | nil => exact List.not_mem_nil
  | cons s l ih =>
    obtain ⟨hs, hl⟩ := List.forall_mem_cons.mp hl
    cases l with
    | nil => rwa [List.intercalate_singleton]
    | cons t l => simp only [List.intercalate_cons_cons, List.mem_append, hs, hsep, ih hl, or_self, not_false_eq_true]

theorem Index.not_mem_text (i : Index) {c : UInt8} (hs : isspace c = false) (hd : isdigit c = false) : c ∉ i.text := by
  simp only [Index.text, List.mem_append, i.before.not_mem hs, i.after.not_mem hs, numeral_not_mem i.value hd, or_self,
    not_false_eq_true]

theorem not_mem_tupleText (t : List Index) {c : UInt8} (hs : isspace c = false) (hd : isdigit c = false)
    (hcomma : c ∉ str ",") : c ∉ tupleText t := by
  unfold tupleText
  split
  · rw [List.mem_append, not_or]
    exact ⟨Index.not_mem_text _ hs hd, hcomma⟩
  · refine not_mem_intercalate hcomma fun s hmem => ?_
    obtain ⟨i, -, rfl⟩ := List.mem_map.mp hmem
    exact i.not_mem_text hs hd

theorem Entry.no_paren_key (e : Entry) : 41 ∉ e.key := by
  have hparen : 41 ∉ str "(" := by decide
  simp only [Entry.key, List.mem_append, e.before.not_mem (show isspace 41 = false by decide), hparen,
    not_mem_tupleText e.tuple (show isspace 41 = false by decide) (by decide) (by decide), or_self, not_false_eq_true]

/-- No brace is in an entry. -/
theorem Entry.no_brace (e : Entry) {c : UInt8} (hc : c = 123 ∨ c = 125) : c ∉ e.text := by
  have hspace : isspace c = false := by rcases hc with rfl | rfl <;> decide
  have hdigit : isdigit c = false := by rcases hc with rfl | rfl <;> decide
  have hliteral : c ∉ str "," ∧ c ∉ str "(" ∧ c ∉ str ")" ∧ c ∉ str ":" ∧ c ∉ str "None" := by
    rcases hc with rfl | rfl <;> decide
  obtain ⟨h1, h2, h3, h4, h5⟩ := hliteral
  have hvalue : c ∉ e.value.text := by
    cases e.value with
    | none before after =>
      simp only [Value.text, List.mem_append, before.not_mem hspace, after.not_mem hspace, h5, or_self, not_false_eq_true]
    | other text noBraces =>
      rcases hc with rfl | rfl
      · exact noBraces.1
      · exact noBraces.2
  simp only [Entry.text, Entry.key, Entry.rest, List.mem_append, e.before.not_mem hspace, e.gap.not_mem hspace, h2, h3, h4,
    hvalue, not_mem_tupleText e.tuple hspace hdigit h1, or_self, not_false_eq_true]

/-! ## The numerals of a tuple -/

theorem runs_index (i : Index) : runs isdigit i.text = [numeral i.value] := by
  rw [Index.text, runs_append_of_forall_not i.before.no_digit, runs_append_right i.after.no_digit,
    runs_eq_singleton (numeral_ne_nil _) (isdigit_numeral _)]

theorem runs_tupleText (t : List Index) : runs isdigit (tupleText t) = t.map fun i => numeral i.value := by
  have hjoined : ∀ t : List Index,
      runs isdigit ((str ",").intercalate (t.map Index.text)) = t.map fun i => numeral i.value := by
    intro t
    induction t with
    | nil => rfl
    | cons i t ih =>
      cases t with
      | nil => rw [List.map_singleton, List.intercalate_singleton, runs_index]; rfl
      | cons j t =>
        rw [List.map_cons, List.map_cons, List.intercalate_cons_cons, List.append_assoc]
        show runs isdigit (i.text ++ 44 :: (str ",").intercalate ((j :: t).map Index.text)) = _
        rw [runs_append_cons (by decide), runs_index, ih]
        rfl
  unfold tupleText
  split
  · rw [runs_append_right (by decide), runs_index]
    rfl
  · exact hjoined t

/-- The numerals of a tuple stand behind those of the text in front of it. -/
theorem runs_key (w : Bytes) (e : Entry) :
    runs isdigit (w ++ e.key) = runs isdigit w ++ e.tuple.map fun i => numeral i.value := by
  rw [Entry.key, ← List.append_assoc]
  show runs isdigit ((w ++ e.before.text) ++ 40 :: tupleText e.tuple) = _
  rw [runs_append_cons (by decide), runs_append_right e.before.no_digit, runs_tupleText]

/-- Behind a text without digits, the elements of the tuple are read. -/
theorem tupleQubits_key (e : Entry) {w : Bytes} (hw : ∀ c ∈ w, ¬ isdigit c) : tupleQubits (w ++ e.key) = e.read := by
  rw [tupleQubits_eq, runs_key, runs_eq_nil_iff.mpr hw, List.nil_append, List.mapM_map]
  rfl

theorem Entry.read_of_lt {e : Entry} (h : ∀ i ∈ e.tuple, i.value < 2 ^ 31) : e.read = .ok e.content := by
  rw [Entry.read, mapM_eq_ok, Entry.content, List.forall₂_map_right_iff, List.forall₂_same]
  intro i hi
  rw [readQubit_numeral, if_pos (h i hi)]

/-! ## The scan for tuples -/

/-- What follows `\s*:\s*None` at the front of a text. -/
def afterNone (s : Bytes) : Option Bytes :=
  (strip (str ":") (s.dropWhile isspace)).bind fun t => strip (str "None") (t.dropWhile isspace)

/-- The white space at the front of a text, and the rest. -/
theorem exists_gap (s : Bytes) : ∃ g : Gap, s = g.text ++ s.dropWhile isspace :=
  ⟨⟨s.takeWhile isspace, fun _ => List.mem_takeWhile_imp⟩, List.takeWhile_append_dropWhile.symm⟩

/-- What follows a colon is read as `None` or not. -/
theorem afterNone_append (g : Gap) (s : Bytes) :
    afterNone (g.text ++ (str ":" ++ s)) = strip (str "None") (s.dropWhile isspace) := by
  have hcolon : ∀ c ∈ (str ":" ++ s).head?, ¬ isspace c := by
    rintro c ⟨⟩
    decide
  rw [afterNone, dropWhile_append_self g.spaces hcolon, strip_eq_some_iff.mpr rfl, Option.bind_some]

theorem strip_none_eq_some_iff {s rest : Bytes} :
    strip (str "None") (s.dropWhile isspace) = some rest ↔ ∃ g : Gap, s = g.text ++ (str "None" ++ rest) := by
  rw [strip_eq_some_iff]
  constructor
  · intro h
    obtain ⟨g, hg⟩ := exists_gap s
    exact ⟨g, by rw [← h, ← hg]⟩
  · rintro ⟨g, rfl⟩
    refine dropWhile_append_self g.spaces ?_
    rintro c ⟨⟩
    decide

theorem afterNone_eq_some {s rest : Bytes} (h : afterNone s = some rest) :
    ∃ g g' : Gap, s = g.text ++ (str ":" ++ (g'.text ++ (str "None" ++ rest))) := by
  obtain ⟨t, ht, hrest⟩ := Option.bind_eq_some_iff.mp h
  obtain ⟨g, hg⟩ := exists_gap s
  obtain ⟨g', rfl⟩ := strip_none_eq_some_iff.mp hrest
  exact ⟨g, g', by rw [← strip_eq_some_iff.mp ht, ← hg]⟩

theorem afterNone_append_cons {c : UInt8} (hc : c = 44 ∨ c = 125) (t s : Bytes) :
    afterNone (t ++ c :: s) = (afterNone t).map (· ++ c :: s) := by
  have hspace : ¬ isspace c := by rcases hc with rfl | rfl <;> decide
  have hcolon : c ∉ str ":" := by rcases hc with rfl | rfl <;> decide
  have hnone : c ∉ str "None" := by rcases hc with rfl | rfl <;> decide
  rw [afterNone, afterNone, dropWhile_append_cons hspace, strip_append_cons hcolon]
  cases strip (str ":") (t.dropWhile isspace) with
  | none => rfl
  | some t' =>
    rw [Option.map_some, Option.bind_some, Option.bind_some, dropWhile_append_cons hspace, strip_append_cons hnone]

theorem noneOf_paren {c : UInt8} : noneOf ")" c ↔ c ≠ 41 := by
  have hparen : str ")" = [41] := by decide
  rw [noneOf, hparen, decide_eq_true_eq, List.mem_singleton]

theorem consuming_tuplePattern : Consuming tuplePattern := by
  intro w gs h
  obtain ⟨u, v, _, _, rfl, -, -, h⟩ := matches_ofList_cons h
  obtain ⟨u', v', _, _, rfl, -, h1, -⟩ := matches_ofList_cons h
  obtain ⟨rfl, -⟩ := matches_word h1
  exact List.append_ne_nil_of_right_ne_nil _ (List.cons_ne_nil _ _)

variable {β : Type} {k : Bytes → List Bytes → Option β} {gs : List Bytes}

/-- The part of the pattern behind the closing parenthesis. -/
theorem run_afterNone (s : Bytes) :
    (ofList [many isspace, word (str ":"), many isspace, word (str "None")]).run s gs k =
      (afterNone s).bind fun rest => k rest gs := by
  rw [run_ofList_cons, run_many_of_rejects fun c s hc => run_word_of_class (by decide) c s gs hc, run_ofList_cons, run_word,
    afterNone, Option.bind_assoc]
  congr 1
  funext t
  rw [run_ofList_cons, run_many_of_rejects fun c s hc => run_word_of_class (by decide) c s gs hc, run_ofList_cons, run_word]
  rfl

/-- A match that begins in front of a closing parenthesis needs what follows the parenthesis. -/
theorem matchAt_tuple {u : Bytes} (hu : 41 ∉ u) (v : Bytes) :
    tuplePattern.matchAt (u ++ 41 :: v) =
      (afterNone v).map fun rest => (⟨(u ++ 41 :: v).take ((u ++ 41 :: v).length - rest.length), [u]⟩, rest) := by
  have hclass : ∀ c ∈ u, noneOf ")" c := fun c hc => noneOf_paren.mpr (ne_of_mem_of_not_mem hc hu)
  have hhead : ∀ c ∈ (41 :: v).head?, ¬ noneOf ")" c := by
    rintro c ⟨⟩
    decide
  rw [matchAt, tuplePattern, run_ofList_cons, run_group_many_append hclass hhead]
  · rw [run_ofList_cons]
    show (word (str ")")).run (str ")" ++ v) _ _ = _
    rw [run_word_append, run_afterNone, Option.map_eq_bind]
    rfl
  · exact fun c s gs hc => run_word_of_class (by decide) c s gs hc

theorem matchAt_tuple_none {s : Bytes} (h : 41 ∉ s) : tuplePattern.matchAt s = none := by
  have hclass : ∀ c ∈ s, noneOf ")" c := fun c hc => noneOf_paren.mpr (ne_of_mem_of_not_mem hc h)
  rw [matchAt, tuplePattern, run_ofList_cons, run, run_many_of_rejects]
  · have hdrop : s.dropWhile (noneOf ")") = [] := List.dropWhile_eq_nil_iff.mpr hclass
    rw [hdrop, run_ofList_cons, run_word]
    rfl
  · exact fun c s hc => run_word_of_class (by decide) c s _ hc

theorem search_tuple_none {s : Bytes} (h : 41 ∉ s) : tuplePattern.search s = none := by
  induction s with
  | nil => exact matchAt_tuple_none h
  | cons c s ih => rw [search_cons (matchAt_tuple_none h), ih fun hs => h (List.mem_cons_of_mem c hs)]

/-- Without `: None` behind it, no match reaches the parenthesis. -/
theorem search_tuple_skip {u : Bytes} (hu : 41 ∉ u) {v : Bytes} (hv : afterNone v = none) :
    tuplePattern.search (u ++ 41 :: v) = tuplePattern.search v := by
  have hmatch : ∀ u : Bytes, 41 ∉ u → tuplePattern.matchAt (u ++ 41 :: v) = none := by
    intro u hu
    rw [matchAt_tuple hu, hv, Option.map_none]
  induction u with
  | nil => exact search_cons (hmatch [] hu)
  | cons c u ih => exact (search_cons (hmatch (c :: u) hu)).trans (ih fun h => hu (List.mem_cons_of_mem c h))

/-- The texts from which a gate's tuples are read. -/
def tupleTexts (body : Bytes) : List Bytes := (tuplePattern.allMatches body).map fun m => MqssClient.group m 1

theorem bodyTuples_eq (body : Bytes) : bodyTuples body = (tupleTexts body).mapM tupleQubits := by
  rw [tupleTexts, List.mapM_map]
  rfl

theorem tupleTexts_nil {s : Bytes} (h : 41 ∉ s) : tupleTexts s = [] := by
  rw [tupleTexts, allMatches_nil consuming_tuplePattern (search_tuple_none h), List.map_nil]

/-- The scan goes from one closing parenthesis to the next. -/
theorem tupleTexts_append_cons {u : Bytes} (hu : 41 ∉ u) (v : Bytes) :
    tupleTexts (u ++ 41 :: v) = match afterNone v with
      | none => tupleTexts v
      | some rest => u :: tupleTexts rest := by
  cases hv : afterNone v with
  | none =>
    rw [tupleTexts, allMatches_eq consuming_tuplePattern, search_tuple_skip hu hv, ← allMatches_eq consuming_tuplePattern]
    rfl
  | some rest =>
    have hmatch := matchAt_tuple hu v
    rw [hv, Option.map_some] at hmatch
    rw [tupleTexts, allMatches_cons consuming_tuplePattern (search_of_matchAt hmatch)]
    rfl

/-! ## What a text leaves in front of what follows it -/

/-- The text behind the last closing parenthesis. -/
def lastPart (s : Bytes) : Bytes := s.rtakeWhile (· ≠ 41)

theorem lastPart_of_not_mem {s : Bytes} (h : 41 ∉ s) : lastPart s = s :=
  List.rtakeWhile_eq_self_iff.mpr fun _ hc => decide_eq_true (ne_of_mem_of_not_mem hc h)

theorem lastPart_append_cons (u v : Bytes) : lastPart (u ++ 41 :: v) = lastPart v := by
  rw [lastPart, lastPart, List.rtakeWhile, List.rtakeWhile, List.reverse_append, List.reverse_cons, List.append_assoc,
    List.takeWhile_append]
  split_ifs with h
  · rw [List.singleton_append, List.takeWhile_cons_of_neg (by decide), List.append_nil]
    rw [(List.takeWhile_prefix _).eq_of_length h]
  · rfl

/-- The scan of a text, then that of what it leaves and what follows it. If nothing is found in the text, it leaves the part
behind its last closing parenthesis. -/
theorem exists_leftover (t : Bytes) :
    ∃ u, 41 ∉ u ∧ (tupleTexts t = [] → u = lastPart t) ∧
      ∀ c s, (c = 44 ∨ c = 125) → tupleTexts (t ++ c :: s) = tupleTexts t ++ tupleTexts (u ++ c :: s) := by
  induction hn : t.length using Nat.strong_induction_on generalizing t with
  | _ n ih =>
    by_cases hmem : 41 ∈ t
    · obtain ⟨u, v, rfl, hu⟩ := List.eq_append_cons_of_mem hmem
      have hlen : v.length < n := by rw [← hn, List.length_append, List.length_cons]; omega
      rw [tupleTexts_append_cons hu]
      cases hv : afterNone v with
      | none =>
        obtain ⟨w, hw, hlast, hscan⟩ := ih v.length hlen v rfl
        refine ⟨w, hw, fun h => by rw [lastPart_append_cons, hlast h], fun c s hc => ?_⟩
        rw [List.append_assoc, List.cons_append, tupleTexts_append_cons hu, afterNone_append_cons hc, hv, Option.map_none]
        exact hscan c s hc
      | some rest =>
        have hshort : rest.length < n := by
          obtain ⟨g, g', rfl⟩ := afterNone_eq_some hv
          simp only [List.length_append] at hlen
          omega
        obtain ⟨w, hw, -, hscan⟩ := ih rest.length hshort rest rfl
        refine ⟨w, hw, fun h => absurd h (List.cons_ne_nil _ _), fun c s hc => ?_⟩
        rw [List.append_assoc, List.cons_append, tupleTexts_append_cons hu, afterNone_append_cons hc, hv, Option.map_some]
        exact congrArg (u :: ·) (hscan c s hc)
    · refine ⟨t, hmem, fun _ => (lastPart_of_not_mem hmem).symm, fun c s _ => ?_⟩
      rw [tupleTexts_nil hmem, List.nil_append]

/-! ## The scan of one entry -/

theorem no_paren_append {u v : Bytes} (hu : 41 ∉ u) (hv : 41 ∉ v) : 41 ∉ u ++ v := by
  rw [List.mem_append, not_or]
  exact ⟨hu, hv⟩

theorem Gap.no_paren (g : Gap) : 41 ∉ g.text := g.not_mem (by decide)

theorem Entry.append_text (e : Entry) (u s : Bytes) : u ++ (e.text ++ s) = (u ++ e.key) ++ 41 :: (e.rest ++ s) := by
  rw [Entry.text, List.append_assoc, List.append_assoc, List.append_assoc]
  rfl

/-- The tuple of an entry whose value is `None` is found, with what the scan left in front of the entry. -/
theorem tupleTexts_entry_none {e : Entry} {before after : Gap} (he : e.value = .none before after) {u : Bytes}
    (hu : 41 ∉ u) (s : Bytes) :
    tupleTexts (u ++ (e.text ++ s)) = (u ++ e.key) :: tupleTexts (after.text ++ s) := by
  have hafter : afterNone (e.rest ++ s) = some (after.text ++ s) := by
    rw [Entry.rest, he, Value.text, List.append_assoc, List.append_assoc, afterNone_append, strip_none_eq_some_iff]
    exact ⟨before, by rw [List.append_assoc, List.append_assoc]⟩
  rw [e.append_text, tupleTexts_append_cons (no_paren_append hu e.no_paren_key), hafter]

/-- The text begins, after white space, with `None`. -/
def BeginsNone (s : Bytes) : Prop := ∃ (g : Gap) (rest : Bytes), s = g.text ++ (str "None" ++ rest)

/-- Behind a closing parenthesis in the text stands `: None`. -/
def Hides (s : Bytes) : Prop :=
  ∃ (front : Bytes) (g : Gap) (rest : Bytes), s = front ++ (str ")" ++ (g.text ++ (str ":" ++ rest))) ∧ BeginsNone rest

/-- A value in which the scan finds nothing. -/
def Value.Quiet : Value → Prop
  | .none _ _ => True
  | .other text _ => ¬ BeginsNone text ∧ ¬ Hides text

theorem afterNone_eq_none_iff {g : Gap} {s : Bytes} : afterNone (g.text ++ (str ":" ++ s)) = none ↔ ¬ BeginsNone s := by
  rw [afterNone_append, Option.eq_none_iff_forall_ne_some, BeginsNone, exists_comm, not_exists]
  exact forall_congr' fun rest => not_congr strip_none_eq_some_iff

theorem hides_append_cons {u : Bytes} (hu : 41 ∉ u) (v : Bytes) :
    Hides (u ++ 41 :: v) ↔ afterNone v ≠ none ∨ Hides v := by
  constructor
  · rintro ⟨front, g, rest, heq, hrest⟩
    have hbehind : afterNone (g.text ++ (str ":" ++ rest)) ≠ none := fun h => afterNone_eq_none_iff.mp h hrest
    rcases List.append_eq_append_iff.mp heq with ⟨a, rfl, ha⟩ | ⟨a, rfl, ha⟩
    · cases a with
      | nil =>
        cases ha
        exact Or.inl hbehind
      | cons c a =>
        cases ha
        exact Or.inr ⟨a, g, rest, rfl, hrest⟩
    · cases a with
      | nil =>
        cases ha
        exact Or.inl hbehind
      | cons c a =>
        have hc : 41 = c := (List.cons.inj ha).1
        exact absurd (List.mem_append_right front (hc ▸ List.mem_cons_self)) hu
  · rintro (h | ⟨front, g, rest, rfl, hrest⟩)
    · obtain ⟨rest, hrest⟩ := Option.ne_none_iff_exists'.mp h
      obtain ⟨g, g', rfl⟩ := afterNone_eq_some hrest
      exact ⟨u, g, _, rfl, g', rest, rfl⟩
    · exact ⟨u ++ 41 :: front, g, rest, by rw [List.append_assoc, List.cons_append], hrest⟩

theorem not_hides {s : Bytes} (h : 41 ∉ s) : ¬ Hides s := by
  rintro ⟨front, g, rest, rfl, -⟩
  exact h (List.mem_append_right front List.mem_cons_self)

/-- A text without a closing parenthesis in front makes no difference to whether something is found. -/
theorem tupleTexts_append_eq_nil {u : Bytes} (hu : 41 ∉ u) (v : Bytes) : tupleTexts (u ++ v) = [] ↔ tupleTexts v = [] := by
  by_cases hmem : 41 ∈ v
  · obtain ⟨w, z, rfl, hw⟩ := List.eq_append_cons_of_mem hmem
    rw [← List.append_assoc, tupleTexts_append_cons (no_paren_append hu hw), tupleTexts_append_cons hw]
    cases afterNone z <;> simp
  · exact iff_of_true (tupleTexts_nil (no_paren_append hu hmem)) (tupleTexts_nil hmem)

theorem tupleTexts_eq_nil_iff (s : Bytes) : tupleTexts s = [] ↔ ¬ Hides s := by
  induction hn : s.length using Nat.strong_induction_on generalizing s with
  | _ n ih =>
    by_cases hmem : 41 ∈ s
    · obtain ⟨u, v, rfl, hu⟩ := List.eq_append_cons_of_mem hmem
      have hlen : v.length < n := by rw [← hn, List.length_append, List.length_cons]; omega
      rw [tupleTexts_append_cons hu, hides_append_cons hu]
      cases hv : afterNone v with
      | none => simpa using ih v.length hlen v rfl
      | some rest => simp
    · exact iff_of_true (tupleTexts_nil hmem) (not_hides hmem)

/-- In the text of an entry with another value than `None`, nothing is found exactly when nothing is found in its value. -/
theorem tupleTexts_entry_eq_nil {e : Entry} {text : Bytes} {h : 123 ∉ text ∧ 125 ∉ text} (he : e.value = .other text h)
    {u : Bytes} (hu : 41 ∉ u) : tupleTexts (u ++ e.text) = [] ↔ e.value.Quiet := by
  have hfront : 41 ∉ e.gap.text ++ str ":" := no_paren_append e.gap.no_paren (by decide)
  have hrest : e.rest = (e.gap.text ++ str ":") ++ text := by rw [Entry.rest, he, List.append_assoc]; rfl
  have hnone : afterNone e.rest = none ↔ ¬ BeginsNone text := by
    rw [hrest, List.append_assoc, afterNone_eq_none_iff]
  have htail : tupleTexts e.rest = [] ↔ ¬ Hides text := by
    rw [hrest, tupleTexts_append_eq_nil hfront, tupleTexts_eq_nil_iff]
  have happend := e.append_text u []
  rw [List.append_nil, List.append_nil] at happend
  rw [happend, tupleTexts_append_cons (no_paren_append hu e.no_paren_key), he, Value.Quiet, ← hnone, ← htail]
  cases afterNone e.rest <;> simp

/-- The scan of an entry with another value than `None` finds what it would find in the entry alone. Where that is nothing,
it leaves the part behind the last closing parenthesis. -/
theorem exists_leftover_entry (e : Entry) (u : Bytes) (entries : List Entry) :
    ∃ w, 41 ∉ w ∧ (tupleTexts (u ++ e.text) = [] → w = lastPart e.rest) ∧
      tupleTexts (u ++ (e.text ++ closing entries)) = tupleTexts (u ++ e.text) ++ tupleTexts (w ++ closing entries) := by
  obtain ⟨w, hw, hlast, hscan⟩ := exists_leftover (u ++ e.text)
  obtain ⟨c, s, hc, hclosing⟩ := closing_eq_cons entries
  refine ⟨w, hw, fun h => ?_, ?_⟩
  · have happend := e.append_text u []
    rw [List.append_nil, List.append_nil] at happend
    rw [hlast h, happend, lastPart_append_cons]
  · rw [hclosing, ← List.append_assoc, hscan c s hc]

/-! ## The scan of a dictionary -/

/-- What the scan leaves in front of the next entry. -/
def Entry.carry (e : Entry) : Bytes :=
  match e.value with
  | .none _ after => after.text ++ str ","
  | .other _ _ => lastPart e.rest ++ str ","

/-- The texts that are found, when nothing is found in a value other than `None`. -/
def carried (u : Bytes) : List Entry → List Bytes
  | [] => []
  | e :: entries => if e.isNone then (u ++ e.key) :: carried e.carry entries else carried e.carry entries

/-- One entry, then the others. -/
theorem tupleTexts_cons {e : Entry} {entries : List Entry} (he : e.value.Quiet)
    (h : ∀ u : Bytes, 41 ∉ u → tupleTexts (u ++ closing entries) = carried (u ++ str ",") entries) {u : Bytes}
    (hu : 41 ∉ u) : tupleTexts (u ++ (e.text ++ closing entries)) = carried u (e :: entries) := by
  rw [carried, Entry.carry, Entry.isNone]
  cases hv : e.value with
  | none before after =>
    rw [tupleTexts_entry_none hv hu, h _ after.no_paren]
    rfl
  | other text noBraces =>
    obtain ⟨w, hw, hlast, hscan⟩ := exists_leftover_entry e u entries
    have hnil := (tupleTexts_entry_eq_nil hv hu).mpr he
    rw [hscan, hnil, List.nil_append, h w hw, hlast hnil]
    rfl

theorem tupleTexts_closing {entries : List Entry} (h : ∀ e ∈ entries, e.value.Quiet) {u : Bytes} (hu : 41 ∉ u) :
    tupleTexts (u ++ closing entries) = carried (u ++ str ",") entries := by
  induction entries generalizing u with
  | nil => exact tupleTexts_nil (no_paren_append hu (by decide))
  | cons e entries ih =>
    obtain ⟨he, h⟩ := List.forall_mem_cons.mp h
    rw [closing, ← List.append_assoc]
    exact tupleTexts_cons he (fun u hu => ih h hu) (no_paren_append hu (by decide))

theorem tupleTexts_dictText {entries : List Entry} (h : ∀ e ∈ entries, e.value.Quiet) :
    tupleTexts (dictText entries) = carried (str "\x7b") entries := by
  cases entries with
  | nil => exact tupleTexts_nil (by decide)
  | cons e entries =>
    obtain ⟨he, h⟩ := List.forall_mem_cons.mp h
    rw [dictText_cons]
    exact tupleTexts_cons he (fun u hu => tupleTexts_closing h hu) (by decide)

/-- Nothing between an entry with another value than `None` and the next `None` is read as an element: the text behind the
last closing parenthesis of the value has no digit. -/
def Value.LeavesNoDigit : Value → Prop
  | .none _ _ => True
  | .other text _ => ∀ c ∈ lastPart text, ¬ isdigit c

/-- Every entry with the value `None` follows such an entry. -/
def NoDigitsBetween (entries : List Entry) : Prop :=
  entries.IsChain fun e e' => e'.isNone → e.value.LeavesNoDigit

theorem Entry.carry_no_digit_iff (e : Entry) : (∀ c ∈ e.carry, ¬ isdigit c) ↔ e.value.LeavesNoDigit := by
  have hcomma : ∀ c ∈ str ",", ¬ isdigit c := by decide
  cases hv : e.value with
  | none before after =>
    rw [Entry.carry, hv, Value.LeavesNoDigit, iff_true]
    exact List.forall_mem_append.mpr ⟨after.no_digit, hcomma⟩
  | other text noBraces =>
    rw [Entry.carry, hv, Value.LeavesNoDigit, List.forall_mem_append, and_iff_left hcomma, Entry.rest, hv, Value.text]
    by_cases hmem : 41 ∈ text
    · obtain ⟨u, v, rfl, -⟩ := List.eq_append_cons_of_mem hmem
      rw [← List.append_assoc, ← List.append_assoc, lastPart_append_cons, lastPart_append_cons]
    · have hcolon : 41 ∉ str ":" := by decide
      rw [lastPart_of_not_mem hmem, lastPart_of_not_mem (no_paren_append e.gap.no_paren (no_paren_append hcolon hmem)),
        List.forall_mem_append, and_iff_right e.gap.no_digit, List.forall_mem_append, and_iff_right (by decide)]

theorem noDigitsBetween_cons {e : Entry} {entries : List Entry} :
    NoDigitsBetween (e :: entries) ↔
      (∀ e' ∈ entries.head?, e'.isNone → ∀ c ∈ e.carry, ¬ isdigit c) ∧ NoDigitsBetween entries := by
  rw [e.carry_no_digit_iff]
  exact List.isChain_cons

theorem mapM_carried {entries : List Entry} (h : NoDigitsBetween entries) {u : Bytes}
    (hu : ∀ e ∈ entries.head?, e.isNone → ∀ c ∈ u, ¬ isdigit c) :
    (carried u entries).mapM tupleQubits = (entries.filter Entry.isNone).mapM Entry.read := by
  induction entries generalizing u with
  | nil => rfl
  | cons e entries ih =>
    obtain ⟨hcarry, h⟩ := noDigitsBetween_cons.mp h
    rw [carried]
    split_ifs with hnone
    · rw [List.filter_cons_of_pos hnone, List.mapM_cons, List.mapM_cons, tupleQubits_key e (hu e rfl hnone), ih h hcarry]
    · rw [List.filter_cons_of_neg hnone, ih h hcarry]

/-- When nothing is found in another value, and no digits stand between, the tuples of the entries with the value `None` are
read. -/
theorem bodyTuples_dictText {entries : List Entry} (h : ∀ e ∈ entries, e.value.Quiet) (hb : NoDigitsBetween entries) :
    bodyTuples (dictText entries) = (entries.filter Entry.isNone).mapM Entry.read := by
  have hbrace : ∀ c ∈ str "\x7b", ¬ isdigit c := by decide
  rw [bodyTuples_eq, tupleTexts_dictText h, mapM_carried hb fun _ _ _ => hbrace]

theorem Entry.quiet_of_isNone {e : Entry} (h : e.isNone) : e.value.Quiet ∧ e.value.LeavesNoDigit := by
  rw [Entry.isNone] at h
  cases hv : e.value with
  | none before after => exact ⟨trivial, trivial⟩
  | other text noBraces =>
    rw [hv] at h
    cases h

theorem bodyTuples_noneOnly {entries : List Entry} (h : ∀ e ∈ entries, e.isNone) :
    bodyTuples (dictText entries) = entries.mapM Entry.read := by
  have hchain : NoDigitsBetween entries :=
    (List.isChain_isInfix entries).imp fun e _ hmem _ =>
      (Entry.quiet_of_isNone (h e (hmem.subset List.mem_cons_self))).2
  rw [bodyTuples_dictText (fun e he => (Entry.quiet_of_isNone (h e he)).1) hchain, List.filter_eq_self.mpr h]

end MqssClient
