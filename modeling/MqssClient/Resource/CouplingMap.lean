import MqssClient.Resource.Numerals

/-!
# Coupling maps

* `SpacedPair`, `couplingText`: a list of pairs as it is printed, with any white space after the commas;
* `search_pair`: where the match of a printed pair begins and ends;
* `extractCouplingMap_couplingText`: the printed pairs are read back;
* `couplingMap_decodes`: this, what the rows are for any text, and for which texts the decoder throws.
-/

namespace MqssClient

open Foundations Pattern

/-- A pair, and the white space in front of it and after its comma. -/
structure SpacedPair where
  before : Gap
  first : Nat
  gap : Gap
  second : Nat
  first_lt : first < 2 ^ 31
  second_lt : second < 2 ^ 31

namespace SpacedPair

/-- The pair as it is printed, in brackets. -/
def core (p : SpacedPair) : Bytes :=
  str "[" ++ (numeral p.first ++ (str "," ++ (p.gap.text ++ (numeral p.second ++ str "]"))))

def render (p : SpacedPair) : Bytes := p.before.text ++ p.core

def row (p : SpacedPair) : List Int := [p.first, p.second]

end SpacedPair

def couplingText (pairs : List SpacedPair) : Bytes :=
  str "[" ++ ((str ",").intercalate (pairs.map SpacedPair.render) ++ str "]")

/-! ## Where the matches are -/

theorem consuming_couplingPattern : Consuming couplingPattern := by
  intro w gs h
  obtain ⟨u, v, _, _, rfl, -, h1, -⟩ := matches_ofList_cons h
  obtain ⟨rfl, -⟩ := matches_word h1
  exact List.cons_ne_nil _ _

theorem inert_couplingPattern {w : Bytes} (h : 91 ∉ w) : Inert couplingPattern w := inert_of_word h

theorem run_pair {β : Type} (p : SpacedPair) (s : Bytes) (k : Bytes → List Bytes → Option β) :
    couplingPattern.run (p.core ++ s) [] k = k s [numeral p.first, numeral p.second] := by
  have hcomma : ∀ (l : Bytes), ∀ c ∈ (str "," ++ l).head?, ¬ isdigit c := by
    rintro l c ⟨⟩
    decide
  have hbracket : ∀ (l : Bytes), ∀ c ∈ (str "]" ++ l).head?, ¬ isdigit c := by
    rintro l c ⟨⟩
    decide
  have hspace : ∀ (l : Bytes), ∀ c ∈ (numeral p.second ++ l).head?, ¬ isspace c :=
    fun l c hc hs => isdigit_of_isspace hs (head_numeral _ l c hc)
  have hreject : ∀ (c : UInt8) (s : Bytes), isspace c → ∀ d ∈ (c :: s).head?, ¬ isdigit d := by
    rintro c s hc d ⟨⟩
    exact isdigit_of_isspace hc
  simp only [SpacedPair.core, List.append_assoc]
  rw [couplingPattern, run_ofList_cons, run_word_append, run_ofList_cons,
    run_group_many1_append (numeral_ne_nil _) (isdigit_numeral _) (hcomma _)
      (fun c s gs hc => run_word_of_class (by decide) c s gs hc),
    run_ofList_cons, run_word_append, run_ofList_cons,
    run_many_append p.gap.spaces (hspace _) (fun c s hc => by rw [run_ofList_cons, run_group_many1_of_head (hreject c s hc)]),
    run_ofList_cons,
    run_group_many1_append (numeral_ne_nil _) (isdigit_numeral _) (hbracket _)
      (fun c s gs hc => run_word_of_class (by decide) c s gs hc),
    run_ofList_cons, run_word_append]
  rfl

theorem matchAt_pair (p : SpacedPair) (s : Bytes) :
    couplingPattern.matchAt (p.core ++ s) = some (⟨p.core, [numeral p.first, numeral p.second]⟩, s) := by
  rw [matchAt, run_pair, take_append_sub]

/-- A printed pair is matched from its bracket to its bracket, whatever follows. -/
theorem search_pair (p : SpacedPair) (s : Bytes) :
    couplingPattern.search (p.render ++ s) = some (⟨p.core, [numeral p.first, numeral p.second]⟩, s) := by
  rw [SpacedPair.render, List.append_assoc, inert_couplingPattern (p.before.not_mem (by decide))]
  exact search_of_matchAt (matchAt_pair p s)

/-- No match begins at a bracket that no digit follows. -/
theorem search_bracket {s : Bytes} (h : ∀ c ∈ s.head?, ¬ isdigit c) :
    couplingPattern.search (str "[" ++ s) = couplingPattern.search s := by
  refine search_cons ?_
  show couplingPattern.run (str "[" ++ s) [] _ = none
  rw [couplingPattern, run_ofList_cons, run_word_append, run_ofList_cons, run_group_many1_of_head h]

theorem head_pairs (pairs : List SpacedPair) :
    ∀ c ∈ ((str ",").intercalate (pairs.map SpacedPair.render) ++ str "]").head?, ¬ isdigit c := by
  cases pairs with
  | nil =>
    rintro c ⟨⟩
    decide
  | cons p pairs =>
    have hbracket : ∀ s : Bytes, ∀ c ∈ (p.before.text ++ (str "[" ++ s)).head?, ¬ isdigit c :=
      p.before.head_not_digit (by decide)
    cases pairs with
    | nil =>
      simp only [List.map_cons, List.map_nil, List.intercalate_singleton, SpacedPair.render, SpacedPair.core,
        List.append_assoc]
      exact hbracket _
    | cons q pairs =>
      simp only [List.map_cons, List.intercalate_cons_cons, SpacedPair.render, SpacedPair.core, List.append_assoc]
      exact hbracket _

theorem allMatches_couplingText (pairs : List SpacedPair) :
    couplingPattern.allMatches (couplingText pairs) =
      pairs.map fun p => ⟨p.core, [numeral p.first, numeral p.second]⟩ := by
  rw [allMatches_eq consuming_couplingPattern, couplingText, search_bracket (head_pairs pairs),
    ← allMatches_eq consuming_couplingPattern]
  refine allMatches_intercalate consuming_couplingPattern (inert_couplingPattern (by decide)) (by decide) _ _ pairs ?_
  intro p _ s
  exact ⟨[], fun _ => rfl, search_pair p s⟩

/-! ## Decoding -/

theorem decodedText_couplingText {response : Json} {key : Bytes} {pairs : List SpacedPair}
    (h : response.find key = some (.string (couplingText pairs))) :
    decodedText response key = some (couplingText pairs) := by
  have hne : couplingText pairs ≠ str "None" := fun heq => nomatch congrArg List.head? heq
  rw [decodedText, h]
  exact if_neg hne

theorem extractCouplingMap_couplingText {response : Json} {key : Bytes} {pairs : List SpacedPair}
    (h : response.find key = some (.string (couplingText pairs))) :
    extractCouplingMap response key = .ok (pairs.map SpacedPair.row) := by
  unfold extractCouplingMap
  rw [decodedText_couplingText h]
  dsimp only
  rw [allMatches_couplingText, mapM_eq_ok, List.forall₂_map_left_iff, List.forall₂_map_right_iff, List.forall₂_same]
  intro p _
  show (do let a ← stoi (numeral p.first); let b ← stoi (numeral p.second); return [a, b]) = Except.ok p.row
  rw [stoi_numeral, if_pos p.first_lt, stoi_numeral, if_pos p.second_lt]
  rfl

/-- The decoder throws nothing but the `out_of_range` of a numeral. -/
theorem extractCouplingMap_error {response : Json} {key : Bytes} {e : Exn}
    (h : extractCouplingMap response key = .error e) : e = .out_of_range (str "stoi") := by
  unfold extractCouplingMap at h
  cases ht : decodedText response key with
  | none =>
    rw [ht] at h
    cases h
  | some text =>
    rw [ht] at h
    obtain ⟨m, hm, h⟩ := exists_of_mapM_eq_error h
    obtain ⟨ha, hb⟩ := couplingMatch_numerals hm
    rcases bind_eq_error.mp h with h | ⟨x, -, h⟩
    · exact stoi_digits_error ha.1 ha.2 h
    · rcases bind_eq_error.mp h with h | ⟨y, -, h⟩
      · exact stoi_digits_error hb.1 hb.2 h
      · cases h

theorem not_couplingFits_iff (text : Bytes) :
    ¬ CouplingFits text ↔ ∃ m ∈ couplingPattern.allMatches text,
      2147483647 < digitsValue (group m 1) ∨ 2147483647 < digitsValue (group m 2) := by
  simp only [CouplingFits, not_forall, Classical.not_and_iff_not_or_not, exists_prop]
  refine exists_congr fun m => and_congr_right fun _ => ?_
  omega

/-- The decoder throws exactly when a numeral matched in the text exceeds the range of `int`. -/
theorem extractCouplingMap_throws_iff {response : Json} {key text : Bytes}
    (h : response.find key = some (.string text)) :
    extractCouplingMap response key = .error (.out_of_range (str "stoi")) ↔
      ∃ m ∈ couplingPattern.allMatches text,
        2147483647 < digitsValue (group m 1) ∨ 2147483647 < digitsValue (group m 2) := by
  have htext : decodedText response key = if text = str "None" then none else some text := by rw [decodedText, h]
  rw [eq_error_iff_not_returns fun e => extractCouplingMap_error, returns_extractCouplingMap, ← not_couplingFits_iff, htext]
  split_ifs with hnone
  · have hno : CouplingFits (str "None") := fun m hm => nomatch hm
    simp [hnone, hno]
  · simp

/-- The printed pairs are read back; for any text the rows are pairs of numbers in the range of `int`, and the decoder throws
exactly when a matched numeral exceeds this range. -/
theorem couplingMap_decodes (response : Json) (key : Bytes) :
    (∀ pairs : List SpacedPair, response.find key = some (.string (couplingText pairs)) →
      extractCouplingMap response key = .ok (pairs.map SpacedPair.row)) ∧
    (∀ couplingMap, extractCouplingMap response key = .ok couplingMap → ∀ row ∈ couplingMap, IsPair row) ∧
    (∀ e, extractCouplingMap response key = .error e → e = .out_of_range (str "stoi")) ∧
    ∀ text, response.find key = some (.string text) →
      (extractCouplingMap response key = .error (.out_of_range (str "stoi")) ↔
        ∃ m ∈ couplingPattern.allMatches text, 2147483647 < digitsValue (group m 1) ∨
          2147483647 < digitsValue (group m 2)) :=
  ⟨fun _ => extractCouplingMap_couplingText, fun _ => couplingMap_rows, fun _ => extractCouplingMap_error,
    fun _ => extractCouplingMap_throws_iff⟩

/-- Two pairs as Python prints them. -/
def samplePairs : List SpacedPair :=
  [⟨.none, 0, .one, 2, by decide, by decide⟩, ⟨.one, 2, .one, 2147483647, by decide, by decide⟩]

theorem couplingMap_decodes_sample :
    extractCouplingMap (.object [(str "connectivity", .string (str "[[0, 2], [2, 2147483647]]"))]) (str "connectivity") =
      .ok [[0, 2], [2, 2147483647]] :=
  (couplingMap_decodes _ _).1 samplePairs (by decide)

end MqssClient
