import MqssClient.Resource.Dictionary

/-!
# Gate sets

* `SpacedGate`, `gatesText`: a list of gates as it is printed, with any white space;
* `search_gate`: where the match of a printed gate begins and ends;
* `gateLoop_map`: the rounds of the gate loop do not disturb each other;
* `extractGates_gatesText`: the printed gates are read back.
-/

namespace MqssClient

open Foundations Pattern

inductive Quote where
  | single
  | double

def Quote.text : Quote → Bytes
  | .single => str "'"
  | .double => str "\""

/-- A pair of a gate name that the table knows and a dictionary, and the white space around them. -/
structure SpacedGate where
  before : Gap
  afterParen : Gap
  quote : Quote
  name : Bytes
  properties : UInt32 × UInt32
  known : getGateProterties name = .ok properties
  beforeComma : Gap
  afterComma : Gap
  entries : List Entry
  afterBrace : Gap
  after : Gap

namespace SpacedGate

/-- The pair as it is printed, in parentheses. -/
def core (g : SpacedGate) : Bytes :=
  str "(" ++ (g.afterParen.text ++ (g.quote.text ++ (g.name ++ (g.quote.text ++ (g.beforeComma.text ++ (str "," ++
    (g.afterComma.text ++ (dictText g.entries ++ (g.afterBrace.text ++ str ")")))))))))

def text (g : SpacedGate) : Bytes := g.before.text ++ (g.core ++ g.after.text)

/-- The gate with the tuples of all entries. -/
def gate (g : SpacedGate) : Gate := ⟨g.name, g.properties.1, g.properties.2, g.entries.map Entry.content⟩

def found (g : SpacedGate) : Match UInt8 := ⟨g.core, [g.name, dictText g.entries]⟩

end SpacedGate

def gatesText (gates : List SpacedGate) : Bytes :=
  str "[" ++ ((str ",").intercalate (gates.map SpacedGate.text) ++ str "]")

/-! ## Where the matches are -/

theorem consuming_gatePattern : Consuming gatePattern := by
  intro w gs h
  obtain ⟨u, v, _, _, rfl, -, h1, -⟩ := matches_ofList_cons h
  obtain ⟨rfl, -⟩ := matches_word h1
  exact List.cons_ne_nil _ _

theorem inert_gatePattern {w : Bytes} (h : 40 ∉ w) : Inert gatePattern w := inert_of_word h

/-- The names of the gate table. -/
def gateNames : List Bytes :=
  [str "cz", str "measure", str "id", str "r", str "rx", str "rz", str "rxx", str "if_else", str "reset", str "swap"]

theorem mem_gateNames {name : Bytes} {properties : UInt32 × UInt32} (h : getGateProterties name = .ok properties) :
    name ∈ gateNames := by
  by_contra hn
  simp only [gateNames, List.mem_cons, List.not_mem_nil, or_false, not_or] at hn
  obtain ⟨h1, h2, h3, h4, h5, h6, h7, h8, h9, h10⟩ := hn
  rw [getGateProterties, if_neg h1, if_neg h2, if_neg h3, if_neg h4, if_neg h5, if_neg h6, if_neg h7, if_neg h8, if_neg h9,
    if_neg h10] at h
  cases h

/-- No gate of the table has a quote in its name. -/
theorem gateName_of_known {name : Bytes} {properties : UInt32 × UInt32} (h : getGateProterties name = .ok properties) :
    name ≠ [] ∧ ∀ c ∈ name, noneOf "'\"" c := by
  have hall : ∀ name ∈ gateNames, name ≠ [] ∧ ∀ c ∈ name, noneOf "'\"" c := by decide
  exact hall name (mem_gateNames h)

variable {β : Type} {k : Bytes → List Bytes → Option β} {gs : List Bytes}

theorem run_braces {inner : Bytes} (h : ∀ c ∈ inner, noneOf "\x7b\x7d" c) (s : Bytes) :
    (Pattern.group (ofList [word (str "\x7b"), many (noneOf "\x7b\x7d"), word (str "\x7d")])).run
      ((str "\x7b" ++ (inner ++ str "\x7d")) ++ s) gs k = k s (gs ++ [str "\x7b" ++ (inner ++ str "\x7d")]) := by
  have hrun : ∀ k : Bytes → List Bytes → Option β,
      (ofList [word (str "\x7b"), many (noneOf "\x7b\x7d"), word (str "\x7d")]).run
        ((str "\x7b" ++ (inner ++ str "\x7d")) ++ s) gs k = k s gs := by
    intro k
    have hhead : ∀ c ∈ (str "\x7d" ++ s).head?, ¬ noneOf "\x7b\x7d" c := by
      rintro c ⟨⟩
      decide
    rw [List.append_assoc, List.append_assoc, run_ofList_cons, run_word_append, run_ofList_cons,
      run_many_append h hhead fun c s hc => run_word_of_class (by decide) c s gs hc, run_ofList_cons, run_word_append]
    rfl
  rw [run, hrun, take_append_sub]

/-- The dictionary is matched whole. -/
theorem dictText_inner (entries : List Entry) : ∃ inner : Bytes,
    (∀ c ∈ inner, noneOf "\x7b\x7d" c) ∧ dictText entries = str "\x7b" ++ (inner ++ str "\x7d") := by
  refine ⟨_, fun c hc => ?_, rfl⟩
  have hbraces : str "\x7b\x7d" = [123, 125] := by decide
  have hentries : ∀ d : UInt8, d = 123 ∨ d = 125 → d ∉ (str ",").intercalate (entries.map Entry.text) := by
    intro d hd
    refine not_mem_intercalate (by rcases hd with rfl | rfl <;> decide) fun s hs => ?_
    obtain ⟨e, -, rfl⟩ := List.mem_map.mp hs
    exact e.no_brace hd
  rw [noneOf, hbraces, decide_eq_true_eq, List.mem_pair]
  exact fun hd => hentries c hd hc

/-- A quote is a single character, neither white space nor part of a name. -/
theorem Quote.text_eq (quote : Quote) :
    ∃ q, quote.text = [q] ∧ isspace q = false ∧ oneOf "'\"" q ∧ ¬ noneOf "'\"" q := by
  cases quote
  · exact ⟨39, by decide⟩
  · exact ⟨34, by decide⟩

theorem not_oneOf_of_noneOf {characters : String} {c : UInt8} (h : noneOf characters c) : ¬ oneOf characters c :=
  fun ho => of_decide_eq_true h (of_decide_eq_true ho)

theorem not_oneOf_of_isspace {c : UInt8} (h : isspace c) : ¬ oneOf "'\"" c := by
  intro ho
  have hnone : ∀ d ∈ str "'\"", isspace d = false := by decide
  rw [hnone c (of_decide_eq_true ho)] at h
  cases h

theorem head_dictText (entries : List Entry) (s : Bytes) : ∀ c ∈ (dictText entries ++ s).head?, ¬ isspace c := by
  obtain ⟨inner, -, hdict⟩ := dictText_inner entries
  intro c hc
  rw [hdict] at hc
  cases hc
  decide

theorem run_dict (entries : List Entry) (s : Bytes) (gs : List Bytes) (k : Bytes → List Bytes → Option β) :
    (Pattern.group (ofList [word (str "\x7b"), many (noneOf "\x7b\x7d"), word (str "\x7d")])).run
      (dictText entries ++ s) gs k = k s (gs ++ [dictText entries]) := by
  obtain ⟨inner, hinner, hdict⟩ := dictText_inner entries
  rw [hdict]
  exact run_braces hinner s

theorem run_gate (g : SpacedGate) (s : Bytes) (k : Bytes → List Bytes → Option β) :
    gatePattern.run (g.core ++ s) [] k = k s [g.name, dictText g.entries] := by
  obtain ⟨hne, hname⟩ := gateName_of_known g.known
  obtain ⟨q, hq, hspace, hone, hnot⟩ := g.quote.text_eq
  -- what the white space and the name stop at
  have hq1 : ∀ s : Bytes, ∀ c ∈ (q :: s).head?, ¬ isspace c := by
    rintro s c ⟨⟩
    exact ne_true_of_eq_false hspace
  have hq2 : ∀ s : Bytes, ∀ c ∈ (q :: s).head?, ¬ noneOf "'\"" c := by
    rintro s c ⟨⟩
    exact hnot
  have hcomma : ∀ s : Bytes, ∀ c ∈ (str "," ++ s).head?, ¬ isspace c := by
    rintro s c ⟨⟩
    decide
  have hparen : ∀ s : Bytes, ∀ c ∈ (str ")" ++ s).head?, ¬ isspace c := by
    rintro s c ⟨⟩
    decide
  simp only [SpacedGate.core, hq, List.append_assoc, List.cons_append, List.nil_append]
  rw [gatePattern, run_ofList_cons, run_word_append, run_ofList_cons, run_many_append g.afterParen.spaces (hq1 _) ?_,
    run_ofList_cons, run_one hone, run_ofList_cons, run_group_many1_append hne hname (hq2 _) ?_,
    run_ofList_cons, run_one hone, run_ofList_cons, run_many_append g.beforeComma.spaces (hcomma _) ?_,
    run_ofList_cons, run_word_append, run_ofList_cons, run_many_append g.afterComma.spaces (head_dictText _ _) ?_,
    run_ofList_cons, run_dict, run_ofList_cons, run_many_append g.afterBrace.spaces (hparen _) ?_,
    run_ofList_cons, run_word_append]
  · rfl
  -- no white space and no character of a name is given back
  · exact fun c s hc => run_word_of_class (by decide) c s _ hc
  · intro c s hc
    rw [run_ofList_cons, run, run_ofList_cons]
    exact run_word_of_class (by decide) c s _ hc
  · exact fun c s hc => run_word_of_class (by decide) c s _ hc
  · intro c s gs hc
    rw [run_ofList_cons, run_one_of_not (not_oneOf_of_noneOf hc)]
  · intro c s hc
    rw [run_ofList_cons, run_one_of_not (not_oneOf_of_isspace hc)]

theorem matchAt_gate (g : SpacedGate) (s : Bytes) : gatePattern.matchAt (g.core ++ s) = some (g.found, s) := by
  rw [matchAt, run_gate, take_append_sub]
  rfl

/-- A printed gate is matched from its parenthesis to its parenthesis, whatever follows. -/
theorem search_gate (g : SpacedGate) (s : Bytes) :
    gatePattern.search (g.text ++ s) = some (g.found, g.after.text ++ s) := by
  rw [SpacedGate.text, List.append_assoc, inert_gatePattern (g.before.not_mem (by decide)), List.append_assoc]
  exact search_of_matchAt (matchAt_gate g _)

theorem allMatches_gatesText (gates : List SpacedGate) :
    gatePattern.allMatches (gatesText gates) = gates.map SpacedGate.found := by
  rw [gatesText, (inert_gatePattern (by decide)).allMatches consuming_gatePattern]
  refine allMatches_intercalate consuming_gatePattern (inert_gatePattern (by decide)) (by decide) _ _ gates ?_
  intro g _ s
  exact ⟨g.after.text, inert_gatePattern (g.after.not_mem (by decide)), search_gate g s⟩

/-! ## Decoding -/

theorem decodedText_gatesText {response : Json} {key : Bytes} {gates : List SpacedGate}
    (h : response.find key = some (.string (gatesText gates))) : decodedText response key = some (gatesText gates) := by
  have hne : gatesText gates ≠ str "None" := fun heq => nomatch congrArg List.head? heq
  rw [decodedText, h]
  exact if_neg hne

/-- A round leaves no tuples for the next one. -/
theorem gateLoop_map {gates : List SpacedGate}
    (h : ∀ g ∈ gates, bodyTuples (dictText g.entries) = .ok (g.entries.map Entry.content)) :
    gateLoop (gates.map SpacedGate.found) [] = .ok (gates.map SpacedGate.gate) := by
  induction gates with
  | nil => rfl
  | cons g gates ih =>
    obtain ⟨hg, h⟩ := List.forall_mem_cons.mp h
    have hround : gateRound g.found [] = .ok (g.gate, []) := by
      show (do
        let tuples ← bodyTuples (dictText g.entries)
        let properties ← getGateProterties g.name
        return (⟨g.name, properties.1, properties.2, [] ++ tuples⟩, [])) = Except.ok (g.gate, [])
      rw [hg, g.known]
      rfl
    rw [List.map_cons, gateLoop, hround, ok_bind, ih h]
    rfl

theorem bodyTuples_of_none {entries : List Entry} (h : ∀ e ∈ entries, e.isNone ∧ ∀ i ∈ e.tuple, i.value < 2 ^ 31) :
    bodyTuples (dictText entries) = .ok (entries.map Entry.content) := by
  rw [bodyTuples_noneOnly fun e he => (h e he).1, mapM_eq_ok, List.forall₂_map_right_iff, List.forall₂_same]
  exact fun e he => Entry.read_of_lt (h e he).2

/-- The printed gates are read back: each with its name, the table's properties and the tuples of its entries, in order. -/
theorem extractGates_gatesText (response : Json) (key : Bytes) (gates : List SpacedGate)
    (hvalues : ∀ g ∈ gates, ∀ e ∈ g.entries, e.isNone ∧ ∀ i ∈ e.tuple, i.value < 2 ^ 31)
    (h : response.find key = some (.string (gatesText gates))) :
    extractGates response key = .ok (gates.map SpacedGate.gate) := by
  rw [extractGates, decodedText_gatesText h]
  show gateLoop (gatePattern.allMatches (gatesText gates)) [] = _
  rw [allMatches_gatesText]
  exact gateLoop_map fun g hg => bodyTuples_of_none (hvalues g hg)

/-- Two gates as Python prints them, with tuples of one and of two qubits. -/
def sampleGates : List SpacedGate :=
  [{ before := .none, afterParen := .none, quote := .single, name := str "r", properties := (1, 2), known := by decide,
     beforeComma := .none, afterComma := .one, afterBrace := .none, after := .none,
     entries := [⟨.none, [⟨.none, 0, .none⟩], .none, .none .one .none⟩, ⟨.one, [⟨.none, 1, .none⟩], .none, .none .one .none⟩] },
   { before := .one, afterParen := .none, quote := .single, name := str "cz", properties := (2, 0), known := by decide,
     beforeComma := .none, afterComma := .one, afterBrace := .none, after := .none,
     entries := [⟨.none, [⟨.none, 0, .none⟩, ⟨.one, 1, .none⟩], .none, .none .one .none⟩] }]

theorem extractGates_sampleGates :
    extractGates (.object [(str "instructions",
      .string (str "[('r', \x7b(0,): None, (1,): None\x7d), ('cz', \x7b(0, 1): None\x7d)]"))]) (str "instructions") =
      .ok [⟨str "r", 1, 2, [[0], [1]]⟩, ⟨str "cz", 2, 0, [[0, 1]]⟩] :=
  extractGates_gatesText _ _ sampleGates (by decide) (by decide)

end MqssClient
