import MqssClient.Resource.Gates

/-!
# Entries with another value than `None`

* `KeysIn`, `keysIn_dictText`: whatever the values, the key of every entry with the value `None` is found, with a text in
  front of it;
* `noDigits_of_mapM_carried`: if that text adds nothing, it has no digit;
* `Independent`: the other entries make no difference, and every list is the content of a tuple;
* `independent_iff`: when this is so.
-/

namespace MqssClient

open Foundations Pattern

/-! ## Every key is found -/

/-- The keys of the entries with the value `None` are among the texts, in order and each with a text in front of it. If
something is found in another value, there are more texts. -/
def KeysIn (entries : List Entry) (texts : List Bytes) : Prop :=
  ∃ keys, keys.Sublist texts ∧ List.Forall₂ (fun e t => ∃ w, t = w ++ e.key) (entries.filter Entry.isNone) keys ∧
    ((∃ e ∈ entries, ¬ e.value.Quiet) → keys.length < texts.length)

theorem keysIn_nil (texts : List Bytes) : KeysIn [] texts := ⟨[], List.nil_sublist _, .nil, by simp⟩

theorem keysIn_cons {e : Entry} {entries : List Entry}
    (h : ∀ u : Bytes, 41 ∉ u → KeysIn entries (tupleTexts (u ++ closing entries))) {u : Bytes} (hu : 41 ∉ u) :
    KeysIn (e :: entries) (tupleTexts (u ++ (e.text ++ closing entries))) := by
  cases hv : e.value with
  | none before after =>
    have hnone : e.isNone := by rw [Entry.isNone, hv]; rfl
    obtain ⟨keys, hsub, hall, hmore⟩ := h after.text after.no_paren
    rw [tupleTexts_entry_none hv hu]
    refine ⟨(u ++ e.key) :: keys, hsub.cons_cons _, ?_, ?_⟩
    · rw [List.filter_cons_of_pos hnone]
      exact .cons ⟨u, rfl⟩ hall
    · rintro ⟨e', hmem, hloud⟩
      rcases List.mem_cons.mp hmem with rfl | hmem
      · exact absurd (Entry.quiet_of_isNone hnone).1 hloud
      · exact Nat.succ_lt_succ (hmore ⟨e', hmem, hloud⟩)
  | other text noBraces =>
    have hnone : ¬ e.isNone := by rw [Entry.isNone, hv]; exact Bool.false_ne_true
    obtain ⟨w, hw, -, hscan⟩ := exists_leftover_entry e u entries
    obtain ⟨keys, hsub, hall, hmore⟩ := h w hw
    rw [hscan]
    refine ⟨keys, hsub.trans (List.sublist_append_right _ _), ?_, ?_⟩
    · rwa [List.filter_cons_of_neg hnone]
    · rintro ⟨e', hmem, hloud⟩
      rw [List.length_append]
      rcases List.mem_cons.mp hmem with rfl | hmem
      · have hpos := List.length_pos_iff.mpr (mt (tupleTexts_entry_eq_nil hv hu).mp hloud)
        have hle := hsub.length_le
        omega
      · have hlt := hmore ⟨e', hmem, hloud⟩
        omega

theorem keysIn_closing (entries : List Entry) (u : Bytes) (hu : 41 ∉ u) :
    KeysIn entries (tupleTexts (u ++ closing entries)) := by
  induction entries generalizing u with
  | nil => exact keysIn_nil _
  | cons e entries ih =>
    rw [closing, ← List.append_assoc]
    exact keysIn_cons ih (no_paren_append hu (by decide))

theorem keysIn_dictText (entries : List Entry) : KeysIn entries (tupleTexts (dictText entries)) := by
  cases entries with
  | nil => exact keysIn_nil _
  | cons e entries =>
    rw [dictText_cons]
    exact keysIn_cons (keysIn_closing entries) (by decide)

/-! ## What is read -/

theorem Entry.returns_read (e : Entry) : Returns e.read ↔ ∀ i ∈ e.tuple, i.value < 2 ^ 31 := by
  rw [Entry.read, returns_mapM]
  refine forall₂_congr fun i _ => ?_
  rw [readQubit_numeral]
  split_ifs with h
  · exact iff_of_true (returns_ok _) h
  · exact iff_of_false (not_returns_error _) h

theorem bodyTuples_error {body : Bytes} {e : Exn} (h : bodyTuples body = .error e) : e = .out_of_range (str "stoi") := by
  obtain ⟨m, -, h⟩ := exists_of_mapM_eq_error h
  exact tupleQubits_error h

theorem returns_readQubit {n : Nat} (h : Returns (readQubit (numeral n))) : n < 2 ^ 31 := by
  rw [readQubit_numeral] at h
  by_contra hn
  rw [if_neg hn] at h
  exact not_returns_error _ h

/-- Where the tuples are read, every element of a key is in the range of `int`. -/
theorem read_of_returns_bodyTuples {entries : List Entry} (h : Returns (bodyTuples (dictText entries))) {e : Entry}
    (he : e ∈ entries) (hnone : e.isNone) : ∀ i ∈ e.tuple, i.value < 2 ^ 31 := by
  intro i hi
  obtain ⟨keys, hsub, hall, -⟩ := keysIn_dictText entries
  obtain ⟨t, ht, w, rfl⟩ := exists_mem_of_forall₂ hall (List.mem_filter.mpr ⟨he, hnone⟩)
  rw [bodyTuples_eq, returns_mapM] at h
  have hkey := h _ (hsub.subset ht)
  rw [tupleQubits_eq, runs_key, returns_mapM] at hkey
  exact returns_readQubit (hkey _ (List.mem_append_right _ (List.mem_map_of_mem hi)))

/-- If the text in front of the keys adds nothing to what is read, it has no digit. -/
theorem noDigits_of_mapM_carried {entries : List Entry} {u : Bytes} {rows : List (List UInt32)}
    (h : (carried u entries).mapM tupleQubits = .ok rows)
    (hnone : (entries.filter Entry.isNone).mapM Entry.read = .ok rows) :
    (∀ e ∈ entries.head?, e.isNone → ∀ c ∈ u, ¬ isdigit c) ∧ NoDigitsBetween entries := by
  induction entries generalizing u rows with
  | nil => exact ⟨fun _ h => (nomatch h), .nil⟩
  | cons e entries ih =>
    rw [carried] at h
    by_cases he : e.isNone
    · rw [if_pos he, mapM_eq_ok] at h
      rw [List.filter_cons_of_pos he, mapM_eq_ok] at hnone
      cases h with
      | cons hkey h =>
        cases hnone with
        | cons hread hnone =>
          obtain ⟨hcarry, hbetween⟩ := ih (mapM_eq_ok.mpr h) (mapM_eq_ok.mpr hnone)
          rw [tupleQubits_eq, runs_key] at hkey
          have hlen := (mapM_eq_ok.mp hkey).length_eq
          have hlen' := (mapM_eq_ok.mp hread).length_eq
          rw [List.length_append, List.length_map] at hlen
          have hnil : runs isdigit u = [] := List.length_eq_zero_iff.mp (by omega)
          refine ⟨?_, noDigitsBetween_cons.mpr ⟨hcarry, hbetween⟩⟩
          rintro e' ⟨⟩ -
          exact runs_eq_nil_iff.mp hnil
    · rw [if_neg he] at h
      rw [List.filter_cons_of_neg he] at hnone
      obtain ⟨hcarry, hbetween⟩ := ih h hnone
      refine ⟨?_, noDigitsBetween_cons.mpr ⟨hcarry, hbetween⟩⟩
      rintro e' ⟨⟩ h'
      exact absurd h' he

/-! ## When the other entries make no difference -/

/-- An element of a key does not fit `int`, or nothing is found in another value and no digits stand between it and a
following `None`. -/
def Separated (entries : List Entry) : Prop :=
  (∃ e ∈ entries, e.isNone ∧ ∃ i ∈ e.tuple, 2 ^ 31 ≤ i.value) ∨
    (∀ e ∈ entries, e.value.Quiet) ∧ NoDigitsBetween entries

theorem bodyTuples_filter (entries : List Entry) :
    bodyTuples (dictText (entries.filter Entry.isNone)) = (entries.filter Entry.isNone).mapM Entry.read :=
  bodyTuples_noneOnly fun _ he => (List.mem_filter.mp he).2

theorem bodyTuples_filter_iff (entries : List Entry) :
    bodyTuples (dictText entries) = bodyTuples (dictText (entries.filter Entry.isNone)) ↔ Separated entries := by
  by_cases hlarge : ∃ e ∈ entries, e.isNone ∧ ∃ i ∈ e.tuple, 2 ^ 31 ≤ i.value
  · refine iff_of_true ?_ (Or.inl hlarge)
    obtain ⟨e, he, hnone, i, hi, hle⟩ := hlarge
    have hfull : ¬ Returns (bodyTuples (dictText entries)) := fun h =>
      absurd (read_of_returns_bodyTuples h he hnone i hi) (not_lt.mpr hle)
    have hfilter : ¬ Returns (bodyTuples (dictText (entries.filter Entry.isNone))) := fun h =>
      absurd (read_of_returns_bodyTuples h (List.mem_filter.mpr ⟨he, hnone⟩) hnone i hi) (not_lt.mpr hle)
    rw [(eq_error_iff_not_returns fun _ => bodyTuples_error).mpr hfull,
      (eq_error_iff_not_returns fun _ => bodyTuples_error).mpr hfilter]
  · have hread : Returns ((entries.filter Entry.isNone).mapM Entry.read) := by
      rw [returns_mapM]
      intro e he
      obtain ⟨he, hnone⟩ := List.mem_filter.mp he
      rw [e.returns_read]
      intro i hi
      by_contra hn
      exact hlarge ⟨e, he, hnone, i, hi, not_lt.mp hn⟩
    obtain ⟨rows, hrows⟩ := hread
    rw [Separated, or_iff_right hlarge, bodyTuples_filter]
    constructor
    · intro h
      rw [hrows] at h
      obtain ⟨keys, hsub, hall, hmore⟩ := keysIn_dictText entries
      have hquiet : ∀ e ∈ entries, e.value.Quiet := by
        intro e he
        by_contra hloud
        have hlt := hmore ⟨e, he, hloud⟩
        rw [bodyTuples_eq] at h
        have hlen := (mapM_eq_ok.mp h).length_eq
        have hlen' := (mapM_eq_ok.mp hrows).length_eq
        have hlen'' := hall.length_eq
        omega
      rw [bodyTuples_eq, tupleTexts_dictText hquiet] at h
      exact ⟨hquiet, (noDigits_of_mapM_carried h hrows).2⟩
    · rintro ⟨hquiet, hbetween⟩
      exact bodyTuples_dictText hquiet hbetween

/-- The gate without the entries that have another value. -/
def SpacedGate.noneOnly (g : SpacedGate) : SpacedGate := { g with entries := g.entries.filter Entry.isNone }

/-- A resource's instructions, with one gate. -/
def instructions (g : SpacedGate) : Json := .object [(str "instructions", .string (gatesText [g]))]

/-- The entries with another value than `None` make no difference to what is extracted, and every list that is extracted is
the content of a tuple. -/
structure Independent (g : SpacedGate) : Prop where
  same : extractGates (instructions g) (str "instructions") = extractGates (instructions g.noneOnly) (str "instructions")
  content : ∀ gates, extractGates (instructions g) (str "instructions") = .ok gates → ∀ gate ∈ gates,
    ∀ row ∈ gate.mSupportedQubits, ∃ e ∈ g.entries, row = e.content

theorem extractGates_instructions (g : SpacedGate) :
    extractGates (instructions g) (str "instructions") =
      (bodyTuples (dictText g.entries)).map fun tuples => [⟨g.name, g.properties.1, g.properties.2, tuples⟩] := by
  have hfind : (instructions g).find (str "instructions") = some (.string (gatesText [g])) := rfl
  rw [extractGates, decodedText_gatesText hfind]
  show gateLoop (gatePattern.allMatches (gatesText [g])) [] = _
  rw [allMatches_gatesText]
  show (do
    let round ← (do
      let tuples ← bodyTuples (dictText g.entries)
      let properties ← getGateProterties g.name
      return ((⟨g.name, properties.1, properties.2, [] ++ tuples⟩ : Gate), ([] : List (List UInt32))))
    let gates ← (Except.ok [] : Except Exn (List Gate))
    return round.1 :: gates) = _
  rw [g.known]
  cases bodyTuples (dictText g.entries) <;> rfl

theorem same_iff (g : SpacedGate) :
    extractGates (instructions g) (str "instructions") = extractGates (instructions g.noneOnly) (str "instructions") ↔
      bodyTuples (dictText g.entries) = bodyTuples (dictText (g.entries.filter Entry.isNone)) := by
  rw [extractGates_instructions, extractGates_instructions, SpacedGate.noneOnly]
  cases bodyTuples (dictText g.entries) <;> cases bodyTuples (dictText (g.entries.filter Entry.isNone)) <;>
    simp [Except.map]

theorem independent_iff (g : SpacedGate) : Independent g ↔ Separated g.entries := by
  constructor
  · intro h
    exact (bodyTuples_filter_iff g.entries).mp ((same_iff g).mp h.same)
  · intro h
    have heq := (bodyTuples_filter_iff g.entries).mpr h
    refine ⟨(same_iff g).mpr heq, fun gates hgates gate hgate row hrow => ?_⟩
    rw [extractGates_instructions, heq, bodyTuples_filter] at hgates
    cases hread : (g.entries.filter Entry.isNone).mapM Entry.read with
    | error e =>
      rw [hread] at hgates
      cases hgates
    | ok rows =>
      rw [hread] at hgates
      cases hgates
      cases List.mem_singleton.mp hgate
      obtain ⟨e, he, hrow⟩ := exists_of_mem_mapM hread hrow
      have hcontent := Entry.read_of_lt (e.returns_read.mp ⟨row, hrow⟩)
      rw [hrow] at hcontent
      exact ⟨e, (List.mem_filter.mp he).1, Except.ok.inj hcontent⟩

theorem no_brace_five : 123 ∉ str " 5" ∧ 125 ∉ str " 5" := by decide

theorem getGateProterties_cz : getGateProterties (str "cz") = .ok (2, 0) := by decide

/-- `{(0, 1): 5, (1, 2): None}` -/
def sampleDictionary : SpacedGate :=
  { before := .none, afterParen := .none, quote := .single, name := str "cz", properties := (2, 0),
    known := getGateProterties_cz, beforeComma := .none, afterComma := .one, afterBrace := .none, after := .none,
    entries := [⟨.none, [⟨.none, 0, .none⟩, ⟨.one, 1, .none⟩], .none, .other (str " 5") no_brace_five⟩,
      ⟨.one, [⟨.none, 1, .none⟩, ⟨.one, 2, .none⟩], .none, .none .one .none⟩] }

/-- The value and the first key's parenthesis are taken for the beginning of the second key. -/
theorem not_independent : ¬ Independent sampleDictionary ∧
    extractGates (instructions sampleDictionary) (str "instructions") = .ok [⟨str "cz", 2, 0, [[5, 1, 2]]⟩] ∧
    extractGates (instructions sampleDictionary.noneOnly) (str "instructions") = .ok [⟨str "cz", 2, 0, [[1, 2]]⟩] := by
  have hfull : extractGates (instructions sampleDictionary) (str "instructions") = .ok [⟨str "cz", 2, 0, [[5, 1, 2]]⟩] := by
    decide
  have hnone : extractGates (instructions sampleDictionary.noneOnly) (str "instructions") =
      .ok [⟨str "cz", 2, 0, [[1, 2]]⟩] := by
    decide
  refine ⟨fun h => ?_, hfull, hnone⟩
  have hsame := h.same
  rw [hfull, hnone] at hsame
  exact absurd hsame (by decide)

end MqssClient
