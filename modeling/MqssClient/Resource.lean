import MqssClient.Json
import MqssClient.Foundations.Pattern

/-!
# Resources

* `couplingPattern`, `gatePattern`, `tuplePattern`, `numberPattern`: the regular expressions of the decoders;
* `extractCouplingMap`, `getGateProterties`, `extractGates`, `Resource.ofJson`: the decoding of a resource entry;
* `returns_extractCouplingMap`, `returns_extractGates`, `returns_ofJson`: when a decoder raises nothing;
* `couplingMap_rows`: every row of a coupling map is a pair of numbers in the range of `int`.
-/

namespace MqssClient

open Foundations

structure Gate where
  mName : Bytes
  mQubitNumber : UInt32
  mParameterNumber : UInt32
  mSupportedQubits : List (List UInt32)
deriving DecidableEq

structure Resource where
  mName : Bytes
  mQubitCount : UInt32
  mOnline : Bool
  mCouplingMap : List (List Int)
  mNativeGateset : List Gate
deriving DecidableEq

/-! ## The regular expressions -/

/-- A character class `[...]`. -/
def oneOf (s : String) (c : UInt8) : Bool := c ∈ str s

/-- A character class `[^...]`. -/
def noneOf (s : String) (c : UInt8) : Bool := c ∉ str s

/-- `\[(\d+),\s*(\d+)\]` -/
def couplingPattern : Pattern UInt8 := .ofList [
  .word (str "["), .group (.many1 isdigit), .word (str ","), .many isspace, .group (.many1 isdigit),
  .word (str "]")]

/-- `\(\s*['"]([^'"]+)['"]\s*,\s*(\{[^{}]*\})\s*\)` -/
def gatePattern : Pattern UInt8 := .ofList [
  .word (str "("), .many isspace, .one (oneOf "'\""), .group (.many1 (noneOf "'\"")), .one (oneOf "'\""),
  .many isspace, .word (str ","), .many isspace,
  .group (.ofList [.word (str "\x7b"), .many (noneOf "\x7b\x7d"), .word (str "\x7d")]),
  .many isspace, .word (str ")")]

/-- `([^)]*)\)\s*:\s*None` -/
def tuplePattern : Pattern UInt8 := .ofList [
  .group (.many (noneOf ")")), .word (str ")"), .many isspace, .word (str ":"), .many isspace,
  .word (str "None")]

/-- `\d+` -/
def numberPattern : Pattern UInt8 := .many1 isdigit

/-- A group of a match, counted from one. -/
def group (m : Match UInt8) (i : Nat) : Bytes := m.groups.getD (i - 1) []

/-! ## The decoders -/

/-- The string member at `key` that a decoder scans: none when there is no such member, or it is `None`. -/
def decodedText (response : Json) (key : Bytes) : Option Bytes :=
  match response.find key with
  | some (.string text) => if text = str "None" then none else some text
  | _ => none

def extractCouplingMap (response : Json) (key : Bytes) : Except Exn (List (List Int)) :=
  match decodedText response key with
  | none => .ok []
  | some text => (couplingPattern.allMatches text).mapM fun m => do
    let a ← stoi (group m 1)
    let b ← stoi (group m 2)
    return [a, b]

/-- The arity and the number of parameters of a gate, by its name. -/
def getGateProterties (gateName : Bytes) : Except Exn (UInt32 × UInt32) :=
  if gateName = str "cz" then .ok (2, 0)
  else if gateName = str "measure" then .ok (1, 0)
  else if gateName = str "id" then .ok (1, 0)
  else if gateName = str "r" then .ok (1, 2)
  else if gateName = str "rx" then .ok (1, 1)
  else if gateName = str "rz" then .ok (1, 1)
  else if gateName = str "rxx" then .ok (2, 1)
  else if gateName = str "if_else" then .ok (1, 0)
  else if gateName = str "reset" then .ok (1, 0)
  else if gateName = str "swap" then .ok (2, 0)
  else .error (.invalid_argument (str "Unknown Gate: " ++ gateName))

/-- The qubits in the text of a tuple: each of its numerals. -/
def tupleQubits (tupleText : Bytes) : Except Exn (List UInt32) :=
  (numberPattern.allMatches tupleText).mapM fun m => do
    let n ← stoi m.text
    return toUnsigned n

/-- The tuples of a gate's dictionary. -/
def bodyTuples (body : Bytes) : Except Exn (List (List UInt32)) :=
  (tuplePattern.allMatches body).mapM fun m => tupleQubits (group m 1)

/-- One round of the gate loop. The tuples go into a vector that outlives the round; moving it into the gate
leaves it empty. -/
def gateRound (m : Match UInt8) (supportedQubits : List (List UInt32)) :
    Except Exn (Gate × List (List UInt32)) := do
  let tuples ← bodyTuples (group m 2)
  let properties ← getGateProterties (group m 1)
  return (⟨group m 1, properties.1, properties.2, supportedQubits ++ tuples⟩, [])

def gateLoop : List (Match UInt8) → List (List UInt32) → Except Exn (List Gate)
  | [], _ => .ok []
  | m :: ms, supportedQubits => do
    let round ← gateRound m supportedQubits
    let gates ← gateLoop ms round.2
    return round.1 :: gates

def extractGates (response : Json) (key : Bytes) : Except Exn (List Gate) :=
  match decodedText response key with
  | none => .ok []
  | some text => gateLoop (gatePattern.allMatches text) []

/-- The `qubits` member, when it is a number, and zero otherwise. -/
def qubitCount (lib : JsonLib) (json : Json) : Except Exn UInt32 :=
  if json.contains (str "qubits") && (json.subscript (str "qubits")).isNumber then
    lib.getUnsigned (json.subscript (str "qubits"))
  else
    .ok 0

/-- `Resource::Resource(const nlohmann::json&)`. -/
def Resource.ofJson (lib : JsonLib) (json : Json) : Except Exn Resource := do
  let mName ← json.value Json.getString (str "name") []
  let mQubitCount ← qubitCount lib json
  let mOnline ← json.value Json.getBool (str "online") false
  let mCouplingMap ← extractCouplingMap json (str "connectivity")
  let mNativeGateset ← extractGates json (str "instructions")
  return { mName, mQubitCount, mOnline, mCouplingMap, mNativeGateset }

/-! ## What the patterns match -/

section Groups

open Pattern

/-- The groups of the coupling pattern are two numerals. -/
theorem groups_couplingPattern {w : Bytes} {gs : List Bytes} (h : Matches couplingPattern w gs) :
    ∃ a b, gs = [a, b] ∧ (a ≠ [] ∧ ∀ c ∈ a, isdigit c) ∧ (b ≠ [] ∧ ∀ c ∈ b, isdigit c) := by
  obtain ⟨_, _, _, _, -, rfl, h1, r1⟩ := matches_ofList_cons h
  obtain ⟨_, _, _, _, -, rfl, h2, r2⟩ := matches_ofList_cons r1
  obtain ⟨_, _, _, _, -, rfl, h3, r3⟩ := matches_ofList_cons r2
  obtain ⟨_, _, _, _, -, rfl, h4, r4⟩ := matches_ofList_cons r3
  obtain ⟨_, _, _, _, -, rfl, h5, r5⟩ := matches_ofList_cons r4
  obtain ⟨_, _, _, _, -, rfl, h6, r6⟩ := matches_ofList_cons r5
  obtain ⟨-, rfl⟩ := matches_word h1
  obtain ⟨_, rfl, ha⟩ := matches_group_iff.mp h2
  obtain ⟨-, rfl⟩ := matches_word h3
  obtain ⟨-, rfl⟩ := matches_many_iff.mp h4
  obtain ⟨_, rfl, hb⟩ := matches_group_iff.mp h5
  obtain ⟨-, rfl⟩ := matches_word h6
  obtain ⟨-, rfl⟩ := matches_empty_iff.mp r6
  obtain ⟨ha1, ha2, rfl⟩ := matches_many1 ha
  obtain ⟨hb1, hb2, rfl⟩ := matches_many1 hb
  exact ⟨_, _, rfl, ⟨ha1, ha2⟩, ⟨hb1, hb2⟩⟩

end Groups

/-- Both groups of a match of the coupling pattern are numerals. -/
theorem couplingMatch_numerals {m : Match UInt8} {text : Bytes} (hm : m ∈ couplingPattern.allMatches text) :
    (group m 1 ≠ [] ∧ ∀ c ∈ group m 1, isdigit c) ∧ (group m 2 ≠ [] ∧ ∀ c ∈ group m 2, isdigit c) := by
  obtain ⟨a, b, hgs, ha, hb⟩ := groups_couplingPattern (Pattern.matches_of_mem_allMatches hm)
  have h1 : group m 1 = a := by rw [group, hgs]; rfl
  have h2 : group m 2 = b := by rw [group, hgs]; rfl
  rw [h1, h2]
  exact ⟨ha, hb⟩

/-! ## When a decoder returns -/

theorem returns_stoi_digits {s : Bytes} (hne : s ≠ []) (hd : ∀ c ∈ s, isdigit c) :
    Returns (stoi s) ↔ digitsValue s < 2 ^ 31 := by
  rw [stoi_digits hne hd]
  split_ifs with h
  · exact iff_of_true (returns_ok _) h
  · exact iff_of_false (not_returns_error _) h

/-- Every matched numeral of the text fits `int`. -/
def CouplingFits (text : Bytes) : Prop :=
  ∀ m ∈ couplingPattern.allMatches text, digitsValue (group m 1) < 2 ^ 31 ∧ digitsValue (group m 2) < 2 ^ 31

theorem returns_extractCouplingMap (response : Json) (key : Bytes) :
    Returns (extractCouplingMap response key) ↔ ∀ text, decodedText response key = some text → CouplingFits text := by
  unfold extractCouplingMap
  cases decodedText response key with
  | none => simp
  | some text =>
    simp only [returns_mapM, Option.some.injEq, forall_eq']
    refine forall₂_congr fun m hm => ?_
    obtain ⟨ha, hb⟩ := couplingMatch_numerals hm
    rw [← returns_stoi_digits ha.1 ha.2, ← returns_stoi_digits hb.1 hb.2]
    cases stoi (group m 1) <;> cases stoi (group m 2) <;> simp

/-- A row is a pair of numbers in the range of `int`, none negative. -/
def IsPair (row : List Int) : Prop := ∃ a b, row = [a, b] ∧ (0 ≤ a ∧ a < 2 ^ 31) ∧ (0 ≤ b ∧ b < 2 ^ 31)

theorem stoi_digits_bounds {s : Bytes} (hne : s ≠ []) (hd : ∀ c ∈ s, isdigit c) {v : Int} (h : stoi s = .ok v) :
    0 ≤ v ∧ v < 2 ^ 31 := by
  rw [stoi_digits hne hd] at h
  split_ifs at h with hlt
  cases h
  omega

/-- Whatever the text, the rows of a coupling map are pairs of numbers in the range of `int`. -/
theorem couplingMap_rows {response : Json} {key : Bytes} {couplingMap : List (List Int)}
    (h : extractCouplingMap response key = .ok couplingMap) : ∀ row ∈ couplingMap, IsPair row := by
  unfold extractCouplingMap at h
  cases ht : decodedText response key with
  | none =>
    rw [ht] at h
    cases h
    simp
  | some text =>
    rw [ht] at h
    intro row hrow
    obtain ⟨m, hm, hrow⟩ := exists_of_mem_mapM h hrow
    obtain ⟨ha, hb⟩ := couplingMatch_numerals hm
    obtain ⟨x, hx, hrow⟩ := bind_eq_ok.mp hrow
    obtain ⟨y, hy, hrow⟩ := bind_eq_ok.mp hrow
    cases hrow
    exact ⟨x, y, rfl, stoi_digits_bounds ha.1 ha.2 hx, stoi_digits_bounds hb.1 hb.2 hy⟩

/-- What the decoder ensures of a gate: the table's properties, and indices in the range of `int`. -/
structure Gate.Decoded (g : Gate) : Prop where
  properties : getGateProterties g.mName = .ok (g.mQubitNumber, g.mParameterNumber)
  indices : ∀ row ∈ g.mSupportedQubits, ∀ q ∈ row, q.toNat < 2 ^ 31

/-- Every gate of the table acts on a qubit. -/
theorem getGateProterties_pos {gateName : Bytes} {properties : UInt32 × UInt32}
    (h : getGateProterties gateName = .ok properties) : 0 < properties.1.toNat := by
  unfold getGateProterties at h
  repeat
    rcases ok_or_of_ite h with rfl | h
    · decide
  cases h

theorem tupleQubits_indices {tupleText : Bytes} {row : List UInt32} (h : tupleQubits tupleText = .ok row) :
    ∀ q ∈ row, q.toNat < 2 ^ 31 := by
  intro q hq
  obtain ⟨m, hm, hstore⟩ := exists_of_mem_mapM h hq
  obtain ⟨n, hn, hstore⟩ := bind_eq_ok.mp hstore
  obtain ⟨hne, hd, -⟩ := Pattern.matches_many1 (Pattern.matches_of_mem_allMatches hm)
  have hbounds := stoi_digits_bounds hne hd hn
  have hval := toNat_toUnsigned n
  obtain rfl : toUnsigned n = q := by simpa using hstore
  omega

theorem gateLoop_decoded {ms : List (Match UInt8)} {gates : List Gate} (h : gateLoop ms [] = .ok gates) :
    ∀ g ∈ gates, g.Decoded := by
  induction ms generalizing gates with
  | nil =>
    cases h
    simp
  | cons m ms ih =>
    obtain ⟨round, hround, h⟩ := bind_eq_ok.mp h
    obtain ⟨rest, hrest, h⟩ := bind_eq_ok.mp h
    obtain ⟨tuples, htuples, hround⟩ := bind_eq_ok.mp hround
    obtain ⟨properties, hproperties, hround⟩ := bind_eq_ok.mp hround
    cases hround
    cases h
    refine List.forall_mem_cons.mpr ⟨⟨hproperties, fun row hrow => ?_⟩, ih hrest⟩
    obtain ⟨t, -, ht⟩ := exists_of_mem_mapM htuples hrow
    exact tupleQubits_indices ht

/-- Whatever the text, the gates decoded from it are as the decoder ensures. -/
theorem gates_decoded {response : Json} {key : Bytes} {gates : List Gate} (h : extractGates response key = .ok gates) :
    ∀ g ∈ gates, g.Decoded := by
  unfold extractGates at h
  cases ht : decodedText response key with
  | none =>
    rw [ht] at h
    cases h
    simp
  | some text =>
    rw [ht] at h
    exact gateLoop_decoded h

/-- Every numeral in the keys of the dictionary fits `int`. -/
def TuplesFit (body : Bytes) : Prop :=
  ∀ m ∈ tuplePattern.allMatches body, ∀ n ∈ numberPattern.allMatches (group m 1), digitsValue n.text < 2 ^ 31

/-- The gate table knows the name. -/
def KnownGate (gateName : Bytes) : Prop := Returns (getGateProterties gateName)

theorem returns_tupleQubits (tupleText : Bytes) :
    Returns (tupleQubits tupleText) ↔ ∀ n ∈ numberPattern.allMatches tupleText, digitsValue n.text < 2 ^ 31 := by
  rw [tupleQubits, returns_mapM]
  refine forall₂_congr fun n hn => ?_
  obtain ⟨hne, hd, -⟩ := Pattern.matches_many1 (Pattern.matches_of_mem_allMatches hn)
  rw [← returns_stoi_digits hne hd]
  exact returns_bind_ok

theorem returns_bodyTuples (body : Bytes) : Returns (bodyTuples body) ↔ TuplesFit body := by
  rw [bodyTuples, returns_mapM]
  exact forall₂_congr fun m _ => returns_tupleQubits _

theorem returns_gateLoop (ms : List (Match UInt8)) (supportedQubits : List (List UInt32)) :
    Returns (gateLoop ms supportedQubits) ↔ ∀ m ∈ ms, TuplesFit (group m 2) ∧ KnownGate (group m 1) := by
  induction ms generalizing supportedQubits with
  | nil => simp [gateLoop]
  | cons m ms ih =>
    rw [List.forall_mem_cons, ← ih [], ← returns_bodyTuples, KnownGate, gateLoop, gateRound]
    cases bodyTuples (group m 2) with
    | error e => simp
    | ok tuples =>
      cases getGateProterties (group m 1) with
      | error e => simp
      | ok properties =>
        simp only [ok_bind, pure_eq_ok, returns_ok, true_and, and_true]
        exact returns_bind_ok

theorem returns_extractGates (response : Json) (key : Bytes) :
    Returns (extractGates response key) ↔ ∀ text, decodedText response key = some text →
      ∀ m ∈ gatePattern.allMatches text, TuplesFit (group m 2) ∧ KnownGate (group m 1) := by
  unfold extractGates
  cases decodedText response key with
  | none => simp
  | some text => simp only [returns_gateLoop, Option.some.injEq, forall_eq']

/-- What a value must be for a resource to be decoded from it without an exception. -/
structure Resource.Decodes (json : Json) : Prop where
  isObject : json.isObject
  name : ∀ v, json.find (str "name") = some v → v.isString
  online : ∀ v, json.find (str "online") = some v → v.isBoolean
  connectivity : ∀ text, decodedText json (str "connectivity") = some text → CouplingFits text
  instructions : ∀ text, decodedText json (str "instructions") = some text →
    ∀ m ∈ gatePattern.allMatches text, TuplesFit (group m 2) ∧ KnownGate (group m 1)

theorem returns_value {α : Type} (get : Json → Except Exn α) (json : Json) (key : Bytes) (default : α) :
    Returns (json.value get key default) ↔ json.isObject ∧ ∀ v, json.find key = some v → Returns (get v) := by
  cases json with
  | object members =>
    simp only [Json.value, Json.find, Json.isObject, true_and]
    cases lookup key members <;> simp
  | _ => simp [Json.value, Json.isObject]

theorem returns_getString (j : Json) : Returns j.getString ↔ j.isString := by
  cases j <;> simp [Json.getString, Json.isString]

theorem returns_getBool (j : Json) : Returns j.getBool ↔ j.isBoolean := by
  cases j <;> simp [Json.getBool, Json.isBoolean]

theorem returns_qubitCount (lib : JsonLib) (json : Json) : Returns (qubitCount lib json) := by
  unfold qubitCount
  split_ifs with h
  · cases hj : json.subscript (str "qubits") <;> simp [hj, Json.isNumber, JsonLib.getUnsigned] at h ⊢
  · exact returns_ok _

/-- Resource decoding raises nothing exactly on the values of `Resource.Decodes`. -/
theorem Resource.returns_ofJson (lib : JsonLib) (json : Json) :
    Returns (Resource.ofJson lib json) ↔ Resource.Decodes json := by
  have hname := returns_value Json.getString json (str "name") []
  have honline := returns_value Json.getBool json (str "online") false
  have hmap := returns_extractCouplingMap json (str "connectivity")
  have hgates := returns_extractGates json (str "instructions")
  simp only [returns_getString] at hname
  simp only [returns_getBool] at honline
  constructor
  · intro h
    obtain ⟨n, hn, h⟩ := returns_bind.mp h
    obtain ⟨q, hq, h⟩ := returns_bind.mp h
    obtain ⟨o, ho, h⟩ := returns_bind.mp h
    obtain ⟨c, hc, h⟩ := returns_bind.mp h
    obtain ⟨g, hg, -⟩ := returns_bind.mp h
    exact ⟨(hname.mp ⟨n, hn⟩).1, (hname.mp ⟨n, hn⟩).2, (honline.mp ⟨o, ho⟩).2, hmap.mp ⟨c, hc⟩, hgates.mp ⟨g, hg⟩⟩
  · intro h
    obtain ⟨n, hn⟩ := hname.mpr ⟨h.isObject, h.name⟩
    obtain ⟨q, hq⟩ := returns_qubitCount lib json
    obtain ⟨o, ho⟩ := honline.mpr ⟨h.isObject, h.online⟩
    obtain ⟨c, hc⟩ := hmap.mpr h.connectivity
    obtain ⟨g, hg⟩ := hgates.mpr h.instructions
    exact returns_bind.mpr ⟨n, hn, returns_bind.mpr ⟨q, hq, returns_bind.mpr ⟨o, ho,
      returns_bind.mpr ⟨c, hc, returns_bind.mpr ⟨g, hg, returns_ok _⟩⟩⟩⟩⟩

/-- What the decoder ensures of a resource. -/
theorem Resource.decoded {lib : JsonLib} {json : Json} {r : Resource} (h : Resource.ofJson lib json = .ok r) :
    (∀ row ∈ r.mCouplingMap, IsPair row) ∧ ∀ g ∈ r.mNativeGateset, g.Decoded := by
  obtain ⟨n, -, h⟩ := bind_eq_ok.mp h
  obtain ⟨q, -, h⟩ := bind_eq_ok.mp h
  obtain ⟨o, -, h⟩ := bind_eq_ok.mp h
  obtain ⟨c, hc, h⟩ := bind_eq_ok.mp h
  obtain ⟨g, hg, h⟩ := bind_eq_ok.mp h
  cases h
  exact ⟨couplingMap_rows hc, gates_decoded hg⟩

end MqssClient
