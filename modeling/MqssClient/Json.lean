import MqssClient.Std
import Mathlib.Algebra.Order.Ring.Rat

/-!
# JSON values as `nlohmann::json` has them

* `Json`: a value; an object is a list of members sorted by key;
* `find`, `contains`, `atKey`, `value`, `items`, `getString` and the other accesses the client makes, with the
  exceptions they are documented to raise;
* `JsonLib`: parsing and serialising, which are the library's own, with what is documented of them;
* `JsonLib.ofTable`: a library that knows the texts of a table, for runs on given texts.
-/

namespace MqssClient

open Foundations

/-- A JSON value. A number without fraction and exponent is an integer when it has a sign, and unsigned
otherwise; a number that fits neither is a `double`, given by its exact value. -/
inductive Json where
  | null
  | boolean (b : Bool)
  | numberInteger (v : Int64)
  | numberUnsigned (v : UInt64)
  | numberFloat (v : Rat)
  | string (s : Bytes)
  | array (elements : List Json)
  | object (members : List (Bytes × Json))

namespace Json

def isBoolean : Json → Bool
  | .boolean _ => true
  | _ => false

def isNumber : Json → Bool
  | .numberInteger _ | .numberUnsigned _ | .numberFloat _ => true
  | _ => false

def isString : Json → Bool
  | .string _ => true
  | _ => false

def isObject : Json → Bool
  | .object _ => true
  | _ => false

/-- An object built from a list of pairs. -/
def ofPairs (pairs : List (Bytes × Json)) : Json := .object (SortedMap.ofEntries pairs).entries

/-- `find`: the member at a key, when the value is an object that has one. -/
def find (j : Json) (key : Bytes) : Option Json :=
  match j with
  | .object members => lookup key members
  | _ => none

/-- `contains`: false of anything but an object. -/
def contains (j : Json) (key : Bytes) : Bool := (j.find key).isSome

/-- `operator[]`, on an object that has the key. -/
def subscript (j : Json) (key : Bytes) : Json := (j.find key).getD .null

/-- `at`: throws on a missing key and on anything but an object. -/
def atKey (j : Json) (key : Bytes) : Except Exn Json :=
  match j with
  | .object members =>
    match lookup key members with
    | some v => .ok v
    | none => .error (.json_out_of_range 403)
  | _ => .error (.json_type_error 304)

/-- `value`: the member at a key converted by `get`, or the default; throws on anything but an object. -/
def value {α : Type} (get : Json → Except Exn α) (j : Json) (key : Bytes) (default : α) : Except Exn α :=
  match j with
  | .object members =>
    match lookup key members with
    | some v => get v
    | none => .ok default
  | _ => .error (.json_type_error 306)

/-- `get<std::string>`. -/
def getString : Json → Except Exn Bytes
  | .string s => .ok s
  | _ => .error (.json_type_error 302)

/-- The text of a string. -/
def string? : Json → Option Bytes
  | .string s => some s
  | _ => none

/-- `get_ref<const std::string&>`. -/
def getRef : Json → Except Exn Bytes
  | .string s => .ok s
  | _ => .error (.json_type_error 303)

/-- `get<bool>`. -/
def getBool : Json → Except Exn Bool
  | .boolean b => .ok b
  | _ => .error (.json_type_error 302)

/-- `items`: the members of an object, the elements of an array under their positions, nothing of null, and
anything else once, under the empty key. -/
def items : Json → List (Bytes × Json)
  | .object members => members
  | .array elements => elements.mapIdx fun i v => (to_string i, v)
  | .null => []
  | j => [([], j)]

/-- The values a range-based `for` runs over. -/
def range : Json → List Json
  | .object members => members.map Prod.snd
  | .array elements => elements
  | .null => []
  | j => [j]

mutual

/-- A value a parse can yield: members sorted by key, and no positive integer stored as signed. -/
def canonical : Json → Bool
  | .numberInteger v => v ≤ 0
  | .array elements => canonicalAll elements
  | .object members => decide (Sorted members) && canonicalMembers members
  | _ => true

def canonicalAll : List Json → Bool
  | [] => true
  | v :: vs => canonical v && canonicalAll vs

def canonicalMembers : List (Bytes × Json) → Bool
  | [] => true
  | (_, v) :: vs => canonical v && canonicalMembers vs

end

mutual

/-- What is left of a value after serialising and parsing: an integer that is not negative becomes unsigned. -/
def reparsed : Json → Json
  | .numberInteger v => if v < 0 then .numberInteger v else .numberUnsigned v.toUInt64
  | .array elements => .array (reparsedAll elements)
  | .object members => .object (reparsedMembers members)
  | j => j

def reparsedAll : List Json → List Json
  | [] => []
  | v :: vs => reparsed v :: reparsedAll vs

def reparsedMembers : List (Bytes × Json) → List (Bytes × Json)
  | [] => []
  | (k, v) :: vs => (k, reparsed v) :: reparsedMembers vs

end

theorem sorted_of_canonical {members : List (Bytes × Json)} (h : (Json.object members).canonical) :
    Sorted members := by
  rw [canonical, Bool.and_eq_true, decide_eq_true_eq] at h
  exact h.1

theorem canonical_of_mem_array {elements : List Json} (h : (Json.array elements).canonical) :
    ∀ v ∈ elements, v.canonical := by
  rw [canonical] at h
  induction elements with
  | nil => intro v hv; cases hv
  | cons a l ih =>
    rw [canonicalAll, Bool.and_eq_true] at h
    intro v hv
    rcases List.mem_cons.mp hv with rfl | hv
    · exact h.1
    · exact ih h.2 v hv

theorem lookup_reparsedMembers (key : Bytes) (members : List (Bytes × Json)) :
    lookup key (reparsedMembers members) = (lookup key members).map reparsed := by
  induction members with
  | nil => rfl
  | cons e members ih =>
    obtain ⟨k, v⟩ := e
    rw [reparsedMembers]
    unfold lookup at ih ⊢
    by_cases hk : k = key
    · simp [hk]
    · simpa [hk] using ih

theorem find_reparsed (j : Json) (key : Bytes) : j.reparsed.find key = (j.find key).map reparsed := by
  cases j with
  | object members =>
    rw [reparsed]
    exact lookup_reparsedMembers key members
  | numberInteger v =>
    rw [reparsed]
    split_ifs <;> rfl
  | array elements => rw [reparsed]; rfl
  | null | boolean | numberUnsigned | numberFloat | string => rfl

mutual

/-- Equality of values is decidable. -/
def decEq : (x y : Json) → Decidable (x = y)
  | .null, .null => .isTrue rfl
  | .boolean x, .boolean y => decidable_of_iff (x = y) (by simp)
  | .numberInteger x, .numberInteger y => decidable_of_iff (x = y) (by simp)
  | .numberUnsigned x, .numberUnsigned y => decidable_of_iff (x = y) (by simp)
  | .numberFloat x, .numberFloat y => decidable_of_iff (x = y) (by simp)
  | .string x, .string y => decidable_of_iff (x = y) (by simp)
  | .array x, .array y =>
    have := decEqAll x y
    decidable_of_iff (x = y) (by simp)
  | .object x, .object y =>
    have := decEqMembers x y
    decidable_of_iff (x = y) (by simp)
  | .null, .boolean _ | .null, .numberInteger _ | .null, .numberUnsigned _ | .null, .numberFloat _
  | .null, .string _ | .null, .array _ | .null, .object _
  | .boolean _, .null | .boolean _, .numberInteger _ | .boolean _, .numberUnsigned _
  | .boolean _, .numberFloat _ | .boolean _, .string _ | .boolean _, .array _ | .boolean _, .object _
  | .numberInteger _, .null | .numberInteger _, .boolean _ | .numberInteger _, .numberUnsigned _
  | .numberInteger _, .numberFloat _ | .numberInteger _, .string _ | .numberInteger _, .array _
  | .numberInteger _, .object _
  | .numberUnsigned _, .null | .numberUnsigned _, .boolean _ | .numberUnsigned _, .numberInteger _
  | .numberUnsigned _, .numberFloat _ | .numberUnsigned _, .string _ | .numberUnsigned _, .array _
  | .numberUnsigned _, .object _
  | .numberFloat _, .null | .numberFloat _, .boolean _ | .numberFloat _, .numberInteger _
  | .numberFloat _, .numberUnsigned _ | .numberFloat _, .string _ | .numberFloat _, .array _
  | .numberFloat _, .object _
  | .string _, .null | .string _, .boolean _ | .string _, .numberInteger _ | .string _, .numberUnsigned _
  | .string _, .numberFloat _ | .string _, .array _ | .string _, .object _
  | .array _, .null | .array _, .boolean _ | .array _, .numberInteger _ | .array _, .numberUnsigned _
  | .array _, .numberFloat _ | .array _, .string _ | .array _, .object _
  | .object _, .null | .object _, .boolean _ | .object _, .numberInteger _ | .object _, .numberUnsigned _
  | .object _, .numberFloat _ | .object _, .string _ | .object _, .array _ => .isFalse (by simp)

def decEqAll : (x y : List Json) → Decidable (x = y)
  | [], [] => .isTrue rfl
  | [], _ :: _ => .isFalse (by simp)
  | _ :: _, [] => .isFalse (by simp)
  | a :: x, b :: y =>
    have := decEq a b
    have := decEqAll x y
    decidable_of_iff (a = b ∧ x = y) (by simp)

def decEqMembers : (x y : List (Bytes × Json)) → Decidable (x = y)
  | [], [] => .isTrue rfl
  | [], _ :: _ => .isFalse (by simp)
  | _ :: _, [] => .isFalse (by simp)
  | (k, a) :: x, (l, b) :: y =>
    have := decEq a b
    have := decEqMembers x y
    decidable_of_iff ((k = l ∧ a = b) ∧ x = y) (by simp)

end

instance : DecidableEq Json := decEq

end Json

/-- Parsing and serialising. `parse` is `none` where `accept` is false; `dump` is `none` where it throws, which it
does on strings that are not UTF-8. `castOverflow` is what a conversion to `unsigned int` yields for a `double`
out of its range, which the language leaves undefined. -/
structure JsonLib where
  parse : Bytes → Option Json
  dump : Json → Option Bytes
  castOverflow : Rat → UInt32
  parse_nil : parse [] = none
  parse_canonical : ∀ {s j}, parse s = some j → j.canonical
  parse_dump : ∀ {j s}, dump j = some s → parse s = some j.reparsed
  dump_printable : ∀ {j s}, dump j = some s → ∀ c ∈ s, 32 ≤ c

namespace JsonLib

variable (lib : JsonLib)

/-- A serialisation is read as a C string whole. -/
theorem c_str_dump {j : Json} {s : Bytes} (h : lib.dump j = some s) : c_str s = s :=
  c_str_eq_self fun c hc h0 => absurd (h0 ▸ lib.dump_printable h c hc) (by decide)

/-- `get<unsigned int>`: casts any number or boolean. -/
def getUnsigned : Json → Except Exn UInt32
  | .numberUnsigned v => .ok (toUnsigned v.toNat)
  | .numberInteger v => .ok (toUnsigned v.toInt)
  | .numberFloat v =>
    let t := v.num.tdiv v.den
    .ok (if 0 ≤ t ∧ t < 2 ^ 32 then toUnsigned t else lib.castOverflow v)
  | .boolean b => .ok (if b then 1 else 0)
  | _ => .error (.json_type_error 302)

/-- `get<int>`: casts any number or boolean. -/
def getInt : Json → Except Exn Int
  | .numberUnsigned v => .ok (toInt v.toNat)
  | .numberInteger v => .ok (toInt v.toInt)
  | .numberFloat v =>
    let t := v.num.tdiv v.den
    .ok (if -2 ^ 31 ≤ t ∧ t < 2 ^ 31 then t else toInt (lib.castOverflow v).toNat)
  | .boolean b => .ok (if b then 1 else 0)
  | _ => .error (.json_type_error 302)

/-- A table of texts and the values they are the compact serialisation of. -/
def IsTable (t : List (Bytes × Json)) : Prop :=
  (t.Pairwise fun a b => a.1 ≠ b.1) ∧
    ∀ e ∈ t, e.1 ≠ [] ∧ (∀ c ∈ e.1, 32 ≤ c) ∧ e.2.canonical ∧ e.2.reparsed = e.2

instance (t : List (Bytes × Json)) : Decidable (IsTable t) := by
  unfold IsTable
  infer_instance

theorem find?_fst_of_mem {t : List (Bytes × Json)} (h : t.Pairwise fun a b => a.1 ≠ b.1) {e : Bytes × Json}
    (he : e ∈ t) : (t.find? fun a => a.1 = e.1) = some e := by
  induction t with
  | nil => cases he
  | cons a t ih =>
    obtain ⟨ha, ht⟩ := List.pairwise_cons.mp h
    rcases List.mem_cons.mp he with rfl | he
    · simp
    · rw [List.find?_cons_of_neg (by simpa using ha e he)]
      exact ih ht he

/-- A library that parses and serialises the entries of a table only. -/
def ofTable (t : List (Bytes × Json)) (h : IsTable t) : JsonLib where
  parse s := (t.find? fun e => e.1 = s).map Prod.snd
  dump j := (t.find? fun e => e.2 = j).map Prod.fst
  castOverflow _ := 0
  parse_nil := by
    rw [Option.map_eq_none_iff, List.find?_eq_none]
    intro e he
    simpa using (h.2 e he).1
  parse_canonical := by
    intro s j hs
    obtain ⟨e, he, rfl⟩ := Option.map_eq_some_iff.mp hs
    exact (h.2 e (List.mem_of_find?_eq_some he)).2.2.1
  parse_dump := by
    intro j s hj
    obtain ⟨e, he, rfl⟩ := Option.map_eq_some_iff.mp hj
    have hmem := List.mem_of_find?_eq_some he
    have hej : e.2 = j := by simpa using List.find?_some he
    rw [find?_fst_of_mem h.1 hmem, Option.map_some, ← hej, (h.2 e hmem).2.2.2]
  dump_printable := by
    intro j s hj
    obtain ⟨e, he, rfl⟩ := Option.map_eq_some_iff.mp hj
    exact (h.2 e (List.mem_of_find?_eq_some he)).2.1

end JsonLib

end MqssClient
