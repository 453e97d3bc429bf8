import MqssClient.Foundations.Except
import MqssClient.Foundations.SortedMap
import Mathlib.Algebra.Ring.Int.Defs
import Mathlib.Algebra.Ring.Nat
import Mathlib.Data.List.Lex
import Mathlib.Data.List.TakeWhile

/-!
# Strings, numbers and exceptions of the C++ library

* `Bytes`: a `std::string`, any sequence of bytes; `str` reads a literal;
* `Exn`: the exceptions the client's code can raise;
* `toInt`, `toUnsigned`: the conversions to `int` and `unsigned int`;
* `stoi`, `find`, `tolower` and the other members of the library that the client calls.
-/

namespace MqssClient

/-- A `std::string`: bytes, not necessarily valid UTF-8 and possibly containing NUL. -/
abbrev Bytes := List UInt8

/-- A quantifier over the characters of a string is decided along the string. -/
instance (s : Bytes) (p : UInt8 → Prop) [DecidablePred p] : Decidable (∀ c ∈ s, p c) := List.decidableBAll p s

/-- The bytes of an ASCII literal. -/
def str (s : String) : Bytes := s.toList.map fun c => UInt8.ofNat c.toNat

/-- Characters compare as `unsigned char`. -/
instance instLinearOrderUInt8 : LinearOrder UInt8 where
  le_refl := UInt8.le_refl
  le_trans _ _ _ := UInt8.le_trans
  le_antisymm _ _ := UInt8.le_antisymm
  le_total := UInt8.le_total
  lt_iff_le_not_ge _ _ := Std.LawfulOrderLT.lt_iff _ _
  toDecidableLE := inferInstance

/-- The exceptions the client's code raises, with the text it gives them; an exception of the JSON library
carries its documented number. -/
inductive Exn where
  | runtime_error (what : Bytes)
  | invalid_argument (what : Bytes)
  | out_of_range (what : Bytes)
  | json_type_error (id : Nat)
  | json_out_of_range (id : Nat)
deriving DecidableEq

/-- What `catch (const std::runtime_error&)` catches. -/
def Exn.isRuntimeError : Exn → Bool
  | .runtime_error _ => true
  | _ => false

/-! ## Numbers -/

/-- Conversion to `int`: the value modulo `2^32`, read as a signed number. -/
def toInt (i : Int) : Int := i.bmod (2 ^ 32)

/-- Conversion to `unsigned int`: the value modulo `2^32`. -/
def toUnsigned (i : Int) : UInt32 := UInt32.ofNat (i % 2 ^ 32).toNat

/-- `std::to_string`. -/
def to_string (i : Int) : Bytes := str (toString i)

theorem toNat_toUnsigned (i : Int) : ((toUnsigned i).toNat : Int) = i % 2 ^ 32 := by
  rw [toUnsigned, UInt32.toNat_ofNat']
  omega

/-- The conversion to `uint64_t` keeps what is not negative, and adds `2 ^ 64` to what is. -/
theorem toNat_ofInt_of_nonneg {i : Int} (h : 0 ≤ i) (hlt : i < 2 ^ 64) : ((UInt64.ofInt i).toNat : Int) = i := by
  rw [UInt64.ofInt, UInt64.toNat_ofNat']
  omega

theorem toNat_ofInt_of_neg {i : Int} (h : i < 0) (hlt : -2 ^ 64 ≤ i) : ((UInt64.ofInt i).toNat : Int) = i + 2 ^ 64 := by
  rw [UInt64.ofInt, UInt64.toNat_ofNat']
  omega

theorem toInt_of_bounds {i : Int} (h0 : -2 ^ 31 ≤ i) (h1 : i < 2 ^ 31) : toInt i = i := by
  rw [toInt, Int.bmod_eq_of_le] <;> omega

/-! ## Characters -/

/-- `\d` of a regular expression. -/
def isdigit (c : UInt8) : Bool := 48 ≤ c && c ≤ 57

/-- `std::isspace`, and `\s` of a regular expression, in the "C" locale. -/
def isspace (c : UInt8) : Bool := c = 32 || (9 ≤ c && c ≤ 13)

/-- `std::tolower` in the "C" locale. -/
def tolower (c : UInt8) : UInt8 := if 65 ≤ c && c ≤ 90 then c + 32 else c

/-- The character `/`. -/
abbrev slash : UInt8 := 47

/-- The character `:`. -/
abbrev colon : UInt8 := 58

/-- `std::transform` with `std::tolower`. -/
def lower (s : Bytes) : Bytes := s.map tolower

@[simp] theorem lower_append (s t : Bytes) : lower (s ++ t) = lower s ++ lower t := List.map_append

/-- No other character than a letter is lowered to one that is not a lower-case letter. -/
theorem tolower_eq {c d : UInt8} (h : tolower c = d) (hd : d < 97 ∨ 122 < d) : c = d := by
  unfold tolower at h
  split_ifs at h with hc
  · simp only [Bool.and_eq_true, decide_eq_true_eq, UInt8.le_iff_toNat_le] at hc
    rw [← h, UInt8.lt_iff_toNat_lt, UInt8.lt_iff_toNat_lt, UInt8.toNat_add] at hd
    have h97 : (97 : UInt8).toNat = 97 := rfl
    have h122 : (122 : UInt8).toNat = 122 := rfl
    have h65 : (65 : UInt8).toNat = 65 := rfl
    have h90 : (90 : UInt8).toNat = 90 := rfl
    have h32 : (32 : UInt8).toNat = 32 := rfl
    omega
  · exact h

theorem tolower_tolower (c : UInt8) : tolower (tolower c) = tolower c := by
  by_cases hc : 65 ≤ c && c ≤ 90
  · have h : tolower c = c + 32 := if_pos hc
    simp only [Bool.and_eq_true, decide_eq_true_eq, UInt8.le_iff_toNat_le] at hc
    rw [h, tolower, if_neg]
    simp only [Bool.and_eq_true, decide_eq_true_eq, UInt8.le_iff_toNat_le, UInt8.toNat_add]
    have h65 : (65 : UInt8).toNat = 65 := rfl
    have h90 : (90 : UInt8).toNat = 90 := rfl
    have h32 : (32 : UInt8).toNat = 32 := rfl
    omega
  · have h : tolower c = c := if_neg hc
    rw [h, h]

theorem lower_lower (s : Bytes) : lower (lower s) = lower s := by
  simp [lower, tolower_tolower]

/-! ## Strings -/

/-- `std::string::find`: where `needle` first occurs. -/
def find (needle : Bytes) : Bytes → Option Nat
  | [] => if needle.isEmpty then some 0 else none
  | c :: s => if needle.isPrefixOf (c :: s) then some 0 else (find needle s).map (· + 1)

/-- `std::string::find` from a position on. -/
def findFrom (needle hay : Bytes) (pos : Nat) : Option Nat := (find needle (hay.drop pos)).map (· + pos)

/-- `std::string::substr`, for a position inside the string; the length `none` is `npos`. -/
def substr (s : Bytes) (pos : Nat) (len : Option Nat) : Bytes :=
  match len with
  | none => s.drop pos
  | some n => (s.drop pos).take n

@[simp] theorem substr_npos (s : Bytes) (pos : Nat) : substr s pos none = s.drop pos := rfl

@[simp] theorem substr_some (s : Bytes) (pos n : Nat) : substr s pos (some n) = (s.drop pos).take n := rfl

/-- The bytes a C library sees behind `c_str()`: those before the first NUL. -/
def c_str (s : Bytes) : Bytes := s.takeWhile (· ≠ 0)

/-- An occurrence found splits the string around it. -/
theorem find_eq_some {needle s : Bytes} {i : Nat} (h : find needle s = some i) :
    ∃ before after, s = before ++ needle ++ after ∧ before.length = i := by
  induction s generalizing i with
  | nil =>
    unfold find at h
    split_ifs at h with hn
    cases h
    exact ⟨[], [], by rw [List.isEmpty_iff.mp hn]; rfl, rfl⟩
  | cons c s ih =>
    unfold find at h
    split_ifs at h with hp
    · cases h
      obtain ⟨t, ht⟩ := List.isPrefixOf_iff_prefix.mp hp
      exact ⟨[], t, ht.symm, rfl⟩
    · obtain ⟨j, hj, rfl⟩ := Option.map_eq_some_iff.mp h
      obtain ⟨before, after, hs, hlen⟩ := ih hj
      exact ⟨c :: before, after, by rw [hs]; rfl, by rw [List.length_cons, hlen]⟩

/-- A string in front that lacks the first character of the needle only moves the occurrence. -/
theorem find_append {c : UInt8} {needle before s : Bytes} (h : c ∉ before) :
    find (c :: needle) (before ++ s) = (find (c :: needle) s).map (· + before.length) := by
  induction before with
  | nil => simp
  | cons d before ih =>
    obtain ⟨hd, hb⟩ := not_or.mp (List.mem_cons.not.mp h)
    have hp : (c :: needle).isPrefixOf (d :: (before ++ s)) = false := by simp [List.isPrefixOf, hd]
    rw [List.cons_append, find, hp, ih hb, if_neg (by decide), Option.map_map]
    congr 1

theorem find_prefix {needle s : Bytes} (h : needle ≠ []) : find needle (needle ++ s) = some 0 := by
  obtain ⟨c, t, rfl⟩ := List.exists_cons_of_ne_nil h
  have hp : (c :: t).isPrefixOf (c :: t ++ s) = true := List.isPrefixOf_iff_prefix.mpr (List.prefix_append _ _)
  rw [List.cons_append] at hp ⊢
  rw [find, if_pos hp]

theorem find_singleton_of_not_mem {c : UInt8} {s : Bytes} (h : c ∉ s) : find [c] s = none := by
  have happ : find [c] (s ++ []) = (find [c] []).map (· + s.length) := find_append h
  rw [List.append_nil] at happ
  rw [happ]
  rfl

/-! Cutting a string at the first occurrence of a character. -/

section Cut

variable (c : UInt8)

theorem not_mem_takeWhile_ne (s : Bytes) : c ∉ s.takeWhile (· ≠ c) := fun h => by
  simpa using List.mem_takeWhile_imp h

theorem dropWhile_ne_cases (s : Bytes) :
    s.dropWhile (· ≠ c) = [] ∨ ∃ t, s.dropWhile (· ≠ c) = c :: t := by
  induction s with
  | nil => exact Or.inl rfl
  | cons d s ih =>
    by_cases hd : d = c
    · exact Or.inr ⟨s, by simp [hd]⟩
    · simpa [hd] using ih

variable {c} {a b : Bytes}

theorem takeWhile_ne_append (ha : c ∉ a) (hb : b = [] ∨ ∃ t, b = c :: t) :
    (a ++ b).takeWhile (· ≠ c) = a := by
  rw [List.takeWhile_append_of_pos fun d hd => by simpa using ne_of_mem_of_not_mem hd ha]
  rcases hb with rfl | ⟨t, rfl⟩ <;> simp

theorem dropWhile_ne_append (ha : c ∉ a) (hb : b = [] ∨ ∃ t, b = c :: t) :
    (a ++ b).dropWhile (· ≠ c) = b := by
  rw [List.dropWhile_append_of_pos fun d hd => by simpa using ne_of_mem_of_not_mem hd ha]
  rcases hb with rfl | ⟨t, rfl⟩ <;> simp

end Cut

theorem c_str_eq_self_iff {s : Bytes} : c_str s = s ↔ 0 ∉ s := by
  rw [c_str, List.takeWhile_eq_self_iff]
  simp only [decide_eq_true_eq]
  exact ⟨fun h h0 => h 0 h0 rfl, fun h c hc h0 => h (h0 ▸ hc)⟩

theorem c_str_eq_self {s : Bytes} (h : ∀ c ∈ s, c ≠ 0) : c_str s = s :=
  c_str_eq_self_iff.mpr fun h0 => h 0 h0 rfl

/-- The value of a string of decimal digits. -/
def digitsValue (ds : Bytes) : Nat := ds.foldl (fun n d => 10 * n + (d.toNat - 48)) 0

/-- `std::stoi` in base ten: white space, a sign and digits; what follows the digits is not read. -/
def stoi (s : Bytes) : Except Exn Int :=
  let s := s.dropWhile isspace
  let negative := s.head? = some 45
  let s := if s.head? = some 45 ∨ s.head? = some 43 then s.tail else s
  let digits := s.takeWhile isdigit
  if digits.isEmpty then
    .error (.invalid_argument (str "stoi"))
  else
    let v : Int := if negative then -(digitsValue digits) else digitsValue digits
    if v < -2 ^ 31 ∨ 2 ^ 31 ≤ v then .error (.out_of_range (str "stoi")) else .ok v

example : stoi (str " -17x") = .ok (-17) := by decide

theorem stoi_bounds {s : Bytes} {v : Int} (h : stoi s = .ok v) : -2 ^ 31 ≤ v ∧ v < 2 ^ 31 := by
  unfold stoi at h
  dsimp only at h
  split_ifs at h <;> cases h <;> omega

/-- On a string of digits `stoi` reads the number, unless it exceeds the range of `int`. -/
theorem stoi_digits {s : Bytes} (hne : s ≠ []) (hd : ∀ c ∈ s, isdigit c) :
    stoi s = if digitsValue s < 2 ^ 31 then .ok (digitsValue s : Int) else .error (.out_of_range (str "stoi")) := by
  obtain ⟨c, t, rfl⟩ := List.exists_cons_of_ne_nil hne
  have hc : isdigit c = true := hd c List.mem_cons_self
  have h48 : 48 ≤ c ∧ c ≤ 57 := by simpa [isdigit] using hc
  have hspace : isspace c = false := by
    obtain ⟨h1, h2⟩ := h48
    simp only [isspace, Bool.or_eq_false_iff, Bool.and_eq_false_iff, decide_eq_false_iff_not]
    rw [UInt8.le_iff_toNat_le] at h1 h2
    refine ⟨fun h => ?_, Or.inr fun h => ?_⟩
    · rw [h] at h1
      exact absurd h1 (by decide)
    · rw [UInt8.le_iff_toNat_le] at h
      exact absurd (h1.trans h) (by decide)
  have h45 : c ≠ 45 := fun h => by rw [h] at h48; exact absurd h48.1 (by decide)
  have h43 : c ≠ 43 := fun h => by rw [h] at h48; exact absurd h48.1 (by decide)
  have hdrop : (c :: t).dropWhile isspace = c :: t := by simp [List.dropWhile, hspace]
  have htake : (c :: t).takeWhile isdigit = c :: t := List.takeWhile_eq_self_iff.mpr hd
  unfold stoi
  simp only [hdrop, List.head?_cons, Option.some.injEq, h45, h43, or_self, if_false, htake,
    List.isEmpty_cons, Bool.false_eq_true]
  split_ifs <;> first | rfl | omega

end MqssClient
