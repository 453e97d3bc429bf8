import MqssClient.Resource.Numerals
import Mathlib.Data.List.Induction

/-!
# Decimal numbers in texts

* `padded`: a number in a field of fixed width; `digitsValue_padded`: its digits have this value;
* `digitsValue_lt`: the value of a string of digits, by its length;
* `IntText`: what `stoi` looks for at the front of a text; `stoi_text`: it is read;
* `HoldsInt`, `returns_stoi_iff`: the texts from which an `int` is read.
-/

namespace MqssClient

open Foundations

/-! ## Fields of fixed width -/

theorem isdigit_iff {c : UInt8} : isdigit c ↔ 48 ≤ c.toNat ∧ c.toNat ≤ 57 := by
  simp only [isdigit, Bool.and_eq_true, decide_eq_true_eq, UInt8.le_iff_toNat_le]
  rfl

theorem digitsValue_append (s : Bytes) (c : UInt8) : digitsValue (s ++ [c]) = 10 * digitsValue s + (c.toNat - 48) :=
  List.foldl_append

/-- The last digits of a number, in a field of this width. -/
def padded : Nat → Nat → Bytes
  | 0, _ => []
  | width + 1, n => padded width (n / 10) ++ [UInt8.ofNat (48 + n % 10)]

theorem length_padded (width n : Nat) : (padded width n).length = width := by
  induction width generalizing n with
  | zero => rfl
  | succ width ih => rw [padded, List.length_append, ih, List.length_singleton]

theorem toNat_paddedDigit (n : Nat) : (UInt8.ofNat (48 + n % 10)).toNat = 48 + n % 10 := by
  rw [UInt8.toNat_ofNat']
  omega

theorem isdigit_padded (width n : Nat) : ∀ c ∈ padded width n, isdigit c := by
  induction width generalizing n with
  | zero => exact fun c hc => nomatch hc
  | succ width ih =>
    intro c hc
    rcases List.mem_append.mp hc with hc | hc
    · exact ih _ c hc
    · rw [List.mem_singleton.mp hc, isdigit_iff, toNat_paddedDigit]
      omega

theorem digitsValue_padded {width n : Nat} (h : n < 10 ^ width) : digitsValue (padded width n) = n := by
  induction width generalizing n with
  | zero =>
    obtain rfl : n = 0 := by omega
    rfl
  | succ width ih =>
    rw [pow_succ] at h
    rw [padded, digitsValue_append, ih (by omega), toNat_paddedDigit]
    omega

theorem digitsValue_lt {s : Bytes} (h : ∀ c ∈ s, isdigit c) : digitsValue s < 10 ^ s.length := by
  induction s using List.reverseRecOn with
  | nil => decide
  | append_singleton s c ih =>
    have hs := ih fun d hd => h d (List.mem_append_left _ hd)
    have hc := isdigit_iff.mp (h c (by simp))
    rw [digitsValue_append, List.length_append, List.length_singleton, pow_succ]
    omega

/-! ## What `stoi` reads -/

/-- White space, a sign if there is one, digits, and what is not read. -/
structure IntText where
  space : Gap
  sign : Bytes
  digits : Bytes
  rest : Bytes
  sign_mem : sign = [] ∨ sign = str "-" ∨ sign = str "+"
  digits_ne : digits ≠ []
  isdigit_digits : ∀ c ∈ digits, isdigit c
  rest_head : ∀ c ∈ rest.head?, ¬ isdigit c

namespace IntText

def text (t : IntText) : Bytes := t.space.text ++ (t.sign ++ (t.digits ++ t.rest))

def value (t : IntText) : Int := if t.sign = str "-" then -(digitsValue t.digits) else digitsValue t.digits

end IntText

/-- A text from which `stoi` reads an `int`. -/
def HoldsInt (s : Bytes) : Prop := ∃ t : IntText, s = t.text ∧ -2 ^ 31 ≤ t.value ∧ t.value < 2 ^ 31

/-- The sign is recognised, and the digits follow it. -/
theorem IntText.sign_digits (t : IntText) :
    (∀ c ∈ (t.sign ++ (t.digits ++ t.rest)).head?, ¬ isspace c) ∧
    ((t.sign ++ (t.digits ++ t.rest)).head? = some 45 ↔ t.sign = str "-") ∧
    (if (t.sign ++ (t.digits ++ t.rest)).head? = some 45 ∨ (t.sign ++ (t.digits ++ t.rest)).head? = some 43 then
      (t.sign ++ (t.digits ++ t.rest)).tail else t.sign ++ (t.digits ++ t.rest)) = t.digits ++ t.rest := by
  obtain ⟨d, ds, hd⟩ := List.exists_cons_of_ne_nil t.digits_ne
  have hdigit : isdigit d := t.isdigit_digits d (hd ▸ List.mem_cons_self)
  have hplus : d ≠ 43 := fun h => by rw [h] at hdigit; exact absurd hdigit (by decide)
  have hminus : d ≠ 45 := fun h => by rw [h] at hdigit; exact absurd hdigit (by decide)
  have hstr : str "-" = [45] ∧ str "+" = [43] := by decide
  rcases t.sign_mem with hs | hs | hs
  · rw [hs, hd]
    refine ⟨?_, by simp [hminus, hstr.1], by simp [hplus, hminus]⟩
    rintro c ⟨⟩
    exact fun h => isdigit_of_isspace h hdigit
  · rw [hs, hstr.1]
    refine ⟨?_, by simp, by simp⟩
    rintro c ⟨⟩
    decide
  · rw [hs, hstr.1, hstr.2]
    refine ⟨?_, by simp, by simp⟩
    rintro c ⟨⟩
    decide

theorem stoi_text (t : IntText) :
    stoi t.text = if t.value < -2 ^ 31 ∨ 2 ^ 31 ≤ t.value then .error (.out_of_range (str "stoi")) else .ok t.value := by
  obtain ⟨hspace, hminus, htail⟩ := t.sign_digits
  have htake : (t.digits ++ t.rest).takeWhile isdigit = t.digits := by
    rw [List.takeWhile_append_of_pos t.isdigit_digits]
    cases hr : t.rest with
    | nil => simp
    | cons c rest => simp [t.rest_head c (by rw [hr]; rfl)]
  have hempty : t.digits.isEmpty = false := by simpa using t.digits_ne
  unfold stoi IntText.text IntText.value
  rw [Pattern.dropWhile_append_self t.space.spaces hspace]
  dsimp only
  rw [htail, htake, hempty, if_neg (by decide)]
  simp only [hminus]

/-- Every text from which `stoi` reads has this form. -/
theorem exists_text_of_stoi {s : Bytes} {v : Int} (h : stoi s = .ok v) : ∃ t : IntText, s = t.text := by
  set body := s.dropWhile isspace with hbody
  have hsplit : ∃ sign after, body = sign ++ after ∧ (sign = [] ∨ sign = str "-" ∨ sign = str "+") ∧
      (if body.head? = some 45 ∨ body.head? = some 43 then body.tail else body) = after := by
    by_cases hsign : body.head? = some 45 ∨ body.head? = some 43
    · rw [if_pos hsign]
      rcases hsign with hs | hs
      · exact ⟨str "-", body.tail, (List.eq_cons_of_mem_head? hs), Or.inr (Or.inl rfl), rfl⟩
      · exact ⟨str "+", body.tail, (List.eq_cons_of_mem_head? hs), Or.inr (Or.inr rfl), rfl⟩
    · exact ⟨[], body, rfl, Or.inl rfl, if_neg hsign⟩
  obtain ⟨sign, after, happ, hsign, hafter⟩ := hsplit
  have hdigits : after.takeWhile isdigit ≠ [] := by
    intro hnil
    unfold stoi at h
    dsimp only at h
    rw [← hbody, hafter, hnil, if_pos (by rfl)] at h
    cases h
  refine ⟨⟨⟨s.takeWhile isspace, fun _ => List.mem_takeWhile_imp⟩, sign, after.takeWhile isdigit, after.dropWhile isdigit,
    hsign, hdigits, fun _ => List.mem_takeWhile_imp, ?_⟩, ?_⟩
  · intro c hc hdigit
    have hnot := List.head?_dropWhile_not isdigit after
    rw [Option.mem_def.mp hc] at hnot
    exact absurd hdigit (ne_true_of_eq_false hnot)
  · rw [IntText.text, List.takeWhile_append_dropWhile, ← happ]
    exact List.takeWhile_append_dropWhile.symm

theorem returns_stoi_iff {s : Bytes} : Returns (stoi s) ↔ HoldsInt s := by
  constructor
  · rintro ⟨v, h⟩
    obtain ⟨t, rfl⟩ := exists_text_of_stoi h
    refine ⟨t, rfl, ?_⟩
    rw [stoi_text] at h
    split_ifs at h with hrange
    omega
  · rintro ⟨t, rfl, hrange⟩
    rw [stoi_text, if_neg (by omega)]
    exact returns_ok _

end MqssClient
