import MqssClient.Resource
import MqssClient.Foundations.Scan

/-!
# White space and numerals in the texts of a resource

* `Gap`: any white space;
* `numeral`: a number as it is printed; `stoi_numeral`: it is read back, unless it exceeds the range of `int`;
* `tupleQubits_eq`: the numerals that are read from the text of a tuple are its runs of digits.
-/

namespace MqssClient

open Foundations Pattern

/-! ## White space -/

structure Gap where
  text : Bytes
  spaces : ∀ c ∈ text, isspace c

def Gap.none : Gap := ⟨[], by simp⟩

def Gap.one : Gap := ⟨str " ", by decide⟩

/-- No white space is a character of a literal without white space. -/
theorem Gap.not_mem (g : Gap) {c : UInt8} (hc : isspace c = false) : c ∉ g.text := by
  intro hmem
  rw [g.spaces c hmem] at hc
  cases hc

theorem isdigit_of_isspace {c : UInt8} (h : isspace c) : ¬ isdigit c := by
  intro hd
  simp only [isspace, isdigit, Bool.or_eq_true, Bool.and_eq_true, decide_eq_true_eq, UInt8.le_iff_toNat_le] at h hd
  rcases h with rfl | h
  · exact absurd hd.1 (by decide)
  · exact absurd (hd.1.trans h.2) (by decide)

theorem Gap.no_digit (g : Gap) : ∀ c ∈ g.text, ¬ isdigit c := fun c hc => isdigit_of_isspace (g.spaces c hc)

/-- White space and another character than a digit do not begin with a digit. -/
theorem Gap.head_not_digit (g : Gap) {c : UInt8} (hc : ¬ isdigit c) (s : Bytes) :
    ∀ d ∈ (g.text ++ c :: s).head?, ¬ isdigit d := by
  intro d hd
  cases hg : g.text with
  | nil =>
    rw [hg] at hd
    cases hd
    exact hc
  | cons e t =>
    rw [hg] at hd
    cases hd
    exact g.no_digit d (hg ▸ List.mem_cons_self)

/-! ## Numerals -/

def numeral (n : Nat) : Bytes := to_string n

theorem numeral_eq (n : Nat) : numeral n = (Nat.toDigits 10 n).map fun c => UInt8.ofNat c.toNat := by
  show (toString n).toList.map _ = _
  rw [Nat.toString_eq_ofList_toDigits, String.toList_ofList]

theorem numeral_ne_nil (n : Nat) : numeral n ≠ [] := by
  rw [numeral_eq, ne_eq, List.map_eq_nil_iff]
  exact Nat.toDigits_ne_nil

/-- The byte of a decimal digit. -/
theorem toNat_digit {c : Char} (h : c.isDigit) : (UInt8.ofNat c.toNat).toNat = c.toNat ∧ 48 ≤ c.toNat ∧ c.toNat ≤ 57 := by
  have hbounds : 48 ≤ c.toNat ∧ c.toNat ≤ 57 := Char.isDigit_iff_toNat.mp h
  exact ⟨by rw [UInt8.toNat_ofNat']; omega, hbounds⟩

theorem isdigit_numeral (n : Nat) : ∀ c ∈ numeral n, isdigit c := by
  rw [numeral_eq]
  intro c hc
  obtain ⟨d, hd, rfl⟩ := List.mem_map.mp hc
  obtain ⟨heq, hle⟩ := toNat_digit (Nat.isDigit_of_mem_toDigits (by decide) (by decide) hd)
  simp only [isdigit, Bool.and_eq_true, decide_eq_true_eq, UInt8.le_iff_toNat_le, heq]
  exact hle

theorem numeral_not_mem (n : Nat) {c : UInt8} (hc : isdigit c = false) : c ∉ numeral n := by
  intro hmem
  rw [isdigit_numeral n c hmem] at hc
  cases hc

theorem head_numeral (n : Nat) (s : Bytes) : ∀ c ∈ (numeral n ++ s).head?, isdigit c := by
  intro c hc
  rw [List.head?_append_of_ne_nil _ (numeral_ne_nil n)] at hc
  exact isdigit_numeral n c (List.mem_of_mem_head? hc)

theorem digitsValue_numeral (n : Nat) : digitsValue (numeral n) = n := by
  have hdigits : ∀ c ∈ Nat.toDigits 10 n, c.isDigit := fun _ => Nat.isDigit_of_mem_toDigits (by decide) (by decide)
  have hfold : ∀ (cs : List Char) (v : Nat), (∀ c ∈ cs, c.isDigit) →
      cs.foldl (fun n c => 10 * n + ((UInt8.ofNat c.toNat).toNat - 48)) v = Nat.ofDigitChars 10 cs v := by
    intro cs
    induction cs with
    | nil => exact fun v _ => Nat.ofDigitChars_nil.symm
    | cons c cs ih =>
      intro v hcs
      rw [List.foldl_cons, Nat.ofDigitChars_cons, (toNat_digit (hcs c List.mem_cons_self)).1]
      exact ih _ fun d hd => hcs d (List.mem_cons_of_mem c hd)
  rw [numeral_eq, digitsValue, List.foldl_map, hfold _ 0 hdigits, Nat.ofDigitChars_ten_toDigits]

theorem stoi_numeral (n : Nat) :
    stoi (numeral n) = if n < 2 ^ 31 then .ok (n : Int) else .error (.out_of_range (str "stoi")) := by
  rw [stoi_digits (numeral_ne_nil n) (isdigit_numeral n), digitsValue_numeral]

theorem stoi_digits_error {s : Bytes} (hne : s ≠ []) (hd : ∀ c ∈ s, isdigit c) {e : Exn} (h : stoi s = .error e) :
    e = .out_of_range (str "stoi") := by
  rw [stoi_digits hne hd] at h
  split_ifs at h
  cases h
  rfl

/-! ## Reading the numerals of a text -/

/-- What `tupleQubits` makes of one numeral. -/
def readQubit (s : Bytes) : Except Exn UInt32 := do
  let n ← stoi s
  return toUnsigned n

theorem tupleQubits_eq (s : Bytes) : tupleQubits s = (runs isdigit s).mapM readQubit := by
  rw [tupleQubits, numberPattern, allMatches_many1, List.mapM_map]
  rfl

theorem readQubit_numeral (n : Nat) :
    readQubit (numeral n) = if n < 2 ^ 31 then .ok (UInt32.ofNat n) else .error (.out_of_range (str "stoi")) := by
  rw [readQubit, stoi_numeral]
  split_ifs with h
  · show Except.ok (toUnsigned n) = _
    rw [toUnsigned, Int.emod_eq_of_lt (by omega) (by omega), Int.toNat_natCast]
  · rfl

theorem tupleQubits_error {s : Bytes} {e : Exn} (h : tupleQubits s = .error e) : e = .out_of_range (str "stoi") := by
  obtain ⟨m, hm, h⟩ := exists_of_mapM_eq_error h
  obtain ⟨hne, hd, -⟩ := matches_many1 (matches_of_mem_allMatches hm)
  rcases bind_eq_error.mp h with h | ⟨n, -, h⟩
  · exact stoi_digits_error hne hd h
  · cases h

end MqssClient
