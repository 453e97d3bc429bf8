import MqssClient.CApi.Timestamp
import MqssClient.Decimal
import MqssClient.Foundations.Calendar
import Mathlib.Algebra.Order.Floor.Semifield
import Mathlib.Data.Rat.Floor
import Mathlib.Tactic.FieldSimp
import Mathlib.Tactic.NormNum
import Mathlib.Tactic.Ring

/-!
# Timestamps as instants

* `Timestamp`: a date and a time of day from 1970 on, with a fraction of a second; `Timestamp.text`: as it is written;
* `Timestamp.instant`, `Timestamp.micros`: the seconds and the whole microseconds since the epoch;
* `parseTimestamp_text`: what `parseTimestamp` makes of a written timestamp; `eq_micros_iff`: when these are the microseconds;
* `parseTimestamp_error_iff`: which texts it refuses;
* `ExactOrRefused`: what a getter owes its caller; `timestamps_exact_iff`: for which texts it does.
-/

namespace MqssClient

open Foundations Calendar

/-- A date and a time of day from 1970 on. Without digits of a fraction there is no point either. -/
@[ext]
structure Timestamp where
  date : Date
  hour : Nat
  minute : Nat
  second : Nat
  fraction : Bytes
  year_ge : 1970 ≤ date.year
  year_le : date.year ≤ 9999
  hour_lt : hour < 24
  minute_lt : minute < 60
  second_lt : second < 60
  isdigit_fraction : ∀ c ∈ fraction, isdigit c

namespace Timestamp

/-- `YYYY-MM-DD HH:MM:SS` -/
def wholeText (t : Timestamp) : Bytes :=
  padded 4 t.date.year ++ (str "-" ++ (padded 2 t.date.month ++ (str "-" ++ (padded 2 t.date.day ++ (str " " ++
    (padded 2 t.hour ++ (str ":" ++ (padded 2 t.minute ++ (str ":" ++ padded 2 t.second)))))))))

def fractionText (t : Timestamp) : Bytes := if t.fraction = [] then [] else str "." ++ t.fraction

def text (t : Timestamp) : Bytes := t.wholeText ++ t.fractionText

def seconds (t : Timestamp) : Nat := t.date.daysSince 1970 * 86400 + t.hour * 3600 + t.minute * 60 + t.second

/-- The seconds since the epoch, with the fraction at its decimal weight. -/
def instant (t : Timestamp) : Rat := t.seconds + digitsValue t.fraction / 10 ^ t.fraction.length

/-- The whole microseconds since the epoch. -/
def micros (t : Timestamp) : Nat := t.seconds * 10 ^ 6 + digitsValue t.fraction * 10 ^ 6 / 10 ^ t.fraction.length

theorem micros_eq_floor (t : Timestamp) : t.micros = ⌊t.instant * 10 ^ 6⌋₊ := by
  have hpos : 0 < 10 ^ t.fraction.length := Nat.pow_pos (by decide)
  have hinstant : t.instant * 10 ^ 6 =
      ((10 ^ t.fraction.length * (t.seconds * 10 ^ 6) + digitsValue t.fraction * 10 ^ 6 : Nat) : Rat) /
        ((10 ^ t.fraction.length : Nat) : Rat) := by
    have hne : ((10 ^ t.fraction.length : Nat) : Rat) ≠ 0 := Nat.cast_ne_zero.mpr hpos.ne'
    rw [eq_div_iff hne, instant]
    push_cast
    field_simp
    norm_num
  rw [hinstant, Nat.floor_div_eq_div, Nat.mul_add_div hpos, micros]

/-- Microseconds are ordered as the instants are. -/
theorem micros_le_of_instant_le {t t' : Timestamp} (h : t.instant ≤ t'.instant) : t.micros ≤ t'.micros := by
  rw [micros_eq_floor, micros_eq_floor]
  exact Nat.floor_mono (mul_le_mul_of_nonneg_right h (by norm_num))

end Timestamp

/-! ## Reading a written timestamp -/

section Read

variable {lo hi width n : Nat} {store : Tm → Int → Tm} {ds : List Directive} {rest : Bytes} {tm : Tm}

theorem get_time_number (hwidth : 0 < width) (hn : n < 10 ^ width) (hlo : lo ≤ n) (hhi : n ≤ hi) :
    get_time (.number lo hi width store :: ds) (padded width n ++ rest) tm = get_time ds rest (store tm n) := by
  have htake : ((padded width n ++ rest).take width).takeWhile isdigit = padded width n := by
    rw [List.take_left' (length_padded width n), List.takeWhile_eq_self_iff]
    exact isdigit_padded width n
  have hempty : (padded width n).isEmpty = false := by
    rw [← Bool.not_eq_true, List.isEmpty_iff, ← List.length_eq_zero_iff, length_padded]
    omega
  rw [get_time, htake, digitsValue_padded hn, List.drop_left, hempty, if_neg (by simp; omega)]

theorem get_time_space (hrest : ∀ c ∈ rest.head?, ¬ isspace c) :
    get_time (.space :: ds) (str " " ++ rest) tm = get_time ds rest tm := by
  rw [get_time, Pattern.dropWhile_append_self (by decide) hrest]

theorem get_time_literal (c : UInt8) : get_time (.literal c :: ds) ([c] ++ rest) tm = get_time ds rest tm :=
  if_pos rfl

end Read

theorem head_padded (width n : Nat) (s : Bytes) : ∀ c ∈ (padded (width + 1) n ++ s).head?, isdigit c := by
  intro c hc
  have hne : padded (width + 1) n ≠ [] := List.append_ne_nil_of_right_ne_nil _ (List.cons_ne_nil _ _)
  rw [List.head?_append_of_ne_nil _ hne] at hc
  exact isdigit_padded _ _ c (List.mem_of_mem_head? hc)

/-- The number of days in the closed form of the calendar. -/
theorem daysFromCivil_eq (d : Date) (h : 1970 ≤ d.year) : daysFromCivil d.year d.month d.day = d.daysSince 1970 := by
  have hmonth := d.month_pos
  have hle := d.month_le
  have hepoch : daysBeforeYear (1970 : Nat) = 719162 := by decide
  rw [d.daysSince_eq h, hepoch]
  unfold daysFromCivil daysBeforeYear
  dsimp only
  by_cases hfirst : d.month ≤ 2
  · rw [if_pos (by omega), if_neg (by omega), if_pos hfirst]
    omega
  · rw [if_neg (by omega), if_pos (by omega), if_neg hfirst]
    split_ifs with hleap
    · unfold IsLeap at hleap
      omega
    · unfold IsLeap at hleap
      omega

namespace Timestamp

variable (t : Timestamp)

/-- The fields that are read. -/
def tm : Tm := ⟨(t.date.year : Int) - 1900, (t.date.month : Int) - 1, t.date.day, t.hour, t.minute, t.second⟩

theorem get_time_wholeText (tm : Tm) : get_time format t.wholeText tm = t.tm := by
  have hday := t.date.day_le.trans (monthDays_le _ _)
  have hyear := t.year_le
  have hmonth := t.date.month_le
  have hhour := t.hour_lt
  have hminute := t.minute_lt
  have hsecond := t.second_lt
  have hdash : str "-" = [45] := by decide
  have hcolon : str ":" = [58] := by decide
  have hspaces : ∀ c ∈ (padded 2 t.hour ++ ([58] ++ (padded 2 t.minute ++ ([58] ++ padded 2 t.second)))).head?,
      ¬ isspace c := fun c hc h => isdigit_of_isspace h (head_padded 1 _ _ c hc)
  rw [wholeText, format, hdash, hcolon, get_time_number (by decide) (by omega) (by omega) (by omega), get_time_literal,
    get_time_number (by decide) (by omega) t.date.month_pos t.date.month_le, get_time_literal,
    get_time_number (by decide) (by omega) t.date.day_pos hday, get_time_space hspaces,
    get_time_number (by decide) (by omega) (by omega) (by omega), get_time_literal,
    get_time_number (by decide) (by omega) (by omega) (by omega), get_time_literal, ← List.append_nil (padded 2 t.second),
    get_time_number (by decide) (by omega) (by omega) (by omega)]
  rfl

theorem mktime_tm : mktime t.tm = t.seconds := by
  have hdays := daysFromCivil_eq t.date t.year_ge
  rw [mktime, tm, seconds]
  dsimp only
  rw [Int.sub_add_cancel, Int.sub_add_cancel, hdays]
  push_cast
  rfl

theorem not_mem_wholeText {c : UInt8} (hd : isdigit c = false) (hc : c ∉ str "- :") : c ∉ t.wholeText := by
  have hpadded : ∀ width n, c ∉ padded width n := by
    intro width n hmem
    rw [isdigit_padded width n c hmem] at hd
    cases hd
  have hliteral : ∀ u : Bytes, u ⊆ str "- :" → c ∉ u := fun u hu hmem => hc (hu hmem)
  simp only [wholeText, List.mem_append, hpadded, hliteral (str "-") (by decide), hliteral (str " ") (by decide),
    hliteral (str ":") (by decide), or_self, not_false_eq_true]

theorem length_wholeText : t.wholeText.length = 19 := by
  have hdash : (str "-").length = 1 ∧ (str " ").length = 1 ∧ (str ":").length = 1 := by decide
  simp only [wholeText, List.length_append, length_padded, hdash]

theorem wholeText_eq : substr t.text 0 (some 19) = t.wholeText ∧ t.wholeText.dropWhile isspace = t.wholeText := by
  constructor
  · rw [substr_some, List.drop_zero, text, List.take_left' t.length_wholeText]
  · exact Pattern.dropWhile_append_self (w := []) (by simp) fun c hc h => isdigit_of_isspace h (head_padded 3 _ _ c hc)

end Timestamp

theorem str_point : str "." = [46] := by decide

theorem find_point_of_not_mem {s : Bytes} (h : 46 ∉ s) : find (str ".") s = none :=
  str_point ▸ find_singleton_of_not_mem h

/-- What follows the first point. -/
theorem find_point {before : Bytes} (h : 46 ∉ before) (after : Bytes) :
    find (str ".") (before ++ (str "." ++ after)) = some before.length ∧
      substr (before ++ (str "." ++ after)) (before.length + 1) none = after := by
  constructor
  · rw [str_point, find_append h, find_prefix (by simp), Option.map_some, Nat.zero_add]
  · rw [substr_npos, str_point, ← List.append_assoc]
    exact List.drop_left' (by simp)

/-- The whole seconds, and the digits of the fraction taken for microseconds. -/
theorem parseTimestamp_text (t : Timestamp) :
    parseTimestamp t.text =
      if digitsValue t.fraction < 2 ^ 31 then
        .ok (UInt64.ofInt ((count64 (t.seconds * 10 ^ 9 + digitsValue t.fraction * 1000)).tdiv 1000))
      else .error (.out_of_range (str "stoi")) := by
  obtain ⟨hwhole, hdrop⟩ := t.wholeText_eq
  have hpoint : 46 ∉ t.wholeText := t.not_mem_wholeText (by decide) (by decide)
  rw [parseTimestamp, hwhole, hdrop, t.get_time_wholeText]
  dsimp only
  rw [t.mktime_tm]
  by_cases hnil : t.fraction = []
  · rw [Timestamp.text, Timestamp.fractionText, if_pos hnil, List.append_nil, find_point_of_not_mem hpoint, hnil,
      show digitsValue [] = 0 from rfl, if_pos (by decide), Nat.cast_zero, Int.zero_mul, Int.add_zero]
    rfl
  · obtain ⟨hfind, hafter⟩ := find_point hpoint t.fraction
    rw [Timestamp.text, Timestamp.fractionText, if_neg hnil, hfind]
    dsimp only
    rw [hafter, stoi_digits hnil t.isdigit_fraction]
    split_ifs with hlt
    · show Except.ok (UInt64.ofInt ((count64 (count64 _ + _)).tdiv 1000)) = _
      rw [count64, count64, count64, Int.bmod_add_bmod]
    · rfl

/-! ## When the microseconds are right -/

/-- Digits are microseconds when there are six of them, or they are zero. -/
theorem scaled_eq_iff {v k : Nat} (h : v < 10 ^ k) : v * 10 ^ 6 / 10 ^ k = v ↔ k = 6 ∨ v = 0 := by
  rcases Nat.eq_zero_or_pos v with rfl | hv
  · simp
  have hpos : 0 < 10 ^ k := Nat.pow_pos (by decide)
  rcases Nat.lt_trichotomy k 6 with hk | rfl | hk
  · -- fewer digits weigh more
    refine iff_of_false (fun heq => ?_) (by omega)
    have hpow : 10 ^ 6 = 10 ^ (6 - k) * 10 ^ k := by rw [← pow_add, Nat.sub_add_cancel hk.le]
    have hten : 10 ≤ 10 ^ (6 - k) := Nat.le_self_pow (by omega) 10
    rw [hpow, ← Nat.mul_assoc, Nat.mul_div_cancel _ hpos] at heq
    have hle := Nat.mul_le_mul_left v hten
    omega
  · exact iff_of_true (Nat.mul_div_cancel _ hpos) (Or.inl rfl)
  · -- more digits weigh less
    refine iff_of_false (fun heq => ?_) (by omega)
    have hpow : 10 ^ 6 < 10 ^ k := Nat.pow_lt_pow_right (by decide) hk
    have hlt : v * 10 ^ 6 / 10 ^ k < v := (Nat.div_lt_iff_lt_mul hpos).mpr (Nat.mul_lt_mul_of_pos_left hpow hv)
    omega

theorem scaled_lt {v k : Nat} (h : v < 10 ^ k) : v * 10 ^ 6 / 10 ^ k < 10 ^ 6 := by
  rw [Nat.div_lt_iff_lt_mul (Nat.pow_pos (by decide)), Nat.mul_comm (10 ^ 6)]
  exact Nat.mul_lt_mul_of_pos_right h (by decide)

/-- Without an overflow the count of nanoseconds gives whole microseconds. -/
theorem toNat_micros_of_lt {n : Nat} (h : n < 2 ^ 63) : (UInt64.ofInt ((count64 n).tdiv 1000)).toNat = n / 1000 := by
  have hcount : count64 n = n := Int.bmod_eq_of_le_mul_two (by omega) (by omega)
  have hdiv : (n : Int).tdiv 1000 = (n : Int) / 1000 := Int.tdiv_eq_ediv_of_nonneg (Int.natCast_nonneg n)
  have htoNat := toNat_ofInt_of_nonneg (i := (n : Int) / 1000) (by omega) (by omega)
  rw [hcount, hdiv]
  omega

/-- With an overflow it gives too little by far, or more than the years up to 9999 have. -/
theorem toNat_micros_of_le {n : Nat} (h : 2 ^ 63 ≤ n) :
    (UInt64.ofInt ((count64 n).tdiv 1000)).toNat * 1000 + 2 ^ 63 ≤ n ∨
      2 ^ 63 ≤ (UInt64.ofInt ((count64 n).tdiv 1000)).toNat := by
  have hlo : -2 ^ 63 ≤ count64 n := Int.le_bmod (by decide)
  have hhi : count64 n < 2 ^ 63 := Int.bmod_lt (by decide)
  have hsum : count64 n + 2 ^ 64 * Int.bdiv n (2 ^ 64) = n := Int.bmod_add_bdiv n (2 ^ 64)
  rcases lt_or_ge (count64 n) 0 with hneg | hpos
  · have hdiv : (count64 n).tdiv 1000 = -(-count64 n / 1000) := by
      rw [← Int.tdiv_eq_ediv_of_nonneg (by omega), Int.neg_tdiv, Int.neg_neg]
    rw [hdiv]
    rcases lt_or_ge (-count64 n) 1000 with hsmall | hlarge
    · left
      rw [Int.ediv_eq_zero_of_lt (by omega) hsmall]
      exact (Nat.zero_add _).trans_le h
    · right
      have htoNat := toNat_ofInt_of_neg (i := -(-count64 n / 1000)) (by omega) (by omega)
      omega
  · left
    have hdiv : (count64 n).tdiv 1000 = count64 n / 1000 := Int.tdiv_eq_ediv_of_nonneg hpos
    have htoNat := toNat_ofInt_of_nonneg (i := count64 n / 1000) (by omega) (by omega)
    rw [hdiv]
    omega

/-- The count of nanoseconds gives the right microseconds when it does not overflow and the fraction has been read right. -/
theorem toNat_micros_iff {seconds v w : Nat} (hs : seconds < 3 * 10 ^ 11) (hv : v < 2 ^ 31) (hw : w < 10 ^ 6) :
    (UInt64.ofInt ((count64 (seconds * 10 ^ 9 + v * 1000)).tdiv 1000)).toNat = seconds * 10 ^ 6 + w ↔
      w = v ∧ (seconds * 10 ^ 6 + w) * 1000 < 2 ^ 63 := by
  have hcast : (seconds * 10 ^ 9 + v * 1000 : Int) = (seconds * 10 ^ 9 + v * 1000 : Nat) := by push_cast; rfl
  rw [hcast]
  rcases lt_or_ge (seconds * 10 ^ 9 + v * 1000) (2 ^ 63) with hlt | hle
  · rw [toNat_micros_of_lt hlt]
    omega
  · have hover := toNat_micros_of_le hle
    omega
namespace Timestamp

/-- The microseconds of a timestamp are read right. -/
structure IsExact (t : Timestamp) : Prop where
  fraction : t.fraction.length = 6 ∨ digitsValue t.fraction = 0
  lt : t.micros * 1000 < 2 ^ 63

theorem seconds_lt (t : Timestamp) : t.seconds < 3 * 10 ^ 11 := by
  have hdays := t.date.daysSince_eq t.year_ge
  have hepoch : daysBeforeYear (1970 : Nat) = 719162 := by decide
  have hday := t.date.day_le.trans (monthDays_le _ _)
  have hyear := t.year_le
  have hmonth := t.date.month_le
  have hhour := t.hour_lt
  have hminute := t.minute_lt
  have hsecond := t.second_lt
  have hlt : t.date.daysSince 1970 < 3 * 10 ^ 6 := by
    rw [hepoch, daysBeforeYear] at hdays
    split_ifs at hdays <;> omega
  rw [seconds]
  omega

theorem eq_micros_iff (t : Timestamp) : (∃ v, parseTimestamp t.text = .ok v ∧ v.toNat = t.micros) ↔ t.IsExact := by
  have hlt := digitsValue_lt t.isdigit_fraction
  have hscaled := scaled_lt hlt
  have hmicros : t.micros = t.seconds * 10 ^ 6 + digitsValue t.fraction * 10 ^ 6 / 10 ^ t.fraction.length := rfl
  rw [parseTimestamp_text]
  constructor
  · rintro ⟨v, hv, heq⟩
    split_ifs at hv with hread
    obtain rfl := Except.ok.inj hv
    rw [hmicros, toNat_micros_iff t.seconds_lt hread hscaled, scaled_eq_iff hlt] at heq
    exact ⟨heq.1, hmicros ▸ heq.2⟩
  · rintro ⟨hfraction, hfits⟩
    have heq := (scaled_eq_iff hlt).mpr hfraction
    have hread : digitsValue t.fraction < 2 ^ 31 := by omega
    rw [if_pos hread]
    refine ⟨_, rfl, ?_⟩
    rw [hmicros, toNat_micros_iff t.seconds_lt hread hscaled]
    exact ⟨heq, hmicros ▸ hfits⟩

theorem le_length_text (t : Timestamp) : 19 ≤ t.text.length := by
  rw [text, List.length_append, t.length_wholeText]
  exact Nat.le_add_right _ _

/-- A text names one instant. -/
theorem text_injective : Function.Injective text := by
  intro t t' h
  have hwhole : t.wholeText = t'.wholeText := by rw [← t.wholeText_eq.1, h, t'.wholeText_eq.1]
  have htm : t.tm = t'.tm := by
    rw [← t.get_time_wholeText ⟨0, 0, 0, 0, 0, 0⟩, hwhole, t'.get_time_wholeText]
  have hfractionText : t.fractionText = t'.fractionText := by
    rw [text, text, hwhole] at h
    exact List.append_cancel_left h
  have hfraction : t.fraction = t'.fraction := by
    unfold fractionText at hfractionText
    split_ifs at hfractionText with hnil hnil' hnil'
    · rw [hnil, hnil']
    · cases str_point ▸ hfractionText
    · cases str_point ▸ hfractionText
    · exact List.append_cancel_left hfractionText
  simp only [tm, Tm.mk.injEq] at htm
  ext1
  · ext1 <;> omega
  · omega
  · omega
  · omega
  · exact hfraction

end Timestamp

/-! ## When a text is refused -/

/-- A text in which no `int` follows the first point. -/
def PointWithoutInt (s : Bytes) : Prop := ∃ before after, s = before ++ (str "." ++ after) ∧ 46 ∉ before ∧ ¬ HoldsInt after

theorem parseTimestamp_error_iff (s : Bytes) : ¬ Returns (parseTimestamp s) ↔ PointWithoutInt s := by
  rw [parseTimestamp]
  dsimp only
  rcases dropWhile_ne_cases 46 s with hnone | ⟨after, hsome⟩
  · have hmem : 46 ∉ s := by
      have happ := List.takeWhile_append_dropWhile (p := fun c => decide (c ≠ 46)) (l := s)
      rw [hnone, List.append_nil] at happ
      exact happ ▸ not_mem_takeWhile_ne 46 s
    rw [find_point_of_not_mem hmem]
    refine iff_of_false (not_not_intro (returns_ok _)) ?_
    rintro ⟨before, after, rfl, -⟩
    exact hmem (by simp [str_point])
  · obtain ⟨before, rfl, hbefore⟩ : ∃ before, s = before ++ (str "." ++ after) ∧ 46 ∉ before :=
      ⟨s.takeWhile (· ≠ 46), by rw [str_point, List.singleton_append, ← hsome, List.takeWhile_append_dropWhile],
        not_mem_takeWhile_ne 46 s⟩
    obtain ⟨hfind, hafter⟩ := find_point hbefore after
    rw [hfind]
    dsimp only
    rw [hafter]
    simp only [pure_eq_ok, ok_bind]
    rw [returns_bind_ok, returns_stoi_iff]
    refine ⟨fun h => ⟨before, after, rfl, hbefore, h⟩, ?_⟩
    rintro ⟨before', after', heq, hbefore', h⟩
    -- the first point is at one place
    have hcut := congrArg (List.dropWhile (· ≠ 46)) heq
    rw [hsome, str_point, List.singleton_append, dropWhile_ne_append hbefore' (Or.inr ⟨after', rfl⟩)] at hcut
    rwa [(List.cons.inj hcut).2]

/-! ## The getters -/

section Getter

variable (timestamp : JobResult → Bytes) (r : JobResult) (out : UInt64)

theorem getTimestamp_eq_zero_iff {v : UInt64} :
    getTimestamp timestamp (some r) (some out) = .ok (0, some v) ↔ parseTimestamp (timestamp r) = .ok v := by
  show catchAll ((parseTimestamp (timestamp r)).map _) _ = _ ↔ _
  cases parseTimestamp (timestamp r) <;> simp [catchAll, Except.map]

theorem getTimestamp_eq_refused_iff :
    getTimestamp timestamp (some r) (some out) = .ok (-2, some out) ↔ ¬ Returns (parseTimestamp (timestamp r)) := by
  show catchAll ((parseTimestamp (timestamp r)).map _) _ = _ ↔ _
  cases parseTimestamp (timestamp r) <;> simp [catchAll, Except.map]

end Getter

/-- What a getter of a timestamp `s` owes its caller: the microseconds of a written timestamp, and no more than an error for
every other text. -/
structure ExactOrRefused (s : Bytes) (out : UInt64) (result : Except Exn (Int × Option UInt64)) : Prop where
  written : ∀ t : Timestamp, s = t.text → ∃ v, result = .ok (0, some v) ∧ v.toNat = t.micros
  unwritten : (∀ t : Timestamp, s ≠ t.text) → result = .ok (-2, some out)

/-- The texts that `parseTimestamp` treats so. -/
structure IsRead (s : Bytes) : Prop where
  written : ∀ t : Timestamp, s = t.text → t.IsExact
  unwritten : (∀ t : Timestamp, s ≠ t.text) → PointWithoutInt s

theorem exactOrRefused_getTimestamp_iff (timestamp : JobResult → Bytes) (r : JobResult) (out : UInt64) :
    ExactOrRefused (timestamp r) out (getTimestamp timestamp (some r) (some out)) ↔ IsRead (timestamp r) := by
  constructor
  · rintro ⟨hwritten, hunwritten⟩
    refine ⟨fun t ht => t.eq_micros_iff.mp ?_, fun hnone => ?_⟩
    · obtain ⟨v, hv, hmicros⟩ := hwritten t ht
      exact ⟨v, ht ▸ (getTimestamp_eq_zero_iff ..).mp hv, hmicros⟩
    · rw [← parseTimestamp_error_iff]
      exact (getTimestamp_eq_refused_iff ..).mp (hunwritten hnone)
  · rintro ⟨hwritten, hunwritten⟩
    refine ⟨fun t ht => ?_, fun hnone => ?_⟩
    · obtain ⟨v, hv, hmicros⟩ := t.eq_micros_iff.mpr (hwritten t ht)
      exact ⟨v, (getTimestamp_eq_zero_iff ..).mpr (ht ▸ hv), hmicros⟩
    · rw [getTimestamp_eq_refused_iff, parseTimestamp_error_iff]
      exact hunwritten hnone

theorem timestamps_exact_iff (r : JobResult) (out : UInt64) :
    (ExactOrRefused r.mTimestampCompleted out (MQSSClientGetJobResultCompletedTimestamp (some r) (some out)) ↔
      IsRead r.mTimestampCompleted) ∧
    (ExactOrRefused r.mTimestampSubmitted out (MQSSClientGetJobResultSubmittedTimestamp (some r) (some out)) ↔
      IsRead r.mTimestampSubmitted) ∧
    (ExactOrRefused r.mTimestampScheduled out (MQSSClientGetJobResultScheduledTimestamp (some r) (some out)) ↔
      IsRead r.mTimestampScheduled) ∧
    ∀ t t' : Timestamp, t.instant ≤ t'.instant → t.micros ≤ t'.micros :=
  ⟨exactOrRefused_getTimestamp_iff _ r out, exactOrRefused_getTimestamp_iff _ r out,
    exactOrRefused_getTimestamp_iff _ r out, fun _ _ => Timestamp.micros_le_of_instant_le⟩

/-- Whole microseconds are read, and a text without a number after its point is refused. -/
theorem exact_microseconds :
    ExactOrRefused (str "2025-03-01 12:00:00.000250") 7
      (MQSSClientGetJobResultCompletedTimestamp (some ⟨[], str "2025-03-01 12:00:00.000250", str "soon.", []⟩) (some 7)) ∧
    ExactOrRefused (str "soon.") 7
      (MQSSClientGetJobResultSubmittedTimestamp (some ⟨[], str "2025-03-01 12:00:00.000250", str "soon.", []⟩) (some 7)) := by
  obtain ⟨hcompleted, hsubmitted, -⟩ :=
    timestamps_exact_iff ⟨[], str "2025-03-01 12:00:00.000250", str "soon.", []⟩ 7
  obtain ⟨noon, hnoon, hexact⟩ : ∃ t : Timestamp, str "2025-03-01 12:00:00.000250" = t.text ∧ t.IsExact :=
    ⟨⟨⟨2025, 3, 1, by decide, by decide, by decide, by decide⟩, 12, 0, 0, str "000250", by decide, by decide, by decide,
      by decide, by decide, by decide⟩, by decide, by decide, by decide +kernel⟩
  refine ⟨hcompleted.mpr ⟨fun t ht => ?_, fun hnone => absurd hnoon (hnone noon)⟩,
    hsubmitted.mpr ⟨fun t ht => ?_, fun _ => ?_⟩⟩
  · exact Timestamp.text_injective (hnoon.symm.trans ht) ▸ hexact
  · have hlength := t.le_length_text
    rw [← ht] at hlength
    exact absurd hlength (by decide)
  · rw [← parseTimestamp_error_iff]
    decide

/-- The result of a job without a histogram has the last day of 1899, and half a second is read as five microseconds. -/
theorem not_exact :
    (MQSSClientGetJobResultCompletedTimestamp (some ⟨[], [], [], []⟩) (some 7) = .ok (0, some 18444534998509551616) ∧
      ¬ ExactOrRefused [] 7 (MQSSClientGetJobResultCompletedTimestamp (some ⟨[], [], [], []⟩) (some 7))) ∧
    (MQSSClientGetJobResultCompletedTimestamp (some ⟨[], str "2025-03-01 12:00:00.5", [], []⟩) (some 7) =
        .ok (0, some 1740830400000005) ∧
      ¬ ExactOrRefused (str "2025-03-01 12:00:00.5") 7
        (MQSSClientGetJobResultCompletedTimestamp (some ⟨[], str "2025-03-01 12:00:00.5", [], []⟩) (some 7))) := by
  have hempty : MQSSClientGetJobResultCompletedTimestamp (some ⟨[], [], [], []⟩) (some 7) =
      .ok (0, some 18444534998509551616) := by decide
  have hhalf : MQSSClientGetJobResultCompletedTimestamp (some ⟨[], str "2025-03-01 12:00:00.5", [], []⟩) (some 7) =
      .ok (0, some 1740830400000005) := by decide
  refine ⟨⟨hempty, fun h => ?_⟩, ⟨hhalf, fun h => ?_⟩⟩
  · have hnone : ∀ t : Timestamp, [] ≠ t.text := by
      intro t ht
      have hlength := t.le_length_text
      rw [← ht] at hlength
      cases hlength
    rw [hempty] at h
    cases h.unwritten hnone
  · obtain ⟨half, htext, hmicros⟩ : ∃ t : Timestamp, str "2025-03-01 12:00:00.5" = t.text ∧ t.micros = 1740830400500000 :=
      ⟨⟨⟨2025, 3, 1, by decide, by decide, by decide, by decide⟩, 12, 0, 0, str "5", by decide, by decide, by decide,
        by decide, by decide, by decide⟩, by decide, by decide +kernel⟩
    obtain ⟨v, hv, heq⟩ := h.written half htext
    rw [hhalf] at hv
    cases hv
    rw [hmicros] at heq
    exact absurd heq (by decide)

end MqssClient
