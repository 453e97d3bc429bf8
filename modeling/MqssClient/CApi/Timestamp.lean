import MqssClient.Job

/-!
# Timestamps in the C API

* `get_time`, `mktime`: the standard library's reading of a calendar time, in UTC;
* `parseTimestamp`: microseconds since the epoch;
* `getTimestamp`: the getters, one for each timestamp of a job result.
-/

namespace MqssClient

open Foundations

/-- `catch (...)`; all exceptions here derive from `std::exception`, so also `catch (const std::exception&)`. -/
def catchAll {α : Type} (x : Except Exn α) (handler : α) : Except Exn α :=
  match x with
  | .ok a => .ok a
  | .error _ => .ok handler

/-- The fields of `std::tm` that are read. -/
structure Tm where
  tm_year : Int
  tm_mon : Int
  tm_mday : Int
  tm_hour : Int
  tm_min : Int
  tm_sec : Int
deriving DecidableEq

/-- A part of a format of `get_time`. -/
inductive Directive where
  | number (lo hi digits : Nat) (store : Tm → Int → Tm)
  | space
  | literal (c : UInt8)

/-- `%Y-%m-%d %H:%M:%S` -/
def format : List Directive := [
  .number 0 9999 4 fun tm v => { tm with tm_year := v - 1900 }, .literal 45,
  .number 1 12 2 fun tm v => { tm with tm_mon := v - 1 }, .literal 45,
  .number 1 31 2 fun tm v => { tm with tm_mday := v }, .space,
  .number 0 23 2 fun tm v => { tm with tm_hour := v }, .literal 58,
  .number 0 59 2 fun tm v => { tm with tm_min := v }, .literal 58,
  .number 0 60 2 fun tm v => { tm with tm_sec := v }]

/-- Reads up to the first mismatch, and leaves the fields after it. This is the documented behaviour; libstdc++ moreover
skips one white space before `%d`. -/
def get_time : List Directive → Bytes → Tm → Tm
  | [], _, tm => tm
  | .number lo hi digits store :: ds, s, tm =>
    let numeral := (s.take digits).takeWhile isdigit
    let v := digitsValue numeral
    if numeral.isEmpty || v < lo || hi < v then tm else get_time ds (s.drop numeral.length) (store tm v)
  | .space :: ds, s, tm => get_time ds (s.dropWhile isspace) tm
  | .literal c :: ds, s, tm => if s.head? = some c then get_time ds s.tail tm else tm

/-- The days from 1970-01-01 to a date of the proleptic Gregorian calendar; the day may be out of its month. -/
def daysFromCivil (year month day : Int) : Int :=
  let y := if month ≤ 2 then year - 1 else year
  let yearOfEra := y % 400
  let dayOfYear := (153 * (if 2 < month then month - 3 else month + 9) + 2) / 5 + day - 1
  y / 400 * 146097 + yearOfEra * 365 + yearOfEra / 4 - yearOfEra / 100 + dayOfYear - 719468

/-- `std::mktime` in UTC: seconds since the epoch. -/
def mktime (tm : Tm) : Int :=
  daysFromCivil (tm.tm_year + 1900) (tm.tm_mon + 1) tm.tm_mday * 86400 + tm.tm_hour * 3600 + tm.tm_min * 60 + tm.tm_sec

/-- The 64-bit count of a duration; its overflow, which the language leaves undefined, wraps around. -/
def count64 (i : Int) : Int := i.bmod (2 ^ 64)

def parseTimestamp (s : Bytes) : Except Exn UInt64 := do
  let tm := get_time format ((substr s 0 (some 19)).dropWhile isspace) ⟨0, 0, 0, 0, 0, 0⟩
  -- the clock counts nanoseconds
  let tp := count64 (mktime tm * 10 ^ 9)
  let tp ← match find (str ".") s with
    | none => pure tp
    | some dot => do
      let micros ← stoi (substr s (dot + 1) none)
      pure (count64 (tp + micros * 1000))
  return UInt64.ofInt (tp.tdiv 1000)

example : parseTimestamp (str "2025-03-01 12:00:00.000250") = .ok 1740830400000250 := by decide

/-- A timestamp getter: the return code, and what the output pointer then holds. -/
def getTimestamp (timestamp : JobResult → Bytes) (jobResult : Option JobResult) (out : Option UInt64) :
    Except Exn (Int × Option UInt64) :=
  match jobResult, out with
  | some jobResult, some _ => catchAll ((parseTimestamp (timestamp jobResult)).map fun v => (0, some v)) (-2, out)
  | _, _ => .ok (-1, out)

def MQSSClientGetJobResultCompletedTimestamp : Option JobResult → Option UInt64 → Except Exn (Int × Option UInt64) :=
  getTimestamp JobResult.mTimestampCompleted

def MQSSClientGetJobResultSubmittedTimestamp : Option JobResult → Option UInt64 → Except Exn (Int × Option UInt64) :=
  getTimestamp JobResult.mTimestampSubmitted

def MQSSClientGetJobResultScheduledTimestamp : Option JobResult → Option UInt64 → Except Exn (Int × Option UInt64) :=
  getTimestamp JobResult.mTimestampScheduled

@[simp] theorem returns_catchAll {α : Type} (x : Except Exn α) (handler : α) : Returns (catchAll x handler) := by
  cases x <;> exact ⟨_, rfl⟩

theorem returns_getTimestamp (timestamp : JobResult → Bytes) (jobResult : Option JobResult) (out : Option UInt64) :
    Returns (getTimestamp timestamp jobResult out) := by
  unfold getTimestamp
  split
  · exact returns_catchAll ..
  · exact returns_ok _

end MqssClient
