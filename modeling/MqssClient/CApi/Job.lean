import MqssClient.CApi.Resource
import MqssClient.Job

/-!
# The C API of job results

* `JobResultCounts`: the output parameters of `MQSSClientGetJobResultCounts`;
* `fillCounts`: its filling pass, which gives everything back where an allocation is refused;
* `totalEntries_eq`, `exec_fillCounts`: its two passes agree, and what they write when no request is refused;
* `preservesCounts_iff`: the exported counts are those of the result when they fit `int`.
-/

namespace MqssClient

open Foundations

/-- The output parameters of `MQSSClientGetJobResultCounts`. -/
structure JobResultCounts where
  bitstreams : Option (Block (Block UInt8))
  counts : Option (Block Int)
  size : Int

/-- All entries, map by map and each map in key order. -/
def JobResult.entries (r : JobResult) : List (Bytes × UInt32) := r.mResults.flatMap SortedMap.entries

/-- The sizing pass. -/
def totalEntries (results : List Histogram) : Nat :=
  results.foldl (fun total result => total + result.entries.length) 0

/-- `free` of each address. -/
def freeAll : List Nat → Prog MemAns Unit
  | [] => .pure ()
  | address :: addresses => .call (MemCall.free address) fun _ => freeAll addresses

/-- The filling pass over what is left of the entries, behind the strings and the counts written so far; false when an
allocation was refused and everything has been freed. -/
def fillCounts (counts bitstreams : Nat) :
    List (Bytes × UInt32) → List (Block UInt8) → List Int → Prog MemAns (Bool × List (Block UInt8) × List Int)
  | [], strings, written => .pure (true, strings, written)
  | (bitstream, count) :: entries, strings, written =>
    .call (MemCall.malloc (bitstream.length + 1)) fun (address : Option Nat) =>
      match address with
      | none =>
        (freeAll (strings.map Block.address ++ [bitstreams, counts])).map fun _ => (false, strings, written)
      | some address =>
        fillCounts counts bitstreams entries (strings ++ [⟨address, bitstream ++ [0]⟩]) (written ++ [castInt count])

/-- `free` of a pointer, which does nothing on a null pointer. -/
def freePointer (pointer : Option Nat) : Prog MemAns Unit := freeAll pointer.toList

/-- The return code, and the output parameters afterwards. -/
def MQSSClientGetJobResultCounts (jobResult : Option JobResult) (out : Option JobResultCounts) :
    Prog MemAns (Int × Option JobResultCounts) :=
  match jobResult, out with
  | some r, some out =>
    let total := totalEntries r.mResults
    let out := { out with size := toInt total }
    if total = 0 then .pure (0, some { out with bitstreams := none, counts := none })
    else
      .call (MemCall.malloc (4 * total)) fun (counts : Option Nat) =>
        .call (MemCall.malloc (8 * total)) fun (bitstreams : Option Nat) =>
          match counts, bitstreams with
          | some counts, some bitstreams =>
            (fillCounts counts bitstreams r.entries [] []).map fun (filled, strings, written) =>
              (if filled then 0 else -1,
                some { out with bitstreams := some ⟨bitstreams, strings⟩, counts := some ⟨counts, written⟩ })
          | counts, bitstreams =>
            (freePointer counts).bind fun _ => (freePointer bitstreams).map fun _ =>
              -- the output parameters keep the address of the one that has been freed
              (-1, some { out with bitstreams := bitstreams.map (⟨·, []⟩), counts := counts.map (⟨·, []⟩) })
  | _, _ => .pure (-1, out)

/-! ## The two passes -/

theorem totalEntries_eq (r : JobResult) : totalEntries r.mResults = r.entries.length := by
  have hfold : ∀ (results : List Histogram) (total : Nat),
      results.foldl (fun total result => total + result.entries.length) total =
        total + (results.flatMap SortedMap.entries).length := by
    intro results
    induction results with
    | nil =>
      intro total
      rfl
    | cons result results ih =>
      intro total
      rw [List.foldl_cons, ih, List.flatMap_cons, List.length_append, Nat.add_assoc]
  exact (hfold r.mResults 0).trans (Nat.zero_add _)

theorem exec_fillCounts {env : Env MemAns} (hg : Grants env) (counts bitstreams : Nat) (entries : List (Bytes × UInt32))
    (strings : List (Block UInt8)) (written : List Int) (tr : List MemCall) :
    ∃ copies, ((fillCounts counts bitstreams entries strings written).exec env tr).1 =
        (true, strings ++ copies, written ++ entries.map fun e => castInt e.2) ∧
      copies.map Block.data = entries.map fun e => e.1 ++ [0] := by
  induction entries generalizing strings written tr with
  | nil => exact ⟨[], by simp [fillCounts], rfl⟩
  | cons entry entries ih =>
    obtain ⟨bitstream, count⟩ := entry
    obtain ⟨address, ha⟩ := hg.1 tr (bitstream.length + 1)
    rw [fillCounts, Prog.exec_call, ha]
    obtain ⟨copies, hexec, hcopies⟩ := ih (strings ++ [⟨address, bitstream ++ [0]⟩]) (written ++ [castInt count])
      (tr ++ [.malloc (bitstream.length + 1)])
    refine ⟨⟨address, bitstream ++ [0]⟩ :: copies, ?_, ?_⟩
    · show (Prog.exec env (fillCounts counts bitstreams entries _ _) _).1 = _
      rw [hexec, List.append_assoc, List.append_assoc]
      rfl
    · rw [List.map_cons, hcopies]
      rfl

/-! ## The exported counts -/

/-- What is behind a pointer; nothing behind a null pointer. -/
def behind {α : Type} (p : Option (Block α)) : List α := p.elim [] Block.data

theorem exec_getJobResultCounts {env : Env MemAns} (hg : Grants env) (r : JobResult) (out : JobResultCounts)
    (tr : List MemCall) :
    ∃ info, ((MQSSClientGetJobResultCounts (some r) (some out)).exec env tr).1 = (0, some info) ∧
      info.size = toInt r.entries.length ∧
      (behind info.bitstreams).map Block.data = r.entries.map (fun e => e.1 ++ [0]) ∧
      behind info.counts = r.entries.map fun e => castInt e.2 := by
  rw [← totalEntries_eq]
  by_cases htotal : totalEntries r.mResults = 0
  · have hnil : r.entries = [] := List.eq_nil_of_length_eq_zero ((totalEntries_eq r).symm.trans htotal)
    rw [MQSSClientGetJobResultCounts, if_pos htotal, hnil]
    exact ⟨_, rfl, by dsimp only, rfl, rfl⟩
  · obtain ⟨counts, hcounts⟩ := hg.1 tr (4 * totalEntries r.mResults)
    obtain ⟨bitstreams, hstreams⟩ := hg.1 (tr ++ [.malloc (4 * totalEntries r.mResults)]) (8 * totalEntries r.mResults)
    obtain ⟨copies, hexec, hcopies⟩ := exec_fillCounts hg counts bitstreams r.entries [] []
      (tr ++ [.malloc (4 * totalEntries r.mResults)] ++ [.malloc (8 * totalEntries r.mResults)])
    rw [MQSSClientGetJobResultCounts, if_neg htotal, Prog.exec_call, hcounts, Prog.exec_call, hstreams]
    dsimp only
    rw [Prog.exec_map, hexec]
    exact ⟨_, rfl, by dsimp only, hcopies, rfl⟩

/-- The number of shots that a result reports. -/
def JobResult.total (r : JobResult) : Int := (r.entries.map fun e => (e.2.toNat : Int)).sum

/-- The export returns 0 and lists the entries of the result in order: their number, the bytes of each key with its
terminator and each count, none of them negative and all together the same number of shots. -/
def PreservesCounts (r : JobResult) (result : Int × Option JobResultCounts) : Prop :=
  ∃ info, result = (0, some info) ∧ info.size = r.entries.length ∧
    (behind info.bitstreams).map Block.data = r.entries.map (fun e => e.1 ++ [0]) ∧
    behind info.counts = r.entries.map (fun e => (e.2.toNat : Int)) ∧
    (∀ count ∈ behind info.counts, 0 ≤ count) ∧ (behind info.counts).sum = r.total

theorem castInt_eq_iff {c : UInt32} : castInt c = c.toNat ↔ c.toNat < 2 ^ 31 := by
  have hc := c.toNat_lt
  constructor
  · intro h
    by_contra hlarge
    have hneg : castInt c < 0 := by
      rw [castInt, toInt, Int.bmod_def]
      omega
    omega
  · intro h
    exact toInt_of_bounds (by omega) (by omega)

/-- With fewer than `2 ^ 31` entries and every request granted, the counts survive the export exactly when each of them
fits `int`. -/
theorem preservesCounts_iff {env : Env MemAns} (hg : Grants env) {r : JobResult} (hsize : r.entries.length < 2 ^ 31)
    (out : JobResultCounts) (tr : List MemCall) :
    PreservesCounts r ((MQSSClientGetJobResultCounts (some r) (some out)).exec env tr).1 ↔
      ∀ e ∈ r.entries, e.2.toNat < 2 ^ 31 := by
  obtain ⟨info, hexec, hinfo, hstrings, hcounts⟩ := exec_getJobResultCounts hg r out tr
  rw [hexec]
  have hcast : r.entries.map (fun e => castInt e.2) = r.entries.map (fun e => (e.2.toNat : Int)) ↔
      ∀ e ∈ r.entries, e.2.toNat < 2 ^ 31 := by
    rw [List.map_inj_left]
    exact forall₂_congr fun e _ => castInt_eq_iff
  rw [← hcast]
  constructor
  · rintro ⟨info', heq, -, -, hcounts', -⟩
    cases heq
    exact hcounts.symm.trans hcounts'
  · intro heq
    rw [heq] at hcounts
    rw [toInt_of_bounds (by omega) (by omega)] at hinfo
    refine ⟨info, rfl, hinfo, hstrings, hcounts, fun count hcount => ?_, by rw [hcounts]; rfl⟩
    rw [hcounts] at hcount
    obtain ⟨e, -, rfl⟩ := List.mem_map.mp hcount
    exact Int.natCast_nonneg _

/-- A result with two circuits, of which the first has two outcomes. -/
def sampleResult : JobResult := ⟨[.ofEntries [(str "00", 3), (str "11", 2)], .ofEntries [(str "1", 5)]], [], [], []⟩

theorem preservesCounts_sample :
    PreservesCounts sampleResult
      ((MQSSClientGetJobResultCounts (some sampleResult) (some ⟨none, none, 0⟩)).exec grantingEnv []).1 :=
  (preservesCounts_iff grants_grantingEnv (by decide) _ _).mpr (by decide)

/-- The largest count of a result is exported as -1. -/
theorem not_preservesCounts :
    ∃ info, ((MQSSClientGetJobResultCounts (some ⟨[.ofEntries [(str "0", 4294967295)]], [], [], []⟩)
        (some ⟨none, none, 0⟩)).exec grantingEnv []).1 = (0, some info) ∧ behind info.counts = [-1] ∧
      ¬ PreservesCounts ⟨[.ofEntries [(str "0", 4294967295)]], [], [], []⟩ (0, some info) := by
  refine ⟨_, rfl, by decide, ?_⟩
  rintro ⟨info, heq, -, -, -, hpos, -⟩
  cases heq
  exact absurd (hpos (-1) (by decide)) (by decide)

end MqssClient
