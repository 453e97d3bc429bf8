import MqssClient.CApi.Client
import MqssClient.CApi.Instants
import MqssClient.CApi.Job
import MqssClient.Histogram
import MqssClient.Polling
import MqssClient.Resource.Catalogue

/-!
# Result documents

What a service reports of a finished job, and what a C program reads of it.

* `ResultDocument`: the counts of the circuits and the timestamps, as they are reported; `ResultDocument.reply`: the document;
* `Reported`: the service answers with it;
* `ofJson_reply`: the document is decoded to what it says; `result_read_back`: so it is read through the C API.
-/

namespace MqssClient

open Foundations

/-- What is reported of a finished job. The counts of a single circuit may be printed without the array around them. -/
structure ResultDocument where
  histograms : List Histogram
  completed : Timestamp
  submitted : Timestamp
  scheduled : Timestamp
  bare : Bool
  single : bare → histograms.length = 1
  counts : ∀ h ∈ histograms, ∀ e ∈ h.entries, e.2.toNat < 2 ^ 31
  few : (histograms.flatMap SortedMap.entries).length < 2 ^ 31
  exact : completed.IsExact ∧ submitted.IsExact ∧ scheduled.IsExact

namespace ResultDocument

variable (d : ResultDocument)

def countsJson : Json :=
  if d.bare then d.histograms.head?.elim .null histogramJson else histogramsJson d.histograms

/-- The document, with the counts as a text. -/
def reply (text : Bytes) : Json := .object [
  (str "result", .string text),
  (str "timestamp_completed", .string d.completed.text),
  (str "timestamp_scheduled", .string d.scheduled.text),
  (str "timestamp_submitted", .string d.submitted.text)]

def result : JobResult where
  mResults := d.histograms
  mTimestampCompleted := d.completed.text
  mTimestampSubmitted := d.submitted.text
  mTimestampScheduled := d.scheduled.text

/-- The service answers the request for the result with the document. -/
def Reported (lib : JsonLib) (env : Env ClientAns) (job : JobRequest) : Prop :=
  ∃ text s, lib.dump d.countsJson = some text ∧ lib.dump (d.reply text) = some s ∧
    ∀ tr, env tr (.request (.get (MQSSClient.resultPath job))) = .ok s

theorem countsJson_cases :
    (∃ h, d.histograms = [h] ∧ d.countsJson = histogramJson h) ∨ d.countsJson = histogramsJson d.histograms := by
  unfold countsJson
  split_ifs with hbare
  · obtain ⟨h, hh⟩ := List.length_eq_one_iff.mp (d.single hbare)
    exact Or.inl ⟨h, hh, by rw [hh]; rfl⟩
  · exact Or.inr rfl

theorem reparsed_countsJson : d.countsJson.reparsed = d.countsJson := by
  rcases d.countsJson_cases with ⟨h, -, heq⟩ | heq
  · rw [heq, reparsed_histogramJson]
  · rw [heq, reparsed_histogramsJson]

theorem resultMaps_countsJson : resultMaps d.countsJson = d.histograms.map histogramJson := by
  rcases d.countsJson_cases with ⟨h, hh, heq⟩ | heq
  · rw [heq, hh]
    rfl
  · rw [heq]
    rfl

/-- The document is decoded to what it says. -/
theorem ofJson_reply {lib : JsonLib} {text : Bytes} (htext : lib.dump d.countsJson = some text) :
    JobResult.ofJson lib (d.reply text).reparsed = .ok d.result := by
  have hparse := lib.parse_dump htext
  rw [reparsed_countsJson] at hparse
  have hfind : ∀ key, (d.reply text).reparsed.find key = ((d.reply text).find key).map Json.reparsed :=
    fun key => Json.find_reparsed _ key
  have hreplies : Replies (d.reply text).reparsed text d.result := by
    refine ⟨?_, ?_, ?_, ?_⟩
    · rw [hfind]
      rfl
    · rw [hfind]
      rfl
    · rw [hfind]
      rfl
    · rw [hfind]
      rfl
  exact ofJson_of_resultMaps hreplies hparse d.resultMaps_countsJson

end ResultDocument

section ReadBack

variable {lib : JsonLib} {env : Env ClientAns} {job : JobRequest}

/-- A result for which a client has waited is one that it has fetched. -/
theorem exists_fetched (timeout : Int) (tr : List ClientCall) {r : JobResult}
    (hr : ((MQSSClient.waitForJobResult lib job timeout).exec env tr).1 = .ok (some r)) :
    ∃ tr', ((MQSSClient.fetchJobResult lib job).exec env tr').1 = .ok (some r) := by
  induction timeout, tr using MQSSClient.wait_induction lib env job with
  | timeout timeout tr h =>
    rw [MQSSClient.exec_waitForJobResult_timeout lib h] at hr
    cases hr
  | error timeout tr e h hs =>
    rw [MQSSClient.exec_waitForJobResult_error lib h hs] at hr
    cases hr
  | completed timeout tr h hs =>
    rw [MQSSClient.exec_waitForJobResult_completed lib h hs] at hr
    exact ⟨_, hr⟩
  | failure timeout tr status h hs hf =>
    rw [MQSSClient.exec_waitForJobResult_failure lib h hs hf] at hr
    cases hr
  | running timeout tr status h hs hrun ih =>
    rw [MQSSClient.exec_waitForJobResult_running lib h hs hrun] at hr
    exact ih hr

variable {d : ResultDocument}

theorem exec_fetchJobResult (h : d.Reported lib env job) (tr : List ClientCall) :
    ((MQSSClient.fetchJobResult lib job).exec env tr).1 = .ok (some d.result) := by
  obtain ⟨text, s, htext, hs, henv⟩ := h
  rw [MQSSClient.fetchJobResult, MQSSClient.exec_getAnd_ok (henv tr)]
  exact (decodeResult_eq_ok lib).mpr ⟨_, lib.parse_dump hs, d.ofJson_reply htext⟩

theorem preservesCounts_result {mem : Env MemAns} (hg : Grants mem) (out : JobResultCounts) (made : List MemCall) :
    PreservesCounts d.result ((MQSSClientGetJobResultCounts (some d.result) (some out)).exec mem made).1 := by
  obtain ⟨info, hexec, hsize, hstrings, hcounts⟩ := exec_getJobResultCounts hg d.result out made
  have hfew : d.result.entries.length < 2 ^ 31 := d.few
  have hcast : d.result.entries.map (fun e => castInt e.2) = d.result.entries.map fun e => (e.2.toNat : Int) := by
    refine List.map_congr_left fun e he => castInt_eq_iff.mpr ?_
    obtain ⟨h, hh, he⟩ := List.mem_flatMap.mp he
    exact d.counts h hh e he
  rw [hcast] at hcounts
  rw [toInt_of_bounds (by omega) (by omega)] at hsize
  refine ⟨info, hexec, hsize, hstrings, hcounts, fun count hcount => ?_, by rw [hcounts]; rfl⟩
  rw [hcounts] at hcount
  obtain ⟨e, -, rfl⟩ := List.mem_map.mp hcount
  exact Int.natCast_nonneg _

theorem getTimestamp_text {timestamp : JobResult → Bytes} {r : JobResult} {t : Timestamp} (hr : timestamp r = t.text)
    (ht : t.IsExact) (out : UInt64) :
    ∃ v, getTimestamp timestamp (some r) (some out) = .ok (0, some v) ∧ v.toNat = t.micros := by
  obtain ⟨v, hv, hmicros⟩ := t.eq_micros_iff.mpr ht
  exact ⟨v, (getTimestamp_eq_zero_iff ..).mpr (hr ▸ hv), hmicros⟩

/-- A C program that asks for the result of a job gets what the service reports, and never another result when it waits for
it; and it reads from it the counts of each circuit, one circuit after the other, and the microseconds of the timestamps. -/
theorem result_read_back (h : d.Reported lib env job) {mem : Env MemAns} (hg : Grants mem) (client : MQSSClient)
    (timeout : UInt32) (tr : List ClientCall) :
    ((MQSSClientGetJobResult lib (some client) (some job) false timeout).exec env tr).1 = .ok (some d.result) ∧
    (∀ r, ((MQSSClientGetJobResult lib (some client) (some job) true timeout).exec env tr).1 = .ok (some r) →
      r = d.result) ∧
    (∀ out made,
      PreservesCounts d.result ((MQSSClientGetJobResultCounts (some d.result) (some out)).exec mem made).1) ∧
    ∀ out,
      (∃ v, MQSSClientGetJobResultCompletedTimestamp (some d.result) (some out) = .ok (0, some v) ∧
        v.toNat = d.completed.micros) ∧
      (∃ v, MQSSClientGetJobResultSubmittedTimestamp (some d.result) (some out) = .ok (0, some v) ∧
        v.toNat = d.submitted.micros) ∧
      ∃ v, MQSSClientGetJobResultScheduledTimestamp (some d.result) (some out) = .ok (0, some v) ∧
        v.toNat = d.scheduled.micros := by
  obtain ⟨hcompleted, hsubmitted, hscheduled⟩ := d.exact
  refine ⟨?_, fun r hr => ?_, fun out made => preservesCounts_result hg out made, fun out => ⟨?_, ?_, ?_⟩⟩
  · exact exec_fetchJobResult h tr
  · rw [MQSSClientGetJobResult, MQSSClient.getJobResult, if_pos rfl] at hr
    obtain ⟨tr', hfetched⟩ := exists_fetched _ tr hr
    rw [exec_fetchJobResult h] at hfetched
    exact (Option.some.inj (Except.ok.inj hfetched)).symm
  · exact getTimestamp_text rfl hcompleted out
  · exact getTimestamp_text rfl hsubmitted out
  · exact getTimestamp_text rfl hscheduled out

end ReadBack

def morning : Timestamp where
  date := ⟨2026, 1, 5, by decide, by decide, by decide, by decide⟩
  hour := 8
  minute := 30
  second := 1
  fraction := str "000125"
  year_ge := by decide
  year_le := by decide
  hour_lt := by decide
  minute_lt := by decide
  second_lt := by decide
  isdigit_fraction := by decide

theorem isExact_morning : morning.IsExact := ⟨by decide, by decide +kernel⟩

/-- Two circuits, of which the first has two outcomes. -/
def sampleDocument : ResultDocument where
  histograms := sampleResult.mResults
  completed := morning
  submitted := morning
  scheduled := morning
  bare := false
  single := nofun
  counts := by decide
  few := by decide
  exact := ⟨isExact_morning, isExact_morning, isExact_morning⟩

def sampleCountsText : Bytes := str "[\x7b\"00\":3,\"11\":2\x7d,\x7b\"1\":5\x7d]"

def sampleReplyText : Bytes := str "\x7b\"result\":\"[\x7b\\\"00\\\":3,\\\"11\\\":2\x7d,\x7b\\\"1\\\":5\x7d]\"," ++
  str "\"timestamp_completed\":\"2026-01-05 08:30:01.000125\",\"timestamp_scheduled\":\"2026-01-05 08:30:01.000125\"," ++
  str "\"timestamp_submitted\":\"2026-01-05 08:30:01.000125\"\x7d"

set_option maxRecDepth 4000 in
/-- A library for these texts. -/
def sampleDocumentLib : JsonLib := .ofTable [(sampleCountsText, sampleDocument.countsJson),
  (sampleReplyText, sampleDocument.reply sampleCountsText)] (by decide)

/-- A circuit whose job has a number. -/
def numberedJob : JobRequest := ⟨str "7", .circuit ⟨str "H 0", str "qasm", str "A", 10, false, false⟩⟩

def resultService : Env ClientAns := MQSSClient.replying [(str "job/7/result", sampleReplyText)]

set_option maxRecDepth 4000 in
theorem reported_sampleDocument : sampleDocument.Reported sampleDocumentLib resultService numberedJob :=
  ⟨sampleCountsText, sampleReplyText, by decide, by decide, fun _ => rfl⟩

theorem result_read_back_sample :
    ((MQSSClientGetJobResult sampleDocumentLib (some ⟨true, .hpc ⟨str "listener", str "queue"⟩⟩) (some numberedJob) false 0).exec
      resultService []).1 = .ok (some sampleDocument.result) ∧
    PreservesCounts sampleDocument.result
      ((MQSSClientGetJobResultCounts (some sampleDocument.result) (some ⟨none, none, 0⟩)).exec grantingEnv []).1 ∧
    ∃ v, MQSSClientGetJobResultCompletedTimestamp (some sampleDocument.result) (some 0) = .ok (0, some v) ∧
      v.toNat = 1767601801000125 := by
  obtain ⟨hfetched, -, hcounts, htimes⟩ :=
    result_read_back reported_sampleDocument grants_grantingEnv ⟨true, .hpc ⟨str "listener", str "queue"⟩⟩ 0 []
  obtain ⟨v, hv, hmicros⟩ := (htimes 0).1
  refine ⟨hfetched, hcounts _ _, v, hv, hmicros.trans ?_⟩
  decide +kernel

end MqssClient
