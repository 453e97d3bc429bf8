import MqssClient.Delivery
import MqssClient.Utf8

/-!
# Histograms in a reply

* `histogramJson`, `histogramsJson`: the objects and the array of the counts;
* `Replies`: a reply with a text as its `result` and with given timestamps;
* `histogram_histogramJson`: one object is decoded to its histogram;
* `histograms_decode`: the text of the array is decoded to the histograms, and that of one object to the same as an array
  of one.
-/

namespace MqssClient

open Foundations

/-- The counts of one circuit, as an object. -/
def histogramJson (h : Histogram) : Json := .object (h.entries.map fun e => (e.1, .numberUnsigned e.2.toUInt64))

def histogramsJson (hs : List Histogram) : Json := .array (hs.map histogramJson)

def KeysUtf8 (h : Histogram) : Prop := ∀ e ∈ h.entries, IsUtf8 e.1

/-! ## The objects are serialised -/

theorem isUtf8_histogramJson {h : Histogram} (hkeys : KeysUtf8 h) : (histogramJson h).IsUtf8 := by
  have hmembers : ∀ es : List (Bytes × UInt32), (∀ e ∈ es, IsUtf8 e.1) →
      Json.MembersUtf8 (es.map fun e => (e.1, .numberUnsigned e.2.toUInt64)) := by
    intro es
    induction es with
    | nil => exact fun _ => trivial
    | cons e es ih =>
      intro hes
      obtain ⟨he, hes⟩ := List.forall_mem_cons.mp hes
      exact ⟨he, trivial, ih hes⟩
  exact hmembers h.entries hkeys

theorem isUtf8_histogramsJson {hs : List Histogram} (hkeys : ∀ h ∈ hs, KeysUtf8 h) : (histogramsJson hs).IsUtf8 := by
  have hall : Json.AllUtf8 (hs.map histogramJson) := by
    induction hs with
    | nil => trivial
    | cons h hs ih =>
      obtain ⟨hh, hkeys⟩ := List.forall_mem_cons.mp hkeys
      exact ⟨isUtf8_histogramJson hh, ih hkeys⟩
  exact hall

/-- Counts are unsigned, and parsed as such. -/
theorem reparsed_histogramJson (h : Histogram) : (histogramJson h).reparsed = histogramJson h := by
  have hmembers : ∀ es : List (Bytes × UInt32),
      Json.reparsedMembers (es.map fun e => (e.1, .numberUnsigned e.2.toUInt64)) =
        es.map fun e => (e.1, .numberUnsigned e.2.toUInt64) := by
    intro es
    induction es with
    | nil => rfl
    | cons e es ih =>
      rw [List.map_cons, Json.reparsedMembers, ih]
      rfl
  rw [histogramJson, Json.reparsed, hmembers]

theorem reparsed_histogramsJson (hs : List Histogram) : (histogramsJson hs).reparsed = histogramsJson hs := by
  have hall : Json.reparsedAll (hs.map histogramJson) = hs.map histogramJson := by
    induction hs with
    | nil => rfl
    | cons h hs ih => rw [List.map_cons, Json.reparsedAll, reparsed_histogramJson, ih]
  rw [histogramsJson, Json.reparsed, hall]

/-! ## The objects are decoded -/

variable (lib : JsonLib)

theorem histogram_histogramJson (h : Histogram) : JobResult.histogram lib (histogramJson h) = .ok h := by
  rw [JobResult.histogram_eq_ok]
  refine ⟨h.entries, ?_, SortedMap.ext (SortedMap.entries_ofEntries h.sorted).symm⟩
  show List.Forall₂ _ (h.entries.map fun e => (e.1, Json.numberUnsigned e.2.toUInt64)) h.entries
  rw [List.forall₂_map_left_iff, List.forall₂_same]
  intro e _
  refine ⟨rfl, getUnsigned_of_count lib ?_⟩
  rw [numericValue, UInt32.toNat_toUInt64]

theorem histogram_mapM (hs : List Histogram) : (hs.map histogramJson).mapM (JobResult.histogram lib) = .ok hs := by
  rw [mapM_eq_ok, List.forall₂_map_left_iff, List.forall₂_same]
  exact fun h _ => histogram_histogramJson lib h

/-- A reply with a text as its `result`, and with the timestamps of a result. -/
structure Replies (parsed : Json) (text : Bytes) (r : JobResult) : Prop where
  result : parsed.find (str "result") = some (.string text)
  timestamps : JobResult.HasTimestamps parsed r

variable {lib}

/-- A reply whose text parses to these maps is decoded to them. -/
theorem ofJson_of_resultMaps {parsed inner : Json} {text : Bytes} {r : JobResult} (h : Replies parsed text r)
    (hparse : lib.parse text = some inner) (hmaps : resultMaps inner = r.mResults.map histogramJson) :
    JobResult.ofJson lib parsed = .ok r := by
  rw [JobResult.ofJson_eq_ok]
  refine ⟨text, h.result, ?_⟩
  rw [hparse]
  exact ⟨hmaps ▸ histogram_mapM lib r.mResults, h.timestamps⟩

variable (lib)

/-- The text of an array of counts, in a reply with timestamps, is decoded to these counts and timestamps, from the value of
the reply and from its body; and the text of one object of counts to the same as that of an array of it. -/
theorem histograms_decode :
    (∀ r : JobResult, (∀ h ∈ r.mResults, KeysUtf8 h) → lib.Dumps (histogramsJson r.mResults) →
      ∃ text, lib.dump (histogramsJson r.mResults) = some text ∧ ∀ parsed, Replies parsed text r →
        JobResult.ofJson lib parsed = .ok r ∧
        ∀ body, lib.parse body = some parsed → MQSSClient.decodeResult lib body = .ok (some r)) ∧
    ∀ (h : Histogram) (r : JobResult), KeysUtf8 h → lib.Dumps (histogramJson h) → lib.Dumps (histogramsJson [h]) →
      ∃ bare one, lib.dump (histogramJson h) = some bare ∧ lib.dump (histogramsJson [h]) = some one ∧
        ∀ parsed parsed', Replies parsed bare r → Replies parsed' one r →
          JobResult.ofJson lib parsed = JobResult.ofJson lib parsed' ∧
          JobResult.ofJson lib parsed = .ok { r with mResults := [h] } := by
  constructor
  · intro r hkeys hdumps
    obtain ⟨text, htext⟩ := Option.isSome_iff_exists.mp (hdumps (isUtf8_histogramsJson hkeys))
    have hparse := lib.parse_dump htext
    rw [reparsed_histogramsJson] at hparse
    refine ⟨text, htext, fun parsed hreply => ?_⟩
    have hdecoded := ofJson_of_resultMaps hreply hparse rfl
    exact ⟨hdecoded, fun body hbody => (decodeResult_eq_ok lib).mpr ⟨parsed, hbody, hdecoded⟩⟩
  · intro h r hkeys hbare hone
    obtain ⟨bare, htextBare⟩ := Option.isSome_iff_exists.mp (hbare (isUtf8_histogramJson hkeys))
    obtain ⟨one, htextOne⟩ := Option.isSome_iff_exists.mp
      (hone (isUtf8_histogramsJson (List.forall_mem_singleton.mpr hkeys)))
    have hparseBare := lib.parse_dump htextBare
    have hparseOne := lib.parse_dump htextOne
    rw [reparsed_histogramJson] at hparseBare
    rw [reparsed_histogramsJson] at hparseOne
    refine ⟨bare, one, htextBare, htextOne, fun parsed parsed' hreply hreply' => ?_⟩
    have hr : Replies parsed bare { r with mResults := [h] } := ⟨hreply.result, hreply.timestamps⟩
    have hr' : Replies parsed' one { r with mResults := [h] } := ⟨hreply'.result, hreply'.timestamps⟩
    have hdecoded := ofJson_of_resultMaps hr hparseBare rfl
    exact ⟨hdecoded.trans (ofJson_of_resultMaps hr' hparseOne rfl).symm, hdecoded⟩

def sampleHistogram : Histogram := .ofEntries [(str "00", 1), (str "11", 4294967295)]

def countedResult : JobResult := ⟨[sampleHistogram, .empty], str "3", str "1", str "2"⟩

/-- The reply with a text as its `result`. -/
def sampleReply (text : Bytes) : Json :=
  .ofPairs [(str "result", .string text), (str "timestamp_completed", .string (str "3")),
    (str "timestamp_submitted", .string (str "1")), (str "timestamp_scheduled", .string (str "2"))]

def objectText : Bytes := str "\x7b\"00\":1,\"11\":4294967295\x7d"

set_option maxRecDepth 4000 in
/-- The library on the texts of an object, of an array of it, and of an array with an empty object behind it. -/
def histogramLib : JsonLib :=
  .ofTable [(objectText, histogramJson sampleHistogram),
    (str "[" ++ objectText ++ str "]", histogramsJson [sampleHistogram]),
    (str "[" ++ objectText ++ str ",\x7b\x7d]", histogramsJson countedResult.mResults)] (by decide)

theorem keysUtf8_sampleHistogram : KeysUtf8 sampleHistogram := by
  have hascii : ∀ e ∈ sampleHistogram.entries, ∀ c ∈ e.1, c < 128 := by decide
  exact fun e he => isUtf8_of_ascii (hascii e he)

set_option maxRecDepth 4000 in
theorem histograms_decode_sample :
    JobResult.ofJson histogramLib (sampleReply (str "[" ++ objectText ++ str ",\x7b\x7d]")) = .ok countedResult ∧
    JobResult.ofJson histogramLib (sampleReply objectText) =
      JobResult.ofJson histogramLib (sampleReply (str "[" ++ objectText ++ str "]")) := by
  have hreplies : ∀ text, Replies (sampleReply text) text countedResult := fun text => ⟨rfl, rfl, rfl, rfl⟩
  have hdump : histogramLib.dump (histogramsJson countedResult.mResults) =
      some (str "[" ++ objectText ++ str ",\x7b\x7d]") := by decide
  have hdumpObject : histogramLib.dump (histogramJson sampleHistogram) = some objectText := by decide
  have hdumpArray : histogramLib.dump (histogramsJson [sampleHistogram]) = some (str "[" ++ objectText ++ str "]") := by
    decide
  obtain ⟨text, htext, hdecoded⟩ := (histograms_decode histogramLib).1 countedResult
    (List.forall_mem_cons.mpr ⟨keysUtf8_sampleHistogram, List.forall_mem_singleton.mpr fun _ h => nomatch h⟩)
    fun _ => by rw [hdump]; rfl
  obtain ⟨bare, one, hbare, hone, hequal⟩ := (histograms_decode histogramLib).2 sampleHistogram countedResult
    keysUtf8_sampleHistogram (fun _ => by rw [hdumpObject]; rfl) fun _ => by rw [hdumpArray]; rfl
  cases Option.some.inj (hdump.symm.trans htext)
  cases Option.some.inj (hdumpObject.symm.trans hbare)
  cases Option.some.inj (hdumpArray.symm.trans hone)
  exact ⟨(hdecoded _ (hreplies _)).1, (hequal _ _ (hreplies _) (hreplies _)).1⟩

end MqssClient
