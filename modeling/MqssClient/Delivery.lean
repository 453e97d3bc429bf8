import MqssClient.Client

/-!
# Delivered job results

What the reply to a result request must be for `getJobResult` to deliver a `JobResult`.

* `JobResult.ofJson_eq_ok`: what the constructor has read when it returns;
* `RealResult`: the reply of a completed job, and the result that is in it;
* `delivers_real_iff`: the replies whose result, if one is delivered, is the one that is in them.
-/

namespace MqssClient

open Foundations

/-- The maps of the parsed `result` text: the elements of an array, or the one value it is. -/
def resultMaps : Json → List Json
  | .array elements => elements
  | j => [j]

namespace JobResult

variable (lib : JsonLib)

theorem results_eq (inner : Json) : results lib inner = (resultMaps inner).mapM (histogram lib) := by
  cases inner with
  | array elements => rfl
  | _ => simp [results, resultMaps, List.mapM_cons]

theorem stringAt_eq_ok {parsed : Json} {key s : Bytes} :
    stringAt parsed key = .ok s ↔ parsed.find key = some (.string s) := by
  cases parsed with
  | object members =>
    simp only [stringAt, Json.atKey, Json.find]
    cases lookup key members with
    | none => simp
    | some v => cases v <;> simp [Json.getString]
  | _ => simp [stringAt, Json.atKey, Json.find]

theorem atKey_getRef_eq_ok {parsed : Json} {key s : Bytes} :
    (parsed.atKey key >>= Json.getRef) = .ok s ↔ parsed.find key = some (.string s) := by
  cases parsed with
  | object members =>
    simp only [Json.atKey, Json.find]
    cases lookup key members with
    | none => simp
    | some v => cases v <;> simp [Json.getRef]
  | _ => simp [Json.atKey, Json.find]

/-- The timestamps of a result are the members of the reply. -/
def HasTimestamps (parsed : Json) (r : JobResult) : Prop :=
  parsed.find (str "timestamp_completed") = some (.string r.mTimestampCompleted) ∧
    parsed.find (str "timestamp_submitted") = some (.string r.mTimestampSubmitted) ∧
    parsed.find (str "timestamp_scheduled") = some (.string r.mTimestampScheduled)

/-- What the constructor has read when it returns: nothing where the text of `result` is not JSON. -/
theorem ofJson_eq_ok {parsed : Json} {r : JobResult} :
    ofJson lib parsed = .ok r ↔ ∃ text, parsed.find (str "result") = some (.string text) ∧
      match lib.parse text with
      | none => r = ⟨[], [], [], []⟩
      | some inner => (resultMaps inner).mapM (histogram lib) = .ok r.mResults ∧ HasTimestamps parsed r := by
  have hassoc : ofJson lib parsed = (parsed.atKey (str "result") >>= Json.getRef) >>= fun resultStr =>
      match lib.parse resultStr with
      | none => return ⟨[], [], [], []⟩
      | some resultMaps => do
        let mResults ← results lib resultMaps
        let mTimestampCompleted ← stringAt parsed (str "timestamp_completed")
        let mTimestampSubmitted ← stringAt parsed (str "timestamp_submitted")
        let mTimestampScheduled ← stringAt parsed (str "timestamp_scheduled")
        return { mResults, mTimestampCompleted, mTimestampSubmitted, mTimestampScheduled } := by
    unfold ofJson
    cases parsed.atKey (str "result") <;> rfl
  rw [hassoc, bind_eq_ok]
  refine exists_congr fun text => ?_
  rw [atKey_getRef_eq_ok]
  refine and_congr_right fun _ => ?_
  cases lib.parse text with
  | none => simp [eq_comm]
  | some inner =>
    simp only [results_eq, bind_eq_ok, stringAt_eq_ok, HasTimestamps, pure_eq_ok, Except.ok.injEq]
    constructor
    · rintro ⟨hs, hhs, c, hc, s, hsub, sch, hsch, rfl⟩
      exact ⟨hhs, hc, hsub, hsch⟩
    · rintro ⟨hhs, hc, hsub, hsch⟩
      exact ⟨_, hhs, _, hc, _, hsub, _, hsch, rfl⟩

theorem histogram_eq_ok {m : Json} {h : Histogram} :
    histogram lib m = .ok h ↔ ∃ entries,
      List.Forall₂ (fun item entry => entry.1 = item.1 ∧ lib.getUnsigned item.2 = .ok entry.2) m.items entries ∧
        h = .ofEntries entries := by
  have hitem : ∀ (item : Bytes × Json) (entry : Bytes × UInt32),
      (do let count ← lib.getUnsigned item.2
          .ok (item.1, count)) = .ok entry ↔ entry.1 = item.1 ∧ lib.getUnsigned item.2 = .ok entry.2 := by
    intro item entry
    cases lib.getUnsigned item.2 with
    | error e => simp
    | ok c =>
      obtain ⟨k, v⟩ := entry
      simp [eq_comm]
  unfold histogram
  rw [bind_eq_ok]
  refine exists_congr fun entries => ?_
  rw [mapM_eq_ok]
  simp only [pure_eq_ok, hitem, Except.ok.injEq]
  exact and_congr_right fun _ => eq_comm

end JobResult

/-! ## Counts -/

/-- The number that a JSON number is. -/
def numericValue : Json → Option Rat
  | .numberInteger v => some v.toInt
  | .numberUnsigned v => some v.toNat
  | .numberFloat v => some v
  | _ => none

theorem getUnsigned_of_count (lib : JsonLib) {v : Json} {c : UInt32} (h : numericValue v = some (c.toNat : Rat)) :
    lib.getUnsigned v = .ok c := by
  have hc : c.toNat < 2 ^ 32 := c.toNat_lt
  have hcast : toUnsigned c.toNat = c := by
    have hmod : ((c.toNat : Int) % 2 ^ 32).toNat = c.toNat := by omega
    rw [toUnsigned, hmod, UInt32.ofNat_toNat]
  cases v with
  | numberInteger w =>
    have hw : w.toInt = c.toNat := by exact_mod_cast (Option.some.inj h : (w.toInt : Rat) = c.toNat)
    rw [JsonLib.getUnsigned, hw, hcast]
  | numberUnsigned w =>
    have hw : w.toNat = c.toNat := by exact_mod_cast (Option.some.inj h : (w.toNat : Rat) = c.toNat)
    rw [JsonLib.getUnsigned, hw, hcast]
  | numberFloat q =>
    obtain rfl : q = c.toNat := Option.some.inj h
    have ht : (c.toNat : Rat).num.tdiv (c.toNat : Rat).den = c.toNat := by simp
    simp only [JsonLib.getUnsigned, ht]
    rw [if_pos (by omega), hcast]
  | _ => cases h

/-- An integer in the range of `unsigned int`. -/
def IsCount (v : Json) : Prop := ∃ c : UInt32, numericValue v = some (c.toNat : Rat)

/-- The entries of a histogram are the members of an object, with exactly their counts. -/
def HasCounts (m : Json) (h : Histogram) : Prop :=
  ∃ members, m = .object members ∧
    List.Forall₂ (fun member entry => entry.1 = member.1 ∧ numericValue member.2 = some (entry.2.toNat : Rat))
      members h.entries

/-! ## Real results -/

variable (lib : JsonLib)

/-- The reply is an object whose `result` is the text of an object or an array of objects of counts, and the result has
exactly these counts and the timestamps of the reply. -/
def RealResult (body : Bytes) (r : JobResult) : Prop :=
  ∃ members text inner, lib.parse body = some (.object members) ∧
    (Json.object members).find (str "result") = some (.string text) ∧ lib.parse text = some inner ∧
    List.Forall₂ HasCounts (resultMaps inner) r.mResults ∧ JobResult.HasTimestamps (.object members) r

/-- The names of the timestamps in a reply. -/
def timestampKeys : List Bytes := [str "timestamp_completed", str "timestamp_submitted", str "timestamp_scheduled"]

/-- A value that `get<unsigned int>` casts. -/
def IsCast (v : Json) : Prop := v.isNumber ∨ v.isBoolean

/-- A reply with a text as its `result` that is not JSON; or that is JSON whose values can all be cast but which is not
an object or array of objects of counts. -/
def Misread (body : Bytes) : Prop :=
  ∃ parsed text, lib.parse body = some parsed ∧ parsed.find (str "result") = some (.string text) ∧
    match lib.parse text with
    | none => True
    | some inner =>
      (∀ m ∈ resultMaps inner, ∀ item ∈ m.items, IsCast item.2) ∧
      (∃ m ∈ resultMaps inner, ¬ (m.isObject ∧ ∀ item ∈ m.items, IsCount item.2)) ∧
      ∀ key ∈ timestampKeys, ∃ s, parsed.find key = some (.string s)

variable {lib}

theorem returns_getUnsigned {v : Json} : Returns (lib.getUnsigned v) ↔ IsCast v := by
  cases v <;> simp [JsonLib.getUnsigned, IsCast, Json.isNumber, Json.isBoolean]

theorem returns_histogram {m : Json} : Returns (JobResult.histogram lib m) ↔ ∀ item ∈ m.items, IsCast item.2 := by
  unfold JobResult.histogram
  simp only [pure_eq_ok]
  rw [returns_bind_ok, returns_mapM]
  exact forall₂_congr fun item _ => returns_bind_ok.trans returns_getUnsigned

/-- A result whose text is JSON is decoded if its values can be cast and the three timestamps are strings. -/
theorem returns_ofJson {parsed inner : Json} {text : Bytes} (htext : parsed.find (str "result") = some (.string text))
    (hinner : lib.parse text = some inner) :
    Returns (JobResult.ofJson lib parsed) ↔ (∀ m ∈ resultMaps inner, ∀ item ∈ m.items, IsCast item.2) ∧
      ∀ key ∈ timestampKeys, ∃ s, parsed.find key = some (.string s) := by
  constructor
  · rintro ⟨r, hr⟩
    obtain ⟨text', htext', hread⟩ := (JobResult.ofJson_eq_ok lib).mp hr
    obtain rfl : text = text' := by simpa using htext.symm.trans htext'
    rw [hinner] at hread
    obtain ⟨hresults, hstamps⟩ := hread
    refine ⟨fun m hm => returns_histogram.mp (returns_mapM.mp ⟨_, hresults⟩ m hm), ?_⟩
    unfold timestampKeys
    simp only [List.forall_mem_cons]
    exact ⟨⟨_, hstamps.1⟩, ⟨_, hstamps.2.1⟩, ⟨_, hstamps.2.2⟩, by simp⟩
  · rintro ⟨hcast, hstamps⟩
    obtain ⟨hs, hhs⟩ := returns_mapM.mpr fun m hm => returns_histogram.mpr (hcast m hm)
    obtain ⟨c, hc⟩ := hstamps (str "timestamp_completed") (by simp [timestampKeys])
    obtain ⟨sub, hsub⟩ := hstamps (str "timestamp_submitted") (by simp [timestampKeys])
    obtain ⟨sch, hsch⟩ := hstamps (str "timestamp_scheduled") (by simp [timestampKeys])
    exact ⟨⟨hs, c, sub, sch⟩, (JobResult.ofJson_eq_ok lib).mpr
      ⟨text, htext, by rw [hinner]; exact ⟨hhs, hc, hsub, hsch⟩⟩⟩

theorem hasCounts_histogram {m : Json} {h : Histogram} (hcanonical : m.canonical) (hobject : m.isObject)
    (hcount : ∀ item ∈ m.items, IsCount item.2) (hh : JobResult.histogram lib m = .ok h) : HasCounts m h := by
  obtain ⟨entries, hall, rfl⟩ := (JobResult.histogram_eq_ok lib).mp hh
  cases m with
  | object members =>
    refine ⟨members, rfl, ?_⟩
    have hkeys : entries.map Prod.fst = members.map Prod.fst := by
      rw [← List.forall₂_eq_eq_eq, List.forall₂_map_left_iff, List.forall₂_map_right_iff]
      exact hall.flip.imp fun _ _ h => h.1
    have hsorted : Sorted entries := by
      have hmembers := Json.sorted_of_canonical hcanonical
      unfold Sorted at hmembers ⊢
      rw [← List.pairwise_map (f := Prod.fst) (R := (· < ·))] at hmembers ⊢
      rwa [hkeys]
    rw [SortedMap.entries_ofEntries hsorted]
    refine ((List.forall₂_and_left _ _).mpr ⟨hcount, hall⟩).imp ?_
    rintro item entry ⟨⟨c, hc⟩, hkey, hget⟩
    rw [getUnsigned_of_count lib hc] at hget
    cases hget
    exact ⟨hkey, hc⟩
  | _ => cases hobject

theorem items_of_hasCounts {m : Json} {h : Histogram} (hh : HasCounts m h) :
    m.isObject ∧ ∀ item ∈ m.items, IsCount item.2 := by
  obtain ⟨members, rfl, hall⟩ := hh
  have hboth := hall.imp fun item entry he => And.intro (⟨entry.2, he.2⟩ : IsCount item.2) he
  exact ⟨rfl, ((List.forall₂_and_left _ _).mp hboth).1⟩

theorem canonical_resultMaps {inner : Json} (h : inner.canonical) : ∀ m ∈ resultMaps inner, m.canonical := by
  cases inner with
  | array elements => exact Json.canonical_of_mem_array h
  | _ => simpa [resultMaps] using h

/-- The reply to a request, whatever it is. -/
def answering (body : Bytes) : Env ClientAns := fun _ c =>
  match c with
  | .request (.get _) => .ok body
  | .request (.post _ _) => .ok body
  | .request (.del _) => .ok ()
  | .sleep_for _ => ()

variable (lib)

theorem decodeResult_eq_ok {body : Bytes} {r : JobResult} :
    MQSSClient.decodeResult lib body = .ok (some r) ↔ ∃ parsed, lib.parse body = some parsed ∧
      JobResult.ofJson lib parsed = .ok r := by
  unfold MQSSClient.decodeResult
  split_ifs with hnil
  · rw [List.isEmpty_iff.mp hnil, lib.parse_nil]
    simp
  · cases lib.parse body with
    | none => simp
    | some parsed =>
      simp only [Option.some.injEq, exists_eq_left', bind_eq_ok, pure_eq_ok, Except.ok.injEq]
      simp

variable {lib}

/-- What a real result is, for a reply of which the `result` text is known. -/
theorem realResult_iff {body text : Bytes} {parsed : Json} {r : JobResult} (hbody : lib.parse body = some parsed)
    (htext : parsed.find (str "result") = some (.string text)) :
    RealResult lib body r ↔ ∃ inner, lib.parse text = some inner ∧
      List.Forall₂ HasCounts (resultMaps inner) r.mResults ∧ JobResult.HasTimestamps parsed r := by
  constructor
  · rintro ⟨members, text', inner, hbody', htext', hreal⟩
    obtain rfl := Option.some.inj (hbody.symm.trans hbody')
    obtain rfl : text = text' := by simpa using htext.symm.trans htext'
    exact ⟨inner, hreal⟩
  · rintro ⟨inner, hreal⟩
    cases parsed with
    | object members => exact ⟨members, text, inner, hbody, htext, hreal⟩
    | _ => cases htext

theorem unreal_of_misread {body : Bytes} (h : Misread lib body) :
    ∃ parsed r, lib.parse body = some parsed ∧ JobResult.ofJson lib parsed = .ok r ∧ ¬ RealResult lib body r := by
  obtain ⟨parsed, text, hbody, htext, hmis⟩ := h
  cases htextparse : lib.parse text with
  | none =>
    refine ⟨parsed, ⟨[], [], [], []⟩, hbody, (JobResult.ofJson_eq_ok lib).mpr ⟨text, htext, by rw [htextparse]⟩, ?_⟩
    rw [realResult_iff hbody htext, htextparse]
    simp
  | some inner =>
    rw [htextparse] at hmis
    obtain ⟨hcast, ⟨m, hm, hbad⟩, hstamps⟩ := hmis
    obtain ⟨r, hr⟩ := (returns_ofJson htext htextparse).mpr ⟨hcast, hstamps⟩
    refine ⟨parsed, r, hbody, hr, fun hreal => ?_⟩
    obtain ⟨inner', hinner, hcounts, -⟩ := (realResult_iff hbody htext).mp hreal
    obtain rfl := Option.some.inj (htextparse.symm.trans hinner)
    have hboth := hcounts.imp fun m h hmh => And.intro (items_of_hasCounts hmh) hmh
    exact hbad (((List.forall₂_and_left _ _).mp hboth).1 m hm)

theorem real_of_not_misread {body : Bytes} {parsed : Json} {r : JobResult} (h : ¬ Misread lib body)
    (hbody : lib.parse body = some parsed) (hr : JobResult.ofJson lib parsed = .ok r) : RealResult lib body r := by
  obtain ⟨text, htext, hread⟩ := (JobResult.ofJson_eq_ok lib).mp hr
  rw [realResult_iff hbody htext]
  cases htextparse : lib.parse text with
  | none => exact absurd ⟨parsed, text, hbody, htext, by rw [htextparse]; trivial⟩ h
  | some inner =>
    rw [htextparse] at hread
    obtain ⟨hresults, hstamps⟩ := hread
    obtain ⟨hcast, hkeys⟩ := (returns_ofJson htext htextparse).mp ⟨r, hr⟩
    have hcounts : ∀ m ∈ resultMaps inner, m.isObject ∧ ∀ item ∈ m.items, IsCount item.2 := by
      intro m hm
      by_contra hbad
      refine h ⟨parsed, text, hbody, htext, ?_⟩
      rw [htextparse]
      exact ⟨hcast, ⟨m, hm, hbad⟩, hkeys⟩
    have hcanonical := canonical_resultMaps (lib.parse_canonical htextparse)
    have hboth := (List.forall₂_and_left _ _).mpr
      ⟨fun m hm => And.intro (hcanonical m hm) (hcounts m hm), mapM_eq_ok.mp hresults⟩
    exact ⟨inner, rfl, hboth.imp fun m h ⟨⟨hc, ho, hi⟩, hh⟩ => hasCounts_histogram hc ho hi hh, hstamps⟩

variable (lib)

/-- The result that `getJobResult` delivers, if any, is the one in the reply, exactly for the replies that are not
misread. -/
theorem delivers_real_iff (job : JobRequest) (timeout : UInt64) (body : Bytes) :
    (∀ r, ((MQSSClient.getJobResult lib job false timeout).exec (answering body) []).1 = .ok (some r) →
      RealResult lib body r) ↔ ¬ Misread lib body := by
  have hexec : ((MQSSClient.getJobResult lib job false timeout).exec (answering body) []).1 =
      MQSSClient.decodeResult lib body := rfl
  simp only [hexec, decodeResult_eq_ok]
  constructor
  · intro hreal hmis
    obtain ⟨parsed, r, hbody, hr, hunreal⟩ := unreal_of_misread hmis
    exact hunreal (hreal r ⟨parsed, hbody, hr⟩)
  · rintro hmis r ⟨parsed, hbody, hr⟩
    exact real_of_not_misread hmis hbody hr

/-- The reply for a job without a result yet. -/
def emptyReply : Bytes := str "\x7b\"result\":\"\"\x7d"

/-- An empty text is not JSON, and yet a result is delivered. -/
theorem delivers_unreal : ∃ (lib : JsonLib) (job : JobRequest) (r : JobResult),
    ((MQSSClient.getJobResult lib job false 0).exec (answering emptyReply) []).1 = .ok (some r) ∧
      ¬ RealResult lib emptyReply r := by
  refine ⟨.ofTable [(emptyReply, .object [(str "result", .string [])])] (by decide),
    ⟨str "1", .hamiltonian ⟨[], [], []⟩⟩, ⟨[], [], [], []⟩, by decide, ?_⟩
  rintro ⟨members, text, inner, hbody, htext, hinner, -⟩
  have hmembers : members = [(str "result", .string [])] := by
    have h := Option.some.inj hbody.symm
    simpa using h
  rw [hmembers] at htext
  have hfind : (Json.object [(str "result", .string [])]).find (str "result") = some (.string []) := by decide
  obtain rfl : [] = text := by simpa using hfind.symm.trans htext
  rw [JsonLib.parse_nil] at hinner
  cases hinner

end MqssClient
