import MqssClient.CApi.Client
import MqssClient.Delivery

/-!
# Exceptions in the C API

* `ApiCall`: the entry points, with pointers that are not null; `ApiCall.Completes`: one throws nothing;
* `ApiCall.Safe`: a condition on the arguments and the replies, for each entry point;
* `completes_iff_safe`: it is the condition for throwing nothing.
-/

namespace MqssClient

open Foundations

inductive ApiCall where
  | createClient (token urlOrQueue : Bytes) (isHpc : Bool)
  | getAllResources
  | getResourceInfo (resourceName : Bytes)
  | submitJob (job : JobRequest)
  | cancelJob (job : JobRequest)
  | getJobResult (job : JobRequest) (wait : Bool) (timeout : UInt32)
  | getNumberPendingJobs (resourceName : Bytes)
  | getJobResultCompletedTimestamp (jobResult : JobResult)
  | getJobResultSubmittedTimestamp (jobResult : JobResult)
  | getJobResultScheduledTimestamp (jobResult : JobResult)

/-! ## Decoders that throw nothing -/

section Decoders

variable (lib : JsonLib) (s : Bytes)

/-- A property of the JSON value that a text is, if it is one. -/
def IfJson (P : Json → Prop) : Prop := ∀ parsed, lib.parse s = some parsed → P parsed

theorem returns_decodeAllResources :
    Returns (MQSSClient.decodeAllResources lib s) ↔
      IfJson lib s fun parsed => ∀ item ∈ parsed.range, Resource.Decodes item := by
  unfold MQSSClient.decodeAllResources IfJson
  cases lib.parse s with
  | none => simp
  | some parsed =>
    simp only [Option.some.injEq, forall_eq']
    rw [returns_mapM]
    exact forall₂_congr fun item _ => Resource.returns_ofJson lib item

theorem returns_decodeResourceInfo :
    Returns (MQSSClient.decodeResourceInfo lib s) ↔ (find (str "RESOURCE NOT FOUND") s).isSome ∨
      IfJson lib s fun parsed => parsed.contains (str "ERROR") ∨ Resource.Decodes parsed := by
  unfold MQSSClient.decodeResourceInfo IfJson
  split_ifs with hfound
  · simp [hfound]
  · rw [or_iff_right hfound]
    cases lib.parse s with
    | none => simp
    | some parsed =>
      simp only [Option.some.injEq, forall_eq']
      split_ifs with herror
      · simp [herror]
      · rw [or_iff_right herror, ← Resource.returns_ofJson lib parsed]
        exact returns_bind_ok

theorem returns_decodeNumberPendingJobs :
    Returns (MQSSClient.decodeNumberPendingJobs lib s) ↔ IfJson lib s fun parsed =>
      parsed.isObject ∧ ∀ v, parsed.find (str "num_pending_jobs") = some v → IsCast v := by
  have hcast : ∀ v, Returns (lib.getInt v) ↔ IsCast v := fun v => by
    cases v <;> simp [JsonLib.getInt, IsCast, Json.isNumber, Json.isBoolean]
  unfold MQSSClient.decodeNumberPendingJobs IfJson
  split_ifs with hnil
  · rw [List.isEmpty_iff.mp hnil, lib.parse_nil]
    simp
  · cases lib.parse s with
    | none => simp
    | some parsed => simp only [Option.some.injEq, forall_eq', returns_value, hcast]

/-- The uuid of a reply, if it has one, is a string. -/
theorem returns_submitResult (job : JobRequest) :
    Returns (MQSSClient.submitResult lib job (.ok s)).1 ↔
      IfJson lib s fun parsed => ∀ v, parsed.find (str "uuid") = some v → v.isString := by
  unfold MQSSClient.submitResult MQSSClient.finishSubmit IfJson
  dsimp only
  split_ifs with hnil
  · rw [List.isEmpty_iff.mp hnil, lib.parse_nil]
    simp
  · cases lib.parse s with
    | none => simp
    | some parsed =>
      cases hf : parsed.find (str "uuid") with
      | none => simp [Json.contains, hf]
      | some v => cases v <;> simp [Json.contains, Json.subscript, hf, Json.getString, Json.isString]

/-- A reply from which a job result is decoded: its `result` is a text, and if this is JSON, its values can be cast and
the three timestamps are strings. -/
def HoldsResult (parsed : Json) : Prop :=
  ∃ text, parsed.find (str "result") = some (.string text) ∧ IfJson lib text fun inner =>
    (∀ m ∈ resultMaps inner, ∀ item ∈ m.items, IsCast item.2) ∧
      ∀ key ∈ timestampKeys, ∃ v, parsed.find key = some (.string v)

theorem returns_ofJson_iff (parsed : Json) : Returns (JobResult.ofJson lib parsed) ↔ HoldsResult lib parsed := by
  constructor
  · intro hreturns
    obtain ⟨r, hr⟩ := hreturns
    obtain ⟨text, htext, -⟩ := (JobResult.ofJson_eq_ok lib).mp hr
    exact ⟨text, htext, fun inner hinner => (returns_ofJson htext hinner).mp ⟨r, hr⟩⟩
  · rintro ⟨text, htext, hif⟩
    cases hinner : lib.parse text with
    | none => exact ⟨_, (JobResult.ofJson_eq_ok lib).mpr ⟨text, htext, by rw [hinner]⟩⟩
    | some inner => exact (returns_ofJson htext hinner).mpr (hif inner hinner)

theorem returns_decodeResult : Returns (MQSSClient.decodeResult lib s) ↔ IfJson lib s (HoldsResult lib) := by
  unfold MQSSClient.decodeResult IfJson
  split_ifs with hnil
  · rw [List.isEmpty_iff.mp hnil, lib.parse_nil]
    simp
  · cases lib.parse s with
    | none => simp
    | some parsed =>
      simp only [Option.some.injEq, forall_eq']
      rw [← returns_ofJson_iff]
      exact returns_bind_ok

/-- The status in a text, empty where there is none. -/
def statusIn : Bytes :=
  ((lib.parse s).bind fun parsed => (parsed.find (str "status")).bind Json.string?).getD []

theorem decodeStatus_eq : MQSSClient.decodeStatus lib s = .ok (statusIn lib s) := by
  unfold MQSSClient.decodeStatus statusIn
  split_ifs with hnil
  · rw [List.isEmpty_iff.mp hnil, lib.parse_nil]
    rfl
  · cases lib.parse s with
    | none => rfl
    | some parsed =>
      cases hf : parsed.find (str "status") with
      | none => simp [Json.contains, hf]
      | some v =>
        cases v <;> simp [Json.contains, Json.subscript, hf, Json.isString, Json.getString, Json.string?]

end Decoders

/-! ## Calls that throw nothing -/

section Calls

variable (curl : Libcurl) (lib : JsonLib) (amqp_error_string2 : Int → Bytes) (machine : Machine) (client : MQSSClient)
  (outcomes : Nat → Outcome)

/-- The replies to the requests of a client, given their outcomes. -/
def MQSSClient.replies : History := client.mClient.history curl lib amqp_error_string2 outcomes

/-- A call throws nothing; its `n`-th request has the outcome `outcomes n`. -/
def ApiCall.Completes : ApiCall → Prop
  | .createClient token urlOrQueue isHpc =>
    Returns (MQSSClientCreateClient curl lib machine (some token) (some urlOrQueue) isHpc)
  | .getAllResources => Returns ((MQSSClientGetAllResources lib (some client) (some 0)).exec
      (client.replies curl lib amqp_error_string2 outcomes).env []).1
  | .getResourceInfo resourceName => Returns ((MQSSClientGetResourceInfo lib (some client) (some resourceName)).exec
      (client.replies curl lib amqp_error_string2 outcomes).env []).1
  | .submitJob job => Returns ((MQSSClientSubmitJob lib (some client) (some job)).exec
      (client.replies curl lib amqp_error_string2 outcomes).env []).1.1
  | .cancelJob job => Returns ((MQSSClientCancelJob (some client) (some job)).exec
      (client.replies curl lib amqp_error_string2 outcomes).env []).1
  | .getJobResult job wait timeout => Returns ((MQSSClientGetJobResult lib (some client) (some job) wait timeout).exec
      (client.replies curl lib amqp_error_string2 outcomes).env []).1
  | .getNumberPendingJobs resourceName =>
    Returns ((MQSSClientGetNumberPendingJobs lib (some client) (some resourceName)).exec
      (client.replies curl lib amqp_error_string2 outcomes).env []).1
  | .getJobResultCompletedTimestamp jobResult =>
    Returns (MQSSClientGetJobResultCompletedTimestamp (some jobResult) (some 0))
  | .getJobResultSubmittedTimestamp jobResult =>
    Returns (MQSSClientGetJobResultSubmittedTimestamp (some jobResult) (some 0))
  | .getJobResultScheduledTimestamp jobResult =>
    Returns (MQSSClientGetJobResultScheduledTimestamp (some jobResult) (some 0))

/-- The text that the `n`-th request ends with. -/
def MQSSClient.textAt (n : Nat) : Bytes := client.mClient.text amqp_error_string2 (outcomes n)

/-- A GET whose envelope, if it has one, can be serialised. -/
def MQSSClient.sends (path : Bytes) : Prop := client.mClient.unserialisable lib (outcomes 0) (.get path) = false

/-- The arguments can be serialised where they are sent, and what the replies hold can be decoded. -/
def ApiCall.Safe : ApiCall → Prop
  | .getAllResources => client.sends lib outcomes (str "resources") ∧
      IfJson lib (client.textAt amqp_error_string2 outcomes 0) fun parsed =>
        ∀ item ∈ parsed.range, Resource.Decodes item
  | .getResourceInfo resourceName => client.sends lib outcomes (str "resources/" ++ resourceName) ∧
      ((find (str "RESOURCE NOT FOUND") (client.textAt amqp_error_string2 outcomes 0)).isSome ∨
        IfJson lib (client.textAt amqp_error_string2 outcomes 0) fun parsed =>
          parsed.contains (str "ERROR") ∨ Resource.Decodes parsed)
  | .submitJob job =>
      client.mClient.unserialisable lib (outcomes 0) (.post job.getPath (job.toJson client.mIsHpc)) = false ∧
      IfJson lib (client.textAt amqp_error_string2 outcomes 0) fun parsed =>
        ∀ v, parsed.find (str "uuid") = some v → v.isString
  | .getJobResult job false _ => client.sends lib outcomes (MQSSClient.resultPath job) ∧
      IfJson lib (client.textAt amqp_error_string2 outcomes 0) (HoldsResult lib)
  | .getJobResult job true timeout => ∀ k < MQSSClient.polls (toInt timeout.toNat),
      (∀ i < k, MQSSClient.isRunning (statusIn lib (client.textAt amqp_error_string2 outcomes i))) →
      client.sends lib outcomes (MQSSClient.statusPath job) ∧
        (statusIn lib (client.textAt amqp_error_string2 outcomes k) = str "COMPLETED" →
          client.sends lib outcomes (MQSSClient.resultPath job) ∧
            IfJson lib (client.textAt amqp_error_string2 outcomes (k + 1)) (HoldsResult lib))
  | .getNumberPendingJobs resourceName =>
      client.sends lib outcomes (str "resources/" ++ resourceName ++ str "/num_pending_jobs") ∧
      IfJson lib (client.textAt amqp_error_string2 outcomes 0) fun parsed =>
        parsed.isObject ∧ ∀ v, parsed.find (str "num_pending_jobs") = some v → IsCast v
  | _ => True

variable {curl lib amqp_error_string2 machine client outcomes}

theorem replies_get (n : Nat) (path : Bytes) :
    client.replies curl lib amqp_error_string2 outcomes n (.get path) =
      if client.mClient.unserialisable lib (outcomes 0) (.get path) then .error (.json_type_error 316)
      else .ok (client.textAt amqp_error_string2 outcomes n) := by
  have hconst : client.mClient.unserialisable lib (outcomes n) (.get path) =
      client.mClient.unserialisable lib (outcomes 0) (.get path) := by
    cases client.mClient <;> rfl
  rw [← hconst]
  exact Transport.answer_get ..

/-- Decoding a reply throws nothing if its request could be sent and its text can be decoded. -/
theorem returns_replies {α : Type} {n : Nat} {path : Bytes} {decode : Bytes → Except Exn α} :
    Returns (client.replies curl lib amqp_error_string2 outcomes n (.get path) >>= decode) ↔
      client.sends lib outcomes path ∧ Returns (decode (client.textAt amqp_error_string2 outcomes n)) := by
  rw [replies_get]
  unfold MQSSClient.sends
  cases client.mClient.unserialisable lib (outcomes 0) (.get path) <;> simp

theorem returns_map {α β : Type} {x : Except Exn α} {f : α → β} : Returns (x.map f) ↔ Returns x := by
  cases x <;> simp [Except.map]

theorem statusAt_replies {job : JobRequest} (hsends : client.sends lib outcomes (MQSSClient.statusPath job)) (n : Nat) :
    MQSSClient.statusAt lib job (client.replies curl lib amqp_error_string2 outcomes) n =
      .ok (statusIn lib (client.textAt amqp_error_string2 outcomes n)) := by
  unfold MQSSClient.sends at hsends
  rw [MQSSClient.statusAt, replies_get, hsends]
  exact decodeStatus_eq lib _

theorem returns_resultAt {job : JobRequest} (n : Nat) :
    Returns (MQSSClient.resultAt lib job (client.replies curl lib amqp_error_string2 outcomes) n) ↔
      client.sends lib outcomes (MQSSClient.resultPath job) ∧
        IfJson lib (client.textAt amqp_error_string2 outcomes n) (HoldsResult lib) := by
  rw [← returns_decodeResult]
  exact returns_replies

theorem completes_getJobResult_wait (job : JobRequest) (timeout : UInt32) :
    (ApiCall.getJobResult job true timeout).Completes curl lib amqp_error_string2 machine client outcomes ↔
      (ApiCall.getJobResult job true timeout).Safe lib amqp_error_string2 client outcomes := by
  have hexec : (ApiCall.getJobResult job true timeout).Completes curl lib amqp_error_string2 machine client outcomes ↔
      MQSSClient.WaitReturns lib job (client.replies curl lib amqp_error_string2 outcomes) 0
        (MQSSClient.polls (toInt timeout.toNat)) := by
    rw [ApiCall.Completes, MQSSClientGetJobResult, MQSSClient.exec_getJobResult_wait, UInt32.toNat_toUInt64,
      MQSSClient.returns_waitForJobResult]
    rfl
  rw [hexec, ApiCall.Safe, MQSSClient.WaitReturns]
  simp only [Nat.zero_add]
  by_cases hsends : client.sends lib outcomes (MQSSClient.statusPath job)
  · simp only [statusAt_replies hsends, returns_resultAt, Except.ok.injEq, exists_eq_left', hsends, true_and]
  · -- no status request can be sent, so the first poll throws
    have hthrows : ∀ n, ¬ ∃ s,
        MQSSClient.statusAt lib job (client.replies curl lib amqp_error_string2 outcomes) n = .ok s := by
      intro n hs
      exact hsends (returns_replies.mp hs).1
    constructor
    · intro hw k hk _
      obtain ⟨s, hs, -⟩ := hw 0 (by omega) (by simp)
      exact absurd ⟨s, hs⟩ (hthrows 0)
    · intro hw k hk _
      exact absurd (hw 0 (by omega) (by simp)).1 hsends

theorem completes_submitJob (job : JobRequest) :
    (ApiCall.submitJob job).Completes curl lib amqp_error_string2 machine client outcomes ↔
      (ApiCall.submitJob job).Safe lib amqp_error_string2 client outcomes := by
  have hexec : (ApiCall.submitJob job).Completes curl lib amqp_error_string2 machine client outcomes ↔
      Returns (MQSSClient.submitResult lib job
        (client.replies curl lib amqp_error_string2 outcomes 0 (.post job.getPath (job.toJson client.mIsHpc)))).1 :=
    returns_map
  have hanswer : client.replies curl lib amqp_error_string2 outcomes 0 (.post job.getPath (job.toJson client.mIsHpc)) =
      if client.mClient.unserialisable lib (outcomes 0) (.post job.getPath (job.toJson client.mIsHpc)) then
        .error (.json_type_error 316)
      else .ok (client.textAt amqp_error_string2 outcomes 0) := Transport.answer_post ..
  rw [hexec, hanswer, ApiCall.Safe]
  cases client.mClient.unserialisable lib (outcomes 0) (.post job.getPath (job.toJson client.mIsHpc)) with
  | true => simp [MQSSClient.submitResult]
  | false => simpa using returns_submitResult lib _ job

/-- A call of the C API throws nothing exactly under the condition `Safe`. -/
theorem completes_iff_safe (call : ApiCall) :
    call.Completes curl lib amqp_error_string2 machine client outcomes ↔
      call.Safe lib amqp_error_string2 client outcomes := by
  cases call with
  | createClient token urlOrQueue isHpc => exact iff_of_true (returns_catchAll ..) trivial
  | getAllResources =>
    rw [ApiCall.Safe, ← returns_decodeAllResources]
    exact returns_map.trans returns_replies
  | getResourceInfo resourceName =>
    rw [ApiCall.Safe, ← returns_decodeResourceInfo]
    exact returns_replies
  | submitJob job => exact completes_submitJob job
  | cancelJob job => exact iff_of_true (returns_catchAll ..) trivial
  | getJobResult job wait timeout =>
    cases wait with
    | false => exact returns_resultAt 0
    | true => exact completes_getJobResult_wait job timeout
  | getNumberPendingJobs resourceName =>
    rw [ApiCall.Safe, ← returns_decodeNumberPendingJobs]
    exact returns_replies
  | getJobResultCompletedTimestamp jobResult => exact iff_of_true (returns_getTimestamp ..) trivial
  | getJobResultSubmittedTimestamp jobResult => exact iff_of_true (returns_getTimestamp ..) trivial
  | getJobResultScheduledTimestamp jobResult => exact iff_of_true (returns_getTimestamp ..) trivial

end Calls

/-- A library for the text `5`. -/
def fiveLib : JsonLib := .ofTable [(str "5", .numberUnsigned 5)] (by decide)

/-- A number as the reply to the listing of resources throws through the C API. -/
theorem not_completes_getAllResources :
    ¬ ApiCall.getAllResources.Completes plainCurl fiveLib Transport.socketError
      ⟨⟨⟨true, ⟨0, 200, str "[]"⟩⟩, ⟨0, .ok []⟩⟩, false, str "host", []⟩
      ⟨false, .rest ⟨str "https://host.example/", []⟩⟩ fun _ => ⟨⟨true, ⟨0, 200, str "5"⟩⟩, ⟨0, .ok []⟩⟩ := by
  unfold ApiCall.Completes
  decide

end MqssClient
