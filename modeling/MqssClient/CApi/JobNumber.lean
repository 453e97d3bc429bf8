import MqssClient.CApi.Client
import MqssClient.JobIdentity
import MqssClient.Resource.Numerals

/-!
# The number of a submitted job

* `Submission.result`, `Submission.Accepts`: what `MQSSClientSubmitJob` returns, and whether the submission beneath it is
  accepted;
* `Identifies`: the number says whether the job was accepted, and is then its uuid;
* `jobNumber_iff`: for which uuids it is; `identifies_iff`: for which replies;
* `jobNumber_identifies_iff`: this, and that different uuids then have different numbers.
-/

namespace MqssClient

open Foundations

namespace Submission

variable (lib : JsonLib) (client : MQSSClient) (env : Env ClientAns) (tr : List ClientCall) (job : JobRequest)

/-- What the call returns after the calls `tr`, and the job afterwards. -/
def result : Except Exn Int × Option JobRequest :=
  ((MQSSClientSubmitJob lib (some client) (some job)).exec env tr).1

/-- The submission beneath returns the uuid and stores it in the job. -/
def Accepts (uuid : Bytes) : Prop :=
  ((MQSSClient.submitJob lib client.mIsHpc job).exec env tr).1 = (.ok (some uuid), job.setUuid uuid)

/-- The number that is returned says whether the job was accepted, and is then its uuid. -/
structure Identifies : Prop where
  accepted_iff : (∃ r, (result lib client env tr job).1 = .ok r ∧ 0 ≤ r) ↔ ∃ uuid, Accepts lib client env tr job uuid
  numeral : ∀ r uuid, (result lib client env tr job).1 = .ok r → 0 ≤ r → Accepts lib client env tr job uuid →
    to_string r = uuid
  unchanged : ∀ r, (result lib client env tr job).1 = .ok r → r < 0 →
    (¬ ∃ uuid, Accepts lib client env tr job uuid) ∧
      (result lib client env tr job).2.map JobRequest.getUuid = some job.getUuid

/-- The answer to the request of the submission. -/
def reply : Except Exn Bytes := env tr (.request (.post job.getPath (job.toJson client.mIsHpc)))

/-! ## Accepted and refused submissions -/

variable {lib client env tr job}

theorem accepts_iff {uuid : Bytes} :
    Accepts lib client env tr job uuid ↔ acceptedUuid lib (reply client env tr job) = some uuid := by
  obtain ⟨hreturned, hstored⟩ := MqssClient.submitJob_eq lib job (reply client env tr job)
  rw [Accepts, MQSSClient.exec_submitJob]
  change MQSSClient.submitResult lib job (reply client env tr job) = _ ↔ _
  rw [← hreturned uuid, Prod.ext_iff, and_iff_left_iff_imp]
  intro h
  rw [hstored, (hreturned uuid).mp h]
  rfl

theorem result_of_accepts {uuid : Bytes} (h : Accepts lib client env tr job uuid) :
    result lib client env tr job = (.ok (jobNumber (some uuid)), some (job.setUuid uuid)) := by
  rw [result, MQSSClientSubmitJob, Prog.exec_map]
  dsimp only
  rw [h]
  rfl

theorem result_of_not_accepts (h : ¬ ∃ uuid, Accepts lib client env tr job uuid) :
    ((result lib client env tr job).1 = .ok (-1) ∨ ∃ e, (result lib client env tr job).1 = .error e) ∧
      (result lib client env tr job).2 = some job := by
  obtain ⟨hreturned, hstored⟩ := MqssClient.submitJob_eq lib job (reply client env tr job)
  have hnone : acceptedUuid lib (reply client env tr job) = none := by
    rw [Option.eq_none_iff_forall_ne_some]
    exact fun uuid heq => h ⟨uuid, accepts_iff.mpr heq⟩
  have heq : result lib client env tr job =
      ((MQSSClient.submitResult lib job (reply client env tr job)).1.map jobNumber,
        some (MQSSClient.submitResult lib job (reply client env tr job)).2) := rfl
  rw [heq]
  constructor
  · cases hr : (MQSSClient.submitResult lib job (reply client env tr job)).1 with
    | error e => exact Or.inr ⟨e, rfl⟩
    | ok uuid =>
      cases uuid with
      | none => exact Or.inl rfl
      | some uuid =>
        rw [hreturned uuid, hnone] at hr
        cases hr
  · rw [hstored, hnone]
    rfl

/-! ## Which uuids are numbers -/

/-- The number made from a uuid is not negative and has this numeral exactly when the uuid is the numeral of a number below
`2 ^ 31`. -/
theorem jobNumber_iff {uuid : Bytes} :
    (0 ≤ jobNumber (some uuid) ∧ to_string (jobNumber (some uuid)) = uuid) ↔ ∃ n < 2 ^ 31, uuid = numeral n := by
  constructor
  · rintro ⟨hpos, heq⟩
    obtain ⟨n, hn⟩ := Int.eq_ofNat_of_zero_le hpos
    refine ⟨n, ?_, by rw [← heq, hn]; rfl⟩
    cases hs : stoi uuid with
    | error e =>
      rw [jobNumber, hs] at hpos
      change (0 : Int) ≤ -2 at hpos
      omega
    | ok v =>
      rw [jobNumber, hs] at hn
      have hbounds := stoi_bounds hs
      dsimp only at hn
      omega
  · rintro ⟨n, hn, rfl⟩
    rw [jobNumber, stoi_numeral, if_pos hn]
    exact ⟨Int.natCast_nonneg n, rfl⟩

theorem Accepts.unique {uuid uuid' : Bytes} (h : Accepts lib client env tr job uuid)
    (h' : Accepts lib client env tr job uuid') : uuid = uuid' :=
  Option.some.inj ((accepts_iff.mp h).symm.trans (accepts_iff.mp h'))

theorem Accepts.identifies_iff {uuid : Bytes} (h : Accepts lib client env tr job uuid) : Identifies lib client env tr job ↔
    0 ≤ jobNumber (some uuid) ∧ to_string (jobNumber (some uuid)) = uuid := by
  have heq := congrArg Prod.fst (result_of_accepts h)
  constructor
  · intro hidentifies
    obtain ⟨r, hr, hpos⟩ := hidentifies.accepted_iff.mpr ⟨uuid, h⟩
    obtain rfl := Except.ok.inj (hr.symm.trans heq)
    exact ⟨hpos, hidentifies.numeral _ uuid hr hpos h⟩
  · rintro ⟨hpos, hnumeral⟩
    refine ⟨iff_of_true ⟨_, heq, hpos⟩ ⟨uuid, h⟩, fun r uuid' hr _ h' => ?_, fun r hr hneg => ?_⟩
    · obtain rfl := Except.ok.inj (heq.symm.trans hr)
      rw [hnumeral, h.unique h']
    · obtain rfl := Except.ok.inj (heq.symm.trans hr)
      exact absurd hpos (not_le.mpr hneg)

theorem identifies_of_not_accepts (h : ¬ ∃ uuid, Accepts lib client env tr job uuid) : Identifies lib client env tr job := by
  obtain ⟨hreturned, hjob⟩ := result_of_not_accepts h
  refine ⟨iff_of_false ?_ h, fun r uuid _ _ haccepts => absurd ⟨uuid, haccepts⟩ h, fun r _ _ => ⟨h, by rw [hjob]; rfl⟩⟩
  rintro ⟨r, hr, hpos⟩
  rcases hreturned with h1 | ⟨e, he⟩
  · obtain rfl := Except.ok.inj (h1.symm.trans hr)
    exact absurd hpos (by decide)
  · cases he.symm.trans hr

theorem identifies_iff : Identifies lib client env tr job ↔
    ∀ uuid, acceptedUuid lib (reply client env tr job) = some uuid → ∃ n < 2 ^ 31, uuid = numeral n := by
  simp only [← accepts_iff]
  by_cases haccepted : ∃ uuid, Accepts lib client env tr job uuid
  · obtain ⟨uuid, h⟩ := haccepted
    rw [h.identifies_iff, jobNumber_iff]
    constructor
    · intro hnumeral uuid' h'
      rwa [← h.unique h']
    · intro hnumeral
      exact hnumeral uuid h
  · exact iff_of_true (identifies_of_not_accepts haccepted) fun uuid h => absurd ⟨uuid, h⟩ haccepted

/-- The number that a submission returns identifies the job exactly when the uuid, if the reply has one, is the numeral of a
number below `2 ^ 31`; and then two submissions with different uuids return different numbers. -/
theorem jobNumber_identifies_iff (lib : JsonLib) (env : Env ClientAns) :
    (∀ (client : MQSSClient) (tr : List ClientCall) (job : JobRequest), Identifies lib client env tr job ↔
      ∀ uuid, acceptedUuid lib (reply client env tr job) = some uuid → ∃ n < 2 ^ 31, uuid = numeral n) ∧
    ∀ (client client' : MQSSClient) (tr tr' : List ClientCall) (job job' : JobRequest) (uuid uuid' : Bytes) (r r' : Int),
      Identifies lib client env tr job → Identifies lib client' env tr' job' →
      Accepts lib client env tr job uuid → Accepts lib client' env tr' job' uuid' → uuid ≠ uuid' →
      (result lib client env tr job).1 = .ok r → (result lib client' env tr' job').1 = .ok r' → r ≠ r' := by
  refine ⟨fun client tr job => identifies_iff, ?_⟩
  rintro client client' tr tr' job job' uuid uuid' r r' h h' haccepts haccepts' hne hr hr' rfl
  have hpos : 0 ≤ r := by
    by_contra hneg
    exact (h.unchanged r hr (by omega)).1 ⟨uuid, haccepts⟩
  exact hne ((h.numeral r uuid hr hpos haccepts).symm.trans (h'.numeral r uuid' hr' hpos haccepts'))

/-! ## Four uuids -/

/-- A reply with this uuid. -/
def uuidReply (uuid : String) : Bytes := str "\x7b\"uuid\":\"" ++ str uuid ++ str "\"\x7d"

def uuidLib : JsonLib := .ofTable [
  (uuidReply "12345", .object [(str "uuid", .string (str "12345"))]),
  (uuidReply "7f81d4fa", .object [(str "uuid", .string (str "7f81d4fa"))]),
  (uuidReply "f81d4fae", .object [(str "uuid", .string (str "f81d4fae"))]),
  (uuidReply "-5", .object [(str "uuid", .string (str "-5"))])] (by decide)

/-- Every request is answered with the same body. -/
def answering (body : Bytes) : Env ClientAns := fun _ c =>
  match c with
  | .request (.get _) => .ok body
  | .request (.post _ _) => .ok body
  | .request (.del _) => .ok ()
  | .sleep_for _ => ()

def circuitJob : JobRequest := ⟨[], .circuit ⟨str "H 0", str "qasm", str "A", 100, false, false⟩⟩

def restClient : MQSSClient := ⟨false, .rest ⟨str "https://host.example/", []⟩⟩

theorem identifies_sample : Identifies uuidLib restClient (answering (uuidReply "12345")) [] circuitJob := by
  refine ((jobNumber_identifies_iff uuidLib (answering (uuidReply "12345"))).1 _ _ _).mpr fun uuid h => ?_
  have hreply : acceptedUuid uuidLib (reply restClient (answering (uuidReply "12345")) [] circuitJob) =
      some (str "12345") := by decide
  obtain rfl := Option.some.inj (hreply.symm.trans h)
  exact ⟨12345, by decide, by decide⟩

/-- The digits in front are taken for the whole uuid; an accepted job whose uuid has none in front is reported as refused;
and so is one whose uuid has a minus sign. -/
theorem not_identifies :
    ((result uuidLib restClient (answering (uuidReply "7f81d4fa")) [] circuitJob).1 = .ok 7 ∧
      ¬ Identifies uuidLib restClient (answering (uuidReply "7f81d4fa")) [] circuitJob) ∧
    ((result uuidLib restClient (answering (uuidReply "f81d4fae")) [] circuitJob).1 = .ok (-2) ∧
      ¬ Identifies uuidLib restClient (answering (uuidReply "f81d4fae")) [] circuitJob) ∧
    (result uuidLib restClient (answering (uuidReply "-5")) [] circuitJob).1 = .ok (-5) ∧
      ¬ Identifies uuidLib restClient (answering (uuidReply "-5")) [] circuitJob := by
  have h7 : (result uuidLib restClient (answering (uuidReply "7f81d4fa")) [] circuitJob).1 = .ok 7 := by decide
  have h2 : (result uuidLib restClient (answering (uuidReply "f81d4fae")) [] circuitJob).1 = .ok (-2) := by decide
  have h5 : (result uuidLib restClient (answering (uuidReply "-5")) [] circuitJob).1 = .ok (-5) := by decide
  refine ⟨⟨h7, fun h => ?_⟩, ⟨h2, fun h => ?_⟩, h5, fun h => ?_⟩
  · have hnumeral := h.numeral 7 (str "7f81d4fa") h7 (by decide) (accepts_iff.mpr (by decide))
    exact absurd hnumeral (by decide)
  · exact (h.unchanged (-2) h2 (by decide)).1 ⟨str "f81d4fae", accepts_iff.mpr (by decide)⟩
  · exact (h.unchanged (-5) h5 (by decide)).1 ⟨str "-5", accepts_iff.mpr (by decide)⟩

end Submission

end MqssClient
