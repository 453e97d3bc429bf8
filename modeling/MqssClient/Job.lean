import MqssClient.Json

/-!
# Job requests and job results

* `JobRequest`: the two kinds of job, each with the uuid its base class holds; `toJson`, `getPath`;
* `JobResult.ofJson`: the constructor that decodes the reply to a result request, whose `result` member is
  JSON inside a JSON string.
-/

namespace MqssClient

open Foundations

structure CircuitJobRequest where
  mCircuit : Bytes
  mCircuitFormat : Bytes
  mResourceName : Bytes
  mShots : UInt32
  mNoModify : Bool
  mQueued : Bool

namespace CircuitJobRequest

/-- The circuit is wrapped in an array for the HPC service. -/
def toJson (r : CircuitJobRequest) (isHpc : Bool) : Json :=
  .ofPairs [
    (str "circuit", if isHpc then .array [.string r.mCircuit] else .string r.mCircuit),
    (str "circuit_format", .string r.mCircuitFormat),
    (str "resource_name", .string r.mResourceName),
    (str "shots", .numberUnsigned r.mShots.toUInt64),
    (str "no_modify", .boolean r.mNoModify),
    (str "queued", .boolean r.mQueued)]

def getPath (_ : CircuitJobRequest) : Bytes := str "job"

end CircuitJobRequest

structure HamiltonianJobRequest where
  mResourceName : Bytes
  mInteractionStr : Bytes
  mCoefficientsStr : Bytes

namespace HamiltonianJobRequest

def toJson (r : HamiltonianJobRequest) (_isHpc : Bool) : Json :=
  .ofPairs [
    (str "resource_name", .string r.mResourceName),
    (str "interaction_str", .string r.mInteractionStr),
    (str "coefficients_str", .string r.mCoefficientsStr)]

def getPath (_ : HamiltonianJobRequest) : Bytes := str "hamiltonian_job"

end HamiltonianJobRequest

/-- What a class derived from `JobRequest` adds to it. -/
inductive JobRequest.Derived where
  | circuit (r : CircuitJobRequest)
  | hamiltonian (r : HamiltonianJobRequest)

/-- A job request: the uuid of the base class and the members of the derived one. -/
structure JobRequest where
  mUuid : Bytes
  derived : JobRequest.Derived

namespace JobRequest

def toJson (job : JobRequest) (isHpc : Bool) : Json :=
  match job.derived with
  | .circuit r => r.toJson isHpc
  | .hamiltonian r => r.toJson isHpc

def getPath (job : JobRequest) : Bytes :=
  match job.derived with
  | .circuit r => r.getPath
  | .hamiltonian r => r.getPath

def getUuid (job : JobRequest) : Bytes := job.mUuid

def setUuid (job : JobRequest) (uuid : Bytes) : JobRequest := { job with mUuid := uuid }

@[simp] theorem getUuid_setUuid (job : JobRequest) (uuid : Bytes) : (job.setUuid uuid).getUuid = uuid := rfl

@[simp] theorem getPath_setUuid (job : JobRequest) (uuid : Bytes) :
    (job.setUuid uuid).getPath = job.getPath := rfl

@[simp] theorem derived_setUuid (job : JobRequest) (uuid : Bytes) :
    (job.setUuid uuid).derived = job.derived := rfl

end JobRequest

/-- The counts of one circuit, by measured bitstring. -/
abbrev Histogram := SortedMap Bytes UInt32

structure JobResult where
  mResults : List Histogram
  mTimestampCompleted : Bytes
  mTimestampSubmitted : Bytes
  mTimestampScheduled : Bytes
deriving DecidableEq

namespace JobResult

variable (lib : JsonLib)

/-- The histogram of one result map: the loop
`for (auto& [key, value] : resultMap.items()) result[key] = value.get<unsigned int>()`. -/
def histogram (resultMap : Json) : Except Exn Histogram := do
  let entries ← resultMap.items.mapM fun item => do
    let count ← lib.getUnsigned item.2
    return (item.1, count)
  return .ofEntries entries

/-- The histograms of the parsed `result` text: those of an array of maps, or that of a single one. -/
def results (resultMaps : Json) : Except Exn (List Histogram) :=
  match resultMaps with
  | .array elements => elements.mapM (histogram lib)
  | _ => do
    let result ← histogram lib resultMaps
    return [result]

/-- `parsed.at(key).get<std::string>()`. -/
def stringAt (parsed : Json) (key : Bytes) : Except Exn Bytes := do
  let v ← parsed.atKey key
  v.getString

/-- `JobResult::JobResult(const nlohmann::json&)`. -/
def ofJson (parsed : Json) : Except Exn JobResult := do
  let v ← parsed.atKey (str "result")
  let resultStr ← v.getRef
  match lib.parse resultStr with
  -- the early return, with every member still empty
  | none => return ⟨[], [], [], []⟩
  | some resultMaps =>
    let mResults ← results lib resultMaps
    let mTimestampCompleted ← stringAt parsed (str "timestamp_completed")
    let mTimestampSubmitted ← stringAt parsed (str "timestamp_submitted")
    let mTimestampScheduled ← stringAt parsed (str "timestamp_scheduled")
    return { mResults, mTimestampCompleted, mTimestampSubmitted, mTimestampScheduled }

end JobResult

end MqssClient
