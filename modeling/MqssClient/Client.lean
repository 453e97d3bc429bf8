import MqssClient.Foundations.Prog
import MqssClient.Job
import MqssClient.Resource

/-!
# The client's operations

`MQSSClient` talks to a service through the interface `MQSSBaseClient`: its operations are programs over
the calls `get`, `post` and `del` of that interface, any of which may return or throw, and over `sleep_for`.

* `BaseCall`, `ClientCall`: the calls; `History`: the answers to the requests, by their number;
* `getAllResources`, `getResourceInfo`, `submitJob`, `cancelJob`, `getJobStatus`, `getJobResult`,
  `getNumberPendingJobs`: the operations; what each makes of a reply is a function of its own;
* `exec_waitForJobResult_*`: one round of the polling loop.
-/

namespace MqssClient

open Foundations

/-- A call of the interface `MQSSBaseClient`. -/
inductive BaseCall where
  | get (path : Bytes)
  | post (path : Bytes) (data : Json)
  | del (path : Bytes)
deriving DecidableEq

abbrev BaseAns : BaseCall → Type
  | .get _ => Except Exn Bytes
  | .post _ _ => Except Exn Bytes
  | .del _ => Except Exn Unit

inductive ClientCall where
  | request (c : BaseCall)
  | sleep_for (seconds : Int)
deriving DecidableEq

abbrev ClientAns : ClientCall → Type
  | .request c => BaseAns c
  | .sleep_for _ => Unit

/-- An operation of the client: it returns a value or throws. -/
abbrev ClientProg (α : Type) := Prog ClientAns (Except Exn α)

/-- How many of the calls are requests. -/
def requests (tr : List ClientCall) : Nat := tr.countP fun
  | .request _ => true
  | .sleep_for _ => false

/-- A history gives the answer to the `n`-th request, should it be `c`. -/
abbrev History := Nat → (c : BaseCall) → BaseAns c

def History.env (h : History) : Env ClientAns := fun tr op =>
  match op with
  | .request c => h (requests tr) c
  | .sleep_for _ => ()

namespace MQSSClient

variable (lib : JsonLib)

/-- Send a GET request and decode the reply; what the request throws goes through. -/
def getAnd {α : Type} (path : Bytes) (decode : Bytes → Except Exn α) : ClientProg α :=
  .call (.request (.get path)) fun resp => .pure (resp >>= decode)

/-! ## Resources -/

def decodeAllResources (resp : Bytes) : Except Exn (List Resource) :=
  match lib.parse resp with
  | none => .ok []
  | some parsed => parsed.range.mapM (Resource.ofJson lib)

def getAllResources : ClientProg (List Resource) := getAnd (str "resources") (decodeAllResources lib)

def decodeResourceInfo (resp : Bytes) : Except Exn (Option Resource) :=
  if (find (str "RESOURCE NOT FOUND") resp).isSome then .ok none
  else
    match lib.parse resp with
    | none => .ok none
    | some parsed =>
      if parsed.contains (str "ERROR") then .ok none
      else do
        let resource ← Resource.ofJson lib parsed
        return some resource

def getResourceInfo (resource : Bytes) : ClientProg (Option Resource) :=
  getAnd (str "resources/" ++ resource) (decodeResourceInfo lib)

def decodeNumberPendingJobs (resp : Bytes) : Except Exn Int :=
  if resp.isEmpty then .ok (-1)
  else
    match lib.parse resp with
    | none => .ok (-1)
    | some parsed => parsed.value lib.getInt (str "num_pending_jobs") (-1)

def getNumberPendingJobs (resource : Bytes) : ClientProg Int :=
  getAnd (str "resources/" ++ resource ++ str "/num_pending_jobs") (decodeNumberPendingJobs lib)

/-! ## Jobs -/

/-- The rest of `submitJob` after the request, with what becomes of the job: its uuid is set last, so an
exception on the way leaves it. -/
def finishSubmit (job : JobRequest) (result : Bytes) : Except Exn (Option Bytes) × JobRequest :=
  if result.isEmpty then (.ok none, job)
  else
    match lib.parse result with
    | none => (.ok none, job)
    | some parsed =>
      if !parsed.contains (str "uuid") then (.ok none, job)
      else
        match (parsed.subscript (str "uuid")).getString with
        | .error e => (.error e, job)
        | .ok uuid => (.ok (some uuid), job.setUuid uuid)

/-- What `submitJob` makes of the reply to its request; what the request throws goes through. -/
def submitResult (job : JobRequest) (reply : Except Exn Bytes) : Except Exn (Option Bytes) × JobRequest :=
  match reply with
  | .error e => (.error e, job)
  | .ok result => finishSubmit lib job result

def submitJob (mIsHpc : Bool) (job : JobRequest) : Prog ClientAns (Except Exn (Option Bytes) × JobRequest) :=
  .call (.request (.post job.getPath (job.toJson mIsHpc))) fun reply => .pure (submitResult lib job reply)

def cancelPath (job : JobRequest) : Bytes := job.getPath ++ str "/" ++ job.getUuid

def cancelJob (job : JobRequest) : ClientProg Unit := .call (.request (.del (cancelPath job))) fun r => .pure r

def statusPath (job : JobRequest) : Bytes := job.getPath ++ str "/" ++ job.getUuid ++ str "/status"

def decodeStatus (resp : Bytes) : Except Exn Bytes :=
  if resp.isEmpty then .ok []
  else
    match lib.parse resp with
    | none => .ok []
    | some parsed =>
      if parsed.contains (str "status") && (parsed.subscript (str "status")).isString then
        (parsed.subscript (str "status")).getString
      else
        .ok []

def getJobStatus (job : JobRequest) : ClientProg Bytes := getAnd (statusPath job) (decodeStatus lib)

def resultPath (job : JobRequest) : Bytes := job.getPath ++ str "/" ++ job.getUuid ++ str "/result"

def decodeResult (resp : Bytes) : Except Exn (Option JobResult) :=
  if resp.isEmpty then .ok none
  else
    match lib.parse resp with
    | none => .ok none
    | some parsed => do
      let result ← JobResult.ofJson lib parsed
      return some result

/-- `getJobResult` when it does not wait. -/
def fetchJobResult (job : JobRequest) : ClientProg (Option JobResult) := getAnd (resultPath job) (decodeResult lib)

/-- The default argument of `waitForJobResult`, which its only caller leaves. -/
def pollSeconds : Int := 2

/-- The statuses after which there will be no result: failed, cancelled or missing. -/
def isFailure (status : Bytes) : Bool := status = str "FAILED" || status = str "CANCELLED" || status.isEmpty

def waitForJobResult (job : JobRequest) (timeout : Int) : ClientProg (Option JobResult) :=
  if _h : 0 < timeout then
    (getJobStatus lib job).bind fun
      | .error e => .pure (.error e)
      | .ok status =>
        if status = str "COMPLETED" then fetchJobResult lib job
        else if isFailure status then .pure (.ok none)
        else
          let sleepSeconds := min timeout pollSeconds
          .call (.sleep_for sleepSeconds) fun _ => waitForJobResult job (timeout - sleepSeconds)
  else .pure (.ok none)
termination_by timeout.toNat
decreasing_by
  unfold pollSeconds
  omega

/-- The timeout, a `size_t`, is passed on as an `int`. -/
def getJobResult (job : JobRequest) (wait : Bool) (timeout : UInt64) : ClientProg (Option JobResult) :=
  if wait then waitForJobResult lib job (toInt timeout.toNat) else fetchJobResult lib job

/-! ## Runs -/

section Exec

variable (env : Env ClientAns) (tr : List ClientCall)

@[simp] theorem exec_getAnd {α : Type} (path : Bytes) (decode : Bytes → Except Exn α) :
    (getAnd path decode).exec env tr =
      ((env tr (.request (.get path)) : Except Exn Bytes) >>= decode, tr ++ [.request (.get path)]) := rfl

variable {env tr} in
theorem exec_getAnd_ok {α : Type} {path : Bytes} {decode : Bytes → Except Exn α} {s : Bytes}
    (h : env tr (.request (.get path)) = .ok s) :
    (getAnd path decode).exec env tr = (decode s, tr ++ [.request (.get path)]) := by
  rw [exec_getAnd, h]
  rfl

@[simp] theorem exec_submitJob (mIsHpc : Bool) (job : JobRequest) :
    (submitJob lib mIsHpc job).exec env tr =
      (submitResult lib job (env tr (.request (.post job.getPath (job.toJson mIsHpc)))),
        tr ++ [.request (.post job.getPath (job.toJson mIsHpc))]) := rfl

@[simp] theorem exec_cancelJob (job : JobRequest) :
    (cancelJob job).exec env tr =
      (env tr (.request (.del (cancelPath job))), tr ++ [.request (.del (cancelPath job))]) := rfl

/-- The status a poll reads. -/
def polled (job : JobRequest) : Except Exn Bytes :=
  (env tr (.request (.get (statusPath job))) : Except Exn Bytes) >>= decodeStatus lib

variable {env tr} {job : JobRequest} {timeout : Int}

theorem exec_waitForJobResult_timeout (h : ¬ 0 < timeout) :
    (waitForJobResult lib job timeout).exec env tr = (.ok none, tr) := by
  rw [waitForJobResult, dif_neg h]
  rfl

theorem exec_waitForJobResult_error (h : 0 < timeout) {e : Exn} (hs : polled lib env tr job = .error e) :
    (waitForJobResult lib job timeout).exec env tr = (.error e, tr ++ [.request (.get (statusPath job))]) := by
  unfold polled at hs
  rw [waitForJobResult, dif_pos h, Prog.exec_bind, getJobStatus, exec_getAnd, hs]
  rfl

theorem exec_waitForJobResult_completed (h : 0 < timeout) (hs : polled lib env tr job = .ok (str "COMPLETED")) :
    (waitForJobResult lib job timeout).exec env tr =
      (fetchJobResult lib job).exec env (tr ++ [.request (.get (statusPath job))]) := by
  unfold polled at hs
  rw [waitForJobResult, dif_pos h, Prog.exec_bind, getJobStatus, exec_getAnd, hs]
  dsimp only
  rw [if_pos rfl]

theorem exec_waitForJobResult_failure (h : 0 < timeout) {status : Bytes} (hs : polled lib env tr job = .ok status)
    (hf : isFailure status) :
    (waitForJobResult lib job timeout).exec env tr = (.ok none, tr ++ [.request (.get (statusPath job))]) := by
  have hc : status ≠ str "COMPLETED" := by
    rintro rfl
    exact absurd hf (by decide)
  unfold polled at hs
  rw [waitForJobResult, dif_pos h, Prog.exec_bind, getJobStatus, exec_getAnd, hs]
  dsimp only
  rw [if_neg hc, if_pos hf]
  rfl

/-- A status after which the loop goes on. -/
def isRunning (status : Bytes) : Bool := status ≠ str "COMPLETED" && !isFailure status

theorem exec_waitForJobResult_running (h : 0 < timeout) {status : Bytes} (hs : polled lib env tr job = .ok status)
    (hr : isRunning status) :
    (waitForJobResult lib job timeout).exec env tr =
      (waitForJobResult lib job (timeout - min timeout pollSeconds)).exec env
        (tr ++ [.request (.get (statusPath job)), .sleep_for (min timeout pollSeconds)]) := by
  simp only [isRunning, ne_eq, decide_not, Bool.and_eq_true, Bool.not_eq_true', decide_eq_false_iff_not] at hr
  unfold polled at hs
  rw [waitForJobResult, dif_pos h, Prog.exec_bind, getJobStatus, exec_getAnd, hs]
  dsimp only
  rw [if_neg hr.1, if_neg (by rw [hr.2]; decide), Prog.exec_call, List.append_assoc]
  rfl

theorem status_cases (status : Bytes) :
    status = str "COMPLETED" ∨ isFailure status = true ∨ isRunning status = true := by
  by_cases hc : status = str "COMPLETED"
  · exact Or.inl hc
  · by_cases hf : isFailure status = true
    · exact Or.inr (Or.inl hf)
    · exact Or.inr (Or.inr (by simp [isRunning, hc, hf]))

end Exec

end MQSSClient

end MqssClient
