import MqssClient.Foundations.Protocol
import MqssClient.JobIdentity
import MqssClient.Wire

/-!
# One interface for two services

A program uses the methods of a client on any number of jobs, each time as it likes after what they returned before. It
does not notice which service the client is for.

* `Method`, `Method.run`: the methods, with the jobs they change;
* `wrapping`: the requests to the REST service, as the HPC service gets them;
* `interchangeable`: the runs of a program with a client for the one service and for the other.
-/

namespace MqssClient

open Foundations MQSSClient

/-- The methods of a client, on jobs `ι`. -/
inductive Method (ι : Type) where
  | getAllResources
  | getResourceInfo (resource : Bytes)
  | getNumberPendingJobs (resource : Bytes)
  | submitJob (j : ι)
  | cancelJob (j : ι)
  | getJobStatus (j : ι)
  | getJobResult (j : ι) (wait : Bool) (timeout : UInt64)

abbrev MethodAns {ι : Type} : Method ι → Type
  | .getAllResources => Except Exn (List Resource)
  | .getResourceInfo _ => Except Exn (Option Resource)
  | .getNumberPendingJobs _ => Except Exn Int
  | .submitJob _ => Except Exn (Option Bytes)
  | .cancelJob _ => Except Exn Unit
  | .getJobStatus _ => Except Exn Bytes
  | .getJobResult _ _ _ => Except Exn (Option JobResult)

section Methods

variable {ι : Type} [DecidableEq ι] (lib : JsonLib) (mIsHpc : Bool)

/-- A method of the client; only a submission changes its job. -/
def Method.run : (op : Method ι) → (ι → JobRequest) → Prog ClientAns (MethodAns op × (ι → JobRequest))
  | .getAllResources, jobs => (MQSSClient.getAllResources lib).map fun r => (r, jobs)
  | .getResourceInfo resource, jobs => (MQSSClient.getResourceInfo lib resource).map fun r => (r, jobs)
  | .getNumberPendingJobs resource, jobs => (MQSSClient.getNumberPendingJobs lib resource).map fun r => (r, jobs)
  | .submitJob j, jobs =>
    (MQSSClient.submitJob lib mIsHpc (jobs j)).map fun r => (r.1, Function.update jobs j r.2)
  | .cancelJob j, jobs => (MQSSClient.cancelJob (jobs j)).map fun r => (r, jobs)
  | .getJobStatus j, jobs => (MQSSClient.getJobStatus lib (jobs j)).map fun r => (r, jobs)
  | .getJobResult j wait timeout, jobs =>
    (MQSSClient.getJobResult lib (jobs j) wait timeout).map fun r => (r, jobs)

end Methods

/-- The calls for the REST service, as they are for the HPC service: the circuit of a submission is wrapped in an array. -/
def wrapping : Prog.View ClientAns ClientAns
  | .request (.get path) => some ⟨.request (.get path), id⟩
  | .request (.post path data) => some ⟨.request (.post path (JobRequest.wrapCircuit data)), id⟩
  | .request (.del path) => some ⟨.request (.del path), id⟩
  | .sleep_for seconds => some ⟨.sleep_for seconds, id⟩

section Wrapping

variable {ι : Type} [DecidableEq ι] {lib : JsonLib}

theorem forgets_getAnd {α : Type} (path : Bytes) (decode : Bytes → Except Exn α) :
    (getAnd path decode).Forgets wrapping (fun _ => True) Eq (getAnd path decode) := .shown rfl fun _ _ => .pure rfl

theorem forgets_waitForJobResult (job : JobRequest) (timeout : Int) :
    (waitForJobResult lib job timeout).Forgets wrapping (fun _ => True) Eq (waitForJobResult lib job timeout) := by
  induction hn : polls timeout generalizing timeout with
  | zero =>
    have hpos : ¬ 0 < timeout := fun hpos => by rw [polls_of_pos hpos] at hn; cases hn
    rw [waitForJobResult, dif_neg hpos]
    exact .pure rfl
  | succ n ih =>
    have hpos : 0 < timeout := polls_pos_iff.mp (by omega)
    rw [polls_of_pos hpos] at hn
    rw [waitForJobResult, dif_pos hpos]
    refine (forgets_getAnd (statusPath job) (decodeStatus lib)).bind ?_
    rintro status _ rfl
    cases status with
    | error e => exact .pure rfl
    | ok status =>
      dsimp only
      split_ifs
      · exact forgets_getAnd _ _
      · exact .pure rfl
      · exact .shown rfl fun _ _ => ih _ (Nat.succ.inj hn)

theorem forgets_getJobResult (job : JobRequest) (wait : Bool) (timeout : UInt64) :
    (getJobResult lib job wait timeout).Forgets wrapping (fun _ => True) Eq (getJobResult lib job wait timeout) := by
  cases wait with
  | false => exact forgets_getAnd _ _
  | true =>
    rw [getJobResult, if_pos rfl]
    exact forgets_waitForJobResult job _

/-- A method of a client for the HPC service is that of one for the REST service, with its circuit wrapped. -/
theorem forgets_method (op : Method ι) (jobs : ι → JobRequest) :
    (op.run lib false jobs).Forgets wrapping (fun _ => True) Eq (op.run lib true jobs) := by
  cases op with
  | getAllResources => exact .map_eq _ (forgets_getAnd _ _)
  | getResourceInfo resource => exact .map_eq _ (forgets_getAnd _ _)
  | getNumberPendingJobs resource => exact .map_eq _ (forgets_getAnd _ _)
  | submitJob j =>
    refine .map_eq _ ?_
    rw [MQSSClient.submitJob, MQSSClient.submitJob, JobRequest.toJson_hpc]
    exact .shown rfl fun _ _ => .pure rfl
  | cancelJob j => exact .map_eq _ (.shown rfl fun _ _ => .pure rfl)
  | getJobStatus j => exact .map_eq _ (forgets_getAnd _ _)
  | getJobResult j wait timeout => exact .map_eq _ (forgets_getJobResult _ _ _)

theorem wrapping_shown (op : ClientCall) : ∃ op' f, wrapping op = some ⟨op', f⟩ ∧ Function.Surjective f := by
  cases op with
  | request c => cases c <;> exact ⟨_, _, rfl, Function.surjective_id⟩
  | sleep_for seconds => exact ⟨_, id, rfl, Function.surjective_id⟩

/-- A program does not notice for which service its client is: it has the same runs with both, with the same answers, the
same value in the end and the same jobs, and with the same requests but for the array around a circuit. -/
theorem interchangeable {α : Type} (p : Prog (MethodAns (ι := ι)) α) (jobs : ι → JobRequest)
    (t : List (Exchange ClientAns)) (r : α × (ι → JobRequest)) :
    (p.interpret (Method.run lib true) jobs).Run t r ↔
      ∃ t', (p.interpret (Method.run lib false) jobs).Run t' r ∧ t = t'.filterMap wrapping.exchange := by
  have hprog : (p.interpret (Method.run lib false) jobs).Forgets wrapping (fun _ => True)
      (fun r r' => r.1 = r'.1 ∧ r.2 = r'.2) (p.interpret (Method.run lib true) jobs) := by
    refine .interpret (I := Eq) (fun op jobs' _ h => ?_) p rfl
    rw [← h]
    refine (forgets_method op jobs').mono ?_
    rintro r _ rfl
    exact ⟨rfl, rfl⟩
  constructor
  · intro hrun
    obtain ⟨t', r', hrun', ⟨hvalue, hjobs⟩, ht⟩ := hprog.lift (fun _ => trivial) wrapping_shown hrun
    rw [Prod.ext hvalue hjobs] at hrun'
    exact ⟨t', hrun', ht⟩
  · rintro ⟨t', hrun', rfl⟩
    obtain ⟨r', ⟨hvalue, hjobs⟩, hrun⟩ := hprog.run hrun' fun _ _ => trivial
    rwa [← Prod.ext hvalue hjobs] at hrun

end Wrapping

end MqssClient
