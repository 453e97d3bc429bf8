import MqssClient.Polling
import Mathlib.Logic.Function.Basic

/-!
# Job identity over whole runs

Any number of jobs, and any sequence of `submitJob`, `cancelJob`, `getJobStatus` and `getJobResult` on them.

* `World`, `perform`: the jobs, the calls made so far, and a log of the operations;
* `uuidAfter`: the uuid that the log gives a job, namely that of its last accepted submission;
* `job_identity`: every job has this uuid, and every request for a job is addressed to it.
-/

namespace MqssClient

open Foundations MQSSClient

inductive JobOp (ι : Type) where
  | submitJob (j : ι)
  | cancelJob (j : ι)
  | getJobStatus (j : ι)
  | getJobResult (j : ι) (wait : Bool) (timeout : UInt64)

/-- An operation, the calls it made, and of a submission the reply to its request and what it returned. -/
structure Event (ι : Type) where
  op : JobOp ι
  made : List ClientCall
  submitted : Option (Except Exn Bytes × Except Exn (Option Bytes))

/-- The jobs, the calls made so far, and the operations so far, the last one first. -/
structure World (ι : Type) where
  jobs : ι → JobRequest
  made : List ClientCall
  log : List (Event ι)

section Run

variable {ι : Type} [DecidableEq ι] (lib : JsonLib) (mIsHpc : Bool) (env : Env ClientAns)

/-- An operation that leaves every job as it is. -/
def World.observe {α : Type} (w : World ι) (op : JobOp ι) (p : ClientProg α) : World ι :=
  let after := (p.exec env w.made).2
  { w with made := after, log := ⟨op, after.drop w.made.length, none⟩ :: w.log }

def perform (w : World ι) (op : JobOp ι) : World ι :=
  match op with
  | .submitJob j =>
    let job := w.jobs j
    let reply : Except Exn Bytes := env w.made (.request (.post job.getPath (job.toJson mIsHpc)))
    let ((returned, job'), after) := (submitJob lib mIsHpc job).exec env w.made
    { jobs := Function.update w.jobs j job'
      made := after
      log := ⟨op, after.drop w.made.length, some (reply, returned)⟩ :: w.log }
  | .cancelJob j => w.observe env op (cancelJob (w.jobs j))
  | .getJobStatus j => w.observe env op (getJobStatus lib (w.jobs j))
  | .getJobResult j wait timeout => w.observe env op (getJobResult lib (w.jobs j) wait timeout)

/-! ## What the log says -/

/-- The uuid of an accepted submission: the reply is valid JSON with a string member `uuid`. -/
def acceptedUuid (reply : Except Exn Bytes) : Option Bytes :=
  match reply with
  | .error _ => none
  | .ok body => (lib.parse body).bind fun parsed => (parsed.find (str "uuid")).bind Json.string?

/-- The uuid an event gives a job. -/
def Event.uuid? (j : ι) (e : Event ι) : Option Bytes :=
  match e.op, e.submitted with
  | .submitJob i, some (reply, _) => if i = j then acceptedUuid lib reply else none
  | _, _ => none

/-- The uuid of the last accepted submission of a job, or its initial one. -/
def uuidAfter (initial : ι → JobRequest) (log : List (Event ι)) (j : ι) : Bytes :=
  (log.findSome? (Event.uuid? lib j)).getD (initial j).getUuid

/-- A request for a job: `suffix` follows the path of its kind and the uuid. -/
def address (job : JobRequest) (uuid suffix : Bytes) : Bytes := job.getPath ++ str "/" ++ uuid ++ suffix

/-- An accepted submission returns the uuid, any other returns none; the requests of the other operations are addressed
to the uuids of the jobs. -/
def EventOk (initial : ι → JobRequest) (uuid : ι → Bytes) (e : Event ι) : Prop :=
  match e.op with
  | .submitJob j => ∃ reply returned data, e.submitted = some (reply, returned) ∧
      (∀ u, returned = .ok (some u) ↔ acceptedUuid lib reply = some u) ∧
      e.made = [.request (.post (initial j).getPath data)]
  | .cancelJob j => e.made = [.request (.del (address (initial j) (uuid j) []))]
  | .getJobStatus j => e.made = [.request (.get (address (initial j) (uuid j) (str "/status")))]
  | .getJobResult j false _ => e.made = [.request (.get (address (initial j) (uuid j) (str "/result")))]
  | .getJobResult j true _ => ∀ c ∈ e.made,
      c = .request (.get (address (initial j) (uuid j) (str "/status"))) ∨
      c = .request (.get (address (initial j) (uuid j) (str "/result"))) ∨ ∃ n, c = .sleep_for n

/-- Every event is as it should be, given the events before it. -/
def LogOk (initial : ι → JobRequest) : List (Event ι) → Prop
  | [] => True
  | e :: log => LogOk initial log ∧ EventOk lib initial (uuidAfter lib initial log) e

/-- The invariant of a run. -/
structure Identified (initial : ι → JobRequest) (w : World ι) : Prop where
  jobs : ∀ j, w.jobs j = (initial j).setUuid (uuidAfter lib initial w.log j)
  log : LogOk lib initial w.log
  made : w.made = (w.log.reverse.map Event.made).flatten

end Run

/-! ## The operations -/

section Calls

variable (lib : JsonLib) (env : Env ClientAns) (job : JobRequest)

/-- What is called in the waiting loop. -/
def IsWaitCall (c : ClientCall) : Prop :=
  c = .request (.get (statusPath job)) ∨ c = .request (.get (resultPath job)) ∨ ∃ n, c = .sleep_for n

/-- All calls of the waiting loop are for the status or the result of its job. -/
theorem waitForJobResult_calls (t : Int) (tr : List ClientCall) :
    ∃ made, ((waitForJobResult lib job t).exec env tr).2 = tr ++ made ∧ ∀ c ∈ made, IsWaitCall job c := by
  have hstatus : IsWaitCall job (.request (.get (statusPath job))) := Or.inl rfl
  have hresult : IsWaitCall job (.request (.get (resultPath job))) := Or.inr (Or.inl rfl)
  induction t, tr using wait_induction lib env job with
  | timeout t tr ht =>
    rw [exec_waitForJobResult_timeout lib ht]
    exact ⟨[], (List.append_nil tr).symm, by simp⟩
  | error t tr e hpos hs =>
    rw [exec_waitForJobResult_error lib hpos hs]
    exact ⟨_, rfl, by simpa using hstatus⟩
  | completed t tr hpos hs =>
    rw [exec_waitForJobResult_completed lib hpos hs]
    exact ⟨[_, _], List.append_assoc .., by simpa using ⟨hstatus, hresult⟩⟩
  | failure t tr status hpos hs hf =>
    rw [exec_waitForJobResult_failure lib hpos hs hf]
    exact ⟨_, rfl, by simpa using hstatus⟩
  | running t tr status hpos hs hrun ih =>
    rw [exec_waitForJobResult_running lib hpos hs hrun]
    obtain ⟨made, heq, hmade⟩ := ih
    refine ⟨_ :: _ :: made, by rw [heq, List.append_assoc]; rfl, ?_⟩
    intro c hc
    rcases List.mem_cons.mp hc with rfl | hc
    · exact hstatus
    · rcases List.mem_cons.mp hc with rfl | hc
      · exact Or.inr (Or.inr ⟨_, rfl⟩)
      · exact hmade c hc

/-- A submission returns and stores the uuid of an accepted reply, and changes nothing otherwise. -/
theorem submitJob_eq (reply : Except Exn Bytes) :
    (∀ u, (submitResult lib job reply).1 = .ok (some u) ↔ acceptedUuid lib reply = some u) ∧
      (submitResult lib job reply).2 = job.setUuid ((acceptedUuid lib reply).getD job.getUuid) := by
  have hnone : ∀ r : Except Exn (Option Bytes), (∀ u, r ≠ .ok (some u)) →
      (∀ u, r = .ok (some u) ↔ none = some u) ∧ job = job.setUuid ((none : Option Bytes).getD job.getUuid) :=
    fun r hr => ⟨fun u => by simpa using hr u, rfl⟩
  unfold submitResult finishSubmit acceptedUuid
  cases reply with
  | error e => exact hnone _ (by simp)
  | ok body =>
    dsimp only
    by_cases hnil : body = []
    · rw [hnil, lib.parse_nil]
      exact hnone _ (by simp)
    · rw [if_neg (by simpa using hnil)]
      cases lib.parse body with
      | none => exact hnone _ (by simp)
      | some parsed =>
        rw [Option.bind_some]
        cases hf : parsed.find (str "uuid") with
        | none =>
          have hc : parsed.contains (str "uuid") = false := by rw [Json.contains, hf]; rfl
          simp only [hc]
          exact hnone _ (by simp)
        | some v =>
          have hc : parsed.contains (str "uuid") = true := by rw [Json.contains, hf]; rfl
          have hv : parsed.subscript (str "uuid") = v := by rw [Json.subscript, hf]; rfl
          simp only [hc, hv, Option.bind_some]
          cases v with
          | string uuid => exact ⟨by simp [Json.getString, Json.string?], rfl⟩
          | _ => exact hnone _ (by simp [Json.getString])

end Calls

/-! ## Runs -/

section Identity

variable {ι : Type} [DecidableEq ι] (lib : JsonLib) (mIsHpc : Bool) (env : Env ClientAns) (initial : ι → JobRequest)

theorem uuidAfter_cons (e : Event ι) (log : List (Event ι)) (j : ι) :
    uuidAfter lib initial (e :: log) j = (e.uuid? lib j).getD (uuidAfter lib initial log j) := by
  unfold uuidAfter
  rw [List.findSome?_cons]
  cases e.uuid? lib j <;> rfl

theorem drop_exec {α : Type} (p : Prog ClientAns α) (tr : List ClientCall) :
    tr ++ (p.exec env tr).2.drop tr.length = (p.exec env tr).2 := by
  obtain ⟨made, h⟩ := Prog.prefix_exec env p tr
  rw [← h, List.drop_left]

variable {lib env initial} {w : World ι}

theorem identified_observe (hw : Identified lib initial w) {α : Type} {op : JobOp ι} {p : ClientProg α}
    (hop : EventOk lib initial (uuidAfter lib initial w.log)
      ⟨op, (p.exec env w.made).2.drop w.made.length, none⟩) :
    Identified lib initial (w.observe env op p) where
  jobs j := by
    rw [World.observe, uuidAfter_cons]
    cases op <;> exact hw.jobs j
  log := ⟨hw.log, hop⟩
  made := by
    simp only [World.observe, List.reverse_cons, List.map_append, List.flatten_append, ← hw.made]
    simpa using (drop_exec env p w.made).symm

theorem identified_submitJob (hw : Identified lib initial w) (j : ι) :
    Identified lib initial (perform lib mIsHpc env w (.submitJob j)) := by
  set job := w.jobs j with hjob
  set op : ClientCall := .request (.post job.getPath (job.toJson mIsHpc)) with hcall
  set reply : Except Exn Bytes := env w.made op with hreply
  obtain ⟨hreturned, hstored⟩ := submitJob_eq lib job reply
  set result := submitResult lib job reply with hresult
  have hrun : perform lib mIsHpc env w (.submitJob j) =
      { jobs := Function.update w.jobs j result.2
        made := w.made ++ [op]
        log := ⟨.submitJob j, [op], some (reply, result.1)⟩ :: w.log } := by
    rw [perform, ← hjob]
    dsimp only
    rw [exec_submitJob, List.drop_left]
  rw [hrun]
  refine ⟨fun i => ?_, ⟨hw.log, ?_⟩, ?_⟩
  · rw [uuidAfter_cons]
    rcases eq_or_ne i j with rfl | hne
    · show Function.update w.jobs i result.2 i = _
      rw [Function.update_self, hstored, hjob, hw.jobs i]
      simp [Event.uuid?, JobRequest.setUuid, JobRequest.getUuid]
    · show Function.update w.jobs j result.2 i = _
      rw [Function.update_of_ne hne, hw.jobs i]
      simp [Event.uuid?, hne.symm]
  · refine ⟨reply, result.1, job.toJson mIsHpc, rfl, hreturned, ?_⟩
    rw [hcall, hjob, hw.jobs j, JobRequest.getPath_setUuid]
  · simp only [List.reverse_cons, List.map_append, List.flatten_append, ← hw.made]
    rfl

theorem identified_perform (hw : Identified lib initial w) (op : JobOp ι) :
    Identified lib initial (perform lib mIsHpc env w op) := by
  cases op with
  | submitJob j => exact identified_submitJob mIsHpc hw j
  | cancelJob j =>
    refine identified_observe hw ?_
    simp [EventOk, hw.jobs j, cancelPath, address]
  | getJobStatus j =>
    refine identified_observe hw ?_
    simp [EventOk, hw.jobs j, getJobStatus, statusPath, address]
  | getJobResult j wait timeout =>
    refine identified_observe hw ?_
    cases wait with
    | false => simp [EventOk, hw.jobs j, getJobResult, fetchJobResult, resultPath, address]
    | true =>
      obtain ⟨made, heq, hmade⟩ := waitForJobResult_calls lib env (w.jobs j) (toInt timeout.toNat) w.made
      show ∀ c ∈ _, _
      rw [getJobResult, if_pos rfl, heq, List.drop_left]
      intro c hc
      have := hmade c hc
      rwa [IsWaitCall, statusPath, resultPath, hw.jobs j] at this

theorem identified_foldl (hw : Identified lib initial w) (ops : List (JobOp ι)) :
    Identified lib initial (ops.foldl (perform lib mIsHpc env) w) := by
  induction ops generalizing w with
  | nil => exact hw
  | cons op ops ih => exact ih (identified_perform mIsHpc hw op)

theorem log_foldl (w : World ι) (ops : List (JobOp ι)) :
    (ops.foldl (perform lib mIsHpc env) w).log.map Event.op = ops.reverse ++ w.log.map Event.op := by
  induction ops generalizing w with
  | nil => rfl
  | cons op ops ih =>
    have hop : (perform lib mIsHpc env w op).log.map Event.op = op :: w.log.map Event.op := by
      cases op <;> rfl
    rw [List.foldl_cons, ih, hop]
    simp

/-- Over any run, each job has the uuid of its last accepted submission, which returned it, and each request for a job
is addressed to the uuid the job has then. -/
theorem job_identity (lib : JsonLib) (mIsHpc : Bool) (env : Env ClientAns) (initial : ι → JobRequest)
    (ops : List (JobOp ι)) :
    Identified lib initial (ops.foldl (perform lib mIsHpc env) ⟨initial, [], []⟩) ∧
      (ops.foldl (perform lib mIsHpc env) ⟨initial, [], []⟩).log.map Event.op = ops.reverse :=
  ⟨identified_foldl (w := ⟨initial, [], []⟩) mIsHpc { jobs := fun _ => rfl, log := trivial, made := rfl } ops,
    (log_foldl mIsHpc _ ops).trans (List.append_nil _)⟩

end Identity

end MqssClient
