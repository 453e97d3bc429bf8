import MqssClient.CApi.Client
import MqssClient.CApi.Resource
import MqssClient.Foundations.Lifetime
import MqssClient.Foundations.Protocol
import MqssClient.Foundations.Transition
import MqssClient.JobIdentity

/-!
# Handles of the C API

A handle is the address of an object on the heap. Any number of clients and jobs, and any sequence of calls with handles
that are null or point to a live object; the allocator may use an address again once its object is deleted.

* `Object`, `Heap`, `HandleCall`: the objects, and the calls that make, use and delete them;
* `HandleCall.run`, `handleStep`: what a call does to the objects, and a step of a run with a log of the calls;
* `Points`: the object of a handle as the log has it;
* `handles_point`: the objects of a run, and what is asked of the services for them.
-/

namespace MqssClient

open Foundations

/-! ## Jobs -/

def MQSSClientCreateCircuitJob (circuit circuitFormat resourceName : Option Bytes) (shots : UInt32)
    (noModify queued : Bool) : Option JobRequest :=
  match circuit, circuitFormat, resourceName with
  | some circuit, some circuitFormat, some resourceName =>
    some ⟨[], .circuit ⟨circuit, circuitFormat, resourceName, shots, noModify, queued⟩⟩
  | _, _, _ => none

def MQSSClientCreateHamiltonianJob (resourceName interactionStr coefficientsStr : Option Bytes) : Option JobRequest :=
  match resourceName, interactionStr, coefficientsStr with
  | some resourceName, some interactionStr, some coefficientsStr =>
    some ⟨[], .hamiltonian ⟨resourceName, interactionStr, coefficientsStr⟩⟩
  | _, _, _ => none

/-! ## Objects -/

/-- What a handle points to. -/
inductive Object where
  | client (c : MQSSClient)
  | job (j : JobRequest)
  | jobResult (r : JobResult)
  | resource (r : Resource)
  | gate (g : Gate)

namespace Object

def client? : Object → Option MQSSClient
  | .client c => some c
  | _ => none

def job? : Object → Option JobRequest
  | .job j => some j
  | _ => none

def jobResult? : Object → Option JobResult
  | .jobResult r => some r
  | _ => none

def resource? : Object → Option Resource
  | .resource r => some r
  | _ => none

def gate? : Object → Option Gate
  | .gate g => some g
  | _ => none

end Object

/-- The objects at their addresses. -/
abbrev Heap := Nat → Option Object

/-- `unwrap`: the object of a handle that is not null, which must be a live one of its kind. -/
def Heap.unwrap {α : Type} (heap : Heap) (kind : Object → Option α) : Option Nat → Option (Option α)
  | none => some none
  | some a => ((heap a).bind kind).map some

/-- The calls of the C API. Output parameters that do not become objects are left out. -/
inductive HandleCall where
  | createClient (machine : Machine) (token urlOrQueue : Option Bytes) (isHpc : Bool)
  | createCircuitJob (circuit circuitFormat resourceName : Option Bytes) (shots : UInt32) (noModify queued : Bool)
  | createHamiltonianJob (resourceName interactionStr coefficientsStr : Option Bytes)
  | getAllResources (client : Option Nat) (size : Option Int)
  | getResourceInfo (client : Option Nat) (resourceName : Option Bytes)
  | submitJob (client job : Option Nat)
  | cancelJob (client job : Option Nat)
  | getJobResult (client job : Option Nat) (wait : Bool) (timeout : UInt32)
  | getNumberPendingJobs (client : Option Nat) (resourceName : Option Bytes)
  | resourceGetInfo (resource : Option Nat) (out : Option ResourceInfo) (mem : Env MemAns)
  | resourceGetGateInfo (gate : Option Nat)
  | getJobResultCounts (jobResult : Option Nat)
  | getJobResultCompletedTimestamp (jobResult : Option Nat)
  | getJobResultSubmittedTimestamp (jobResult : Option Nat)
  | getJobResultScheduledTimestamp (jobResult : Option Nat)
  | freeClient (client : Option Nat)
  | freeJob (job : Option Nat)
  | freeJobResult (jobResult : Option Nat)

/-- The object that a call deletes. -/
def HandleCall.freed : HandleCall → Option Nat
  | .freeClient client => client
  | .freeJob job => job
  | .freeJobResult jobResult => jobResult
  | _ => none

/-- What a call that returned has done: the objects it made, in order, and a job it wrote to. -/
structure Effect where
  born : List Object
  stored : Option (Nat × JobRequest)

/-- The gates behind the output parameters of a successful call. -/
def copiedGates (result : Int × Option ResourceInfo) : List Gate :=
  if result.1 = 0 then
    ((result.2.bind ResourceInfo.nativeGateset).elim [] Block.data).map Prod.snd
  else []

/-- A call that makes no object and writes to none: it reads the object of its handle, or deletes it. -/
def Heap.uses {α : Type} (heap : Heap) (kind : Object → Option α) (handle : Option Nat) : Option (ClientProg Effect) := do
  let _ ← heap.unwrap kind handle
  some (.pure (.ok ⟨[], none⟩))

section Run

variable (curl : Libcurl) (lib : JsonLib)

/-- A call as a program of its client; none where a handle is neither null nor that of a live object of its kind. -/
def HandleCall.run (heap : Heap) : HandleCall → Option (ClientProg Effect)
  | .createClient machine token urlOrQueue isHpc =>
    some (.pure ((MQSSClientCreateClient curl lib machine token urlOrQueue isHpc).map fun c =>
      ⟨c.toList.map .client, none⟩))
  | .createCircuitJob circuit circuitFormat resourceName shots noModify queued =>
    let job := MQSSClientCreateCircuitJob circuit circuitFormat resourceName shots noModify queued
    some (.pure (.ok ⟨job.toList.map .job, none⟩))
  | .createHamiltonianJob resourceName interactionStr coefficientsStr =>
    let job := MQSSClientCreateHamiltonianJob resourceName interactionStr coefficientsStr
    some (.pure (.ok ⟨job.toList.map .job, none⟩))
  | .getAllResources client size => do
    let client ← heap.unwrap Object.client? client
    some ((MQSSClientGetAllResources lib client size).map fun r =>
      r.map fun resources => ⟨(resources.1.getD []).map .resource, none⟩)
  | .getResourceInfo client resourceName => do
    let client ← heap.unwrap Object.client? client
    some ((MQSSClientGetResourceInfo lib client resourceName).map fun r =>
      r.map fun resource => ⟨resource.toList.map .resource, none⟩)
  | .submitJob client handle => do
    let client ← heap.unwrap Object.client? client
    let job ← heap.unwrap Object.job? handle
    some ((MQSSClientSubmitJob lib client job).map fun r =>
      r.1.map fun _ => ⟨[], handle.bind fun a => r.2.map fun job => (a, job)⟩)
  | .cancelJob client job => do
    let client ← heap.unwrap Object.client? client
    let job ← heap.unwrap Object.job? job
    some ((MQSSClientCancelJob client job).map fun r => r.map fun _ => ⟨[], none⟩)
  | .getJobResult client job wait timeout => do
    let client ← heap.unwrap Object.client? client
    let job ← heap.unwrap Object.job? job
    some ((MQSSClientGetJobResult lib client job wait timeout).map fun r =>
      r.map fun jobResult => ⟨jobResult.toList.map .jobResult, none⟩)
  | .getNumberPendingJobs client resourceName => do
    let client ← heap.unwrap Object.client? client
    some ((MQSSClientGetNumberPendingJobs lib client resourceName).map fun r => r.map fun _ => ⟨[], none⟩)
  | .resourceGetInfo resource out mem => do
    let resource ← heap.unwrap Object.resource? resource
    some (.pure (.ok ⟨(copiedGates ((MQSSClientResourceGetInfo resource out).exec mem []).1).map .gate, none⟩))
  | .resourceGetGateInfo gate => heap.uses Object.gate? gate
  | .getJobResultCounts jobResult => heap.uses Object.jobResult? jobResult
  | .getJobResultCompletedTimestamp jobResult => heap.uses Object.jobResult? jobResult
  | .getJobResultSubmittedTimestamp jobResult => heap.uses Object.jobResult? jobResult
  | .getJobResultScheduledTimestamp jobResult => heap.uses Object.jobResult? jobResult
  | .freeClient client => heap.uses Object.client? client
  | .freeJob job => heap.uses Object.job? job
  | .freeJobResult jobResult => heap.uses Object.jobResult? jobResult

/-- A call that returned, with what its client exchanged with the service, and the handles it made with their objects. -/
structure HandleEvent where
  call : HandleCall
  made : List (Exchange ClientAns)
  born : List (Nat × Object)

/-- The objects, the calls to the services so far, and the calls of the C API so far, the last one first. -/
structure HandleWorld where
  heap : Heap
  made : List ClientCall
  log : List HandleEvent

def HandleWorld.init : HandleWorld := ⟨fun _ => none, [], []⟩

/-- The heap with new objects, one deleted and a job written to. -/
def Heap.change (heap : Heap) (born : List (Nat × Object)) (freed : Option Nat) (stored : Option (Nat × JobRequest)) :
    Heap := fun a =>
  match born.lookup a with
  | some o => some o
  | none =>
    if freed = some a then none
    else
      match stored with
      | some (b, job) => if b = a then some (.job job) else heap a
      | none => heap a

variable (env : Env ClientAns)

/-- A call that returns, with the addresses that the allocator gives to the objects it makes. -/
def handleStep (w : HandleWorld) (l : HandleCall × List Nat) : Option HandleWorld := do
  let p ← l.1.run curl lib w.heap
  match (p.exec env w.made).1 with
  | .error _ => none
  | .ok effect =>
    if l.2.length = effect.born.length ∧ l.2.Nodup ∧ ∀ a ∈ l.2, (w.heap a).isNone then
      let born := l.2.zip effect.born
      some {
        heap := w.heap.change born l.1.freed effect.stored
        made := (p.exec env w.made).2
        log := ⟨l.1, p.transcript env w.made, born⟩ :: w.log }
    else none

end Run

/-! ## The log -/

section Log

variable (lib : JsonLib)

/-- The uuid that a call gives to the job of a handle, that of an accepted submission. -/
def HandleEvent.uuid? (a : Nat) (e : HandleEvent) : Option Bytes :=
  match e.call, e.made with
  | .submitJob _ (some b), [⟨.request (.post _ _), reply⟩] => if b = a then acceptedUuid lib reply else none
  | _, _ => none

def Object.setUuid (o : Object) (uuid : Bytes) : Object :=
  match o with
  | .job j => .job (j.setUuid uuid)
  | o => o

/-- What a call makes of the objects, as the log has it. -/
def handles : Objects HandleEvent Nat Object where
  born := HandleEvent.born
  freed e := e.call.freed
  update e a o := (e.uuid? lib a).elim o o.setUuid

/-- An object as it was made, with the uuid of the last accepted submission since if it is a job. -/
def Object.now (a : Nat) (since : List HandleEvent) : Object → Object
  | .job j => .job (j.setUuid ((since.findSome? (HandleEvent.uuid? lib a)).getD j.getUuid))
  | o => o

/-- The log has this object at an address: it was made there, and neither deleted since nor replaced. -/
def Points (log : List HandleEvent) (a : Nat) (o : Object) : Prop :=
  ∃ born since, (handles lib).Lives log a born since ∧ o = born.now lib a since

/-- The handles of a client and of a job that a call works on. -/
def HandleCall.works : HandleCall → Option (Nat × Nat)
  | .submitJob (some client) (some job) => some (client, job)
  | .cancelJob (some client) (some job) => some (client, job)
  | .getJobResult (some client) (some job) _ _ => some (client, job)
  | _ => none

/-- What a call on a job asks of the service. -/
def HandleCall.Asks (isHpc : Bool) (job : JobRequest) (calls : List ClientCall) : HandleCall → Prop
  | .submitJob _ _ => calls = [.request (.post job.getPath (job.toJson isHpc))]
  | .cancelJob _ _ => calls = [.request (.del (address job job.getUuid []))]
  | .getJobResult _ _ false _ => calls = [.request (.get (address job job.getUuid (str "/result")))]
  | .getJobResult _ _ true _ => ∀ c ∈ calls,
      c = .request (.get (address job job.getUuid (str "/status"))) ∨
      c = .request (.get (address job job.getUuid (str "/result"))) ∨ ∃ n, c = .sleep_for n
  | _ => True

/-- A call asks for the job to which its handle points, in the form of the client to which its handle points. -/
def HandleEvent.Addressed (before : List HandleEvent) (e : HandleEvent) : Prop :=
  ∀ c a, e.call.works = some (c, a) → ∃ client job, Points lib before c (.client client) ∧
    Points lib before a (.job job) ∧ e.call.Asks client.mIsHpc job (e.made.map Sigma.fst)

/-- The invariant of a run. -/
structure Pointed (w : HandleWorld) : Prop where
  heap : w.heap = w.log.foldr (handles lib).apply fun _ => none
  log : ∀ since e before, w.log = since ++ e :: before → e.Addressed lib before

variable {lib}

theorem after_eq_now (a : Nat) (born : Object) (since : List HandleEvent) :
    (handles lib).after a born since = born.now lib a since := by
  induction since with
  | nil => cases born <;> rfl
  | cons e since ih =>
    show (e.uuid? lib a).elim ((handles lib).after a born since) ((handles lib).after a born since).setUuid = _
    rw [ih]
    cases born with
    | job j =>
      unfold Object.now
      rw [List.findSome?_cons]
      cases e.uuid? lib a <;> rfl
    | _ => cases e.uuid? lib a <;> rfl

theorem Pointed.heap_iff {w : HandleWorld} (hw : Pointed lib w) {a : Nat} {o : Object} :
    w.heap a = some o ↔ Points lib w.log a o := by
  rw [hw.heap, Objects.apply_foldr_iff]
  simp only [after_eq_now]
  rfl

end Log

/-! ## What a call does -/

section Calls

variable {curl : Libcurl} {lib : JsonLib} {env : Env ClientAns} {heap : Heap} {call : HandleCall} {p : ClientProg Effect}
  {effect : Effect} {tr : List ClientCall}

theorem unwrap_some {α : Type} {kind : Object → Option α} {a : Nat} {x : Option α}
    (h : heap.unwrap kind (some a) = some x) : ∃ o v, heap a = some o ∧ kind o = some v ∧ x = some v := by
  obtain ⟨v, hv, rfl⟩ := Option.map_eq_some_iff.mp h
  obtain ⟨o, ho, hkind⟩ := Option.bind_eq_some_iff.mp hv
  exact ⟨o, v, ho, hkind, rfl⟩

theorem unwrap_client {a : Nat} {x : Option MQSSClient} (h : heap.unwrap Object.client? (some a) = some x) :
    ∃ client, heap a = some (.client client) ∧ x = some client := by
  obtain ⟨o, v, ho, hkind, rfl⟩ := unwrap_some h
  cases o with
  | client c =>
    cases hkind
    exact ⟨_, ho, rfl⟩
  | _ => cases hkind

theorem unwrap_job {a : Nat} {x : Option JobRequest} (h : heap.unwrap Object.job? (some a) = some x) :
    ∃ job, heap a = some (.job job) ∧ x = some job := by
  obtain ⟨o, v, ho, hkind, rfl⟩ := unwrap_some h
  cases o with
  | job j =>
    cases hkind
    exact ⟨_, ho, rfl⟩
  | _ => cases hkind

variable (env tr) in
/-- A submission posts its job, and stores the uuid of an accepted reply in it. -/
theorem run_submitJob {c a : Nat} (h : (HandleCall.submitJob (some c) (some a)).run curl lib heap = some p) :
    ∃ client job, heap c = some (.client client) ∧ heap a = some (.job job) ∧
      let request : ClientCall := .request (.post job.getPath (job.toJson client.mIsHpc))
      let reply : Except Exn Bytes := env tr request
      p.transcript env tr = [⟨request, reply⟩] ∧ ∀ effect, (p.exec env tr).1 = .ok effect →
        effect.stored = some (a, job.setUuid ((acceptedUuid lib reply).getD job.getUuid)) := by
  obtain ⟨_, hclient, h⟩ := Option.bind_eq_some_iff.mp h
  obtain ⟨_, hjob, h⟩ := Option.bind_eq_some_iff.mp h
  obtain ⟨client, hc, rfl⟩ := unwrap_client hclient
  obtain ⟨job, ha, rfl⟩ := unwrap_job hjob
  cases h
  refine ⟨client, job, hc, ha, rfl, fun effect heffect => ?_⟩
  rw [← (submitJob_eq lib job _).2]
  obtain ⟨_, -, heq⟩ := bind_eq_ok.mp heffect
  exact (congrArg Effect.stored (Except.ok.inj heq)).symm

theorem handleStep_some {w w' : HandleWorld} {l : HandleCall × List Nat} (h : handleStep curl lib env w l = some w') :
    ∃ p effect, l.1.run curl lib w.heap = some p ∧ (p.exec env w.made).1 = .ok effect ∧
      l.2.length = effect.born.length ∧ l.2.Nodup ∧ (∀ a ∈ l.2, w.heap a = none) ∧
      w' = {
        heap := w.heap.change (l.2.zip effect.born) l.1.freed effect.stored
        made := (p.exec env w.made).2
        log := ⟨l.1, p.transcript env w.made, l.2.zip effect.born⟩ :: w.log } := by
  obtain ⟨p, hp, h⟩ := Option.bind_eq_some_iff.mp h
  cases hexec : (p.exec env w.made).1 with
  | error e =>
    rw [hexec] at h
    cases h
  | ok effect =>
    rw [hexec] at h
    dsimp only at h
    split_ifs at h with hcond
    exact ⟨p, effect, hp, hexec, hcond.1, hcond.2.1, fun a ha => Option.isNone_iff_eq_none.mp (hcond.2.2 a ha),
      (Option.some.inj h).symm⟩

variable (env tr) in
theorem run_submitJob_null {a : Nat} (h : (HandleCall.submitJob none (some a)).run curl lib heap = some p) :
    ∃ job, heap a = some (.job job) ∧ p.transcript env tr = [] ∧
      ∀ effect, (p.exec env tr).1 = .ok effect → effect.stored = some (a, job) := by
  obtain ⟨_, hjob, h⟩ := Option.bind_eq_some_iff.mp h
  obtain ⟨job, ha, rfl⟩ := unwrap_job hjob
  cases h
  refine ⟨job, ha, rfl, fun effect heffect => ?_⟩
  cases heffect
  rfl

theorem stored_uses {α : Type} {kind : Object → Option α} {handle : Option Nat} (h : heap.uses kind handle = some p)
    (hexec : (p.exec env tr).1 = .ok effect) : effect.stored = none := by
  obtain ⟨_, -, h⟩ := Option.bind_eq_some_iff.mp h
  cases h
  cases hexec
  rfl

theorem stored_map {α : Type} {q : ClientProg α} {f : α → Effect} (hf : ∀ x, (f x).stored = none)
    (h : ((q.map fun r => r.map f).exec env tr).1 = .ok effect) : effect.stored = none := by
  rw [Prog.exec_map] at h
  obtain ⟨x, -, hx⟩ := bind_eq_ok.mp h
  cases hx
  exact hf x

/-- The other calls write to no job. -/
theorem run_unstored (h : call.run curl lib heap = some p) (hcall : ∀ client a, call ≠ .submitJob client (some a))
    (hexec : (p.exec env tr).1 = .ok effect) : effect.stored = none := by
  cases call with
  | createClient machine token urlOrQueue isHpc =>
    cases h
    obtain ⟨x, -, hx⟩ := bind_eq_ok.mp hexec
    cases hx
    rfl
  | createCircuitJob | createHamiltonianJob =>
    cases h
    cases hexec
    rfl
  | getAllResources client size =>
    obtain ⟨_, -, h⟩ := Option.bind_eq_some_iff.mp h
    cases h
    exact stored_map (fun _ => rfl) hexec
  | getResourceInfo client resourceName =>
    obtain ⟨_, -, h⟩ := Option.bind_eq_some_iff.mp h
    cases h
    exact stored_map (fun _ => rfl) hexec
  | getNumberPendingJobs client resourceName =>
    obtain ⟨_, -, h⟩ := Option.bind_eq_some_iff.mp h
    cases h
    exact stored_map (fun _ => rfl) hexec
  | submitJob client job =>
    cases job with
    | some a => exact absurd rfl (hcall client a)
    | none =>
      obtain ⟨_, -, h⟩ := Option.bind_eq_some_iff.mp h
      obtain ⟨_, -, h⟩ := Option.bind_eq_some_iff.mp h
      cases h
      rw [Prog.exec_map] at hexec
      obtain ⟨x, -, hx⟩ := bind_eq_ok.mp hexec
      cases hx
      rfl
  | cancelJob client job =>
    obtain ⟨_, -, h⟩ := Option.bind_eq_some_iff.mp h
    obtain ⟨_, -, h⟩ := Option.bind_eq_some_iff.mp h
    cases h
    exact stored_map (fun _ => rfl) hexec
  | getJobResult client job wait timeout =>
    obtain ⟨_, -, h⟩ := Option.bind_eq_some_iff.mp h
    obtain ⟨_, -, h⟩ := Option.bind_eq_some_iff.mp h
    cases h
    exact stored_map (fun _ => rfl) hexec
  | resourceGetInfo resource out mem =>
    obtain ⟨_, -, h⟩ := Option.bind_eq_some_iff.mp h
    cases h
    cases hexec
    rfl
  | resourceGetGateInfo => exact stored_uses h hexec
  | getJobResultCounts | getJobResultCompletedTimestamp | getJobResultSubmittedTimestamp | getJobResultScheduledTimestamp =>
    exact stored_uses h hexec
  | freeClient | freeJob | freeJobResult => exact stored_uses h hexec

theorem update_handles (e : HandleEvent) (a : Nat) (o : Object) :
    (handles lib).update e a o = (e.uuid? lib a).elim o o.setUuid := rfl

theorem map_update {e : HandleEvent} {a : Nat} (h : e.uuid? lib a = none) :
    (heap a).map ((handles lib).update e a) = heap a := by
  have hid : (handles lib).update e a = id := by
    funext o
    rw [update_handles, h]
    rfl
  rw [hid, Option.map_id_fun, id]

theorem uuid?_submitJob (client : Option Nat) (a b : Nat) (path : Bytes) (data : Json) (reply : Except Exn Bytes)
    (born : List (Nat × Object)) :
    HandleEvent.uuid? lib a ⟨.submitJob client (some b), [⟨.request (.post path data), reply⟩], born⟩ =
      if b = a then acceptedUuid lib reply else none := rfl

/-- A submission that returns writes to its job as the log has it, and no other call writes to an object. -/
theorem run_stored (h : call.run curl lib heap = some p) (hexec : (p.exec env tr).1 = .ok effect)
    (born : List (Nat × Object)) (a : Nat) :
    (match effect.stored with
      | some (b, job) => if b = a then some (.job job) else heap a
      | none => heap a) = (heap a).map ((handles lib).update ⟨call, p.transcript env tr, born⟩ a) := by
  by_cases hcall : ∃ client b, call = .submitJob client (some b)
  · obtain ⟨client, b, rfl⟩ := hcall
    cases client with
    | none =>
      obtain ⟨job, hb, htranscript, hstored⟩ := run_submitJob_null env tr h
      rw [hstored effect hexec, htranscript, map_update rfl]
      dsimp only
      split_ifs with hba
      · rw [← hba, hb]
      · rfl
    | some c =>
      obtain ⟨client, job, -, hb, htranscript, hstored⟩ := run_submitJob env tr h
      rw [hstored effect hexec, htranscript]
      dsimp only
      by_cases hba : b = a
      · subst hba
        rw [if_pos rfl, hb, Option.map_some, update_handles, uuid?_submitJob, if_pos rfl]
        cases acceptedUuid lib _ <;> rfl
      · rw [if_neg hba, map_update (by rw [uuid?_submitJob, if_neg hba])]
  · have hother : ∀ client b, call ≠ .submitJob client (some b) := fun client b heq => hcall ⟨client, b, heq⟩
    rw [run_unstored h hother hexec, map_update]
    unfold HandleEvent.uuid?
    dsimp only
    split
    · exact absurd rfl (hother _ _)
    · rfl

theorem asks_wait (isHpc : Bool) (client handle : Option Nat) (job : JobRequest) (timeout : UInt32) (t : Int) :
    (HandleCall.getJobResult client handle true timeout).Asks isHpc job
      (((MQSSClient.waitForJobResult lib job t).transcript env tr).map Sigma.fst) := by
  obtain ⟨made, hmade, hall⟩ := waitForJobResult_calls lib env job t tr
  rw [Prog.exec_transcript] at hmade
  rw [List.append_cancel_left hmade]
  exact hall

variable (env tr) in
/-- A call on a job asks for the job that is there. -/
theorem run_asks (h : call.run curl lib heap = some p) {c a : Nat} (hworks : call.works = some (c, a)) :
    ∃ client job, heap c = some (.client client) ∧ heap a = some (.job job) ∧
      call.Asks client.mIsHpc job ((p.transcript env tr).map Sigma.fst) := by
  cases call with
  | submitJob client job =>
    cases client <;> cases job <;> cases hworks
    obtain ⟨client, job, hc, ha, htranscript, -⟩ := run_submitJob env tr h
    exact ⟨client, job, hc, ha, by rw [htranscript]; rfl⟩
  | cancelJob client job =>
    cases client <;> cases job <;> cases hworks
    obtain ⟨_, hclient, h⟩ := Option.bind_eq_some_iff.mp h
    obtain ⟨_, hjob, h⟩ := Option.bind_eq_some_iff.mp h
    obtain ⟨client, hc, rfl⟩ := unwrap_client hclient
    obtain ⟨job, ha, rfl⟩ := unwrap_job hjob
    cases h
    refine ⟨client, job, hc, ha, ?_⟩
    show [_] = [_]
    rw [MQSSClient.cancelPath, address, List.append_nil]
  | getJobResult client job wait timeout =>
    cases client <;> cases job <;> cases hworks
    obtain ⟨_, hclient, h⟩ := Option.bind_eq_some_iff.mp h
    obtain ⟨_, hjob, h⟩ := Option.bind_eq_some_iff.mp h
    obtain ⟨client, hc, rfl⟩ := unwrap_client hclient
    obtain ⟨job, ha, rfl⟩ := unwrap_job hjob
    cases h
    refine ⟨client, job, hc, ha, ?_⟩
    cases wait with
    | false => exact rfl
    | true =>
      rw [Prog.transcript_map, MQSSClientGetJobResult, MQSSClient.getJobResult, if_pos rfl]
      exact asks_wait client.mIsHpc _ _ job timeout _
  | _ => cases hworks

end Calls

/-! ## Two runs -/

def acceptedReply : Bytes := str "\x7b\"uuid\":\"7\"\x7d"

def acceptingLib : JsonLib := .ofTable [(acceptedReply, .object [(str "uuid", .string (str "7"))])] (by decide)

/-- A service that accepts every submission. -/
def accepting : Env ClientAns := fun _ c =>
  match c with
  | .request (.get _) => .ok []
  | .request (.post _ _) => .ok acceptedReply
  | .request (.del _) => .ok ()
  | .sleep_for _ => ()

/-- A client and a job, which is submitted. -/
def submittingCalls : List (HandleCall × List Nat) := [
  (.createClient ⟨⟨⟨true, ⟨0, 200, []⟩⟩, ⟨0, .ok []⟩⟩, false, str "h", str "01234567"⟩ (some (str "t")) (some (str "q")) true, [1]),
  (.createCircuitJob (some (str "c")) (some (str "qasm")) (some (str "r")) 1 false true, [2]),
  (.submitJob (some 1) (some 2), [])]

/-- The job is deleted, and its address used for another one, which is cancelled. -/
def reusingCalls : List (HandleCall × List Nat) := [
  (.freeJob (some 2), []), (.createHamiltonianJob (some (str "r")) (some (str "i")) (some (str "c")), [2]),
  (.cancelJob (some 1) (some 2), [])]

/-! ## Runs -/

section Runs

variable {curl : Libcurl} {lib : JsonLib} {env : Env ClientAns} {w w' : HandleWorld}

theorem heap_change {heap : Heap} {call : HandleCall} {p : ClientProg Effect} {effect : Effect} {tr : List ClientCall}
    (h : call.run curl lib heap = some p) (hexec : (p.exec env tr).1 = .ok effect) (born : List (Nat × Object)) :
    heap.change born call.freed effect.stored = (handles lib).apply ⟨call, p.transcript env tr, born⟩ heap := by
  funext a
  unfold Heap.change Objects.apply
  rw [← run_stored h hexec born a]
  have hborn : (handles lib).born ⟨call, p.transcript env tr, born⟩ = born := rfl
  have hfreed : (handles lib).freed ⟨call, p.transcript env tr, born⟩ = call.freed := rfl
  rw [hborn, hfreed]
  cases List.lookup a born <;> rfl

/-- Every call keeps the invariant. -/
theorem Pointed.step (hw : Pointed lib w) {l : HandleCall × List Nat} (h : handleStep curl lib env w l = some w') :
    Pointed lib w' := by
  obtain ⟨p, effect, hp, hexec, -, -, -, rfl⟩ := handleStep_some h
  refine ⟨?_, fun since e before heq => ?_⟩
  · rw [List.foldr_cons, ← hw.heap]
    exact heap_change hp hexec _
  · cases since with
    | nil =>
      obtain ⟨rfl, rfl⟩ := List.cons.inj heq
      intro c a hworks
      obtain ⟨client, job, hc, ha, hasks⟩ := run_asks env w.made hp hworks
      exact ⟨client, job, hw.heap_iff.mp hc, hw.heap_iff.mp ha, hasks⟩
    | cons d since =>
      obtain ⟨-, heq⟩ := List.cons.inj heq
      exact hw.log since e before heq

/-- In any run, with the addresses of deleted objects used again or not: a handle points to the object that was made at its
address and not deleted since, a job with the uuid of its last accepted submission since; and what a call asks of a service
is asked for the objects of its handles, with the arguments with which they were made. -/
theorem handles_point {ls : List (HandleCall × List Nat)}
    (hrun : steps (handleStep curl lib env) HandleWorld.init ls = some w) :
    (∀ a o, w.heap a = some o ↔ Points lib w.log a o) ∧
      ∀ since e before, w.log = since ++ e :: before → e.Addressed lib before := by
  have hw : Pointed lib w := steps_invariant (handleStep curl lib env) (C := fun _ _ => True)
    (fun w l w' hw _ h => Pointed.step hw h) ⟨rfl, fun since e before heq => by cases since <;> cases heq⟩
    (.of_forall _ (fun _ _ _ => trivial) _) hrun
  exact ⟨fun a o => hw.heap_iff, hw.log⟩

theorem handles_point_reused :
    ∃ w, steps (handleStep plainCurl acceptingLib accepting) HandleWorld.init (submittingCalls ++ reusingCalls) = some w ∧
      (∀ a o, w.heap a = some o ↔ Points acceptingLib w.log a o) ∧
        ∀ since e before, w.log = since ++ e :: before → e.Addressed acceptingLib before := by
  obtain ⟨w, hw⟩ := Option.isSome_iff_exists.mp (by decide : (steps (handleStep plainCurl acceptingLib accepting)
    HandleWorld.init (submittingCalls ++ reusingCalls)).isSome = true)
  exact ⟨w, hw, handles_point hw⟩

/-! ## What stays -/

/-- The objects for which the C API has a call that deletes them. -/
def Object.Deletable : Object → Prop
  | .client _ => True
  | .job _ => True
  | .jobResult _ => True
  | .resource _ => False
  | .gate _ => False

/-- An object without the uuid of a job, which submissions set. -/
def Object.content (o : Object) : Object := o.setUuid []

theorem content_update (e : HandleEvent) (a : Nat) (o : Object) :
    ((handles lib).update e a o).content = o.content := by
  rw [update_handles]
  cases e.uuid? lib a with
  | none => rfl
  | some uuid => cases o <;> rfl

theorem deletable_iff_of_content {o o' : Object} (h : o'.content = o.content) : o'.Deletable ↔ o.Deletable := by
  cases o <;> cases o' <;> first | exact Iff.rfl | cases h

theorem content_eq_of_not_deletable {o o' : Object} (ho : ¬ o.Deletable) (h : o'.content = o.content) : o' = o := by
  cases o with
  | client | job | jobResult => exact absurd trivial ho
  | resource r =>
    cases o' <;> cases h
    rfl
  | gate g =>
    cases o' <;> cases h
    rfl

theorem deletable_of_unwrap {α : Type} {heap : Heap} {kind : Object → Option α} {a : Nat} {o : Object} {x : Option α}
    (hkind : ∀ o v, kind o = some v → o.Deletable) (h : heap.unwrap kind (some a) = some x) (ho : heap a = some o) :
    o.Deletable := by
  obtain ⟨o', v, ho', hv, -⟩ := unwrap_some h
  rw [ho] at ho'
  cases ho'
  exact hkind o v hv

theorem run_freed {heap : Heap} {call : HandleCall} {p : ClientProg Effect} {a : Nat} {o : Object}
    (h : call.run curl lib heap = some p) (hfreed : call.freed = some a) (ho : heap a = some o) : o.Deletable := by
  cases call with
  | freeClient client =>
    cases hfreed
    obtain ⟨_, hclient, -⟩ := Option.bind_eq_some_iff.mp h
    exact deletable_of_unwrap (fun o v hv => by cases o <;> first | exact trivial | cases hv) hclient ho
  | freeJob job =>
    cases hfreed
    obtain ⟨_, hjob, -⟩ := Option.bind_eq_some_iff.mp h
    exact deletable_of_unwrap (fun o v hv => by cases o <;> first | exact trivial | cases hv) hjob ho
  | freeJobResult jobResult =>
    cases hfreed
    obtain ⟨_, hresult, -⟩ := Option.bind_eq_some_iff.mp h
    exact deletable_of_unwrap (fun o v hv => by cases o <;> first | exact trivial | cases hv) hresult ho
  | _ => cases hfreed

/-- A call deletes an object, or leaves it with its content. -/
theorem step_content {l : HandleCall × List Nat} (h : handleStep curl lib env w l = some w') {a : Nat} {o : Object}
    (ho : w.heap a = some o) :
    (l.1.freed = some a ∧ o.Deletable) ∨ ∃ o', w'.heap a = some o' ∧ o'.content = o.content := by
  obtain ⟨p, effect, hp, hexec, -, -, hfresh, rfl⟩ := handleStep_some h
  have hborn : List.lookup a (l.2.zip effect.born) = none := by
    rw [List.lookup_eq_none_iff]
    rintro ⟨b, o'⟩ hb
    have hne : b ≠ a := by
      rintro rfl
      cases (hfresh b (List.of_mem_zip hb).1).symm.trans ho
    simpa using hne.symm
  by_cases hfreed : l.1.freed = some a
  · exact Or.inl ⟨hfreed, run_freed hp hfreed ho⟩
  · have hheap : (w.heap.change (l.2.zip effect.born) l.1.freed effect.stored) a =
        some ((handles lib).update ⟨l.1, p.transcript env w.made, l.2.zip effect.born⟩ a o) := by
      unfold Heap.change
      rw [hborn]
      dsimp only
      rw [if_neg hfreed, run_stored hp hexec (l.2.zip effect.born) a, ho, Option.map_some]
    exact Or.inr ⟨_, hheap, content_update _ a o⟩

/-- From any point of a run on, an object that no call deletes keeps its content, and the resources and gates stay for good. -/
theorem objects_remain {ls : List (HandleCall × List Nat)} (hrun : steps (handleStep curl lib env) w ls = some w') :
    (∀ a o, w.heap a = some o → (∀ l ∈ ls, l.1.freed ≠ some a) → ∃ o', w'.heap a = some o' ∧ o'.content = o.content) ∧
      ∀ a o, w.heap a = some o → ¬ o.Deletable → w'.heap a = some o := by
  have hremain : ∀ a o, w.heap a = some o → (∀ l ∈ ls, l.1.freed = some a → ¬ o.Deletable) →
      ∃ o', w'.heap a = some o' ∧ o'.content = o.content := by
    intro a o ho hls
    induction ls generalizing w o with
    | nil =>
      cases hrun
      exact ⟨o, ho, rfl⟩
    | cons l ls ih =>
      obtain ⟨m, hm, hrest⟩ := (steps_cons _).mp hrun
      obtain ⟨hl, hls⟩ := List.forall_mem_cons.mp hls
      rcases step_content hm ho with ⟨hfreed, hdel⟩ | ⟨o', ho', hcontent⟩
      · exact absurd hdel (hl hfreed)
      · have hrest' : ∀ l ∈ ls, l.1.freed = some a → ¬ o'.Deletable := fun l hl' hfreed => by
          rw [deletable_iff_of_content hcontent]
          exact hls l hl' hfreed
        obtain ⟨o'', ho'', hcontent'⟩ := ih hrest o' ho' hrest'
        exact ⟨o'', ho'', hcontent'.trans hcontent⟩
  refine ⟨fun a o ho hls => hremain a o ho fun l hl hfreed => absurd hfreed (hls l hl), fun a o ho hdel => ?_⟩
  obtain ⟨o', ho', hcontent⟩ := hremain a o ho fun _ _ _ => hdel
  rw [ho', content_eq_of_not_deletable hdel hcontent]

theorem objects_remain_reused :
    ∃ w w', steps (handleStep plainCurl acceptingLib accepting) HandleWorld.init submittingCalls = some w ∧
      steps (handleStep plainCurl acceptingLib accepting) w reusingCalls = some w' ∧
      (∀ a o, w.heap a = some o → (∀ l ∈ reusingCalls, l.1.freed ≠ some a) →
        ∃ o', w'.heap a = some o' ∧ o'.content = o.content) ∧
      ∀ a o, w.heap a = some o → ¬ o.Deletable → w'.heap a = some o := by
  obtain ⟨w, hw⟩ := Option.isSome_iff_exists.mp (by decide : (steps (handleStep plainCurl acceptingLib accepting)
    HandleWorld.init submittingCalls).isSome = true)
  obtain ⟨w', hw'⟩ : ∃ w', steps (handleStep plainCurl acceptingLib accepting) w reusingCalls = some w' := by
    have hboth : ((steps (handleStep plainCurl acceptingLib accepting) HandleWorld.init submittingCalls).bind fun w =>
      steps (handleStep plainCurl acceptingLib accepting) w reusingCalls).isSome = true := by decide
    rw [hw] at hboth
    exact Option.isSome_iff_exists.mp hboth
  exact ⟨w, w', hw, hw', objects_remain hw'⟩

end Runs

end MqssClient
