import MqssClient.JobIdentity
import MqssClient.Rest.Normalization
import MqssClient.Transport

/-!
# What requests address

* `Operation`: the operations of the client by what they address, with the method and the path of their request;
* `made_of_clientOp`, `performed_of_run`: the requests of a run of the client, and the URLs that libcurl gets for them;
* `Operation.same_request_iff`: the operations that make the same request;
* `Operation.Addressed`: the uuids and names with which a URL is what it should be;
* `requests_addressed`: these together.
-/

namespace MqssClient

open Foundations

inductive JobKind where
  | circuit
  | hamiltonian
deriving DecidableEq

def JobKind.getPath : JobKind → Bytes
  | .circuit => str "job"
  | .hamiltonian => str "hamiltonian_job"

def JobRequest.kind (job : JobRequest) : JobKind :=
  match job.derived with
  | .circuit _ => .circuit
  | .hamiltonian _ => .hamiltonian

theorem JobRequest.getPath_kind (job : JobRequest) : job.kind.getPath = job.getPath := by
  obtain ⟨mUuid, derived⟩ := job
  cases derived <;> rfl

/-- An operation by what it addresses. A submission addresses the collection of its kind of jobs. -/
inductive Operation where
  | getAllResources
  | getResourceInfo (resource : Bytes)
  | getNumberPendingJobs (resource : Bytes)
  | submitJob (kind : JobKind)
  | cancelJob (kind : JobKind) (uuid : Bytes)
  | getJobStatus (kind : JobKind) (uuid : Bytes)
  | getJobResult (kind : JobKind) (uuid : Bytes)

namespace Operation

def method : Operation → Bytes
  | .submitJob _ => str "POST"
  | .cancelJob _ _ => str "DELETE"
  | _ => str "GET"

def path : Operation → Bytes
  | .getAllResources => str "resources"
  | .getResourceInfo resource => str "resources/" ++ resource
  | .getNumberPendingJobs resource => str "resources/" ++ resource ++ str "/num_pending_jobs"
  | .submitJob kind => kind.getPath
  | .cancelJob kind uuid => kind.getPath ++ str "/" ++ uuid
  | .getJobStatus kind uuid => kind.getPath ++ str "/" ++ uuid ++ str "/status"
  | .getJobResult kind uuid => kind.getPath ++ str "/" ++ uuid ++ str "/result"

/-- The uuid or the resource name. -/
def id? : Operation → Option Bytes
  | .getAllResources => none
  | .getResourceInfo resource => some resource
  | .getNumberPendingJobs resource => some resource
  | .submitJob _ => none
  | .cancelJob _ uuid => some uuid
  | .getJobStatus _ uuid => some uuid
  | .getJobResult _ uuid => some uuid

/-- The segments that the path should have, with the uuid or the resource name as one of them. -/
def segments : Operation → List Bytes
  | .getAllResources => [str "resources"]
  | .getResourceInfo resource => [str "resources", resource]
  | .getNumberPendingJobs resource => [str "resources", resource, str "num_pending_jobs"]
  | .submitJob kind => [kind.getPath]
  | .cancelJob kind uuid => [kind.getPath, uuid]
  | .getJobStatus kind uuid => [kind.getPath, uuid, str "status"]
  | .getJobResult kind uuid => [kind.getPath, uuid, str "result"]

end Operation

/-! ## The requests of a run -/

def BaseCall.method : BaseCall → Bytes
  | .get _ => str "GET"
  | .post _ _ => str "POST"
  | .del _ => str "DELETE"

def BaseCall.path : BaseCall → Bytes
  | .get path => path
  | .post path _ => path
  | .del path => path

/-- A request is that of an operation. -/
def BaseCall.IsFor (c : BaseCall) (a : Operation) : Prop := c.method = a.method ∧ c.path = a.path

/-- The operations of whose requests a run of a client operation may consist; waiting for a result asks for the status
before. -/
def ClientOp.operations : ClientOp → List Operation
  | .getAllResources => [.getAllResources]
  | .getResourceInfo resource => [.getResourceInfo resource]
  | .submitJob job => [.submitJob job.kind]
  | .cancelJob job => [.cancelJob job.kind job.getUuid]
  | .getJobStatus job => [.getJobStatus job.kind job.getUuid]
  | .getJobResult job false _ => [.getJobResult job.kind job.getUuid]
  | .getJobResult job true _ => [.getJobStatus job.kind job.getUuid, .getJobResult job.kind job.getUuid]
  | .getNumberPendingJobs resource => [.getNumberPendingJobs resource]

/-- The calls of a run. -/
def ClientOp.made (lib : JsonLib) (mIsHpc : Bool) (env : Env ClientAns) : ClientOp → List ClientCall
  | .getAllResources => ((MQSSClient.getAllResources lib).exec env []).2
  | .getResourceInfo resource => ((MQSSClient.getResourceInfo lib resource).exec env []).2
  | .submitJob job => ((MQSSClient.submitJob lib mIsHpc job).exec env []).2
  | .cancelJob job => ((MQSSClient.cancelJob job).exec env []).2
  | .getJobStatus job => ((MQSSClient.getJobStatus lib job).exec env []).2
  | .getJobResult job wait timeout => ((MQSSClient.getJobResult lib job wait timeout).exec env []).2
  | .getNumberPendingJobs resource => ((MQSSClient.getNumberPendingJobs lib resource).exec env []).2

theorem isFor_cancel (job : JobRequest) :
    (BaseCall.del (MQSSClient.cancelPath job)).IsFor (.cancelJob job.kind job.getUuid) :=
  ⟨rfl, by rw [Operation.path, job.getPath_kind]; rfl⟩

theorem isFor_status (job : JobRequest) :
    (BaseCall.get (MQSSClient.statusPath job)).IsFor (.getJobStatus job.kind job.getUuid) :=
  ⟨rfl, by rw [Operation.path, job.getPath_kind]; rfl⟩

theorem isFor_result (job : JobRequest) :
    (BaseCall.get (MQSSClient.resultPath job)).IsFor (.getJobResult job.kind job.getUuid) :=
  ⟨rfl, by rw [Operation.path, job.getPath_kind]; rfl⟩

theorem isFor_of_made {c c' : BaseCall} {a : Operation} (hc : .request c ∈ ([] ++ [ClientCall.request c']))
    (h : c'.IsFor a) : ∃ b ∈ [a], c.IsFor b := by
  cases List.mem_singleton.mp hc
  exact ⟨a, List.mem_cons_self, h⟩

theorem made_of_clientOp (lib : JsonLib) (mIsHpc : Bool) (env : Env ClientAns) (op : ClientOp) {c : BaseCall}
    (hc : .request c ∈ op.made lib mIsHpc env) : ∃ a ∈ op.operations, c.IsFor a := by
  cases op with
  | getAllResources => exact isFor_of_made hc ⟨rfl, rfl⟩
  | getResourceInfo resource => exact isFor_of_made hc ⟨rfl, rfl⟩
  | submitJob job => exact isFor_of_made hc ⟨rfl, job.getPath_kind.symm⟩
  | cancelJob job => exact isFor_of_made hc (isFor_cancel job)
  | getJobStatus job => exact isFor_of_made hc (isFor_status job)
  | getJobResult job wait timeout =>
    cases wait with
    | false => exact isFor_of_made hc (isFor_result job)
    | true =>
      rw [ClientOp.made, MQSSClient.exec_getJobResult_wait] at hc
      obtain ⟨made, heq, hmade⟩ := waitForJobResult_calls lib env job _ []
      rw [heq] at hc
      rcases hmade _ hc with h | h | ⟨n, h⟩
      · cases h
        exact ⟨_, List.mem_cons_self, isFor_status job⟩
      · cases h
        exact ⟨_, List.mem_cons_of_mem _ List.mem_cons_self, isFor_result job⟩
      · cases h
  | getNumberPendingJobs resource => exact isFor_of_made hc ⟨rfl, rfl⟩

theorem performed_of_request (curl : Libcurl) (lib : JsonLib) (client : MQSSRestClient) (env : Env CurlAns)
    {method path : Bytes} {data : Option Json} {m u : Bytes} {hs : List Bytes} {b : Option Bytes}
    (h : .easy_perform m u hs b ∈ ((client.request curl lib method path data).exec env []).2) :
    m = method ∧ u = c_str (client.mUrl ++ path) := by
  rw [MQSSRestClient.request, Prog.exec_call] at h
  split_ifs at h
  · cases List.mem_singleton.mp h
  · cases hp : MQSSRestClient.payload lib data with
    | none =>
      rw [hp] at h
      cases List.mem_singleton.mp h
    | some postfields =>
      rw [hp] at h
      rcases List.mem_cons.mp h with h | h
      · cases h
      · cases List.mem_singleton.mp h
        exact ⟨rfl, rfl⟩

theorem performed_of_run (curl : Libcurl) (lib : JsonLib) (client : MQSSRestClient) (env : Env CurlAns) (c : BaseCall)
    {m u : Bytes} {hs : List Bytes} {b : Option Bytes}
    (h : .easy_perform m u hs b ∈ ((client.run curl lib c).exec env []).2) :
    m = c.method ∧ u = c_str (client.mUrl ++ c.path) := by
  cases c with
  | get path =>
    rw [MQSSRestClient.run, MQSSRestClient.get, Prog.exec_map] at h
    exact performed_of_request curl lib client env h
  | post path data =>
    rw [MQSSRestClient.run, MQSSRestClient.post, Prog.exec_map] at h
    exact performed_of_request curl lib client env h
  | del path =>
    rw [MQSSRestClient.run, MQSSRestClient.del, Prog.exec_map] at h
    exact performed_of_request curl lib client env h

/-! ## Segments, queries and fragments -/

/-- A string is its only segment exactly when it has no slash. -/
theorem splitOn_eq_self_iff {s : Bytes} : s.splitOn slash = [s] ↔ slash ∉ s := by
  constructor
  · intro h hmem
    obtain ⟨a, b, rfl⟩ := List.append_of_mem hmem
    have hlen := congrArg List.length h
    rw [List.splitOn_append_cons_self, List.length_append, List.length_singleton] at hlen
    have ha := List.length_pos_iff.mpr (List.splitOn_ne_nil slash a)
    have hb := List.length_pos_iff.mpr (List.splitOn_ne_nil slash b)
    omega
  · exact List.splitOn_eq_singleton

/-- A segment between others stays one segment exactly when it has no slash. -/
theorem splitOn_segment_iff {first id : Bytes} (hf : slash ∉ first) :
    (first ++ slash :: id).splitOn slash = [first, id] ↔ slash ∉ id := by
  rw [List.splitOn_append_cons_self_of_not_mem hf, List.cons_inj_right, splitOn_eq_self_iff]

theorem splitOn_segments_iff {first id last : Bytes} (hf : slash ∉ first) (hl : slash ∉ last) :
    (first ++ slash :: (id ++ slash :: last)).splitOn slash = [first, id, last] ↔ slash ∉ id := by
  rw [List.splitOn_append_cons_self_of_not_mem hf, List.splitOn_append_cons_self, splitOn_eq_self_iff.mpr hl,
    List.cons_inj_right, ← splitOn_eq_self_iff]
  show id.splitOn slash ++ [last] = [id] ++ [last] ↔ _
  exact List.append_left_inj _

theorem JobKind.segment (kind : JobKind) : slash ∉ kind.getPath ∧ kind.getPath ≠ [] := by
  cases kind <;> decide

namespace Operation

/-- A path is a fixed segment, alone or followed by the uuid or name, alone or followed by another fixed segment. -/
inductive Shape : Option Bytes → Bytes → List Bytes → Prop
  | alone {first : Bytes} (hf : slash ∉ first ∧ first ≠ []) : Shape none first [first]
  | id {first id : Bytes} (hf : slash ∉ first ∧ first ≠ []) : Shape (some id) (first ++ slash :: id) [first, id]
  | between {first id last : Bytes} (hf : slash ∉ first ∧ first ≠ []) (hl : slash ∉ last ∧ last ≠ []) :
      Shape (some id) (first ++ slash :: (id ++ slash :: last)) [first, id, last]

theorem shape (a : Operation) : Shape a.id? a.path a.segments := by
  have hresources : slash ∉ str "resources" ∧ str "resources" ≠ [] := by decide
  cases a with
  | getAllResources => exact .alone hresources
  | getResourceInfo resource => exact .id hresources
  | getNumberPendingJobs resource => exact .between hresources (by decide)
  | submitJob kind => exact .alone kind.segment
  | cancelJob kind uuid =>
    rw [path, List.append_assoc]
    exact .id kind.segment
  | getJobStatus kind uuid =>
    rw [path, List.append_assoc, List.append_assoc]
    exact .between kind.segment (by decide)
  | getJobResult kind uuid =>
    rw [path, List.append_assoc, List.append_assoc]
    exact .between kind.segment (by decide)

/-- The path has exactly its segments, the uuid or name as a non-empty one of them, exactly when this has no slash and is
not empty. -/
theorem Shape.segments_iff {id? : Option Bytes} {path : Bytes} {segments : List Bytes} (h : Shape id? path segments) :
    (path.splitOn slash = segments ∧ [] ∉ segments) ↔ ∀ id ∈ id?, id ≠ [] ∧ slash ∉ id := by
  cases h with
  | alone hf => exact iff_of_true ⟨splitOn_eq_self_iff.mpr hf.1, by simpa using hf.2⟩ (by simp)
  | id hf =>
    rw [splitOn_segment_iff hf.1]
    simp [hf.2, eq_comm, and_comm]
  | between hf hl =>
    rw [splitOn_segments_iff hf.1 hl.1]
    simp [hf.2, hl.2, eq_comm, and_comm]

/-- A byte that is in no fixed segment is in the path exactly when it is in the uuid or name. -/
theorem mem_path_iff (a : Operation) {c : UInt8} (hc : c = 0 ∨ c = 35 ∨ c = 63) : c ∈ a.path ↔ ∃ id ∈ a.id?, c ∈ id := by
  have hfixed : c ∉ str "resources" ∧ c ∉ str "resources/" ∧ c ∉ str "/num_pending_jobs" ∧ c ∉ str "job" ∧
      c ∉ str "hamiltonian_job" ∧ c ∉ str "/" ∧ c ∉ str "/status" ∧ c ∉ str "/result" := by
    rcases hc with rfl | rfl | rfl <;> decide
  obtain ⟨h1, h2, h3, h4, h5, h6, h7, h8⟩ := hfixed
  have hkind : ∀ kind : JobKind, c ∉ kind.getPath := by
    intro kind
    cases kind
    · exact h4
    · exact h5
  cases a <;> simp [path, id?, h1, h2, h3, h6, h7, h8, hkind]

/-! ## Operations with the same request -/

/-- A lookup of a resource whose name ends in `/num_pending_jobs` asks for the number of pending jobs. -/
def Collide (a b : Operation) : Prop :=
  ∃ resource, a = .getResourceInfo (resource ++ str "/num_pending_jobs") ∧ b = .getNumberPendingJobs resource

/-- The first segment of the path, and what follows its slash. -/
def parts : Operation → Bytes × Option Bytes
  | .getAllResources => (str "resources", none)
  | .getResourceInfo resource => (str "resources", some resource)
  | .getNumberPendingJobs resource => (str "resources", some (resource ++ str "/num_pending_jobs"))
  | .submitJob kind => (kind.getPath, none)
  | .cancelJob kind uuid => (kind.getPath, some uuid)
  | .getJobStatus kind uuid => (kind.getPath, some (uuid ++ str "/status"))
  | .getJobResult kind uuid => (kind.getPath, some (uuid ++ str "/result"))

theorem path_eq (a : Operation) : a.path = a.parts.1 ++ (a.parts.2.elim [] fun rest => slash :: rest) := by
  cases a with
  | getAllResources => rfl
  | getResourceInfo resource => rfl
  | getNumberPendingJobs resource => rfl
  | submitJob kind => exact (List.append_nil _).symm
  | cancelJob kind uuid => exact List.append_assoc ..
  | getJobStatus kind uuid => rw [path, List.append_assoc, List.append_assoc]; rfl
  | getJobResult kind uuid => rw [path, List.append_assoc, List.append_assoc]; rfl

theorem slash_not_mem_parts (a : Operation) : slash ∉ a.parts.1 := by
  cases a with
  | submitJob kind => exact kind.segment.1
  | cancelJob kind uuid => exact kind.segment.1
  | getJobStatus kind uuid => exact kind.segment.1
  | getJobResult kind uuid => exact kind.segment.1
  | _ => exact show slash ∉ str "resources" by decide

theorem parts_eq_of_path_eq {a b : Operation} (h : a.path = b.path) : a.parts = b.parts := by
  rw [path_eq, path_eq] at h
  have hrest : ∀ c : Operation, (c.parts.2.elim [] fun rest => slash :: rest) = [] ∨
      ∃ t, (c.parts.2.elim [] fun rest => slash :: rest) = slash :: t := by
    intro c
    cases c.parts.2 with
    | none => exact Or.inl rfl
    | some rest => exact Or.inr ⟨rest, rfl⟩
  have hfirst : a.parts.1 = b.parts.1 := by
    rw [← takeWhile_ne_append a.slash_not_mem_parts (hrest a), h, takeWhile_ne_append b.slash_not_mem_parts (hrest b)]
  rw [hfirst, List.append_cancel_left_eq] at h
  refine Prod.ext hfirst ?_
  cases ha : a.parts.2 with
  | none =>
    cases hb : b.parts.2 with
    | none => rfl
    | some rest => simp [ha, hb] at h
  | some rest =>
    cases hb : b.parts.2 with
    | none => simp [ha, hb] at h
    | some rest' => simpa [ha, hb] using h

theorem getPath_inj {kind kind' : JobKind} : kind.getPath = kind'.getPath ↔ kind = kind' := by
  cases kind <;> cases kind' <;> simp [JobKind.getPath] <;> decide

/-- Two operations make the same request only if they are the same, or a name makes a lookup ask for the pending jobs. -/
theorem same_request {a b : Operation} (hmethod : a.method = b.method) (hpath : a.path = b.path) :
    a = b ∨ Collide a b ∨ Collide b a := by
  have hparts := parts_eq_of_path_eq hpath
  have hmethods : str "GET" ≠ str "POST" ∧ str "GET" ≠ str "DELETE" ∧ str "POST" ≠ str "DELETE" := by decide
  have hkind : ∀ kind : JobKind, str "resources" ≠ kind.getPath := by
    intro kind
    cases kind <;> decide
  have hsuffix : ∀ u v : Bytes, u ++ str "/status" ≠ v ++ str "/result" := by
    intro u v h
    have hlen : (str "/status").length = (str "/result").length := by decide
    have hne : str "/status" ≠ str "/result" := by decide
    exact hne (List.append_inj' h hlen).2
  obtain ⟨h1, h2, h3⟩ := hmethods
  cases a <;> cases b <;>
    simp only [method, parts, Prod.mk.injEq, Option.some.injEq, reduceCtorEq, h1, h2, h3, h1.symm, h2.symm, h3.symm, hkind,
      (hkind _).symm, hsuffix, (hsuffix _ _).symm, getPath_inj, List.append_cancel_right_eq, and_false, false_and,
      true_and, and_true] at hmethod hparts
  case getResourceInfo.getNumberPendingJobs => exact Or.inr (Or.inl ⟨_, by rw [hparts], rfl⟩)
  case getNumberPendingJobs.getResourceInfo => exact Or.inr (Or.inr ⟨_, by rw [hparts], rfl⟩)
  case getAllResources.getAllResources => exact Or.inl rfl
  case getResourceInfo.getResourceInfo => exact Or.inl (by rw [hparts])
  case getNumberPendingJobs.getNumberPendingJobs => exact Or.inl (by rw [hparts])
  case submitJob.submitJob => exact Or.inl (by rw [hparts])
  case cancelJob.cancelJob => exact Or.inl (by rw [hparts.1, hparts.2])
  case getJobStatus.getJobStatus => exact Or.inl (by rw [hparts.1, hparts.2])
  case getJobResult.getJobResult => exact Or.inl (by rw [hparts.1, hparts.2])

theorem Collide.same_request {a b : Operation} (h : Collide a b) : a.method = b.method ∧ a.path = b.path := by
  obtain ⟨resource, rfl, rfl⟩ := h
  exact ⟨rfl, by rw [path, path, List.append_assoc]⟩

theorem same_request_iff {a b : Operation} :
    (a.method = b.method ∧ a.path = b.path) ↔ a = b ∨ Collide a b ∨ Collide b a := by
  constructor
  · rintro ⟨hmethod, hpath⟩
    exact same_request hmethod hpath
  · rintro (rfl | h | h)
    · exact ⟨rfl, rfl⟩
    · exact h.same_request
    · exact ⟨h.same_request.1.symm, h.same_request.2.symm⟩

/-- A deletion of all jobs of a kind is the cancellation of a job without a uuid. -/
theorem delete_collection_iff (a : Operation) :
    (a.method = str "DELETE" ∧ ∃ kind : JobKind, a.path = kind.getPath ++ str "/") ↔ ∃ kind, a = .cancelJob kind [] := by
  constructor
  · rintro ⟨hmethod, kind, hpath⟩
    have h : a = .cancelJob kind [] ∨ Collide a (.cancelJob kind []) ∨ Collide (.cancelJob kind []) a :=
      same_request hmethod (by rw [hpath, path, List.append_nil])
    rcases h with h | ⟨_, -, h⟩ | ⟨_, h, -⟩
    · exact ⟨kind, h⟩
    · cases h
    · cases h
  · rintro ⟨kind, rfl⟩
    exact ⟨rfl, kind, List.append_nil _⟩

/-! ## Which requests are what they should be -/

/-- What the URL of an operation's request is, by its uuid or name. -/
structure Addressed (base : Bytes) (a : Operation) : Prop where
  segments : (a.path.splitOn slash = a.segments ∧ [] ∉ a.segments) ↔ ∀ id ∈ a.id?, id ≠ [] ∧ slash ∉ id
  noQuery : (63 ∉ base ++ a.path ∧ 35 ∉ base ++ a.path) ↔ ∀ id ∈ a.id?, 63 ∉ id ∧ 35 ∉ id
  whole : c_str (base ++ a.path) = base ++ a.path ↔ ∀ id ∈ a.id?, 0 ∉ id
  collection : (a.method = str "DELETE" ∧ ∃ kind : JobKind, a.path = kind.getPath ++ str "/") ↔
    ∃ kind, a = .cancelJob kind []

theorem not_mem_url_iff {base : Bytes} (a : Operation) {c : UInt8} (hb : c ∉ base) (hc : c = 0 ∨ c = 35 ∨ c = 63) :
    c ∉ base ++ a.path ↔ ∀ id ∈ a.id?, c ∉ id := by
  rw [List.mem_append, or_iff_right hb, a.mem_path_iff hc]
  simp only [not_exists, not_and]

/-- The base URL has no zero byte, no `?` and no `#`. -/
theorem not_mem_of_normalizeUrl {curl : Libcurl} {url base : Bytes} (h : MQSSRestClient.normalizeUrl curl url = .ok base)
    {c : UInt8} (hc : c = 0 ∨ c = 35 ∨ c = 63) : c ∉ base := by
  obtain ⟨hrefused, parsed, -, -, hbase⟩ := MQSSRestClient.normalizeUrl_eq_ok h
  refine MQSSRestClient.rejected_not_mem_base hrefused ?_ ?_
  · split_ifs at hbase
    · exact Or.inl hbase
    · exact Or.inr hbase
  · rcases hc with rfl | rfl | rfl
    · exact Or.inl (by decide)
    · exact Or.inr (Or.inr (Or.inr rfl))
    · exact Or.inr (Or.inr (Or.inl rfl))

theorem addressed {curl : Libcurl} {url base : Bytes} (h : MQSSRestClient.normalizeUrl curl url = .ok base)
    (a : Operation) : a.Addressed base where
  segments := a.shape.segments_iff
  noQuery := by
    rw [a.not_mem_url_iff (not_mem_of_normalizeUrl h (by simp)) (by simp),
      a.not_mem_url_iff (not_mem_of_normalizeUrl h (by simp)) (by simp)]
    simp only [forall_and]
  whole := by
    rw [c_str_eq_self_iff, a.not_mem_url_iff (not_mem_of_normalizeUrl h (by simp)) (by simp)]
  collection := a.delete_collection_iff

end Operation

/-- Every request of a run is that of one of its operations, and its URL is the base URL with the path after it; two
operations make the same request only by a name that ends in `/num_pending_jobs`; and the URL is what it should be exactly
for the uuids and names that are not empty and have no slash, `?`, `#` or zero byte. -/
theorem requests_addressed {curl : Libcurl} {url base : Bytes}
    (h : MQSSRestClient.normalizeUrl curl url = .ok base) :
    (∀ (lib : JsonLib) (mIsHpc : Bool) (env : Env ClientAns) (op : ClientOp) (c : BaseCall),
      .request c ∈ op.made lib mIsHpc env → ∃ a ∈ op.operations, c.IsFor a) ∧
    (∀ (lib : JsonLib) (client : MQSSRestClient) (env : Env CurlAns) (c : BaseCall) (m u : Bytes) (hs : List Bytes)
      (b : Option Bytes), client.mUrl = base → .easy_perform m u hs b ∈ ((client.run curl lib c).exec env []).2 →
      m = c.method ∧ u = c_str (base ++ c.path)) ∧
    (∀ a b : Operation, (a.method = b.method ∧ a.path = b.path) ↔ a = b ∨ a.Collide b ∨ b.Collide a) ∧
    ∀ a : Operation, a.Addressed base := by
  refine ⟨?_, ?_, fun a b => Operation.same_request_iff, Operation.addressed h⟩
  · intro lib mIsHpc env op c hc
    exact made_of_clientOp lib mIsHpc env op hc
  · intro lib client env c m u hs b hurl hc
    rw [← hurl]
    exact performed_of_run curl lib client env c hc

theorem requests_addressed_plainCurl :
    (Operation.getJobStatus .circuit (str "7")).Addressed (str "https://host.example:8080/x/") :=
  (requests_addressed (show MQSSRestClient.normalizeUrl plainCurl (str "https://host.example:8080/x") =
    .ok (str "https://host.example:8080/x/") by decide)).2.2.2 _

/-- A job as its constructor makes it. -/
def freshJob : JobRequest := ⟨[], .circuit ⟨str "H 0", str "qasm", str "A", 100, false, false⟩⟩

/-- The cancellation of a job that no submission gave a uuid deletes the collection of all jobs, and the lookup of a name
with a slash asks for the pending jobs of another resource. -/
theorem not_addressed :
    (∀ (lib : JsonLib) (env : Env ClientAns),
      (ClientOp.cancelJob freshJob).made lib false env = [.request (.del (str "job/"))]) ∧
    (Operation.getResourceInfo (str "A/num_pending_jobs")).method = (Operation.getNumberPendingJobs (str "A")).method ∧
    (Operation.getResourceInfo (str "A/num_pending_jobs")).path = (Operation.getNumberPendingJobs (str "A")).path :=
  ⟨fun _ _ => rfl, rfl, by decide⟩

end MqssClient
