import MqssClient.Transport
import MqssClient.Utf8

/-!
# Submitted jobs on the wire

* `JobRequest.recovered`: the job that a receiver reads from a job object;
* `wrapCircuit`: what the HPC service gets differently;
* `Transport.handed`: the bodies that a call hands to the library of its transport, behind its view of strings;
* `Transport.document`: what the body of a submission says;
* `submission_survives`: it says so, and every field of the job is recovered from it.
-/

namespace MqssClient

open Foundations

/-! ## Job objects -/

theorem CircuitJobRequest.toJson_eq (r : CircuitJobRequest) (isHpc : Bool) : r.toJson isHpc = .object [
    (str "circuit", if isHpc then .array [.string r.mCircuit] else .string r.mCircuit),
    (str "circuit_format", .string r.mCircuitFormat),
    (str "no_modify", .boolean r.mNoModify),
    (str "queued", .boolean r.mQueued),
    (str "resource_name", .string r.mResourceName),
    (str "shots", .numberUnsigned r.mShots.toUInt64)] := rfl

theorem HamiltonianJobRequest.toJson_eq (r : HamiltonianJobRequest) (isHpc : Bool) : r.toJson isHpc = .object [
    (str "coefficients_str", .string r.mCoefficientsStr),
    (str "interaction_str", .string r.mInteractionStr),
    (str "resource_name", .string r.mResourceName)] := rfl

namespace JobRequest

/-- Every string of the job is UTF-8. -/
def IsUtf8 (job : JobRequest) : Prop :=
  match job.derived with
  | .circuit r => MqssClient.IsUtf8 r.mCircuit ∧ MqssClient.IsUtf8 r.mCircuitFormat ∧ MqssClient.IsUtf8 r.mResourceName
  | .hamiltonian r =>
    MqssClient.IsUtf8 r.mResourceName ∧ MqssClient.IsUtf8 r.mInteractionStr ∧ MqssClient.IsUtf8 r.mCoefficientsStr

/-- The string at a key. -/
def stringMember (j : Json) (key : String) : Option Bytes := (j.find (str key)).bind Json.string?

/-- The boolean at a key. -/
def booleanMember (j : Json) (key : String) : Option Bool :=
  match j.find (str key) with
  | some (.boolean b) => some b
  | _ => none

/-- The circuit, in the array that the HPC service expects or by itself. -/
def circuitMember (isHpc : Bool) (j : Json) : Option Bytes :=
  match isHpc, j.find (str "circuit") with
  | true, some (.array [.string circuit]) => some circuit
  | false, some (.string circuit) => some circuit
  | _, _ => none

def shotsMember (j : Json) : Option UInt32 :=
  match j.find (str "shots") with
  | some (.numberUnsigned n) => some n.toUInt32
  | _ => none

/-- The job that a receiver reads from a job object: a circuit if there is one, and else a Hamiltonian. -/
def recovered (isHpc : Bool) (j : Json) : Option Derived :=
  if j.contains (str "circuit") then do
    let mCircuit ← circuitMember isHpc j
    let mCircuitFormat ← stringMember j "circuit_format"
    let mResourceName ← stringMember j "resource_name"
    let mShots ← shotsMember j
    let mNoModify ← booleanMember j "no_modify"
    let mQueued ← booleanMember j "queued"
    return .circuit { mCircuit, mCircuitFormat, mResourceName, mShots, mNoModify, mQueued }
  else do
    let mResourceName ← stringMember j "resource_name"
    let mInteractionStr ← stringMember j "interaction_str"
    let mCoefficientsStr ← stringMember j "coefficients_str"
    return .hamiltonian { mResourceName, mInteractionStr, mCoefficientsStr }

/-- Every field of a job is recovered from its object. -/
theorem recovered_toJson (job : JobRequest) (isHpc : Bool) : recovered isHpc (job.toJson isHpc) = some job.derived := by
  obtain ⟨mUuid, derived⟩ := job
  cases derived with
  | circuit r =>
    have hshots : r.mShots.toUInt64.toUInt32 = r.mShots := UInt32.toUInt32_toUInt64 _
    cases isHpc <;>
    · show recovered _ (r.toJson _) = _
      rw [r.toJson_eq]
      show some (Derived.circuit { r with mShots := r.mShots.toUInt64.toUInt32 }) = _
      rw [hshots]
  | hamiltonian r => rfl

/-- The object with the circuit, if there is one, in an array. -/
def wrapCircuit : Json → Json
  | .object members => .object (members.map fun e => (e.1, if e.1 = str "circuit" then .array [e.2] else e.2))
  | j => j

/-- The objects for the two services differ in the array around the circuit only. -/
theorem toJson_hpc (job : JobRequest) : job.toJson true = wrapCircuit (job.toJson false) := by
  obtain ⟨mUuid, derived⟩ := job
  cases derived with
  | circuit r => rfl
  | hamiltonian r => rfl

theorem isUtf8_toJson {job : JobRequest} (h : job.IsUtf8) (isHpc : Bool) : (job.toJson isHpc).IsUtf8 := by
  obtain ⟨mUuid, derived⟩ := job
  cases derived with
  | circuit r =>
    obtain ⟨hc, hf, hr⟩ := h
    have hcircuit : Json.IsUtf8 (if isHpc then .array [.string r.mCircuit] else .string r.mCircuit) := by
      cases isHpc with
      | false => exact hc
      | true => exact ⟨hc, trivial⟩
    show (r.toJson isHpc).IsUtf8
    rw [r.toJson_eq]
    exact ⟨isUtf8_of_ascii (by decide), hcircuit, isUtf8_of_ascii (by decide), hf, isUtf8_of_ascii (by decide), trivial,
      isUtf8_of_ascii (by decide), trivial, isUtf8_of_ascii (by decide), hr, isUtf8_of_ascii (by decide), trivial, trivial⟩
  | hamiltonian r =>
    obtain ⟨hr, hi, hc⟩ := h
    show (r.toJson isHpc).IsUtf8
    rw [r.toJson_eq]
    exact ⟨isUtf8_of_ascii (by decide), hc, isUtf8_of_ascii (by decide), hi, isUtf8_of_ascii (by decide), hr, trivial⟩

theorem reparsed_toJson (job : JobRequest) (isHpc : Bool) : (job.toJson isHpc).reparsed = job.toJson isHpc := by
  obtain ⟨mUuid, derived⟩ := job
  cases derived with
  | circuit r => cases isHpc <;> rfl
  | hamiltonian r => rfl

end JobRequest

/-! ## The body of a submission -/

/-- The body that libcurl is handed; its size is passed with it. -/
def CurlCall.body? : CurlCall → Option Bytes
  | .easy_init => none
  | .easy_perform _ _ _ postfields => postfields

/-- The body that rabbitmq-c sees behind the C string it is handed. -/
def AmqpCall.body? : AmqpCall → Option Bytes
  | .basic_publish _ body => some body
  | .consume_message _ => none

namespace MQSSHPCClient

variable (client : MQSSHPCClient)

theorem envelope_post_eq (path : Bytes) (data : Json) : client.envelope (.post path data) = .object [
    (str "authorization", .string []),
    (str "data", data),
    (str "method", .string (str "POST")),
    (str "request", .string path),
    (str "response_queue", .string client.mResponseQueueName)] := rfl

/-- A client made on a host whose name is UTF-8; the text of a uuid is ASCII. -/
def Constructed (client : MQSSHPCClient) : Prop :=
  ∃ connectError hostName uuid queue, IsUtf8 hostName ∧ (∀ c ∈ uuid, c < 128) ∧
    MQSSHPCClient.new connectError hostName uuid queue = .ok client

variable {client}

theorem isUtf8_responseQueueName (h : client.Constructed) : IsUtf8 client.mResponseQueueName := by
  obtain ⟨connectError, hostName, uuid, queue, hhost, huuid, hnew⟩ := h
  cases connectError with
  | true => cases hnew
  | false =>
    cases hnew
    refine isUtf8_append (isUtf8_append (isUtf8_append (isUtf8_of_ascii (by decide)) hhost) (isUtf8_of_ascii (by decide))) ?_
    refine isUtf8_of_ascii fun c hc => huuid c ?_
    rw [substr_some, List.drop_zero] at hc
    exact List.mem_of_mem_take hc

theorem isUtf8_envelope_post (h : client.Constructed) {job : JobRequest} (hjob : job.IsUtf8) :
    (client.envelope (.post job.getPath (job.toJson true))).IsUtf8 := by
  have hpath : IsUtf8 job.getPath := by
    obtain ⟨mUuid, derived⟩ := job
    cases derived with
    | circuit r => exact isUtf8_of_ascii (show ∀ c ∈ str "job", c < 128 by decide)
    | hamiltonian r => exact isUtf8_of_ascii (show ∀ c ∈ str "hamiltonian_job", c < 128 by decide)
  rw [envelope_post_eq]
  exact ⟨isUtf8_of_ascii (by decide), isUtf8_of_ascii (by decide), isUtf8_of_ascii (by decide),
    JobRequest.isUtf8_toJson hjob true, isUtf8_of_ascii (by decide), isUtf8_of_ascii (by decide),
    isUtf8_of_ascii (by decide), hpath, isUtf8_of_ascii (by decide), isUtf8_responseQueueName h, trivial⟩

theorem reparsed_envelope_post (job : JobRequest) :
    (client.envelope (.post job.getPath (job.toJson true))).reparsed =
      client.envelope (.post job.getPath (job.toJson true)) := by
  rw [envelope_post_eq]
  show Json.object [_, (_, (job.toJson true).reparsed), _, _, _] = _
  rw [JobRequest.reparsed_toJson]
  rfl

end MQSSHPCClient

namespace Transport

variable (curl : Libcurl) (lib : JsonLib) (amqp_error_string2 : Int → Bytes) (t : Transport) (o : Outcome)

/-- The bodies that a call hands to the library of the transport. -/
def handed (c : BaseCall) : List Bytes :=
  match t with
  | .rest client => ((client.run curl lib c).exec o.curl.env []).2.filterMap CurlCall.body?
  | .hpc client => ((client.run lib amqp_error_string2 c).exec o.amqp.env []).2.filterMap AmqpCall.body?

/-- What the body of a submission says. -/
def document (job : JobRequest) : Json :=
  match t with
  | .rest _ => job.toJson false
  | .hpc client => client.envelope (.post job.getPath (job.toJson true))

/-- An HPC client was made on a host whose name is UTF-8. -/
def Constructed : Prop :=
  match t with
  | .rest _ => True
  | .hpc client => client.Constructed

/-- The library of the transport can start a request. -/
def Starts : Prop :=
  match t with
  | .rest _ => o.curl.handle
  | .hpc _ => True

variable {t} in
theorem isUtf8_document (h : t.Constructed) {job : JobRequest} (hjob : job.IsUtf8) : (t.document job).IsUtf8 := by
  cases t with
  | rest client => exact JobRequest.isUtf8_toJson hjob false
  | hpc client => exact MQSSHPCClient.isUtf8_envelope_post h hjob

theorem reparsed_document (job : JobRequest) : (t.document job).reparsed = t.document job := by
  cases t with
  | rest client => exact JobRequest.reparsed_toJson job false
  | hpc client => exact MQSSHPCClient.reparsed_envelope_post job

/-- The one body that a submission hands over is the serialised document: it has no NUL at which a C string would end. -/
theorem handed_post (h : t.Starts o) {job : JobRequest} {text : Bytes} (htext : lib.dump (t.document job) = some text) :
    t.handed curl lib amqp_error_string2 o (.post job.getPath (job.toJson t.isHpc)) = [text] := by
  cases t with
  | rest client =>
    have hhandle : o.curl.env [] .easy_init = true := h
    change lib.dump (job.toJson false) = some text at htext
    show ((client.post curl lib job.getPath (job.toJson false)).exec o.curl.env []).2.filterMap _ = _
    rw [MQSSRestClient.post, MQSSRestClient.request, Prog.exec_map, Prog.exec_call, hhandle, MQSSRestClient.payload, htext]
    rfl
  | hpc client =>
    have hbody : c_str text = text := c_str_eq_self fun c hc h0 =>
      absurd (h0 ▸ lib.dump_printable htext c hc) (by decide)
    change lib.dump (client.envelope (.post job.getPath (job.toJson true))) = some text at htext
    show ((client.run lib amqp_error_string2 (.post job.getPath (job.toJson true))).exec o.amqp.env []).2.filterMap _ = _
    rw [MQSSHPCClient.run_eq, htext]
    dsimp only
    rw [Prog.exec_call, hbody]
    rfl

end Transport

/-! ## Submissions survive -/

/-- What a receiver reads from a document: the job object of a REST request; or an envelope with the method, the path, the
response queue of the client and the job object. -/
def Transport.Says (t : Transport) (document : Json) (job : JobRequest) : Prop :=
  match t with
  | .rest _ => document = job.toJson false ∧ JobRequest.recovered false document = some job.derived
  | .hpc client =>
    document.find (str "method") = some (.string (str "POST")) ∧
    document.find (str "request") = some (.string job.getPath) ∧
    document.find (str "response_queue") = some (.string client.mResponseQueueName) ∧
    document.find (str "data") = some (job.toJson true) ∧ JobRequest.recovered true (job.toJson true) = some job.derived

theorem Transport.says_document (t : Transport) (job : JobRequest) : t.Says (t.document job) job := by
  cases t with
  | rest client => exact ⟨rfl, job.recovered_toJson false⟩
  | hpc client => exact ⟨rfl, rfl, rfl, rfl, job.recovered_toJson true⟩

/-- On either transport, the submission of a job whose strings are UTF-8 hands over one body; it parses to a document from
which every field of the job is recovered. The job objects of the two transports differ in the array around a circuit. -/
theorem submission_survives (curl : Libcurl) (lib : JsonLib) (amqp_error_string2 : Int → Bytes) (t : Transport)
    (o : Outcome) (job : JobRequest) (env : Env ClientAns) (tr : List ClientCall) (hjob : job.IsUtf8)
    (hclient : t.Constructed) (hstarts : t.Starts o) (hdumps : lib.Dumps (t.document job)) :
    (∃ text document,
      ((MQSSClient.submitJob lib t.isHpc job).exec env tr).2 =
        tr ++ [.request (.post job.getPath (job.toJson t.isHpc))] ∧
      t.handed curl lib amqp_error_string2 o (.post job.getPath (job.toJson t.isHpc)) = [text] ∧
      lib.parse text = some document ∧ t.Says document job) ∧
    job.toJson true = JobRequest.wrapCircuit (job.toJson false) := by
  obtain ⟨text, htext⟩ := Option.isSome_iff_exists.mp (hdumps (t.isUtf8_document hclient hjob))
  refine ⟨⟨text, t.document job, rfl, ?_, ?_, t.says_document job⟩, job.toJson_hpc⟩
  · exact t.handed_post curl lib amqp_error_string2 o hstarts htext
  · rw [lib.parse_dump htext, t.reparsed_document]

/-- A circuit job that has not been submitted. -/
def unsubmittedJob : JobRequest := ⟨[], .circuit ⟨str "H 0", str "qasm", str "A", 100, false, true⟩⟩

def hpcClient : MQSSHPCClient := ⟨str "listener", str "response_queue_h_01234567"⟩

/-- The serialised envelope of its submission. -/
def submissionText : Bytes :=
  str "\x7b\"authorization\":\"\",\"data\":\x7b\"circuit\":[\"H 0\"],\"circuit_format\":\"qasm\",\"no_modify\":false," ++
    str "\"queued\":true,\"resource_name\":\"A\",\"shots\":100\x7d,\"method\":\"POST\",\"request\":\"job\"," ++
    str "\"response_queue\":\"response_queue_h_01234567\"\x7d"

set_option maxRecDepth 4000 in
def submissionLib : JsonLib :=
  .ofTable [(submissionText, (Transport.hpc hpcClient).document unsubmittedJob)] (by decide)

/-- Both libraries answer, with an empty body. -/
def emptyOutcome : Outcome := ⟨⟨true, ⟨0, 200, []⟩⟩, ⟨0, .ok []⟩⟩

set_option maxRecDepth 4000 in
theorem submission_survives_sample :
    ∃ text document, (Transport.hpc hpcClient).handed plainCurl submissionLib (fun _ => []) emptyOutcome
        (.post (str "job") (unsubmittedJob.toJson true)) = [text] ∧
      submissionLib.parse text = some document ∧ (Transport.hpc hpcClient).Says document unsubmittedJob := by
  have hjob : unsubmittedJob.IsUtf8 :=
    ⟨isUtf8_of_ascii (by decide), isUtf8_of_ascii (by decide), isUtf8_of_ascii (by decide)⟩
  have hclient : hpcClient.Constructed :=
    ⟨false, str "h", str "01234567-89ab", str "listener", isUtf8_of_ascii (by decide), by decide, rfl⟩
  obtain ⟨⟨text, document, -, hsurvives⟩, -⟩ := submission_survives plainCurl submissionLib (fun _ => []) (.hpc hpcClient)
    emptyOutcome unsubmittedJob
    ((Transport.hpc hpcClient).history plainCurl submissionLib (fun _ => []) fun _ => emptyOutcome).env []
    hjob hclient trivial fun _ => by decide
  exact ⟨text, document, hsurvives⟩

end MqssClient
