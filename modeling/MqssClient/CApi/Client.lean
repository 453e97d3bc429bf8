import MqssClient.CApi.Timestamp
import MqssClient.Transport

/-!
# The C API of the client

* `MQSSClient`, `MQSSClient.new`: the client object and its constructor;
* `MQSSClientCreateClient` and the other entry points: a handle is an `Option`, null where it is `none`, and so is a
  string or an output pointer.
-/

namespace MqssClient

open Foundations

structure MQSSClient where
  mIsHpc : Bool
  mClient : Transport

/-- What the constructors learn from the machine: the outcome of a first REST request, whether the connection to
RabbitMQ fails, the name of the host and a random uuid. -/
structure Machine where
  first : Outcome
  connectError : Bool
  hostName : Bytes
  uuid : Bytes

def MQSSClient.new (curl : Libcurl) (lib : JsonLib) (machine : Machine) (token urlOrQueue : Bytes) (isHpc : Bool) :
    Except Exn MQSSClient :=
  if isHpc then
    (MQSSHPCClient.new machine.connectError machine.hostName machine.uuid urlOrQueue).map fun c => ⟨true, .hpc c⟩
  else
    ((MQSSRestClient.new curl lib token urlOrQueue).exec machine.first.curl.env []).1.map fun c => ⟨false, .rest c⟩

def MQSSClientCreateClient (curl : Libcurl) (lib : JsonLib) (machine : Machine) (token urlOrQueue : Option Bytes)
    (isHpc : Bool) : Except Exn (Option MQSSClient) :=
  match token, urlOrQueue with
  | some token, some urlOrQueue =>
    catchAll ((MQSSClient.new curl lib machine token urlOrQueue isHpc).map some) none
  | _, _ => .ok none

section

variable (lib : JsonLib)

/-- The array of resources, and what `size` then holds. -/
def MQSSClientGetAllResources (client : Option MQSSClient) (size : Option Int) :
    ClientProg (Option (List Resource) × Option Int) :=
  match client, size with
  | some _, some _ => (MQSSClient.getAllResources lib).map fun resources_ =>
      resources_.map fun resources => (some resources, some (toInt resources.length))
  | _, _ => .pure (.ok (none, size))

def MQSSClientGetResourceInfo (client : Option MQSSClient) (resourceName : Option Bytes) :
    ClientProg (Option Resource) :=
  match client, resourceName with
  | some _, some resourceName => MQSSClient.getResourceInfo lib resourceName
  | _, _ => .pure (.ok none)

/-- The number a submission returns for the uuid, if any. -/
def jobNumber (uuid : Option Bytes) : Int :=
  match uuid with
  | none => -1
  | some uuid =>
    match stoi uuid with
    | .ok v => v
    | .error _ => -2

/-- The return code, and the job afterwards. -/
def MQSSClientSubmitJob (client : Option MQSSClient) (job : Option JobRequest) :
    Prog ClientAns (Except Exn Int × Option JobRequest) :=
  match client, job with
  | some client, some job =>
    (MQSSClient.submitJob lib client.mIsHpc job).map fun r => (r.1.map jobNumber, some r.2)
  | _, _ => .pure (.ok (-1), job)

def MQSSClientCancelJob (client : Option MQSSClient) (job : Option JobRequest) : ClientProg Unit :=
  match client, job with
  | some _, some job => (MQSSClient.cancelJob job).map fun r => catchAll r ()
  | _, _ => .pure (.ok ())

/-- The timeout, an `unsigned int`, is passed on as a `size_t`. -/
def MQSSClientGetJobResult (client : Option MQSSClient) (job : Option JobRequest) (wait : Bool) (timeout : UInt32) :
    ClientProg (Option JobResult) :=
  match client, job with
  | some _, some job => MQSSClient.getJobResult lib job wait timeout.toUInt64
  | _, _ => .pure (.ok none)

def MQSSClientGetNumberPendingJobs (client : Option MQSSClient) (resourceName : Option Bytes) : ClientProg Int :=
  match client, resourceName with
  | some _, some resourceName => MQSSClient.getNumberPendingJobs lib resourceName
  | _, _ => .pure (.ok (-1))

end

end MqssClient
