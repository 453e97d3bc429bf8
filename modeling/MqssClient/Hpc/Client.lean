import MqssClient.Client

/-!
# The HPC client

`MQSSHPCClient` publishes a request to the queue of a listener for each call of the interface, and takes the reply
from a response queue of its own.

* `AmqpCall`: the calls of rabbitmq-c; `send`, `receive`: the methods of `MQSSRabbitMQClient`;
* `get`, `post`, `del`, and `new`, the constructor;
* `run_eq`: each is one publish of an envelope and, unless it gives up, one consume;
* `AmqpOutcome`: what rabbitmq-c answers during one request; `exec_run`: what a call makes of it.
-/

namespace MqssClient

open Foundations

/-- The calls of rabbitmq-c that matter to a request. Each queue is declared once, before. -/
inductive AmqpCall where
  | basic_publish (queue body : Bytes)
  | consume_message (queue : Bytes)
deriving DecidableEq

/-- A publish answers a status; a consume the body of a message or a library error. -/
abbrev AmqpAns : AmqpCall → Type
  | .basic_publish _ _ => Int
  | .consume_message _ => Except Int Bytes

abbrev AmqpProg (α : Type) := Prog AmqpAns (Except Exn α)

namespace MQSSRabbitMQClient

def send (queue data : Bytes) : Prog AmqpAns Int :=
  .perform (AmqpCall.basic_publish (c_str queue) (c_str data))

/-- A reply that is not normal becomes the text of its library error. -/
def replyText (amqp_error_string2 : Int → Bytes) (reply : Except Int Bytes) : Bytes :=
  match reply with
  | .ok body => body
  | .error library_error => amqp_error_string2 library_error

def receive (amqp_error_string2 : Int → Bytes) (queue : Bytes) : Prog AmqpAns Bytes :=
  .call (AmqpCall.consume_message (c_str queue)) fun reply => .pure (replyText amqp_error_string2 reply)

end MQSSRabbitMQClient

structure MQSSHPCClient where
  mOffloadListenerQueueName : Bytes
  mResponseQueueName : Bytes

namespace MQSSHPCClient

open MQSSRabbitMQClient

variable (lib : JsonLib) (amqp_error_string2 : Int → Bytes) (client : MQSSHPCClient)

/-- The object that each method builds around its request. -/
def request_json (method path : Bytes) (data : Json) : Json := .ofPairs [
  (str "authorization", .string []),
  (str "method", .string method),
  (str "request", .string path),
  (str "data", data),
  (str "response_queue", .string client.mResponseQueueName)]

def get (path : Bytes) : AmqpProg Bytes :=
  match lib.dump (client.request_json (str "GET") path (.string [])) with
  | none => .pure (.error (.json_type_error 316))
  | some request =>
    -- the status of the publish is not looked at
    (send client.mOffloadListenerQueueName request).bind fun _err =>
      (receive amqp_error_string2 client.mResponseQueueName).map .ok

def post (path : Bytes) (data : Json) : AmqpProg Bytes :=
  match lib.dump (client.request_json (str "POST") path data) with
  | none => .pure (.error (.json_type_error 316))
  | some request =>
    (send client.mOffloadListenerQueueName request).bind fun _ =>
      (receive amqp_error_string2 client.mResponseQueueName).map .ok

def del (path : Bytes) : AmqpProg Unit :=
  match lib.dump (client.request_json (str "DELETE") path (.string [])) with
  | none => .pure (.error (.json_type_error 316))
  | some request =>
    (send client.mOffloadListenerQueueName request).bind fun status =>
      if status ≠ 0 then .pure (.error (.runtime_error (str "Failed to send HPC cancellation request")))
      else (receive amqp_error_string2 client.mResponseQueueName).map fun _ => .ok ()

/-- The constructor, on a host of a given name and with a random uuid. The token is not used. -/
def new (connectError : Bool) (hostName uuid offloadListenerQueueName : Bytes) : Except Exn MQSSHPCClient :=
  let client : MQSSHPCClient := {
    mOffloadListenerQueueName :=
      if offloadListenerQueueName.isEmpty then str "qoffload_api_request_reception_queue_" ++ hostName
      else offloadListenerQueueName
    mResponseQueueName := str "response_queue_" ++ hostName ++ str "_" ++ substr uuid 0 (some 8) }
  if connectError then .error (.runtime_error (str "Error: Failed to connect RabbiitMQ")) else .ok client

/-- The method of the client for a call of the interface. -/
def run : (c : BaseCall) → Prog AmqpAns (BaseAns c)
  | .get path => get lib amqp_error_string2 client path
  | .post path data => post lib amqp_error_string2 client path data
  | .del path => del lib amqp_error_string2 client path

/-! ## The common form of the methods -/

/-- The object a call builds. -/
def envelope : BaseCall → Json
  | .get path => client.request_json (str "GET") path (.string [])
  | .post path data => client.request_json (str "POST") path data
  | .del path => client.request_json (str "DELETE") path (.string [])

/-- Whether a call goes on to the response queue after a publish with this status. -/
def awaits (c : BaseCall) (status : Int) : Bool :=
  match c with
  | .del _ => status = 0
  | _ => true

/-- What a call makes of the reply. -/
def finish : (c : BaseCall) → Except Int Bytes → BaseAns c
  | .get _, reply => .ok (replyText amqp_error_string2 reply)
  | .post _ _, reply => .ok (replyText amqp_error_string2 reply)
  | .del _, _ => .ok ()

def throws (e : Exn) : (c : BaseCall) → BaseAns c
  | .get _ => .error e
  | .post _ _ => .error e
  | .del _ => .error e

def notSent : Exn := .runtime_error (str "Failed to send HPC cancellation request")

/-- After its publish, a call consumes the reply or gives up. -/
def afterSend (c : BaseCall) (status : Int) : Prog AmqpAns (BaseAns c) :=
  if awaits c status then
    .call (AmqpCall.consume_message (c_str client.mResponseQueueName)) fun reply =>
      .pure (finish amqp_error_string2 c reply)
  else .pure (throws notSent c)

/-- Every method publishes its envelope, and then consumes or gives up. -/
theorem run_eq (c : BaseCall) :
    run lib amqp_error_string2 client c =
      match lib.dump (client.envelope c) with
      | none => .pure (throws (.json_type_error 316) c)
      | some request =>
        .call (AmqpCall.basic_publish (c_str client.mOffloadListenerQueueName) (c_str request))
          (afterSend amqp_error_string2 client c) := by
  cases c with
  | get path =>
    show get lib amqp_error_string2 client path = _
    unfold get envelope
    cases lib.dump (client.request_json (str "GET") path (.string [])) <;> rfl
  | post path data =>
    show post lib amqp_error_string2 client path data = _
    unfold post envelope
    cases lib.dump (client.request_json (str "POST") path data) <;> rfl
  | del path =>
    show del lib amqp_error_string2 client path = _
    unfold del envelope
    cases lib.dump (client.request_json (str "DELETE") path (.string [])) with
    | none => rfl
    | some request =>
      refine congrArg (Prog.call _) (funext fun (status : Int) => ?_)
      rw [Prog.pure_bind, afterSend]
      by_cases h : status = 0
      · rw [if_neg (not_not.mpr h), if_pos (show awaits (.del path) status by simpa [awaits] using h)]
        rfl
      · rw [if_pos h, if_neg (by simpa [awaits] using h)]
        rfl

end MQSSHPCClient

/-! ## Outcomes of a request -/

/-- What rabbitmq-c answers during one request. -/
structure AmqpOutcome where
  published : Int
  consumed : Except Int Bytes

namespace AmqpOutcome

def env (o : AmqpOutcome) : Env AmqpAns := fun _ c =>
  match c with
  | .basic_publish _ _ => o.published
  | .consume_message _ => o.consumed

/-- The request was published and a reply consumed. -/
def Succeeded (o : AmqpOutcome) : Prop := o.published = 0 ∧ Returns o.consumed

end AmqpOutcome

namespace MQSSHPCClient

variable (lib : JsonLib) (amqp_error_string2 : Int → Bytes) (client : MQSSHPCClient)

theorem exec_run (o : AmqpOutcome) (c : BaseCall) (tr : List AmqpCall) :
    ((run lib amqp_error_string2 client c).exec o.env tr).1 =
      match lib.dump (client.envelope c) with
      | none => throws (.json_type_error 316) c
      | some _ => if awaits c o.published then finish amqp_error_string2 c o.consumed else throws notSent c := by
  rw [run_eq]
  cases lib.dump (client.envelope c) with
  | none => rfl
  | some request =>
    show (Prog.exec _ (afterSend amqp_error_string2 client c o.published) _).1 = _
    unfold afterSend
    split_ifs <;> rfl

end MQSSHPCClient

/-! ## A client on a small table of texts -/

/-- The serialised envelope of a call without data. -/
def requestText (method path responseQueue : Bytes) : Bytes :=
  str "\x7b\"authorization\":\"\",\"data\":\"\",\"method\":\"" ++ method ++ str "\",\"request\":\"" ++ path ++
    str "\",\"response_queue\":\"" ++ responseQueue ++ str "\"\x7d"

def sampleClient : MQSSHPCClient := ⟨str "listener", str "replies"⟩

/-- A library for the envelopes of these calls and an empty list. -/
def sampleLib : JsonLib := .ofTable [
  (requestText (str "GET") (str "resources") (str "replies"), sampleClient.envelope (.get (str "resources"))),
  (requestText (str "GET") (str "resources/A") (str "replies"), sampleClient.envelope (.get (str "resources/A"))),
  (requestText (str "DELETE") (str "job/1") (str "replies"), sampleClient.envelope (.del (str "job/1"))),
  (str "[]", .array [])] (by decide)

end MqssClient
