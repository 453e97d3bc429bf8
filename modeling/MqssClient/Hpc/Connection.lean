import MqssClient.Foundations.Protocol
import MqssClient.Hpc.Client

/-!
# The connection of an HPC client

`MQSSRabbitMQClient` call by call: the connection it makes, the queues it declares, and what it does with a message.

* `RabbitCall`: the calls of rabbitmq-c; `connect`, `disconnect`, `send`, `receive`, `declareQueue`: the methods;
* `Rabbit.MQSSHPCClient`: the client with its connection; `Rabbit.session`: the constructor, a program over the client, and
  the destructor.
-/

namespace MqssClient

open Foundations

/-- The calls of rabbitmq-c. A connection is `none` before it is made, and where it is the null pointer. -/
inductive RabbitCall where
  | new_connection
  | tcp_socket_new (connection : Option Nat)
  | socket_open (socket : Nat) (host : Bytes) (port : Int)
  | login (connection : Option Nat) (vhost : Bytes) (channel_max frame_max heartbeat : Int) (user password : Bytes)
  | channel_open (connection : Option Nat) (channel : Nat)
  | get_rpc_reply (connection : Option Nat)
  | queue_declare (connection : Option Nat) (channel : Nat) (queue : Bytes)
  | basic_publish (connection : Option Nat) (channel : Nat) (queue : Bytes) (content_type : Bytes) (delivery_mode : Nat)
      (body : Bytes)
  | basic_consume (connection : Option Nat) (channel : Nat) (queue : Bytes)
  | consume_message (connection : Option Nat)
  | basic_ack (connection : Option Nat) (channel : Nat) (delivery_tag : UInt64)
  | destroy_envelope
  | channel_close (connection : Option Nat) (channel : Nat)
  | connection_close (connection : Option Nat)
  | destroy_connection (connection : Option Nat)

/-- A pointer that is null is `none`. A `Bool` says whether a reply is normal, or whether there is one. A consume answers
the delivery tag and the body of a message, or a library error. -/
abbrev RabbitAns : RabbitCall → Type
  | .new_connection => Option Nat
  | .tcp_socket_new _ => Option Nat
  | .socket_open _ _ _ => Int
  | .login _ _ _ _ _ _ _ => Bool
  | .channel_open _ _ => Bool
  | .get_rpc_reply _ => Bool
  | .queue_declare _ _ _ => Bool
  | .basic_publish _ _ _ _ _ _ => Int
  | .basic_consume _ _ _ => Bool
  | .consume_message _ => Except Int (UInt64 × Bytes)
  | .basic_ack _ _ _ => Int
  | .destroy_envelope => Unit
  | .channel_close _ _ => Bool
  | .connection_close _ => Bool
  | .destroy_connection _ => Int

namespace Rabbit

/-- The connection, and the queues declared on it. -/
structure MQSSRabbitMQClient where
  mConnection : Option Nat
  mHostname : Bytes
  mUser : Bytes
  mPassword : Bytes
  mPort : Int
  mQueues : List Bytes

namespace MQSSRabbitMQClient

/-- The constructor with its default arguments; it leaves the connection as it is. -/
def new : MQSSRabbitMQClient := ⟨none, str "localhost", str "guest", str "guest", 5672, []⟩

variable (client : MQSSRabbitMQClient)

def connect : Prog RabbitAns (Int × MQSSRabbitMQClient) :=
  .call .new_connection fun (connection : Option Nat) =>
    let client := { client with mConnection := connection }
    .call (.tcp_socket_new client.mConnection) fun mpSocket =>
      match mpSocket with
      | none => .pure (1, client)
      | some socket =>
        .call (.socket_open socket (c_str client.mHostname) client.mPort) fun (status : Int) =>
          if status ≠ 0 then .pure (1, client)
          else
            .call (.login client.mConnection (str "/") 0 131072 60 (c_str client.mUser) (c_str client.mPassword))
              fun (normal : Bool) =>
                if !normal then .pure (1, client)
                else
                  .call (.channel_open client.mConnection 1) fun _ =>
                    .call (.get_rpc_reply client.mConnection) fun (normal : Bool) =>
                      if !normal then .pure (1, client) else .pure (0, client)

def disconnect : Prog RabbitAns Unit :=
  .call (.channel_close client.mConnection 1) fun _ =>
    .call (.connection_close client.mConnection) fun _ =>
      .call (.destroy_connection client.mConnection) fun _ => .pure ()

def send (queue data : Bytes) : Prog RabbitAns Int :=
  .perform (RabbitCall.basic_publish client.mConnection 1 (c_str queue) (str "text/plain") 2 (c_str data))

/-- A queue is declared once. -/
def declareQueue (queueName : Bytes) : Prog RabbitAns MQSSRabbitMQClient :=
  if queueName ∈ client.mQueues then .pure client
  else
    .call (.queue_declare client.mConnection 1 (c_str queueName)) fun _ =>
      .pure { client with mQueues := client.mQueues ++ [queueName] }

def receive (amqp_error_string2 : Int → Bytes) (queue : Bytes) : Prog RabbitAns (Bytes × MQSSRabbitMQClient) :=
  (client.declareQueue queue).bind fun client =>
    .call (.basic_consume client.mConnection 1 (c_str queue)) fun _ =>
      .call (.consume_message client.mConnection) fun (reply : Except Int (UInt64 × Bytes)) =>
        match reply with
        | .error library_error => .pure (amqp_error_string2 library_error, client)
        | .ok (delivery_tag, body) =>
          .call (.basic_ack client.mConnection 1 delivery_tag) fun _ =>
            .call .destroy_envelope fun _ => .pure (body, client)

end MQSSRabbitMQClient

/-- An HPC client with the connection that it has as a member. -/
structure MQSSHPCClient extends MqssClient.MQSSHPCClient where
  mRabbitmqClient : MQSSRabbitMQClient

namespace MQSSHPCClient

section Methods

variable (lib : JsonLib) (amqp_error_string2 : Int → Bytes) (client : MQSSHPCClient)

/-- The rest of `get`, `post` and `del` after the publish. -/
def receiveReply : Prog RabbitAns (Bytes × MQSSHPCClient) :=
  (client.mRabbitmqClient.receive amqp_error_string2 client.mResponseQueueName).map fun r =>
    (r.1, { client with mRabbitmqClient := r.2 })

def get (path : Bytes) : Prog RabbitAns (Except Exn Bytes × MQSSHPCClient) :=
  match lib.dump (client.request_json (str "GET") path (.string [])) with
  | none => .pure (.error (.json_type_error 316), client)
  | some request =>
    (client.mRabbitmqClient.send client.mOffloadListenerQueueName request).bind fun _err =>
      (client.receiveReply amqp_error_string2).map fun r => (.ok r.1, r.2)

def post (path : Bytes) (data : Json) : Prog RabbitAns (Except Exn Bytes × MQSSHPCClient) :=
  match lib.dump (client.request_json (str "POST") path data) with
  | none => .pure (.error (.json_type_error 316), client)
  | some request =>
    (client.mRabbitmqClient.send client.mOffloadListenerQueueName request).bind fun _ =>
      (client.receiveReply amqp_error_string2).map fun r => (.ok r.1, r.2)

def del (path : Bytes) : Prog RabbitAns (Except Exn Unit × MQSSHPCClient) :=
  match lib.dump (client.request_json (str "DELETE") path (.string [])) with
  | none => .pure (.error (.json_type_error 316), client)
  | some request =>
    (client.mRabbitmqClient.send client.mOffloadListenerQueueName request).bind fun status =>
      if status ≠ 0 then .pure (.error (.runtime_error (str "Failed to send HPC cancellation request")), client)
      else (client.receiveReply amqp_error_string2).map fun r => (.ok (), r.2)

end Methods

/-- A call of the client: a request, or a pause. -/
def run (lib : JsonLib) (amqp_error_string2 : Int → Bytes) :
    (c : ClientCall) → MQSSHPCClient → Prog RabbitAns (ClientAns c × MQSSHPCClient)
  | .request (.get path), client => get lib amqp_error_string2 client path
  | .request (.post path data), client => post lib amqp_error_string2 client path data
  | .request (.del path), client => del lib amqp_error_string2 client path
  | .sleep_for _, client => .pure ((), client)

/-- The constructor. When it throws, the connection is a member that is destroyed. -/
def new (hostName uuid offloadListenerQueueName : Bytes) : Prog RabbitAns (Except Exn MQSSHPCClient) :=
  MQSSRabbitMQClient.new.connect.bind fun (isErr, rabbitmqClient) =>
    match MqssClient.MQSSHPCClient.new (isErr ≠ 0) hostName uuid offloadListenerQueueName with
    | .error e => rabbitmqClient.disconnect.map fun _ => .error e
    | .ok names =>
      (rabbitmqClient.declareQueue names.mOffloadListenerQueueName).bind fun rabbitmqClient =>
        (rabbitmqClient.declareQueue names.mResponseQueueName).map fun rabbitmqClient => .ok ⟨names, rabbitmqClient⟩

end MQSSHPCClient

variable (lib : JsonLib) (amqp_error_string2 : Int → Bytes)

/-- A client is made, used by a program, and destroyed. -/
def session {α : Type} (hostName uuid offloadListenerQueueName : Bytes) (p : Prog ClientAns α) :
    Prog RabbitAns (Except Exn α) :=
  (Rabbit.MQSSHPCClient.new hostName uuid offloadListenerQueueName).bind fun
    | .error e => .pure (.error e)
    | .ok client =>
      (p.interpret (Rabbit.MQSSHPCClient.run lib amqp_error_string2) client).bind fun (a, client) =>
        client.mRabbitmqClient.disconnect.map fun _ => .ok a

/-! ## A session of one listing -/

/-- A broker that answers every request with an empty list. -/
def emptyBroker : Env RabbitAns := fun _ c =>
  match c with
  | .new_connection => some (1 : Nat)
  | .tcp_socket_new _ => some (2 : Nat)
  | .socket_open _ _ _ => (0 : Int)
  | .login _ _ _ _ _ _ _ => true
  | .channel_open _ _ => true
  | .get_rpc_reply _ => true
  | .queue_declare _ _ _ => true
  | .basic_publish _ _ _ _ _ _ => (0 : Int)
  | .basic_consume _ _ _ => true
  | .consume_message _ => (.ok (1, str "[]") : Except Int (UInt64 × Bytes))
  | .basic_ack _ _ _ => (0 : Int)
  | .destroy_envelope => ()
  | .channel_close _ _ => true
  | .connection_close _ => true
  | .destroy_connection _ => (0 : Int)

set_option maxRecDepth 4000 in
/-- A library for the request of a listing, and an empty list. -/
def listingLib : JsonLib := .ofTable [
  (requestText (str "GET") (str "resources") (str "response_queue_h_01234567"),
    MqssClient.MQSSHPCClient.envelope ⟨str "listener", str "response_queue_h_01234567"⟩ (.get (str "resources"))),
  (str "[]", .array [])] (by decide)

/-- A client that lists the resources. -/
def listing : Prog RabbitAns (Except Exn (Except Exn (List Resource))) :=
  session listingLib (fun _ => []) (str "h") (str "01234567-89ab") (str "listener") (MQSSClient.getAllResources listingLib)

end Rabbit

end MqssClient
