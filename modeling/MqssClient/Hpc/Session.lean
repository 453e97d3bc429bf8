import MqssClient.Hpc.Connection

/-!
# The order in which an HPC client makes its calls

A client does not look at every answer of rabbitmq-c: a null connection, a queue or a consumer that is refused, a publish
that fails and a connection that cannot be closed make no difference to the calls that follow. The order is that of the
client's own calls; that what it asks for is also done is not assumed.

* `Usage`, `allowed`: what a client has asked of rabbitmq-c, and what it asks for next;
* `connect_keeps`, `receive_keeps` and the others: what each method does to it;
* `session_keeps_order`: every session keeps the order, and what it leaves.
-/

namespace MqssClient

open Foundations

namespace Rabbit

/-- How far a client is with its connection: not asked for, made, with a socket, open, logged in, asked for its channel, in
use, given up on the way, or asked to close the channel, to close and to be destroyed. The connection may be null. -/
inductive Link where
  | fresh
  | made (connection : Option Nat)
  | withSocket (connection : Option Nat) (socket : Nat)
  | opened (connection : Option Nat)
  | loggedIn (connection : Option Nat)
  | opening (connection : Option Nat)
  | inUse (connection : Option Nat)
  | failed (connection : Option Nat)
  | channelClosed (connection : Option Nat)
  | closed (connection : Option Nat)
  | destroyed
deriving DecidableEq

/-- The connection of a client that has not begun to close it. It may be without a socket or a channel: a client closes what
it could not open, too. -/
def Link.connection? : Link → Option (Option Nat)
  | .made connection => some connection
  | .withSocket connection _ => some connection
  | .opened connection => some connection
  | .loggedIn connection => some connection
  | .opening connection => some connection
  | .inUse connection => some connection
  | .failed connection => some connection
  | _ => none

/-- A message that was taken, by its tag: to be acknowledged, or acknowledged and to be destroyed. -/
inductive Envelope where
  | taken (delivery_tag : UInt64)
  | acknowledged (delivery_tag : UInt64)
deriving DecidableEq

/-- What a client has asked of rabbitmq-c: the queues to declare, the number of messages to publish, the consumers to
register, the number of messages to wait for; and the message that it has not destroyed yet. -/
structure Usage where
  link : Link
  queues : List Bytes
  published : Nat
  consumers : List Bytes
  asked : Nat
  envelope : Option Envelope

namespace Usage

def init : Usage := ⟨.fresh, [], 0, [], 0, none⟩

/-- Calls on the channel of a connection in use, while no message is held. -/
def onChannel (u : Usage) (connection : Option Nat) (channel : Nat) : Bool :=
  u.link = .inUse connection && channel = 1 && u.envelope = none

/-- The order in which a client makes its calls. On the way to a connection in use it goes on only after a good answer. It
publishes to and consumes from a queue that it asked to be declared, and waits for a message only after a publish of its
own and with a consumer it asked for. A message is acknowledged under its own tag and destroyed before anything else is
asked for. Whatever became of a connection, the client closes and destroys it. -/
def allowed (u : Usage) : Exchange RabbitAns → Option Usage
  | ⟨.new_connection, (connection : Option Nat)⟩ =>
    if u.link = .fresh then some { u with link := .made connection } else none
  | ⟨.tcp_socket_new connection, (socket : Option Nat)⟩ =>
    if u.link = .made connection then
      some { u with link := socket.elim (.failed connection) (.withSocket connection) }
    else none
  | ⟨.socket_open socket _ _, (status : Int)⟩ =>
    match u.link with
    | .withSocket c s =>
      if socket = s then some { u with link := if status = 0 then .opened c else .failed c } else none
    | _ => none
  | ⟨.login connection _ _ _ _ _ _, (normal : Bool)⟩ =>
    if u.link = .opened connection then
      some { u with link := if normal then .loggedIn connection else .failed connection }
    else none
  | ⟨.channel_open connection channel, _⟩ =>
    if u.link = .loggedIn connection ∧ channel = 1 then some { u with link := .opening connection } else none
  | ⟨.get_rpc_reply connection, (normal : Bool)⟩ =>
    if u.link = .opening connection then
      some { u with link := if normal then .inUse connection else .failed connection }
    else none
  | ⟨.queue_declare connection channel queue, _⟩ =>
    if u.onChannel connection channel then some { u with queues := u.queues ++ [queue] } else none
  | ⟨.basic_publish connection channel queue _ _ _, _⟩ =>
    if u.onChannel connection channel ∧ u.queues.contains queue then
      some { u with published := u.published + 1 }
    else none
  | ⟨.basic_consume connection channel queue, _⟩ =>
    if u.onChannel connection channel ∧ u.queues.contains queue then
      some { u with consumers := u.consumers ++ [queue] }
    else none
  | ⟨.consume_message connection, (reply : Except Int (UInt64 × Bytes))⟩ =>
    if u.onChannel connection 1 ∧ u.asked < u.published ∧ u.asked < u.consumers.length then
      some { u with asked := u.asked + 1, envelope := reply.toOption.map fun m => .taken m.1 }
    else none
  | ⟨.basic_ack connection channel delivery_tag, _⟩ =>
    if u.link = .inUse connection ∧ channel = 1 ∧ u.envelope = some (.taken delivery_tag) then
      some { u with envelope := some (.acknowledged delivery_tag) }
    else none
  | ⟨.destroy_envelope, _⟩ =>
    match u.envelope with
    | some (.acknowledged _) => some { u with envelope := none }
    | _ => none
  | ⟨.channel_close connection channel, _⟩ =>
    if u.link.connection? = some connection ∧ channel = 1 ∧ u.envelope = none then
      some { u with link := .channelClosed connection }
    else none
  | ⟨.connection_close connection, _⟩ =>
    if u.link = .channelClosed connection then some { u with link := .closed connection } else none
  | ⟨.destroy_connection connection, _⟩ =>
    if u.link = .closed connection then some { u with link := .destroyed } else none

section Allowed

variable {u : Usage} {c : Option Nat}

theorem allowed_new_connection (hlink : u.link = .fresh) (c : Option Nat) :
    allowed u ⟨.new_connection, c⟩ = some { u with link := .made c } := if_pos hlink

theorem allowed_tcp_socket_new (hlink : u.link = .made c) (socket : Option Nat) :
    allowed u ⟨.tcp_socket_new c, socket⟩ = some { u with link := socket.elim (.failed c) (.withSocket c) } :=
  if_pos hlink

theorem allowed_socket_open {s : Nat} (hlink : u.link = .withSocket c s) (host : Bytes) (port status : Int) :
    allowed u ⟨.socket_open s host port, status⟩ = some { u with link := if status = 0 then .opened c else .failed c } := by
  simp [allowed, hlink]

theorem allowed_login (hlink : u.link = .opened c) (vhost : Bytes) (channel_max frame_max heartbeat : Int)
    (user password : Bytes) (normal : Bool) :
    allowed u ⟨.login c vhost channel_max frame_max heartbeat user password, normal⟩ =
      some { u with link := if normal then .loggedIn c else .failed c } :=
  if_pos hlink

theorem allowed_channel_open (hlink : u.link = .loggedIn c) (opened : Bool) :
    allowed u ⟨.channel_open c 1, opened⟩ = some { u with link := .opening c } :=
  if_pos ⟨hlink, rfl⟩

theorem allowed_get_rpc_reply (hlink : u.link = .opening c) (normal : Bool) :
    allowed u ⟨.get_rpc_reply c, normal⟩ = some { u with link := if normal then .inUse c else .failed c } :=
  if_pos hlink

theorem onChannel_inUse (hlink : u.link = .inUse c) (hu : u.envelope = none) : u.onChannel c 1 := by
  simp [onChannel, hlink, hu]

theorem allowed_queue_declare (hlink : u.link = .inUse c) (hu : u.envelope = none) (queue : Bytes) (declared : Bool) :
    allowed u ⟨.queue_declare c 1 queue, declared⟩ = some { u with queues := u.queues ++ [queue] } :=
  if_pos (onChannel_inUse hlink hu)

theorem allowed_basic_publish (hlink : u.link = .inUse c) (hu : u.envelope = none) {queue : Bytes}
    (hqueue : queue ∈ u.queues) (content_type : Bytes) (delivery_mode : Nat) (body : Bytes) (status : Int) :
    allowed u ⟨.basic_publish c 1 queue content_type delivery_mode body, status⟩ =
      some { u with published := u.published + 1 } :=
  if_pos ⟨onChannel_inUse hlink hu, List.elem_eq_true_of_mem hqueue⟩

theorem allowed_basic_consume (hlink : u.link = .inUse c) (hu : u.envelope = none) {queue : Bytes}
    (hqueue : queue ∈ u.queues) (registered : Bool) :
    allowed u ⟨.basic_consume c 1 queue, registered⟩ = some { u with consumers := u.consumers ++ [queue] } :=
  if_pos ⟨onChannel_inUse hlink hu, List.elem_eq_true_of_mem hqueue⟩

theorem allowed_consume_message (hlink : u.link = .inUse c) (hu : u.envelope = none) (hp : u.asked < u.published)
    (hc : u.asked < u.consumers.length) (reply : Except Int (UInt64 × Bytes)) :
    allowed u ⟨.consume_message c, reply⟩ =
      some { u with asked := u.asked + 1, envelope := reply.toOption.map fun m => .taken m.1 } :=
  if_pos ⟨onChannel_inUse hlink hu, hp, hc⟩

theorem allowed_basic_ack (hlink : u.link = .inUse c) {delivery_tag : UInt64}
    (hu : u.envelope = some (.taken delivery_tag)) (status : Int) :
    allowed u ⟨.basic_ack c 1 delivery_tag, status⟩ =
      some { u with envelope := some (.acknowledged delivery_tag) } :=
  if_pos ⟨hlink, rfl, hu⟩

theorem allowed_destroy_envelope {delivery_tag : UInt64} (hu : u.envelope = some (.acknowledged delivery_tag)) :
    allowed u ⟨.destroy_envelope, ()⟩ = some { u with envelope := none } := by
  simp [allowed, hu]

theorem allowed_channel_close (hlink : u.link.connection? = some c) (hu : u.envelope = none) (normal : Bool) :
    allowed u ⟨.channel_close c 1, normal⟩ = some { u with link := .channelClosed c } :=
  if_pos ⟨hlink, rfl, hu⟩

theorem allowed_connection_close (hlink : u.link = .channelClosed c) (normal : Bool) :
    allowed u ⟨.connection_close c, normal⟩ = some { u with link := .closed c } :=
  if_pos hlink

theorem allowed_destroy_connection (hlink : u.link = .closed c) (status : Int) :
    allowed u ⟨.destroy_connection c, status⟩ = some { u with link := .destroyed } :=
  if_pos hlink

end Allowed

end Usage

/-! ## The methods keep the order -/

section Order

open Usage

namespace MQSSRabbitMQClient

variable {client : MQSSRabbitMQClient} {u : Usage}

/-- A connection is asked for, and can be closed; without an error it is in use. -/
theorem connect_keeps (client : MQSSRabbitMQClient) (hlink : u.link = .fresh) :
    client.connect.Follows allowed u fun r u' => ∃ c link, r.2 = { client with mConnection := c } ∧
      u' = { u with link } ∧ link.connection? = some c ∧ (r.1 = 0 → link = .inUse c) := by
  refine .call fun (c : Option Nat) => ⟨_, allowed_new_connection hlink c, ?_⟩
  refine .call fun (socket : Option Nat) => ⟨_, allowed_tcp_socket_new rfl socket, ?_⟩
  cases socket with
  | none => exact ⟨c, .failed c, rfl, rfl, rfl, fun h => absurd h Int.one_ne_zero⟩
  | some socket =>
    refine .call fun (status : Int) => ⟨_, allowed_socket_open rfl _ _ status, ?_⟩
    by_cases hs : status = 0
    · rw [if_neg (not_not.mpr hs), if_pos hs]
      refine .call fun (normal : Bool) => ⟨_, allowed_login rfl _ _ _ _ _ _ normal, ?_⟩
      cases normal with
      | false => exact ⟨c, .failed c, rfl, rfl, rfl, fun h => absurd h Int.one_ne_zero⟩
      | true =>
        refine .call fun opened => ⟨_, allowed_channel_open rfl opened, ?_⟩
        refine .call fun (normal : Bool) => ⟨_, allowed_get_rpc_reply rfl normal, ?_⟩
        cases normal with
        | false => exact ⟨c, .failed c, rfl, rfl, rfl, fun h => absurd h Int.one_ne_zero⟩
        | true => exact ⟨c, .inUse c, rfl, rfl, rfl, fun _ => rfl⟩
    · rw [if_pos hs, if_neg hs]
      exact ⟨c, .failed c, rfl, rfl, rfl, fun h => absurd h Int.one_ne_zero⟩

/-- Whatever became of the connection, it is closed and destroyed. -/
theorem disconnect_keeps (hlink : u.link.connection? = some client.mConnection) (hu : u.envelope = none) :
    client.disconnect.Follows allowed u fun _ u' => u' = { u with link := .destroyed } := by
  refine .call fun normal => ⟨_, allowed_channel_close hlink hu normal, ?_⟩
  refine .call fun normal => ⟨_, allowed_connection_close rfl normal, ?_⟩
  exact .call fun status => ⟨_, allowed_destroy_connection rfl status, rfl⟩

/-- The queues asked for so far are those that the client has noted. -/
theorem declareQueue_keeps (hlink : u.link = .inUse client.mConnection) (hu : u.envelope = none)
    (hqueues : u.queues = client.mQueues.map c_str) (queue : Bytes) :
    (client.declareQueue queue).Follows allowed u fun client' u' =>
      client' = { client with mQueues := if queue ∈ client.mQueues then client.mQueues else client.mQueues ++ [queue] } ∧
        u' = { u with queues := client'.mQueues.map c_str } := by
  unfold declareQueue
  split_ifs with hmem
  · exact ⟨rfl, by rw [← hqueues]⟩
  · refine .call fun declared => ⟨_, allowed_queue_declare hlink hu _ declared, rfl, ?_⟩
    rw [hqueues, List.map_append]
    rfl

/-- A publish to a queue that was asked for. -/
theorem send_keeps (hlink : u.link = .inUse client.mConnection) (hu : u.envelope = none) {queue : Bytes}
    (hqueue : c_str queue ∈ u.queues) (data : Bytes) :
    (client.send queue data).Follows allowed u fun _ u' => u' = { u with published := u.published + 1 } :=
  .call fun (status : Int) => ⟨_, allowed_basic_publish hlink hu hqueue _ _ _ status, rfl⟩

/-- A message is waited for with a consumer of its own; it is acknowledged and destroyed before the method returns. -/
theorem receive_keeps (hlink : u.link = .inUse client.mConnection) (hu : u.envelope = none) {queue : Bytes}
    (hmem : queue ∈ client.mQueues) (hqueue : c_str queue ∈ u.queues) (hp : u.asked < u.published)
    (hc : u.asked ≤ u.consumers.length) (amqp_error_string2 : Int → Bytes) :
    (client.receive amqp_error_string2 queue).Follows allowed u fun r u' => r.2 = client ∧
      u' = { u with consumers := u.consumers ++ [c_str queue], asked := u.asked + 1 } := by
  have hregistered : u.asked < (u.consumers ++ [c_str queue]).length := by
    rw [List.length_append]
    exact Nat.lt_succ_of_le hc
  unfold receive declareQueue
  rw [if_pos hmem, Prog.pure_bind]
  refine .call fun registered => ⟨_, allowed_basic_consume hlink hu hqueue registered, ?_⟩
  refine .call fun (reply : Except Int (UInt64 × Bytes)) =>
    ⟨_, allowed_consume_message (by exact hlink) (by exact hu) (by exact hp) hregistered reply, ?_⟩
  cases reply with
  | error library_error => exact ⟨rfl, by rw [hu]; rfl⟩
  | ok m =>
    refine .call fun status => ⟨_, allowed_basic_ack (by exact hlink) rfl status, ?_⟩
    exact .call fun _ => ⟨_, allowed_destroy_envelope rfl, rfl, by rw [hu]⟩

end MQSSRabbitMQClient

/-- The queues that a client declares. -/
def declared (names : MqssClient.MQSSHPCClient) : List Bytes :=
  if names.mResponseQueueName = names.mOffloadListenerQueueName then [names.mOffloadListenerQueueName]
  else [names.mOffloadListenerQueueName, names.mResponseQueueName]

/-- Between its calls a client has its connection in use and has asked for its queues. It has asked for a consumer of its
response queue for each message it waited for, and published before. -/
structure Serves (names : MqssClient.MQSSHPCClient) (client : MQSSHPCClient) (u : Usage) : Prop where
  link : u.link = .inUse client.mRabbitmqClient.mConnection
  named : client.toMQSSHPCClient = names
  noted : client.mRabbitmqClient.mQueues = declared names
  queues : u.queues = (declared names).map c_str
  published : u.asked ≤ u.published
  consumers : u.consumers = List.replicate u.asked (c_str names.mResponseQueueName)
  envelope : u.envelope = none

namespace MQSSHPCClient

variable {names : MqssClient.MQSSHPCClient} {client : MQSSHPCClient} {u : Usage} {lib : JsonLib}
  {amqp_error_string2 : Int → Bytes}

theorem response_mem_declared (names : MqssClient.MQSSHPCClient) : names.mResponseQueueName ∈ declared names := by
  unfold declared
  split_ifs with h
  · rw [h]
    exact List.mem_singleton_self _
  · exact List.mem_cons_of_mem _ List.mem_cons_self

theorem listener_mem_declared (names : MqssClient.MQSSHPCClient) : names.mOffloadListenerQueueName ∈ declared names := by
  unfold declared
  split_ifs <;> exact List.mem_cons_self

theorem send_keeps (h : Serves names client u) (data : Bytes) :
    (client.mRabbitmqClient.send client.mOffloadListenerQueueName data).Follows allowed u fun _ u' =>
      Serves names client u' ∧ u'.asked < u'.published := by
  refine (MQSSRabbitMQClient.send_keeps h.link h.envelope ?_ data).mono ?_
  · rw [h.queues, h.named]
    exact List.mem_map_of_mem (listener_mem_declared names)
  · rintro _ _ rfl
    exact ⟨{ h with published := h.published.trans (Nat.le_succ _) }, Nat.lt_succ_of_le h.published⟩

theorem receiveReply_keeps (h : Serves names client u) (hp : u.asked < u.published) :
    (client.receiveReply amqp_error_string2).Follows allowed u fun r u' => Serves names r.2 u' := by
  have hmem : names.mResponseQueueName ∈ client.mRabbitmqClient.mQueues := h.noted ▸ response_mem_declared names
  have hqueue : c_str names.mResponseQueueName ∈ u.queues := by
    rw [h.queues]
    exact List.mem_map_of_mem (response_mem_declared names)
  have hc : u.asked ≤ u.consumers.length := by rw [h.consumers, List.length_replicate]
  unfold receiveReply
  rw [h.named]
  refine .map ((MQSSRabbitMQClient.receive_keeps h.link h.envelope hmem hqueue hp hc amqp_error_string2).mono ?_)
  rintro ⟨body, rabbit⟩ u' ⟨hr, rfl⟩
  obtain rfl : rabbit = client.mRabbitmqClient := hr
  refine ⟨h.link, rfl, h.noted, h.queues, hp, ?_, h.envelope⟩
  show u.consumers ++ _ = _
  rw [h.consumers, List.replicate_succ']

/-- A client that serves does so after each call. -/
theorem run_keeps (call : ClientCall) (h : Serves names client u) :
    (run lib amqp_error_string2 call client).Follows allowed u fun r u' => Serves names r.2 u' := by
  cases call with
  | sleep_for seconds => exact h
  | request base =>
    cases base with
    | get path =>
      show (get lib amqp_error_string2 client path).Follows _ _ _
      unfold get
      cases lib.dump (client.request_json (str "GET") path (.string [])) with
      | none => exact h
      | some request =>
        exact (send_keeps h request).bind fun _ u' hu' => .map (receiveReply_keeps hu'.1 hu'.2)
    | post path data =>
      show (post lib amqp_error_string2 client path data).Follows _ _ _
      unfold post
      cases lib.dump (client.request_json (str "POST") path data) with
      | none => exact h
      | some request =>
        exact (send_keeps h request).bind fun _ u' hu' => .map (receiveReply_keeps hu'.1 hu'.2)
    | del path =>
      show (del lib amqp_error_string2 client path).Follows _ _ _
      unfold del
      cases lib.dump (client.request_json (str "DELETE") path (.string [])) with
      | none => exact h
      | some request =>
        refine (send_keeps h request).bind fun (status : Int) u' hu' => ?_
        split_ifs
        · exact hu'.1
        · exact .map (receiveReply_keeps hu'.1 hu'.2)

/-- The constructor leaves a client that serves, or nothing. -/
theorem new_keeps (hostName uuid offloadListenerQueueName : Bytes) :
    (new hostName uuid offloadListenerQueueName).Follows allowed Usage.init fun r u =>
      match r with
      | .error _ => u = { Usage.init with link := .destroyed }
      | .ok client => ∃ names, MqssClient.MQSSHPCClient.new false hostName uuid offloadListenerQueueName = .ok names ∧
          Serves names client u := by
  refine (MQSSRabbitMQClient.connect_keeps MQSSRabbitMQClient.new rfl).bind ?_
  rintro ⟨isErr, rabbit⟩ u ⟨c, link, rfl, rfl, hconnection, hready⟩
  dsimp only at hready ⊢
  by_cases he : isErr = 0
  · obtain rfl := hready he
    rw [he, MqssClient.MQSSHPCClient.new, if_neg (by decide)]
    refine (MQSSRabbitMQClient.declareQueue_keeps rfl rfl rfl _).bind ?_
    rintro rabbit u ⟨rfl, rfl⟩
    refine .map ((MQSSRabbitMQClient.declareQueue_keeps rfl rfl rfl _).mono ?_)
    rintro rabbit u ⟨rfl, rfl⟩
    refine ⟨_, rfl, rfl, rfl, ?_, ?_, Nat.le_refl 0, rfl, rfl⟩
    · simp [declared, MQSSRabbitMQClient.new]
    · simp [declared, MQSSRabbitMQClient.new]
  · rw [MqssClient.MQSSHPCClient.new, if_pos (by simpa using he)]
    refine .map ((MQSSRabbitMQClient.disconnect_keeps hconnection rfl).mono fun _ u' hu' => ?_)
    rw [hu']

end MQSSHPCClient

/-- What a session leaves: its connection destroyed and no message held. The client asked for its two queues and no others,
for as many consumers of the response queue as it waited for messages, and it waited for no more messages than it published;
or there was no client, and nothing was asked for. -/
structure Ended {α : Type} (hostName uuid offloadListenerQueueName : Bytes) (r : Except Exn α) (u : Usage) : Prop where
  link : u.link = .destroyed
  envelope : u.envelope = none
  failed : ∀ e, r = .error e → u.queues = [] ∧ u.published = 0 ∧ u.consumers = [] ∧ u.asked = 0
  served : ∀ a, r = .ok a → ∃ names, MqssClient.MQSSHPCClient.new false hostName uuid offloadListenerQueueName = .ok names ∧
    u.queues = (declared names).map c_str ∧ u.asked ≤ u.published ∧
      u.consumers = List.replicate u.asked (c_str names.mResponseQueueName)

theorem session_follows {α : Type} (lib : JsonLib) (amqp_error_string2 : Int → Bytes)
    (hostName uuid offloadListenerQueueName : Bytes) (p : Prog ClientAns α) :
    (session lib amqp_error_string2 hostName uuid offloadListenerQueueName p).Follows allowed Usage.init
      (Ended hostName uuid offloadListenerQueueName) := by
  refine (MQSSHPCClient.new_keeps hostName uuid offloadListenerQueueName).bind ?_
  rintro (e | client) u hu
  · obtain rfl := hu
    exact ⟨rfl, rfl, fun _ _ => ⟨rfl, rfl, rfl, rfl⟩, fun _ h => by cases h⟩
  · obtain ⟨names, hnames, hserves⟩ := hu
    refine (Prog.Follows.interpret (fun call _ _ h => MQSSHPCClient.run_keeps call h) p hserves).bind ?_
    rintro ⟨a, client⟩ u h
    have hconnection : u.link.connection? = some client.mRabbitmqClient.mConnection := by rw [h.link]; rfl
    refine .map ((MQSSRabbitMQClient.disconnect_keeps hconnection h.envelope).mono ?_)
    rintro _ _ rfl
    exact ⟨rfl, h.envelope, fun _ he => (by cases he), fun _ _ => ⟨names, hnames, h.queues, h.published, h.consumers⟩⟩

/-- Whatever a program does with an HPC client, and whatever rabbitmq-c answers, the client makes its calls in order, and
closes and destroys its connection in the end. -/
theorem session_keeps_order {α : Type} (lib : JsonLib) (amqp_error_string2 : Int → Bytes)
    (hostName uuid offloadListenerQueueName : Bytes) (p : Prog ClientAns α) {t : List (Exchange RabbitAns)} {r : Except Exn α}
    (hrun : (session lib amqp_error_string2 hostName uuid offloadListenerQueueName p).Run t r) :
    ∃ u, steps allowed Usage.init t = some u ∧ Ended hostName uuid offloadListenerQueueName r u :=
  (session_follows lib amqp_error_string2 hostName uuid offloadListenerQueueName p).run hrun

theorem session_keeps_order_listing :
    ∃ u, steps Usage.allowed Usage.init (listing.transcript emptyBroker []) = some u ∧
      Ended (str "h") (str "01234567-89ab") (str "listener") (listing.exec emptyBroker []).1 u :=
  session_keeps_order _ _ _ _ _ _ (Prog.run_transcript emptyBroker listing [])

end Order

end Rabbit

end MqssClient
