import MqssClient.Hpc.Client
import MqssClient.Foundations.Transition
import Mathlib.Data.List.Perm.Basic
import Mathlib.Logic.Function.Basic

/-!
# Clients, a broker and a listener

Any number of HPC clients, each used sequentially, share the queue of one listener.

* `Clients`: the clients, with what their constructor and the broker's names give; `Clients.exists_of_new`: when they do;
* `Network`: the broker's queues, the requests the listener works on, and the call each client is in;
* `Label`, `step`: what can happen. A client runs the program of its method, one call of rabbitmq-c at a time; the
  listener takes a request from any place and answers one at any time;
* `step_publish`, `step_consume` and the other inversions of `step`.

A message carries, as a ghost, the call whose request it is or answers. Nothing that the clients do depends on it.
-/

namespace MqssClient

open Foundations MQSSHPCClient

/-- Clients of one listener, with distinct response queues. -/
structure Clients (ι : Type) where
  client : ι → MQSSHPCClient
  listener : Bytes
  shares : ∀ i, c_str (client i).mOffloadListenerQueueName = listener
  noNul : ∀ i, ∀ c ∈ (client i).mResponseQueueName, c ≠ 0
  distinct : ∀ i j, (client i).mResponseQueueName = (client j).mResponseQueueName → i = j
  notListener : ∀ i, (client i).mResponseQueueName ≠ listener

/-- The constructor's response queue has no NUL in its name, as the host name and the uuid have none. -/
theorem MQSSHPCClient.noNul_new {hostName uuid offloadListenerQueueName : Bytes} {client : MQSSHPCClient}
    (hhost : ∀ c ∈ hostName, c ≠ 0) (huuid : ∀ c ∈ uuid, c ≠ 0)
    (hnew : MQSSHPCClient.new false hostName uuid offloadListenerQueueName = .ok client) :
    ∀ c ∈ client.mResponseQueueName, c ≠ 0 := by
  cases hnew
  intro c hc
  simp only [List.mem_append, substr_some, List.drop_zero] at hc
  have hprefix : ∀ c ∈ str "response_queue_", c ≠ 0 := by decide
  have hunderscore : ∀ c ∈ str "_", c ≠ 0 := by decide
  rcases hc with ((hc | hc) | hc) | hc
  · exact hprefix c hc
  · exact hhost c hc
  · exact hunderscore c hc
  · exact huuid c (List.mem_of_mem_take hc)

/-- Two clients share a response queue exactly if they are on one host and their uuids begin alike. -/
theorem MQSSHPCClient.new_response_eq_iff {hostName hostName' uuid uuid' queue queue' : Bytes} {client client' : MQSSHPCClient}
    (huuid : 8 ≤ uuid.length) (huuid' : 8 ≤ uuid'.length) (hnew : MQSSHPCClient.new false hostName uuid queue = .ok client)
    (hnew' : MQSSHPCClient.new false hostName' uuid' queue' = .ok client') :
    client.mResponseQueueName = client'.mResponseQueueName ↔ hostName = hostName' ∧ uuid.take 8 = uuid'.take 8 := by
  cases hnew
  cases hnew'
  simp only [substr_some, List.drop_zero, List.append_assoc, List.append_cancel_left_eq]
  constructor
  · intro h
    obtain ⟨hhost, hrest⟩ := List.append_inj' h (by simp [huuid, huuid'])
    exact ⟨hhost, List.append_cancel_left hrest⟩
  · rintro ⟨rfl, huuid⟩
    rw [huuid]

/-- Clients as their constructor makes them for one listener: what they need of each other is that no two are on one host
with uuids that begin alike, and that no response queue is the listener's. -/
theorem Clients.exists_of_new {ι : Type} {hostName uuid : ι → Bytes} {queue : Bytes} {client : ι → MQSSHPCClient}
    (hqueue : queue ≠ []) (hhost : ∀ i, ∀ c ∈ hostName i, c ≠ 0) (huuid : ∀ i, ∀ c ∈ uuid i, c ≠ 0)
    (hlength : ∀ i, 8 ≤ (uuid i).length)
    (hnew : ∀ i, MQSSHPCClient.new false (hostName i) (uuid i) queue = .ok (client i)) :
    (∃ net : Clients ι, net.client = client) ↔
      (∀ i j, hostName i = hostName j → (uuid i).take 8 = (uuid j).take 8 → i = j) ∧
        ∀ i, (client i).mResponseQueueName ≠ c_str queue := by
  have hlistener : ∀ i, (client i).mOffloadListenerQueueName = queue := by
    intro i
    rw [← Except.ok.inj (hnew i)]
    exact if_neg (by simpa using hqueue)
  constructor
  · rintro ⟨net, rfl⟩
    refine ⟨fun i j hij huij => net.distinct i j ?_, fun i => ?_⟩
    · exact (new_response_eq_iff (hlength i) (hlength j) (hnew i) (hnew j)).mpr ⟨hij, huij⟩
    · rw [← hlistener i, net.shares i]
      exact net.notListener i
  · rintro ⟨hdistinct, hother⟩
    refine ⟨⟨client, c_str queue, fun i => by rw [hlistener i], ?_, fun i j h => ?_, hother⟩, rfl⟩
    · exact fun i => noNul_new (hhost i) (huuid i) (hnew i)
    · obtain ⟨hij, huij⟩ := (new_response_eq_iff (hlength i) (hlength j) (hnew i) (hnew j)).mp h
      exact hdistinct i j hij huij

/-- A message, and the client and the number of the call that it belongs to. -/
structure Message (ι : Type) where
  origin : ι × Nat
  body : Bytes
deriving DecidableEq

/-- The answer to a request. -/
def Message.reply {ι : Type} (m : Message ι) (body : Bytes) : Message ι := { m with body := body }

@[simp] theorem Message.reply_origin {ι : Type} (m : Message ι) (body : Bytes) : (m.reply body).origin = m.origin := rfl

/-- A call that has not returned: what is left of its program, whether its request reached the broker, and the message
it consumed. -/
structure Running (ι : Type) where
  op : BaseCall
  number : Nat
  prog : Prog AmqpAns (BaseAns op)
  delivered : Bool
  consumed : Option (Message ι)

/-- A call that has returned, or thrown. -/
structure Completed (ι : Type) where
  op : BaseCall
  number : Nat
  value : BaseAns op
  consumed : Option (Message ι)

/-- Where a client is: the call it is in, and its calls before, the last one first. -/
structure Control (ι : Type) where
  current : Option (Running ι)
  finished : List (Completed ι)

/-- The queues of the broker, the requests taken by the listener, all replies so far, and the clients. -/
structure Network (ι : Type) where
  queue : Bytes → List (Message ι)
  working : List (Message ι)
  replied : List (Message ι)
  control : ι → Control ι

/-- What can happen: a client enters a call, publishes, consumes a message, fails to, or returns; the listener takes the
`n`-th request from its queue, or answers the `n`-th that it works on. -/
inductive Label (ι : Type) where
  | call (i : ι) (op : BaseCall)
  | publish (i : ι) (status : Int) (delivered : Bool)
  | consume (i : ι)
  | consumeError (i : ι) (library_error : Int)
  | ret (i : ι)
  | take (n : Nat)
  | answer (n : Nat) (body : Bytes)

section Step

variable {ι : Type}

namespace Running

/-- The call publishes: the queue, the body, and how the call goes on. -/
def publish (r : Running ι) : Option (Bytes × Bytes × (Int → Bool → Running ι)) :=
  match r.prog with
  | .call (.basic_publish queue body) k =>
    some (queue, body, fun status delivered => { r with prog := k status, delivered := delivered })
  | _ => none

/-- The call consumes: the queue, and how the call goes on. -/
def consume (r : Running ι) : Option (Bytes × (Except Int Bytes → Option (Message ι) → Running ι)) :=
  match r.prog with
  | .call (.consume_message queue) k => some (queue, fun reply m => { r with prog := k reply, consumed := m })
  | _ => none

/-- The call returns. -/
def ret (r : Running ι) : Option (Completed ι) :=
  match r.prog with
  | .pure value => some ⟨r.op, r.number, value, r.consumed⟩
  | _ => none

end Running

namespace Network

def init : Network ι := ⟨fun _ => [], [], [], fun _ => ⟨none, []⟩⟩

def setQueue (s : Network ι) (queue : Bytes) (ms : List (Message ι)) : Network ι :=
  { s with queue := Function.update s.queue queue ms }

/-- A message arrives at the end of a queue. -/
def push (s : Network ι) (queue : Bytes) (m : Message ι) : Network ι := s.setQueue queue (s.queue queue ++ [m])

section Queue

variable (s : Network ι) {queue other : Bytes} (ms : List (Message ι)) (m : Message ι)

@[simp] theorem setQueue_self : (s.setQueue queue ms).queue queue = ms := Function.update_self ..

theorem setQueue_of_ne (h : other ≠ queue) : (s.setQueue queue ms).queue other = s.queue other :=
  Function.update_of_ne h ..

@[simp] theorem push_self : (s.push queue m).queue queue = s.queue queue ++ [m] := setQueue_self ..

theorem push_of_ne (h : other ≠ queue) : (s.push queue m).queue other = s.queue other := setQueue_of_ne s _ h

@[simp] theorem push_replied : (s.push queue m).replied = s.replied := rfl

end Queue

variable [DecidableEq ι]

def setControl (s : Network ι) (i : ι) (c : Control ι) : Network ι :=
  { s with control := Function.update s.control i c }

def setCurrent (s : Network ι) (i : ι) (r : Running ι) : Network ι :=
  s.setControl i { s.control i with current := some r }

@[simp] theorem setControl_queue (s : Network ι) (i : ι) (c : Control ι) : (s.setControl i c).queue = s.queue := rfl

@[simp] theorem setControl_self (s : Network ι) (i : ι) (c : Control ι) : (s.setControl i c).control i = c :=
  Function.update_self ..

theorem setControl_of_ne (s : Network ι) {i j : ι} (c : Control ι) (h : j ≠ i) :
    (s.setControl i c).control j = s.control j := Function.update_of_ne h ..

end Network

variable [DecidableEq ι] (lib : JsonLib) (amqp_error_string2 : Int → Bytes) (net : Clients ι)

/-- The queue that a request names for its reply. -/
def responseQueue (body : Bytes) : Option Bytes :=
  (lib.parse body).bind fun request => (request.find (str "response_queue")).bind Json.string?

/-- A publish without an error delivers its message; one with an error may or may not. A consume waits for a message,
and leaves the queue alone when it fails. -/
def step (s : Network ι) : Label ι → Option (Network ι)
  | .call i op =>
    match (s.control i).current with
    | some _ => none
    | none => some <| s.setCurrent i
        ⟨op, (s.control i).finished.length, (net.client i).run lib amqp_error_string2 op, false, none⟩
  | .publish i status delivered => do
    let r ← (s.control i).current
    let (queue, body, k) ← r.publish
    if status = 0 ∧ delivered = false then none
    else if delivered then some ((s.push queue ⟨(i, r.number), body⟩).setCurrent i (k status delivered))
    else some (s.setCurrent i (k status delivered))
  | .consume i => do
    let r ← (s.control i).current
    let (queue, k) ← r.consume
    let m ← (s.queue queue).head?
    some ((s.setQueue queue (s.queue queue).tail).setCurrent i (k (.ok m.body) (some m)))
  | .consumeError i library_error => do
    let r ← (s.control i).current
    let (_, k) ← r.consume
    some (s.setCurrent i (k (.error library_error) none))
  | .ret i => do
    let r ← (s.control i).current
    let d ← r.ret
    some (s.setControl i ⟨none, d :: (s.control i).finished⟩)
  | .take n => do
    let m ← (s.queue net.listener)[n]?
    some { s.setQueue net.listener ((s.queue net.listener).eraseIdx n) with working := s.working ++ [m] }
  | .answer n body => do
    let m ← s.working[n]?
    let queue ← responseQueue lib m.body
    some <| { s with working := s.working.eraseIdx n, replied := s.replied ++ [m.reply body] }.push queue (m.reply body)

/-! ## What a step does -/

variable {lib amqp_error_string2 net} {s s' : Network ι}

theorem step_call {i : ι} {op : BaseCall} (h : step lib amqp_error_string2 net s (.call i op) = some s') :
    (s.control i).current = none ∧ s' = s.setCurrent i
      ⟨op, (s.control i).finished.length, (net.client i).run lib amqp_error_string2 op, false, none⟩ := by
  rw [step] at h
  cases hcur : (s.control i).current with
  | some r =>
    rw [hcur] at h
    cases h
  | none =>
    rw [hcur] at h
    exact ⟨rfl, (Option.some.inj h).symm⟩

theorem step_publish {i : ι} {status : Int} {delivered : Bool}
    (h : step lib amqp_error_string2 net s (.publish i status delivered) = some s') :
    ∃ r queue body k, (s.control i).current = some r ∧ r.publish = some (queue, body, k) ∧
      (status = 0 → delivered = true) ∧
      s' = (if delivered then s.push queue ⟨(i, r.number), body⟩ else s).setCurrent i (k status delivered) := by
  obtain ⟨r, hr, h⟩ := Option.bind_eq_some_iff.mp h
  obtain ⟨⟨queue, body, k⟩, hp, h⟩ := Option.bind_eq_some_iff.mp h
  refine ⟨r, queue, body, k, hr, hp, ?_⟩
  dsimp only at h
  split_ifs at h with hlost hdel
  · refine ⟨fun _ => hdel, ?_⟩
    rw [if_pos hdel]
    exact (Option.some.inj h).symm
  · refine ⟨fun h0 => by simpa [h0] using hlost, ?_⟩
    rw [if_neg hdel]
    exact (Option.some.inj h).symm

theorem step_consume {i : ι} (h : step lib amqp_error_string2 net s (.consume i) = some s') :
    ∃ r queue k m rest, (s.control i).current = some r ∧ r.consume = some (queue, k) ∧
      s.queue queue = m :: rest ∧ s' = (s.setQueue queue rest).setCurrent i (k (.ok m.body) (some m)) := by
  obtain ⟨r, hr, h⟩ := Option.bind_eq_some_iff.mp h
  obtain ⟨⟨queue, k⟩, hc, h⟩ := Option.bind_eq_some_iff.mp h
  obtain ⟨m, hm, h⟩ := Option.bind_eq_some_iff.mp h
  obtain ⟨rest, hq⟩ := List.head?_eq_some_iff.mp hm
  refine ⟨r, queue, k, m, rest, hr, hc, hq, ?_⟩
  rw [hq, List.tail_cons] at h
  exact (Option.some.inj h).symm

theorem step_consumeError {i : ι} {library_error : Int}
    (h : step lib amqp_error_string2 net s (.consumeError i library_error) = some s') :
    ∃ r queue k, (s.control i).current = some r ∧ r.consume = some (queue, k) ∧
      s' = s.setCurrent i (k (.error library_error) none) := by
  obtain ⟨r, hr, h⟩ := Option.bind_eq_some_iff.mp h
  obtain ⟨⟨queue, k⟩, hc, h⟩ := Option.bind_eq_some_iff.mp h
  exact ⟨r, queue, k, hr, hc, (Option.some.inj h).symm⟩

theorem step_ret {i : ι} (h : step lib amqp_error_string2 net s (.ret i) = some s') :
    ∃ r d, (s.control i).current = some r ∧ r.ret = some d ∧
      s' = s.setControl i ⟨none, d :: (s.control i).finished⟩ := by
  obtain ⟨r, hr, h⟩ := Option.bind_eq_some_iff.mp h
  obtain ⟨d, hd, h⟩ := Option.bind_eq_some_iff.mp h
  exact ⟨r, d, hr, hd, (Option.some.inj h).symm⟩

/-- The element at an index, and the others. -/
theorem perm_of_getElem? {α : Type} {l : List α} {n : Nat} {a : α} (h : l[n]? = some a) :
    l.Perm (a :: l.eraseIdx n) := by
  obtain ⟨hn, rfl⟩ := List.getElem?_eq_some_iff.mp h
  exact (List.getElem_cons_eraseIdx_perm hn).symm

theorem step_take {n : Nat} (h : step lib amqp_error_string2 net s (.take n) = some s') :
    ∃ m rest, (s.queue net.listener).Perm (m :: rest) ∧
      s' = { s.setQueue net.listener rest with working := s.working ++ [m] } := by
  obtain ⟨m, hm, h⟩ := Option.bind_eq_some_iff.mp h
  exact ⟨m, _, perm_of_getElem? hm, (Option.some.inj h).symm⟩

theorem step_answer {n : Nat} {body : Bytes} (h : step lib amqp_error_string2 net s (.answer n body) = some s') :
    ∃ m rest queue, s.working.Perm (m :: rest) ∧ responseQueue lib m.body = some queue ∧
      s' = { s with working := rest, replied := s.replied ++ [m.reply body] }.push queue (m.reply body) := by
  obtain ⟨m, hm, h⟩ := Option.bind_eq_some_iff.mp h
  obtain ⟨queue, hq, h⟩ := Option.bind_eq_some_iff.mp h
  exact ⟨m, _, queue, perm_of_getElem? hm, hq, (Option.some.inj h).symm⟩

end Step

end MqssClient
