import MqssClient.Hpc.Network
import MqssClient.Transport

/-!
# Correlation of requests and replies

Messages carry no correlation id: a call takes whatever its response queue holds. That this is the reply to its own
request rests on an invariant between the client and all messages of its own, at the broker and at the listener.

* `Running.Stage`: the three points at which a call can be;
* `Network.flight`: the calls whose request or reply is on its way;
* `Correlated`: the invariant, kept by every step that `WaitsForReply`;
* `repliesOwn_of_run`: in a run of such steps a call consumes the reply to its own request;
* `not_repliesOwn_lateRun`: a consume that fails while the reply is under way leaves it to the next call.
-/

namespace MqssClient

open Foundations MQSSHPCClient

section Invariant

variable {ι : Type} (lib : JsonLib) (amqp_error_string2 : Int → Bytes) (net : Clients ι)

/-- The response queue of a client. -/
def Clients.response (i : ι) : Bytes := (net.client i).mResponseQueueName

theorem Clients.response_ne_listener (i : ι) : net.response i ≠ net.listener := net.notListener i

theorem Clients.response_ne {i j : ι} (h : j ≠ i) : net.response j ≠ net.response i := fun he => h (net.distinct j i he)

namespace Running

/-- A call is ready to publish, waits for a message, or is done. It is done with the reply to its own request, or
without a message and then its request never reached the broker. -/
inductive Stage (i : ι) : Running ι → Prop where
  | ready (op : BaseCall) (number : Nat) :
      Stage i ⟨op, number, (net.client i).run lib amqp_error_string2 op, false, none⟩
  | waiting (op : BaseCall) (number : Nat) (delivered : Bool) :
      Stage i ⟨op, number, .call (AmqpCall.consume_message (net.response i)) fun reply =>
        .pure (finish amqp_error_string2 op reply), delivered, none⟩
  | done (op : BaseCall) (number : Nat) (value : BaseAns op) (delivered : Bool) (consumed : Option (Message ι))
      (own : ∀ m, consumed = some m → m.origin = (i, number) ∧ value = finish amqp_error_string2 op (.ok m.body))
      (undelivered : consumed = none → delivered = false) :
      Stage i ⟨op, number, .pure value, delivered, consumed⟩

/-- The number of a call whose request was delivered, and whose reply is still to come. -/
def awaited (r : Running ι) : Option Nat := if r.delivered ∧ r.consumed = none then some r.number else none

end Running

namespace Control

def awaited (c : Control ι) : Option Nat := c.current.bind Running.awaited

/-- The messages that the calls of a client have consumed. -/
def taken (c : Control ι) : List (Message ι) :=
  (c.current.bind Running.consumed).toList ++ c.finished.filterMap Completed.consumed

/-- The calls of a client are numbered from zero, and those that consumed a message consumed the reply to their own
request. -/
structure Ok (i : ι) (c : Control ι) : Prop where
  current : ∀ r, c.current = some r → r.Stage lib amqp_error_string2 net i ∧ r.number = c.finished.length
  numbers : c.finished.map Completed.number = (List.range c.finished.length).reverse
  finished : ∀ d ∈ c.finished, ∀ m, d.consumed = some m →
    m.origin = (i, d.number) ∧ d.value = finish amqp_error_string2 d.op (.ok m.body)

end Control

namespace Network

variable (s : Network ι)

/-- The requests at the broker and at the listener. -/
def requests : List (Message ι) := s.queue net.listener ++ s.working

theorem requests_push (m : Message ι) : ((s.push net.listener m).requests net).Perm (m :: s.requests net) := by
  rw [requests, push_self, List.append_assoc]
  exact List.perm_middle

variable [DecidableEq ι]

def outstanding (i : ι) : List (Message ι) := (s.requests net).filter fun m => m.origin.1 = i

/-- The calls of a client of which the request or the reply is on its way. -/
def flight (i : ι) : List (ι × Nat) := (s.outstanding net i ++ s.queue (net.response i)).map Message.origin

@[simp] theorem flight_setControl (i j : ι) (c : Control ι) : (s.setControl i c).flight net j = s.flight net j := rfl

variable {net s} {s' : Network ι} {ms : List (Message ι)}

theorem flight_perm (i : ι) (hr : (s'.requests net).Perm ms) :
    (s'.flight net i).Perm (((ms.filter fun m => m.origin.1 = i) ++ s'.queue (net.response i)).map Message.origin) :=
  ((hr.filter _).append_right _).map _

end Network

section Correlated

variable [DecidableEq ι]

/-- What is in flight of a client is what it waits for, and the replies to its requests are those in its queue and those
it consumed. -/
structure InSync (s : Network ι) (i : ι) : Prop where
  control : (s.control i).Ok lib amqp_error_string2 net i
  flight : (s.flight net i).Perm ((s.control i).awaited.toList.map fun n => (i, n))
  account : (s.queue (net.response i) ++ (s.control i).taken).Perm (s.replied.filter fun m => m.origin.1 = i)

/-- Every client is in sync with its messages, every request names the queue of its client, and none is answered
twice. -/
structure Correlated (s : Network ι) : Prop where
  inSync : ∀ i, InSync lib amqp_error_string2 net s i
  requests : ∀ m ∈ s.requests net, responseQueue lib m.body = some (net.response m.origin.1)
  nodup : (s.replied.map Message.origin).Nodup

/-- A call whose request reaches the broker goes on to consume, and its consume does not fail. -/
def WaitsForReply (s : Network ι) : Label ι → Prop
  | .publish i status delivered => ∀ r, (s.control i).current = some r → delivered = true → awaits r.op status
  | .consumeError i _ => ∀ r, (s.control i).current = some r → r.delivered = false
  | _ => True

end Correlated

end Invariant

/-! ## The points of a call -/

section Stage

variable {ι : Type} {lib : JsonLib} {amqp_error_string2 : Int → Bytes} {net : Clients ι} {i : ι} {r : Running ι}

theorem c_str_response (i : ι) : c_str (net.response i) = net.response i := c_str_eq_self (net.noNul i)

theorem responseQueue_envelope {op : BaseCall} {request : Bytes}
    (h : lib.dump ((net.client i).envelope op) = some request) :
    responseQueue lib (c_str request) = some (net.response i) := by
  have hname : ((net.client i).envelope op).find (str "response_queue") = some (.string (net.response i)) := by
    cases op <;> rfl
  rw [c_str_eq_self fun c hc h0 => by
    have h32 := lib.dump_printable h c hc
    rw [h0] at h32
    exact absurd h32 (by decide)]
  rw [responseQueue, lib.parse_dump h, Option.bind_some, Json.find_reparsed, hname]
  rfl

namespace Running

theorem stage_afterSend {op : BaseCall} {number : Nat} {status : Int} {delivered : Bool}
    (h : delivered = true → awaits op status) :
    Stage lib amqp_error_string2 net i
      ⟨op, number, afterSend amqp_error_string2 (net.client i) op status, delivered, none⟩ := by
  have hname : c_str (net.client i).mResponseQueueName = net.response i := c_str_response i
  unfold afterSend
  by_cases hw : awaits op status
  · rw [if_pos hw, hname]
    exact Stage.waiting op number delivered
  · rw [if_neg hw]
    refine Stage.done op number _ delivered none (fun m hm => by cases hm) fun _ => ?_
    exact Bool.eq_false_iff.mpr fun hd => hw (h hd)

/-- A publish is of a request that names the call's own response queue, and leads to the next point. -/
theorem Stage.publish {queue body : Bytes} {k : Int → Bool → Running ι} (h : r.Stage lib amqp_error_string2 net i)
    (hp : r.publish = some (queue, body, k)) :
    queue = net.listener ∧ responseQueue lib body = some (net.response i) ∧ r.delivered = false ∧ r.consumed = none ∧
      ∀ status delivered, (k status delivered).number = r.number ∧ (k status delivered).delivered = delivered ∧
        (k status delivered).consumed = none ∧
        ((delivered = true → awaits r.op status) → (k status delivered).Stage lib amqp_error_string2 net i) := by
  cases h with
  | waiting => cases hp
  | done => cases hp
  | ready op number =>
    rw [Running.publish] at hp
    dsimp only at hp
    rw [run_eq] at hp
    cases hd : lib.dump ((net.client i).envelope op) with
    | none =>
      rw [hd] at hp
      cases hp
    | some request =>
      rw [hd] at hp
      cases hp
      exact ⟨net.shares i, responseQueue_envelope hd, rfl, rfl,
        fun status delivered => ⟨rfl, rfl, rfl, stage_afterSend⟩⟩

theorem Stage.envelope {queue body : Bytes} {k : Int → Bool → Running ι} (h : r.Stage lib amqp_error_string2 net i)
    (hp : r.publish = some (queue, body, k)) :
    lib.dump ((net.client i).envelope r.op) = some body ∧ ∀ status delivered, k status delivered =
      ⟨r.op, r.number, afterSend amqp_error_string2 (net.client i) r.op status, delivered, none⟩ := by
  cases h with
  | waiting => cases hp
  | done => cases hp
  | ready op number =>
    rw [Running.publish] at hp
    dsimp only at hp
    rw [run_eq] at hp
    cases hd : lib.dump ((net.client i).envelope op) with
    | none =>
      rw [hd] at hp
      cases hp
    | some request =>
      rw [hd] at hp
      cases hp
      exact ⟨by rw [lib.c_str_dump hd], fun _ _ => rfl⟩

/-- A consume is from the call's own response queue, and the last thing it does. -/
theorem Stage.consume {queue : Bytes} {k : Except Int Bytes → Option (Message ι) → Running ι}
    (h : r.Stage lib amqp_error_string2 net i) (hc : r.consume = some (queue, k)) :
    queue = net.response i ∧ r.consumed = none ∧
      k = fun reply m => ⟨r.op, r.number, .pure (finish amqp_error_string2 r.op reply), r.delivered, m⟩ := by
  cases h with
  | ready op number =>
    rw [Running.consume] at hc
    dsimp only at hc
    rw [run_eq] at hc
    cases hd : lib.dump ((net.client i).envelope op) <;> rw [hd] at hc <;> cases hc
  | waiting op number delivered =>
    cases hc
    exact ⟨rfl, rfl, rfl⟩
  | done => cases hc

theorem Stage.ret {d : Completed ι} (h : r.Stage lib amqp_error_string2 net i) (hr : r.ret = some d) :
    r.awaited = none ∧ d.number = r.number ∧ d.consumed = r.consumed ∧
      ∀ m, d.consumed = some m → m.origin = (i, d.number) ∧ d.value = finish amqp_error_string2 d.op (.ok m.body) := by
  cases h with
  | ready op number =>
    rw [Running.ret] at hr
    dsimp only at hr
    split at hr
    · cases hr
      exact ⟨by simp [awaited], rfl, rfl, fun m hm => by cases hm⟩
    · cases hr
  | waiting => cases hr
  | done op number value delivered consumed own undelivered =>
    cases hr
    refine ⟨?_, rfl, rfl, own⟩
    rw [awaited, if_neg]
    rintro ⟨hd, hc⟩
    rw [undelivered hc] at hd
    cases hd

theorem Stage.own (h : r.Stage lib amqp_error_string2 net i) {m : Message ι} (hm : r.consumed = some m) :
    m.origin = (i, r.number) := by
  cases h with
  | ready => cases hm
  | waiting => cases hm
  | done op number value delivered consumed own => exact (own m hm).1

end Running

namespace Control

variable {c : Control ι}

theorem Ok.setCurrent (h : c.Ok lib amqp_error_string2 net i) (hstage : r.Stage lib amqp_error_string2 net i)
    (hnumber : r.number = c.finished.length) :
    Control.Ok lib amqp_error_string2 net i { c with current := some r } where
  current r' hr' := by
    cases hr'
    exact ⟨hstage, hnumber⟩
  numbers := h.numbers
  finished := h.finished

theorem Ok.ret (h : c.Ok lib amqp_error_string2 net i) {d : Completed ι} (hnumber : d.number = c.finished.length)
    (hown : ∀ m, d.consumed = some m →
      m.origin = (i, d.number) ∧ d.value = finish amqp_error_string2 d.op (.ok m.body)) :
    Control.Ok lib amqp_error_string2 net i ⟨none, d :: c.finished⟩ where
  current r' hr' := by cases hr'
  numbers := by
    rw [List.map_cons, List.length_cons, List.range_succ, List.reverse_append, h.numbers, hnumber]
    rfl
  finished d' hd' := by
    rcases List.mem_cons.mp hd' with rfl | hd'
    · exact hown
    · exact h.finished d' hd'

end Control

end Stage

/-! ## Steps -/

section Step

variable {ι : Type} [DecidableEq ι] {lib : JsonLib} {amqp_error_string2 : Int → Bytes} {net : Clients ι}
  {s s' : Network ι} {i : ι}

namespace InSync

/-- A client stays in sync when nothing of it changes but the order of its requests. -/
theorem congr (h : InSync lib amqp_error_string2 net s i) (hcontrol : s'.control i = s.control i)
    (hout : (s'.outstanding net i).Perm (s.outstanding net i))
    (hqueue : s'.queue (net.response i) = s.queue (net.response i))
    (hreplied : (s'.replied.filter fun m => m.origin.1 = i) = s.replied.filter fun m => m.origin.1 = i) :
    InSync lib amqp_error_string2 net s' i where
  control := by
    rw [hcontrol]
    exact h.control
  flight := by
    rw [hcontrol, Network.flight, hqueue]
    exact ((hout.append_right _).map _).trans h.flight
  account := by
    rw [hcontrol, hqueue, hreplied]
    exact h.account

/-- Whatever is in flight of a client belongs to the call it is in, and nothing else of it is in flight. -/
theorem awaited_of_mem (h : InSync lib amqp_error_string2 net s i) {o : ι × Nat} (ho : o ∈ s.flight net i) :
    s.flight net i = [o] ∧ ∃ r, (s.control i).current = some r ∧ r.delivered = true ∧ r.consumed = none ∧
      o = (i, r.number) := by
  have hperm := h.flight
  unfold Control.awaited at hperm
  cases hcur : (s.control i).current with
  | none =>
    rw [hcur] at hperm
    rw [hperm.eq_nil] at ho
    cases ho
  | some r =>
    rw [hcur, Option.bind_some, Running.awaited] at hperm
    split_ifs at hperm with hw
    · have hone : s.flight net i = [(i, r.number)] := List.perm_singleton.mp hperm
      rw [hone] at ho ⊢
      obtain rfl := List.mem_singleton.mp ho
      exact ⟨rfl, r, rfl, hw.1, hw.2, rfl⟩
    · rw [hperm.eq_nil] at ho
      cases ho

theorem flight_eq_nil (h : InSync lib amqp_error_string2 net s i) {r : Running ι}
    (hr : (s.control i).current = some r) (hd : r.delivered = false) : s.flight net i = [] := by
  refine List.eq_nil_iff_forall_not_mem.mpr fun o ho => ?_
  obtain ⟨-, r', hr', hd', -⟩ := h.awaited_of_mem ho
  rw [hr] at hr'
  cases hr'
  rw [hd] at hd'
  cases hd'

end InSync

namespace Correlated

theorem setControl (h : Correlated lib amqp_error_string2 net s) {c : Control ι}
    (hc : c.Ok lib amqp_error_string2 net i) (hawaited : c.awaited = (s.control i).awaited)
    (htaken : c.taken.Perm (s.control i).taken) : Correlated lib amqp_error_string2 net (s.setControl i c) where
  inSync j := by
    rcases eq_or_ne j i with rfl | hne
    · refine ⟨by rwa [Network.setControl_self], ?_, ?_⟩
      · rw [Network.setControl_self, Network.flight_setControl, hawaited]
        exact (h.inSync j).flight
      · rw [Network.setControl_self]
        exact (htaken.append_left _).trans (h.inSync j).account
    · exact (h.inSync j).congr (Network.setControl_of_ne _ _ hne) (.refl _) rfl rfl
  requests := h.requests
  nodup := h.nodup

/-- A client that goes on with the call it is in, still waiting for the same and without a message. -/
theorem setCurrent (h : Correlated lib amqp_error_string2 net s) {r : Running ι}
    (hstage : r.Stage lib amqp_error_string2 net i) (hnumber : r.number = (s.control i).finished.length)
    (hawaited : r.awaited = (s.control i).awaited) (hr : r.consumed = none)
    (hc : (s.control i).current.bind Running.consumed = none) :
    Correlated lib amqp_error_string2 net (s.setCurrent i r) := by
  refine h.setControl ((h.inSync i).control.setCurrent hstage hnumber) hawaited ?_
  rw [Control.taken, Control.taken, hc, Option.bind_some, hr]

theorem call (h : Correlated lib amqp_error_string2 net s) {op : BaseCall}
    (hstep : step lib amqp_error_string2 net s (.call i op) = some s') : Correlated lib amqp_error_string2 net s' := by
  obtain ⟨hcur, rfl⟩ := step_call hstep
  refine h.setCurrent (.ready op _) rfl ?_ rfl ?_
  · simp [Control.awaited, Running.awaited, hcur]
  · rw [hcur, Option.bind_none]

/-- A publish that reaches the broker puts a request under way, where none was. -/
theorem publish (h : Correlated lib amqp_error_string2 net s) {status : Int} {delivered : Bool}
    (hin : WaitsForReply s (.publish i status delivered))
    (hstep : step lib amqp_error_string2 net s (.publish i status delivered) = some s') :
    Correlated lib amqp_error_string2 net s' := by
  obtain ⟨r, queue, body, k, hcur, hk, -, rfl⟩ := step_publish hstep
  obtain ⟨hstage, hnumber⟩ := (h.inSync i).control.current r hcur
  obtain ⟨rfl, hbody, hd, hnone, hnext⟩ := hstage.publish hk
  obtain ⟨hn', hd', hc', hstage'⟩ := hnext status delivered
  have hok := (h.inSync i).control.setCurrent (hstage' (hin r hcur)) (hn'.trans hnumber)
  have htaken : (s.control i).current.bind Running.consumed = none := by rw [hcur, Option.bind_some, hnone]
  cases delivered with
  | false =>
    refine h.setCurrent (hstage' (hin r hcur)) (hn'.trans hnumber) ?_ hc' htaken
    simp [Control.awaited, Running.awaited, hcur, hd, hd']
  | true =>
    have hperm := Network.requests_push net s ⟨(i, r.number), body⟩
    have hresponse : ∀ j, (s.push net.listener ⟨(i, r.number), body⟩).queue (net.response j) =
        s.queue (net.response j) := fun j => Network.push_of_ne s _ (net.response_ne_listener j)
    rw [if_pos rfl, Network.setCurrent]
    refine ⟨fun j => ?_, fun m hm => ?_, h.nodup⟩
    · rcases eq_or_ne j i with rfl | hne
      · refine ⟨by rwa [Network.setControl_self], ?_, ?_⟩
        · -- nothing of the client was in flight before
          have hempty : s.flight net j = [] := (h.inSync j).flight_eq_nil hcur hd
          rw [Network.setControl_self, Network.flight_setControl]
          refine (Network.flight_perm j hperm).trans ?_
          rw [hresponse, List.filter_cons_of_pos (by simp), List.cons_append, List.map_cons]
          change ((_ :: s.flight net j).Perm _)
          rw [hempty]
          simp [Control.awaited, Running.awaited, hd', hc', hn']
        · have := (h.inSync j).account
          rw [Control.taken, htaken] at this
          rwa [Network.setControl_self, Network.setControl_queue, hresponse, Control.taken, Option.bind_some, hc']
      · refine (h.inSync j).congr (Network.setControl_of_ne _ _ hne) ?_ (hresponse j) rfl
        refine (hperm.filter _).trans (List.Perm.of_eq ?_)
        exact List.filter_cons_of_neg (by simpa using hne.symm)
    · rcases List.mem_cons.mp (hperm.mem_iff.mp hm) with rfl | hm
      · exact hbody
      · exact h.requests m hm

/-- A consume takes the one message that is in flight of the client. -/
theorem consume (h : Correlated lib amqp_error_string2 net s)
    (hstep : step lib amqp_error_string2 net s (.consume i) = some s') :
    Correlated lib amqp_error_string2 net s' := by
  obtain ⟨r, queue, k, m, rest, hcur, hk, hqueue, rfl⟩ := step_consume hstep
  obtain ⟨hstage, hnumber⟩ := (h.inSync i).control.current r hcur
  obtain ⟨rfl, hnone, rfl⟩ := hstage.consume hk
  have hmem : m.origin ∈ s.flight net i := List.mem_map_of_mem (by simp [hqueue])
  obtain ⟨hone, r', hr', hd, -, ho⟩ := (h.inSync i).awaited_of_mem hmem
  obtain rfl : r = r' := Option.some.inj (hcur.symm.trans hr')
  have hown : ∀ m', some m = some m' → m'.origin = (i, r.number) ∧
      finish amqp_error_string2 r.op (.ok m.body) = finish amqp_error_string2 r.op (.ok m'.body) := by
    rintro m' ⟨⟩
    exact ⟨ho, rfl⟩
  have hok := (h.inSync i).control.setCurrent
    (.done r.op r.number (finish amqp_error_string2 r.op (.ok m.body)) r.delivered (some m) hown fun hm => by cases hm)
    hnumber
  have hrequests : ((s.setQueue (net.response i) rest).requests net) = s.requests net := by
    rw [Network.requests, Network.setQueue_of_ne _ _ (net.response_ne_listener i).symm]
    rfl
  rw [Network.setCurrent]
  refine ⟨fun j => ?_, ?_, h.nodup⟩
  · rcases eq_or_ne j i with rfl | hne
    · refine ⟨by rwa [Network.setControl_self], ?_, ?_⟩
      · -- the message was all that was in flight
        rw [Network.flight, hqueue, List.map_append, List.map_cons] at hone
        obtain ⟨hout, hrest⟩ : s.outstanding net j = [] ∧ rest = [] := by
          have hlen := congrArg List.length hone
          simp only [List.length_append, List.length_cons, List.length_map, List.length_nil] at hlen
          exact ⟨List.eq_nil_of_length_eq_zero (by omega), List.eq_nil_of_length_eq_zero (by omega)⟩
        rw [Network.flight_setControl, Network.flight, Network.outstanding, hrequests, ← Network.outstanding, hout,
          Network.setQueue_self, hrest, Network.setControl_self]
        simp [Control.awaited, Running.awaited]
      · have := (h.inSync j).account
        rw [Control.taken, hcur, Option.bind_some, hnone, hqueue] at this
        rw [Network.setControl_self, Network.setControl_queue, Network.setQueue_self]
        exact List.perm_middle.trans this
    · refine (h.inSync j).congr (Network.setControl_of_ne _ _ hne) (.of_eq ?_) ?_ rfl
      · rw [Network.outstanding, Network.outstanding, ← hrequests]
        rfl
      · exact Network.setQueue_of_ne _ _ (net.response_ne hne)
  · intro m' hm'
    exact h.requests m' (hrequests ▸ hm')

/-- A failed consume ends a call that has no request under way. -/
theorem consumeError (h : Correlated lib amqp_error_string2 net s) {library_error : Int}
    (hin : WaitsForReply s (.consumeError i library_error))
    (hstep : step lib amqp_error_string2 net s (.consumeError i library_error) = some s') :
    Correlated lib amqp_error_string2 net s' := by
  obtain ⟨r, queue, k, hcur, hk, rfl⟩ := step_consumeError hstep
  obtain ⟨hstage, hnumber⟩ := (h.inSync i).control.current r hcur
  obtain ⟨-, hnone, rfl⟩ := hstage.consume hk
  have hd : r.delivered = false := hin r hcur
  refine h.setCurrent (.done _ _ _ _ _ (fun m hm => by cases hm) fun _ => hd) hnumber ?_ rfl ?_
  · simp [Control.awaited, Running.awaited, hcur, hd]
  · rw [hcur, Option.bind_some, hnone]

theorem ret (h : Correlated lib amqp_error_string2 net s)
    (hstep : step lib amqp_error_string2 net s (.ret i) = some s') : Correlated lib amqp_error_string2 net s' := by
  obtain ⟨r, d, hcur, hd, rfl⟩ := step_ret hstep
  obtain ⟨hstage, hnumber⟩ := (h.inSync i).control.current r hcur
  obtain ⟨hawaited, hdn, hdc, hown⟩ := hstage.ret hd
  refine h.setControl ((h.inSync i).control.ret (hdn.trans hnumber) hown) ?_ ?_
  · rw [Control.awaited, Control.awaited, hcur, Option.bind_some, hawaited]
    rfl
  · rw [Control.taken, Control.taken, hcur, Option.bind_some, ← hdc, List.filterMap_cons]
    cases d.consumed <;> rfl

theorem take (h : Correlated lib amqp_error_string2 net s) {n : Nat}
    (hstep : step lib amqp_error_string2 net s (.take n) = some s') : Correlated lib amqp_error_string2 net s' := by
  obtain ⟨m, rest, hperm, rfl⟩ := step_take hstep
  have hrequests : (Network.requests net
      { s.setQueue net.listener rest with working := s.working ++ [m] }).Perm (s.requests net) := by
    have hsplit : (rest ++ (s.working ++ [m])).Perm (m :: rest ++ s.working) := by
      rw [← List.append_assoc]
      exact (List.perm_append_singleton m _)
    rw [Network.requests, Network.setQueue_self]
    exact hsplit.trans (hperm.symm.append_right _)
  refine ⟨fun j => ?_, fun m' hm' => h.requests m' (hrequests.mem_iff.mp hm'), h.nodup⟩
  exact (h.inSync j).congr rfl (hrequests.filter _) (Network.setQueue_of_ne _ _ (net.response_ne_listener j)) rfl

theorem not_replied (h : Correlated lib amqp_error_string2 net s) {m : Message ι} (hm : m ∈ s.requests net) :
    m.origin ∉ s.replied.map Message.origin := by
  intro hr
  obtain ⟨m', hm', ho⟩ := List.mem_map.mp hr
  have hout : m ∈ s.outstanding net m.origin.1 := List.mem_filter.mpr ⟨hm, by simp⟩
  have hflight : m.origin ∈ s.flight net m.origin.1 := List.mem_map_of_mem (List.mem_append_left _ hout)
  obtain ⟨hone, r, hcur, -, hnone, hnumber⟩ := (h.inSync m.origin.1).awaited_of_mem hflight
  have hok := (h.inSync m.origin.1).control
  have hmem := (h.inSync m.origin.1).account.mem_iff.mpr (List.mem_filter.mpr ⟨hm', by simp [ho]⟩)
  rcases List.mem_append.mp hmem with hq | ht
  · -- the request and the reply would both be in flight
    have hlen := congrArg List.length hone
    have h1 := List.length_pos_of_mem hout
    have h2 := List.length_pos_of_mem hq
    simp only [Network.flight, List.length_map, List.length_append, List.length_singleton] at hlen
    omega
  · -- a call that returned has a smaller number
    rw [Control.taken, hcur, Option.bind_some, hnone] at ht
    obtain ⟨d, hd, hdc⟩ := List.mem_filterMap.mp ht
    have hlt : d.number ∈ (List.range (s.control m.origin.1).finished.length).reverse :=
      hok.numbers ▸ List.mem_map_of_mem hd
    rw [List.mem_reverse, List.mem_range] at hlt
    have horigin := (hok.finished d hd m' hdc).1
    rw [ho, hnumber, Prod.mk.injEq] at horigin
    have := (hok.current r hcur).2
    omega

theorem answer (h : Correlated lib amqp_error_string2 net s) {n : Nat} {body : Bytes}
    (hstep : step lib amqp_error_string2 net s (.answer n body) = some s') :
    Correlated lib amqp_error_string2 net s' := by
  obtain ⟨m, rest, queue, hperm, hqueue, rfl⟩ := step_answer hstep
  have hrequests : (s.requests net).Perm (m :: (s.queue net.listener ++ rest)) :=
    (hperm.append_left _).trans List.perm_middle
  have hm : m ∈ s.requests net := hrequests.mem_iff.mpr List.mem_cons_self
  obtain rfl : net.response m.origin.1 = queue := Option.some.inj ((h.requests m hm).symm.trans hqueue)
  set t : Network ι := { s with working := rest, replied := s.replied ++ [m.reply body] }
  have hlistener : (t.push (net.response m.origin.1) (m.reply body)).requests net = s.queue net.listener ++ rest := by
    rw [Network.requests, Network.push_of_ne _ _ (net.response_ne_listener m.origin.1).symm]
    rfl
  refine ⟨fun j => ?_, fun m' hm' => ?_, ?_⟩
  · rcases eq_or_ne j m.origin.1 with rfl | hne
    · refine ⟨(h.inSync _).control, ?_, ?_⟩
      · refine List.Perm.trans ?_ (h.inSync m.origin.1).flight
        refine List.Perm.trans ?_ (Network.flight_perm m.origin.1 hrequests).symm
        rw [Network.flight, Network.outstanding, hlistener, Network.push_self, List.filter_cons_of_pos (by simp),
          ← List.append_assoc, List.map_append, List.cons_append, List.map_cons]
        exact List.perm_append_singleton _ _
      · rw [Network.push_self, Network.push_replied, List.filter_append, List.filter_cons_of_pos (by simp),
          List.filter_nil, List.append_assoc]
        refine (List.perm_middle.trans ?_).trans (List.perm_append_singleton _ _).symm
        exact (h.inSync m.origin.1).account.cons _
    · refine (h.inSync j).congr rfl ?_ (Network.push_of_ne _ _ (net.response_ne hne)) ?_
      · rw [Network.outstanding, hlistener]
        refine List.Perm.trans ?_ (hrequests.filter _).symm
        rw [List.filter_cons_of_neg (by simpa using hne.symm)]
      · rw [Network.push_replied, List.filter_append, List.filter_cons_of_neg fun hp => hne (of_decide_eq_true hp).symm,
          List.filter_nil, List.append_nil]
  · rw [hlistener] at hm'
    exact h.requests m' (hrequests.mem_iff.mpr (List.mem_cons_of_mem _ hm'))
  · rw [Network.push_replied, List.map_append]
    refine List.nodup_append.mpr ⟨h.nodup, List.pairwise_singleton _ _, fun o ho o' ho' he => h.not_replied hm ?_⟩
    obtain rfl : o' = m.origin := List.mem_singleton.mp ho'
    exact he ▸ ho

end Correlated

theorem correlated_init : Correlated lib amqp_error_string2 net Network.init where
  inSync i :=
    { control := ⟨(by intro r hr; cases hr), rfl, (by intro d hd; cases hd)⟩, flight := .refl _, account := .refl _ }
  requests m hm := by cases hm
  nodup := List.Pairwise.nil

theorem correlated_step (h : Correlated lib amqp_error_string2 net s) {l : Label ι} (hin : WaitsForReply s l)
    (hstep : step lib amqp_error_string2 net s l = some s') : Correlated lib amqp_error_string2 net s' := by
  cases l with
  | call => exact h.call hstep
  | publish => exact h.publish hin hstep
  | consume => exact h.consume hstep
  | consumeError => exact h.consumeError hin hstep
  | ret => exact h.ret hstep
  | take => exact h.take hstep
  | answer => exact h.answer hstep

end Step

/-! ## Runs -/

section Runs

variable {ι : Type} [DecidableEq ι] {lib : JsonLib} {amqp_error_string2 : Int → Bytes} {net : Clients ι}
  {s : Network ι} {ls : List (Label ι)}

theorem correlated_of_run (hwaits : AllSteps (step lib amqp_error_string2 net) WaitsForReply Network.init ls)
    (hrun : steps (step lib amqp_error_string2 net) Network.init ls = some s) :
    Correlated lib amqp_error_string2 net s :=
  steps_invariant _ (fun _ _ _ h hin hstep => correlated_step h hin hstep) correlated_init hwaits hrun

/-- What a call consumed is the reply to its own request, and what it returns is made of that reply. -/
structure RepliesOwn (amqp_error_string2 : Int → Bytes) (s : Network ι) : Prop where
  current : ∀ i r, (s.control i).current = some r → ∀ m, r.consumed = some m → m ∈ s.replied ∧ m.origin = (i, r.number)
  finished : ∀ i, ∀ d ∈ (s.control i).finished, ∀ m, d.consumed = some m →
    m ∈ s.replied ∧ m.origin = (i, d.number) ∧ d.value = finish amqp_error_string2 d.op (.ok m.body)
  once : (s.replied.map Message.origin).Nodup

theorem InSync.mem_replied {i : ι} (h : InSync lib amqp_error_string2 net s i) {m : Message ι}
    (hm : m ∈ (s.control i).taken) : m ∈ s.replied :=
  List.mem_of_mem_filter (h.account.mem_iff.mp (List.mem_append_right _ hm))

/-- In a run in which every call whose request reaches the broker consumes a message, each consumes the reply to its
own request. -/
theorem repliesOwn_of_run (hwaits : AllSteps (step lib amqp_error_string2 net) WaitsForReply Network.init ls)
    (hrun : steps (step lib amqp_error_string2 net) Network.init ls = some s) : RepliesOwn amqp_error_string2 s := by
  have h := correlated_of_run hwaits hrun
  refine ⟨fun i r hr m hm => ⟨(h.inSync i).mem_replied ?_, ?_⟩, fun i d hd m hm => ⟨(h.inSync i).mem_replied ?_, ?_⟩,
    h.nodup⟩
  · rw [Control.taken, hr, Option.bind_some, hm]
    exact List.mem_cons_self
  · exact ((h.inSync i).control.current r hr).1.own hm
  · exact List.mem_append_right _ (List.mem_filterMap.mpr ⟨d, hd, hm⟩)
  · exact (h.inSync i).control.finished d hd m hm

/-- One client of a small library. -/
def sampleClients : Clients Unit where
  client _ := sampleClient
  listener := str "listener"
  shares _ := by decide
  noNul _ := by decide
  distinct _ _ _ := rfl
  notListener _ := by decide

/-- A cancellation that was not sent, and a listing. -/
def sampleRun : List (Label Unit) := [
  .call () (.del (str "job/1")), .publish () (-9) false, .ret (),
  .call () (.get (str "resources")), .publish () 0 true, .take 0, .answer 0 (str "[]"), .consume (), .ret ()]

theorem repliesOwn_sampleRun :
    ∃ s, steps (step sampleLib Transport.socketError sampleClients) Network.init sampleRun = some s ∧
      RepliesOwn Transport.socketError s := by
  obtain ⟨s, hs⟩ := Option.isSome_iff_exists.mp
    (show (steps (step sampleLib Transport.socketError sampleClients) Network.init sampleRun).isSome by decide)
  refine ⟨s, hs, repliesOwn_of_run (AllSteps.of_forall _ (fun l hl s => ?_) _) hs⟩
  simp only [sampleRun, List.mem_cons, List.not_mem_nil, or_false] at hl
  rcases hl with rfl | rfl | rfl | rfl | rfl | rfl | rfl | rfl | rfl
  all_goals first | trivial | (intro r _ _; cases r.op <;> rfl) | (intro r _ h; cases h)

/-- A listing whose reply is late, and the information on a resource. -/
def lateRun : List (Label Unit) := [
  .call () (.get (str "resources")), .publish () 0 true, .consumeError () (-9), .ret (),
  .call () (.get (str "resources/A")), .publish () 0 true, .take 0, .answer 0 (str "[]"), .consume (), .ret ()]

/-- The second call of this run returns the reply to the request of the first. -/
theorem not_repliesOwn_lateRun :
    ∃ s, steps (step sampleLib Transport.socketError sampleClients) Network.init lateRun = some s ∧
      ¬ RepliesOwn Transport.socketError s := by
  have hrun : (steps (step sampleLib Transport.socketError sampleClients) Network.init lateRun).map (fun s =>
      (s.control ()).finished.map fun d => (d.number, d.consumed)) =
        some [(1, some ⟨((), 0), str "[]"⟩), (0, none)] := by
    decide
  obtain ⟨s, hs, hfinished⟩ := Option.map_eq_some_iff.mp hrun
  refine ⟨s, hs, fun h => ?_⟩
  obtain ⟨d, hd, hde⟩ := List.mem_map.mp (hfinished ▸ List.mem_cons_self)
  obtain ⟨hnumber, hconsumed⟩ := Prod.mk.inj hde
  have := (h.finished () d hd _ hconsumed).2.1
  rw [hnumber] at this
  exact absurd this (by decide)

end Runs

end MqssClient
