import MqssClient.Hpc.Correlation

/-!
# Confinement

A call that gives up may leave a request under way, and its reply to a later call. Whatever fails, this stays between a
client and its own messages.

* `Running.Phase`: the points of a call when anything may fail;
* `Network.log`: the calls whose requests reached the broker;
* `Confined`: the invariant, kept by every step; `contained_of_run`: what it says of a run;
* `Label.InOrder`: a listener that takes and answers requests as they come; `log_pairwise_of_run`: the log is then in the
  order of the calls.
-/

namespace MqssClient

open Foundations MQSSHPCClient

section Invariant

variable {ι : Type} (lib : JsonLib) (amqp_error_string2 : Int → Bytes) (net : Clients ι)

/-- A call returned what it makes of the reply to a request of its client, its own or one made before. -/
def Took (i : ι) (op : BaseCall) (number : Nat) (value : BaseAns op) (m : Message ι) : Prop :=
  m.origin.1 = i ∧ m.origin.2 ≤ number ∧ value = finish amqp_error_string2 op (.ok m.body)

/-- A call is ready to publish, waits for a message, or is done, with or without one. -/
inductive Running.Phase (i : ι) : Running ι → Prop where
  | ready (op : BaseCall) (number : Nat) :
      Phase i ⟨op, number, (net.client i).run lib amqp_error_string2 op, false, none⟩
  | waiting (op : BaseCall) (number : Nat) (delivered : Bool) :
      Phase i ⟨op, number, .call (AmqpCall.consume_message (net.response i)) fun reply =>
        .pure (finish amqp_error_string2 op reply), delivered, none⟩
  | done (op : BaseCall) (number : Nat) (value : BaseAns op) (delivered : Bool) (consumed : Option (Message ι))
      (took : ∀ m, consumed = some m → Took amqp_error_string2 i op number value m) :
      Phase i ⟨op, number, .pure value, delivered, consumed⟩

namespace Control

/-- The calls of a client are numbered from zero, and took replies to requests of this client. -/
structure Phased (i : ι) (c : Control ι) : Prop where
  current : ∀ r, c.current = some r → r.Phase lib amqp_error_string2 net i ∧ r.number = c.finished.length
  numbers : c.finished.map Completed.number = (List.range c.finished.length).reverse
  finished : ∀ d ∈ c.finished, ∀ m, d.consumed = some m → Took amqp_error_string2 i d.op d.number d.value m

/-- A call may have sent its request: it has returned, or it is under way and its request was delivered. -/
def Sent (c : Control ι) (n : Nat) : Prop :=
  n < c.finished.length ∨ ∃ r, c.current = some r ∧ r.delivered = true ∧ r.number = n

end Control

/-- The calls whose requests reached the broker: those answered, those the listener works on, those in its queue. -/
def Network.log (s : Network ι) : List (ι × Nat) :=
  (s.replied ++ (s.working ++ s.queue net.listener)).map Message.origin

variable [DecidableEq ι]

/-- The replies to the requests of a client are those its calls consumed and then those in its queue, in the order in
which they were published. Every request names the queue of its client, and was sent by one of its calls, once. -/
structure Confined (s : Network ι) : Prop where
  control : ∀ i, (s.control i).Phased lib amqp_error_string2 net i
  requests : ∀ m ∈ s.requests net, responseQueue lib m.body = some (net.response m.origin.1)
  account : ∀ i, (s.control i).taken.reverse ++ s.queue (net.response i) = s.replied.filter fun m => m.origin.1 = i
  sent : ∀ i n, (i, n) ∈ s.log net → (s.control i).Sent n
  awaited : ∀ i, ∀ n ∈ (s.control i).awaited, (i, n) ∈ s.flight net i
  nodup : (s.log net).Nodup

end Invariant

/-! ## The points of a call -/

section Phase

variable {ι : Type} {lib : JsonLib} {amqp_error_string2 : Int → Bytes} {net : Clients ι} {i : ι} {r : Running ι}

namespace Running

theorem phase_afterSend (op : BaseCall) (number : Nat) (status : Int) (delivered : Bool) :
    Phase lib amqp_error_string2 net i
      ⟨op, number, afterSend amqp_error_string2 (net.client i) op status, delivered, none⟩ := by
  have hname : c_str (net.client i).mResponseQueueName = net.response i := c_str_response i
  unfold afterSend
  split_ifs
  · rw [hname]
    exact Phase.waiting op number delivered
  · exact Phase.done op number _ delivered none fun m hm => by cases hm

theorem Phase.publish {queue body : Bytes} {k : Int → Bool → Running ι} (h : r.Phase lib amqp_error_string2 net i)
    (hp : r.publish = some (queue, body, k)) :
    queue = net.listener ∧ responseQueue lib body = some (net.response i) ∧ r.delivered = false ∧ r.consumed = none ∧
      k = fun status delivered =>
        ⟨r.op, r.number, afterSend amqp_error_string2 (net.client i) r.op status, delivered, none⟩ := by
  cases h with
  | waiting => cases hp
  | done => cases hp
  | ready op number =>
    have hstage : Stage lib amqp_error_string2 net i _ := .ready op number
    obtain ⟨hqueue, hbody, hd, hc, -⟩ := hstage.publish hp
    exact ⟨hqueue, hbody, hd, hc, funext fun status => funext fun delivered => (hstage.envelope hp).2 status delivered⟩

theorem Phase.consume {queue : Bytes} {k : Except Int Bytes → Option (Message ι) → Running ι}
    (h : r.Phase lib amqp_error_string2 net i) (hc : r.consume = some (queue, k)) :
    queue = net.response i ∧ r.consumed = none ∧
      k = fun reply m => ⟨r.op, r.number, .pure (finish amqp_error_string2 r.op reply), r.delivered, m⟩ := by
  cases h with
  | ready op number => exact Stage.consume (.ready op number) hc
  | waiting op number delivered =>
    have hstage : Stage lib amqp_error_string2 net i _ := .waiting op number delivered
    exact hstage.consume hc
  | done => cases hc

theorem Phase.ret {d : Completed ι} (h : r.Phase lib amqp_error_string2 net i) (hr : r.ret = some d) :
    d.number = r.number ∧ d.consumed = r.consumed ∧
      ∀ m, d.consumed = some m → Took amqp_error_string2 i d.op d.number d.value m := by
  cases h with
  | ready op number =>
    obtain ⟨-, hnumber, hconsumed, -⟩ := Stage.ret (.ready op number) hr
    refine ⟨hnumber, hconsumed, fun m hm => ?_⟩
    rw [hconsumed] at hm
    cases hm
  | waiting => cases hr
  | done op number value delivered consumed took =>
    cases hr
    exact ⟨rfl, rfl, took⟩

end Running

namespace Control

variable {c : Control ι}

theorem Phased.setCurrent (h : c.Phased lib amqp_error_string2 net i) (hphase : r.Phase lib amqp_error_string2 net i)
    (hnumber : r.number = c.finished.length) :
    Control.Phased lib amqp_error_string2 net i { c with current := some r } where
  current r' hr' := by
    cases hr'
    exact ⟨hphase, hnumber⟩
  numbers := h.numbers
  finished := h.finished

theorem Phased.ret (h : c.Phased lib amqp_error_string2 net i) {d : Completed ι}
    (hnumber : d.number = c.finished.length)
    (htook : ∀ m, d.consumed = some m → Took amqp_error_string2 i d.op d.number d.value m) :
    Control.Phased lib amqp_error_string2 net i ⟨none, d :: c.finished⟩ where
  current r' hr' := by cases hr'
  numbers := by
    rw [List.map_cons, List.length_cons, List.range_succ, List.reverse_append, h.numbers, hnumber]
    rfl
  finished d' hd' := by
    rcases List.mem_cons.mp hd' with rfl | hd'
    · exact htook
    · exact h.finished d' hd'

theorem mem_awaited {n : Nat} : n ∈ c.awaited ↔
    ∃ r, c.current = some r ∧ r.delivered = true ∧ r.consumed = none ∧ r.number = n := by
  rw [awaited, Option.mem_def, Option.bind_eq_some_iff]
  refine exists_congr fun r => and_congr_right fun _ => ?_
  rw [Running.awaited, Option.ite_none_right_eq_some, Option.some_inj, and_assoc]

theorem taken_setCurrent (r' : Running ι) (hr : c.current = some r) (hconsumed : r'.consumed = r.consumed) :
    Control.taken { c with current := some r' } = c.taken := by
  rw [taken, taken, hr, Option.bind_some, Option.bind_some, hconsumed]

/-- A call that goes on has sent no less. -/
theorem Sent.setCurrent {n : Nat} (h : c.Sent n) {r' : Running ι} (hr : c.current = some r)
    (hd : r'.delivered = r.delivered) (hnumber : r'.number = r.number) :
    Control.Sent { c with current := some r' } n := by
  refine h.imp_right ?_
  rintro ⟨r, hr', hd', rfl⟩
  cases hr.symm.trans hr'
  exact ⟨r', rfl, hd.trans hd', hnumber⟩

/-- A request that is known of was sent by this call or by one before. -/
theorem Phased.le_of_sent (h : c.Phased lib amqp_error_string2 net i) (hr : c.current = some r) {n : Nat}
    (hn : c.Sent n) : n ≤ r.number := by
  have hnumber := (h.current r hr).2
  rcases hn with hlt | ⟨r', hr', -, rfl⟩
  · omega
  · obtain rfl : r = r' := Option.some.inj (hr.symm.trans hr')
    exact le_rfl

/-- Before a call has sent its request, it was sent by a call before. -/
theorem Phased.lt_of_sent (h : c.Phased lib amqp_error_string2 net i) (hr : c.current = some r)
    (hd : r.delivered = false) {n : Nat} (hn : c.Sent n) : n < r.number := by
  have hnumber := (h.current r hr).2
  rcases hn with hlt | ⟨r', hr', hd', -⟩
  · omega
  · obtain rfl : r = r' := Option.some.inj (hr.symm.trans hr')
    rw [hd] at hd'
    cases hd'

end Control

end Phase

/-! ## Steps -/

section Step

variable {ι : Type} {lib : JsonLib} {amqp_error_string2 : Int → Bytes} {net : Clients ι} {s s' : Network ι} {i : ι}

theorem Network.log_perm : (s.log net).Perm ((s.requests net ++ s.replied).map Message.origin) :=
  (List.perm_append_comm.trans (List.perm_append_comm.append_right _)).map _

theorem Network.log_push (m : Message ι) : (s.push net.listener m).log net = s.log net ++ [m.origin] := by
  rw [Network.log, Network.push_self]
  change (s.replied ++ (s.working ++ (s.queue net.listener ++ [m]))).map Message.origin = _
  rw [← List.append_assoc s.working, ← List.append_assoc, List.map_append]
  rfl

/-- What a client finds in its queue is none of the requests. -/
theorem Network.requests_setQueue (ms : List (Message ι)) :
    (s.setQueue (net.response i) ms).requests net = s.requests net := by
  rw [Network.requests, Network.setQueue_of_ne _ _ (net.response_ne_listener i).symm]
  rfl

theorem Network.log_setQueue (ms : List (Message ι)) : (s.setQueue (net.response i) ms).log net = s.log net := by
  rw [Network.log, Network.setQueue_of_ne _ _ (net.response_ne_listener i).symm]
  rfl

variable [DecidableEq ι]

theorem Network.mem_flight {n : Nat} : (i, n) ∈ s.flight net i ↔
    (i, n) ∈ (s.requests net).map Message.origin ∨ (i, n) ∈ (s.queue (net.response i)).map Message.origin := by
  rw [Network.flight, List.map_append, List.mem_append, Network.outstanding]
  refine or_congr_left ⟨fun h => ?_, fun h => ?_⟩
  · obtain ⟨m, hm, ho⟩ := List.mem_map.mp h
    exact ho ▸ List.mem_map_of_mem (List.mem_of_mem_filter hm)
  · obtain ⟨m, hm, ho⟩ := List.mem_map.mp h
    exact ho ▸ List.mem_map_of_mem (List.mem_filter.mpr ⟨hm, by simp [ho]⟩)

/-- What holds of the other clients, and of the state to which one goes on, holds of all clients. -/
theorem Network.forall_setControl {P : ι → Control ι → Prop} {c : Control ι} (hc : P i c)
    (h : ∀ j, j ≠ i → P j (s.control j)) (j : ι) : P j ((s.setControl i c).control j) := by
  rcases eq_or_ne j i with rfl | hne
  · rwa [Network.setControl_self]
  · rw [Network.setControl_of_ne _ _ hne]
    exact h j hne

namespace Confined

/-- A client that goes on by itself, with the same messages consumed and no request more under way. -/
theorem setControl (h : Confined lib amqp_error_string2 net s) {c : Control ι}
    (hc : c.Phased lib amqp_error_string2 net i) (htaken : c.taken = (s.control i).taken)
    (hsent : ∀ n, (s.control i).Sent n → c.Sent n) (hawaited : ∀ n ∈ c.awaited, n ∈ (s.control i).awaited) :
    Confined lib amqp_error_string2 net (s.setControl i c) where
  control := Network.forall_setControl hc fun j _ => h.control j
  requests := h.requests
  account := by
    refine Network.forall_setControl (P := fun j c => c.taken.reverse ++ s.queue (net.response j) = _) ?_
      fun j _ => h.account j
    rw [htaken]
    exact h.account i
  sent := Network.forall_setControl (P := fun j c => ∀ n, (j, n) ∈ s.log net → c.Sent n)
    (fun n hn => hsent n (h.sent i n hn)) fun j _ => h.sent j
  awaited := Network.forall_setControl (P := fun j c => ∀ n ∈ c.awaited, (j, n) ∈ s.flight net j)
    (fun n hn => h.awaited i n (hawaited n hn)) fun j _ => h.awaited j
  nodup := h.nodup

theorem call (h : Confined lib amqp_error_string2 net s) {op : BaseCall}
    (hstep : step lib amqp_error_string2 net s (.call i op) = some s') : Confined lib amqp_error_string2 net s' := by
  obtain ⟨hcur, rfl⟩ := step_call hstep
  refine h.setControl ((h.control i).setCurrent (.ready op _) rfl) ?_ (fun n hn => ?_) fun n hn => ?_
  · rw [Control.taken, Control.taken, hcur]
    rfl
  · rcases hn with hlt | ⟨r, hr, -⟩
    · exact Or.inl hlt
    · rw [hcur] at hr
      cases hr
  · obtain ⟨r, ⟨⟩, ⟨⟩, -⟩ := Control.mem_awaited.mp hn

/-- A client that goes on with a request sent that was not known of. -/
theorem push (h : Confined lib amqp_error_string2 net s) {c : Control ι} {n : Nat} {body : Bytes}
    (hc : c.Phased lib amqp_error_string2 net i) (htaken : c.taken = (s.control i).taken)
    (hbody : responseQueue lib body = some (net.response i)) (hnew : ¬ (s.control i).Sent n) (hn : c.Sent n)
    (hsent : ∀ k, (s.control i).Sent k → c.Sent k) (hawaited : ∀ k ∈ c.awaited, k = n) :
    Confined lib amqp_error_string2 net ((s.push net.listener ⟨(i, n), body⟩).setControl i c) := by
  have hlog : (s.push net.listener ⟨(i, n), body⟩).log net = s.log net ++ [(i, n)] := Network.log_push _
  have hrequests := Network.requests_push net s ⟨(i, n), body⟩
  have hresponse : ∀ j, (s.push net.listener ⟨(i, n), body⟩).queue (net.response j) = s.queue (net.response j) :=
    fun j => Network.push_of_ne s _ (net.response_ne_listener j)
  set t := s.push net.listener ⟨(i, n), body⟩
  refine ⟨Network.forall_setControl hc fun j _ => h.control j, fun m hm => ?_, ?_, ?_, ?_, ?_⟩
  · rcases List.mem_cons.mp (hrequests.mem_iff.mp hm) with rfl | hm
    · exact hbody
    · exact h.requests m hm
  · refine Network.forall_setControl (s := t) (P := fun j c => c.taken.reverse ++ t.queue (net.response j) = _) ?_
      fun j _ => ?_
    · rw [hresponse, htaken]
      exact h.account i
    · rw [hresponse]
      exact h.account j
  · refine Network.forall_setControl (s := t) (P := fun j c => ∀ k, (j, k) ∈ t.log net → c.Sent k) (fun k hk => ?_)
      fun j hne k hk => ?_
    · rw [hlog, List.mem_append, List.mem_singleton] at hk
      rcases hk with hk | hk
      · exact hsent k (h.sent i k hk)
      · cases hk
        exact hn
    · rw [hlog, List.mem_append, List.mem_singleton] at hk
      rcases hk with hk | hk
      · exact h.sent j k hk
      · exact absurd (Prod.mk.inj hk).1 hne
  · have hmem : ∀ o, o = (i, n) ∨ o ∈ (s.requests net).map Message.origin → o ∈ (t.requests net).map Message.origin :=
      fun o ho => (hrequests.map _).mem_iff.mpr (List.mem_cons.mpr ho)
    refine Network.forall_setControl (s := t) (P := fun j c => ∀ k ∈ c.awaited, (j, k) ∈ t.flight net j)
      (fun k hk => ?_) fun j _ k hk => ?_
    · exact Network.mem_flight.mpr (Or.inl (hmem _ (Or.inl (by rw [hawaited k hk]))))
    · refine Network.mem_flight.mpr ?_
      rw [hresponse]
      exact (Network.mem_flight.mp (h.awaited j k hk)).imp_left fun hk => hmem _ (Or.inr hk)
  · refine hlog ▸ List.nodup_append.mpr ⟨h.nodup, List.pairwise_singleton _ _, fun o ho o' ho' he => hnew ?_⟩
    obtain rfl := List.mem_singleton.mp ho'
    exact h.sent i n (he ▸ ho)

theorem publish (h : Confined lib amqp_error_string2 net s) {status : Int} {delivered : Bool}
    (hstep : step lib amqp_error_string2 net s (.publish i status delivered) = some s') :
    Confined lib amqp_error_string2 net s' := by
  obtain ⟨r, queue, body, k, hcur, hk, -, rfl⟩ := step_publish hstep
  obtain ⟨hphase, hnumber⟩ := (h.control i).current r hcur
  obtain ⟨rfl, hbody, hd, hnone, rfl⟩ := hphase.publish hk
  have hok := (h.control i).setCurrent (Running.phase_afterSend r.op r.number status delivered) hnumber
  have htaken := Control.taken_setCurrent ⟨r.op, r.number, afterSend amqp_error_string2 (net.client i) r.op status,
    delivered, none⟩ hcur hnone.symm
  have hearlier : ∀ n, (s.control i).Sent n → n < r.number := fun n hn => (h.control i).lt_of_sent hcur hd hn
  cases delivered with
  | false =>
    refine h.setControl hok htaken (fun n hn => Or.inl (hnumber ▸ hearlier n hn)) fun n hn => ?_
    obtain ⟨r, ⟨⟩, ⟨⟩, -⟩ := Control.mem_awaited.mp hn
  | true =>
    rw [if_pos rfl, Network.setCurrent]
    refine h.push hok htaken hbody (fun hn => (hearlier _ hn).false) (Or.inr ⟨_, rfl, rfl, rfl⟩)
      (fun n hn => Or.inl (hnumber ▸ hearlier n hn)) fun n hn => ?_
    obtain ⟨r, ⟨⟩, -, -, rfl⟩ := Control.mem_awaited.mp hn
    rfl

/-- What a client finds in its queue is a reply to a request of its own. -/
theorem mem_replied_of_queue (h : Confined lib amqp_error_string2 net s) {m : Message ι} {rest : List (Message ι)}
    (hqueue : s.queue (net.response i) = m :: rest) : m ∈ s.replied ∧ m.origin.1 = i := by
  have hm : m ∈ (s.control i).taken.reverse ++ s.queue (net.response i) := by
    rw [hqueue]
    exact List.mem_append_right _ List.mem_cons_self
  rw [h.account i] at hm
  exact ⟨List.mem_of_mem_filter hm, of_decide_eq_true (List.mem_filter.mp hm).2⟩

/-- A consume takes the first reply from the client's own queue. -/
theorem consume (h : Confined lib amqp_error_string2 net s)
    (hstep : step lib amqp_error_string2 net s (.consume i) = some s') :
    Confined lib amqp_error_string2 net s' := by
  obtain ⟨r, queue, k, m, rest, hcur, hk, hqueue, rfl⟩ := step_consume hstep
  obtain ⟨hphase, hnumber⟩ := (h.control i).current r hcur
  obtain ⟨rfl, hnone, rfl⟩ := hphase.consume hk
  have haccount := h.account i
  rw [hqueue] at haccount
  obtain ⟨hreplied, horigin⟩ := h.mem_replied_of_queue hqueue
  have htook : Took amqp_error_string2 i r.op r.number (finish amqp_error_string2 r.op (.ok m.body)) m := by
    refine ⟨horigin, (h.control i).le_of_sent hcur (h.sent i _ ?_), rfl⟩
    rw [← horigin]
    exact List.mem_map_of_mem (List.mem_append_left _ hreplied)
  have hok := (h.control i).setCurrent (.done r.op r.number (finish amqp_error_string2 r.op (.ok m.body)) r.delivered
    (some m) fun m' hm' => Option.some.inj hm' ▸ htook) hnumber
  have hother : ∀ j, j ≠ i → (s.setQueue (net.response i) rest).queue (net.response j) = s.queue (net.response j) :=
    fun j hne => Network.setQueue_of_ne _ _ (net.response_ne hne)
  have hlog : (s.setQueue (net.response i) rest).log net = s.log net := Network.log_setQueue rest
  have hrequests : (s.setQueue (net.response i) rest).requests net = s.requests net := Network.requests_setQueue rest
  rw [Network.setCurrent]
  set t := s.setQueue (net.response i) rest
  refine ⟨Network.forall_setControl hok fun j _ => h.control j, fun m' hm' => h.requests m' (hrequests ▸ hm'), ?_, ?_,
    ?_, hlog ▸ h.nodup⟩
  · refine Network.forall_setControl (s := t) (P := fun j c => c.taken.reverse ++ t.queue (net.response j) = _) ?_
      fun j hne => ?_
    · have htaken : Control.taken ⟨some ⟨r.op, r.number, .pure (finish amqp_error_string2 r.op (.ok m.body)), r.delivered,
          some m⟩, (s.control i).finished⟩ = m :: (s.control i).taken := by
        rw [Control.taken, Control.taken, hcur, Option.bind_some, Option.bind_some, hnone]
        rfl
      refine (congrArg (fun l => l.reverse ++ t.queue (net.response i)) htaken).trans ?_
      rw [Network.setQueue_self, List.reverse_cons, List.append_assoc]
      exact haccount
    · rw [hother j hne]
      exact h.account j
  · exact Network.forall_setControl (s := t) (P := fun j c => ∀ n, (j, n) ∈ t.log net → c.Sent n)
      (fun n hn => (h.sent i n (hlog ▸ hn)).setCurrent hcur rfl rfl) fun j _ n hn => h.sent j n (hlog ▸ hn)
  · refine Network.forall_setControl (s := t) (P := fun j c => ∀ n ∈ c.awaited, (j, n) ∈ t.flight net j)
      (fun n hn => ?_) fun j hne n hn => ?_
    · obtain ⟨r, ⟨⟩, -, ⟨⟩, -⟩ := Control.mem_awaited.mp hn
    · refine Network.mem_flight.mpr ?_
      rw [hrequests, hother j hne]
      exact Network.mem_flight.mp (h.awaited j n hn)

/-- A call whose consume fails leaves what it waits for under way. -/
theorem consumeError (h : Confined lib amqp_error_string2 net s) {library_error : Int}
    (hstep : step lib amqp_error_string2 net s (.consumeError i library_error) = some s') :
    Confined lib amqp_error_string2 net s' := by
  obtain ⟨r, queue, k, hcur, hk, rfl⟩ := step_consumeError hstep
  obtain ⟨hphase, hnumber⟩ := (h.control i).current r hcur
  obtain ⟨-, hnone, rfl⟩ := hphase.consume hk
  refine h.setControl ((h.control i).setCurrent (.done _ _ _ _ _ fun m hm => by cases hm) hnumber) ?_
    (fun n hn => hn.setCurrent hcur rfl rfl) fun n hn => ?_
  · exact Control.taken_setCurrent _ hcur hnone.symm
  · obtain ⟨r', ⟨⟩, hd, -, rfl⟩ := Control.mem_awaited.mp hn
    exact Control.mem_awaited.mpr ⟨r, hcur, hd, hnone, rfl⟩

theorem ret (h : Confined lib amqp_error_string2 net s)
    (hstep : step lib amqp_error_string2 net s (.ret i) = some s') : Confined lib amqp_error_string2 net s' := by
  obtain ⟨r, d, hcur, hd, rfl⟩ := step_ret hstep
  obtain ⟨hphase, hnumber⟩ := (h.control i).current r hcur
  obtain ⟨hdn, hdc, htook⟩ := hphase.ret hd
  refine h.setControl ((h.control i).ret (hdn.trans hnumber) htook) ?_ (fun n hn => Or.inl ?_) fun n hn => ?_
  · rw [Control.taken, Control.taken, hcur, Option.bind_some, ← hdc, List.filterMap_cons]
    cases d.consumed <;> rfl
  · have := (h.control i).le_of_sent hcur hn
    rw [List.length_cons]
    omega
  · obtain ⟨r', ⟨⟩, -⟩ := Control.mem_awaited.mp hn

/-- A request taken is still under way, and nothing else changes. -/
theorem requests_take {n : Nat} (hstep : step lib amqp_error_string2 net s (.take n) = some s') :
    (s'.requests net).Perm (s.requests net) ∧ s'.replied = s.replied ∧ s'.control = s.control ∧
      ∀ j, s'.queue (net.response j) = s.queue (net.response j) := by
  obtain ⟨m, rest, hperm, rfl⟩ := step_take hstep
  refine ⟨?_, rfl, rfl, fun j => Network.setQueue_of_ne _ _ (net.response_ne_listener j)⟩
  have hsplit : (rest ++ (s.working ++ [m])).Perm (m :: rest ++ s.working) := by
    rw [← List.append_assoc]
    exact List.perm_append_singleton m _
  rw [Network.requests, Network.setQueue_self]
  exact hsplit.trans (hperm.symm.append_right _)

/-- An answer goes to the queue of the client whose request it answers. -/
theorem requests_answer (h : Confined lib amqp_error_string2 net s) {n : Nat} {body : Bytes}
    (hstep : step lib amqp_error_string2 net s (.answer n body) = some s') :
    ∃ m, (s.requests net).Perm (m :: s'.requests net) ∧ s'.replied = s.replied ++ [m.reply body] ∧
      s'.control = s.control ∧ s'.queue (net.response m.origin.1) = s.queue (net.response m.origin.1) ++ [m.reply body] ∧
      ∀ j, j ≠ m.origin.1 → s'.queue (net.response j) = s.queue (net.response j) := by
  obtain ⟨m, rest, queue, hperm, hqueue, rfl⟩ := step_answer hstep
  have hrequests : (s.requests net).Perm (m :: (s.queue net.listener ++ rest)) :=
    (hperm.append_left _).trans List.perm_middle
  have hm : m ∈ s.requests net := hrequests.mem_iff.mpr List.mem_cons_self
  obtain rfl : net.response m.origin.1 = queue := Option.some.inj ((h.requests m hm).symm.trans hqueue)
  refine ⟨m, ?_, rfl, rfl, Network.push_self .., fun j hne => Network.push_of_ne _ _ (net.response_ne hne)⟩
  refine hrequests.trans (.of_eq ?_)
  rw [Network.requests, Network.push_of_ne _ _ (net.response_ne_listener m.origin.1).symm]
  rfl

theorem log_take {n : Nat} (hstep : step lib amqp_error_string2 net s (.take n) = some s') :
    (s'.log net).Perm (s.log net) := by
  obtain ⟨hrequests, hreplied, -⟩ := requests_take hstep
  refine Network.log_perm.trans (List.Perm.trans ?_ Network.log_perm.symm)
  rw [hreplied]
  exact (hrequests.append_right _).map _

theorem log_answer (h : Confined lib amqp_error_string2 net s) {n : Nat} {body : Bytes}
    (hstep : step lib amqp_error_string2 net s (.answer n body) = some s') : (s'.log net).Perm (s.log net) := by
  obtain ⟨m, hrequests, hreplied, -⟩ := h.requests_answer hstep
  refine Network.log_perm.trans (List.Perm.trans ?_ Network.log_perm.symm)
  rw [hreplied, ← List.append_assoc, List.map_append]
  exact (List.perm_append_singleton _ _).trans ((hrequests.symm.append_right s.replied).map Message.origin)

theorem take (h : Confined lib amqp_error_string2 net s) {n : Nat}
    (hstep : step lib amqp_error_string2 net s (.take n) = some s') : Confined lib amqp_error_string2 net s' := by
  have hlog := log_take hstep
  obtain ⟨hrequests, hreplied, hcontrol, hresponse⟩ := requests_take hstep
  refine ⟨fun j => hcontrol ▸ h.control j, fun m hm => h.requests m (hrequests.mem_iff.mp hm), fun j => ?_,
    fun j n hn => hcontrol ▸ h.sent j n (hlog.mem_iff.mp hn), fun j n hn => Network.mem_flight.mpr ?_,
    hlog.nodup_iff.mpr h.nodup⟩
  · rw [hcontrol, hresponse, hreplied]
    exact h.account j
  · rw [hresponse]
    exact (Network.mem_flight.mp (h.awaited j n (hcontrol ▸ hn))).imp_left (hrequests.map _).mem_iff.mpr

theorem answer (h : Confined lib amqp_error_string2 net s) {n : Nat} {body : Bytes}
    (hstep : step lib amqp_error_string2 net s (.answer n body) = some s') :
    Confined lib amqp_error_string2 net s' := by
  have hlog := h.log_answer hstep
  obtain ⟨m, hrequests, hreplied, hcontrol, hself, hother⟩ := h.requests_answer hstep
  refine ⟨fun j => hcontrol ▸ h.control j, fun m' hm' => h.requests m' ?_, fun j => ?_,
    fun j n hn => hcontrol ▸ h.sent j n (hlog.mem_iff.mp hn), fun j n hn => Network.mem_flight.mpr ?_,
    hlog.nodup_iff.mpr h.nodup⟩
  · exact hrequests.mem_iff.mpr (List.mem_cons_of_mem _ hm')
  · rw [hcontrol, hreplied, List.filter_append, ← h.account j]
    rcases eq_or_ne j m.origin.1 with rfl | hne
    · rw [hself, List.filter_cons_of_pos (by simp), List.filter_nil, List.append_assoc]
    · rw [hother j hne, List.filter_cons_of_neg fun hp => hne (of_decide_eq_true hp).symm, List.filter_nil,
        List.append_nil]
  · have hn := Network.mem_flight.mp (h.awaited j n (hcontrol ▸ hn))
    rw [(hrequests.map _).mem_iff, List.map_cons, List.mem_cons] at hn
    rcases eq_or_ne j m.origin.1 with rfl | hne
    · rw [hself]
      rcases hn with (hn | hn) | hn
      · exact Or.inr (List.mem_map.mpr ⟨m.reply body, List.mem_append_right _ List.mem_cons_self, hn.symm⟩)
      · exact Or.inl hn
      · exact Or.inr (List.map_subset _ (List.subset_append_left ..) hn)
    · rw [hother j hne]
      rcases hn with (hn | hn) | hn
      · exact absurd (congrArg Prod.fst hn) hne
      · exact Or.inl hn
      · exact Or.inr hn

end Confined

theorem confined_init : Confined lib amqp_error_string2 net Network.init where
  control i := ⟨(by intro r hr; cases hr), rfl, (by intro d hd; cases hd)⟩
  requests m hm := by cases hm
  account i := rfl
  sent i n hn := by cases hn
  awaited i n hn := by cases hn
  nodup := List.Pairwise.nil

theorem confined_step (h : Confined lib amqp_error_string2 net s) {l : Label ι}
    (hstep : step lib amqp_error_string2 net s l = some s') : Confined lib amqp_error_string2 net s' := by
  cases l with
  | call => exact h.call hstep
  | publish => exact h.publish hstep
  | consume => exact h.consume hstep
  | consumeError => exact h.consumeError hstep
  | ret => exact h.ret hstep
  | take => exact h.take hstep
  | answer => exact h.answer hstep

/-! ## A listener that keeps the order -/

/-- The listener takes and answers requests as they come. -/
def Label.InOrder : Label ι → Prop
  | .take n => n = 0
  | .answer n _ => n = 0
  | _ => True

omit [DecidableEq ι] in
theorem eraseIdx_zero_of_getElem? {α : Type} {l : List α} {a : α} (h : l[0]? = some a) : l = a :: l.eraseIdx 0 := by
  cases l with
  | nil => cases h
  | cons b l => rw [show b = a from Option.some.inj h, List.eraseIdx_cons_zero]

theorem Confined.log_take_zero (hstep : step lib amqp_error_string2 net s (.take 0) = some s') :
    s'.log net = s.log net := by
  obtain ⟨m, hm, hs'⟩ := Option.bind_eq_some_iff.mp hstep
  obtain rfl := Option.some.inj hs'
  change (s.replied ++ ((s.working ++ [m]) ++ (s.setQueue net.listener ((s.queue net.listener).eraseIdx 0)).queue
    net.listener)).map Message.origin = _
  rw [Network.setQueue_self, List.append_assoc, List.singleton_append, ← eraseIdx_zero_of_getElem? hm]
  rfl

theorem Confined.log_answer_zero (h : Confined lib amqp_error_string2 net s) {body : Bytes}
    (hstep : step lib amqp_error_string2 net s (.answer 0 body) = some s') : s'.log net = s.log net := by
  obtain ⟨m, hm, hs'⟩ := Option.bind_eq_some_iff.mp hstep
  obtain ⟨queue, hqueue, hs'⟩ := Option.bind_eq_some_iff.mp hs'
  obtain rfl := Option.some.inj hs'
  have hwork := eraseIdx_zero_of_getElem? hm
  have hmem : m ∈ s.requests net := List.mem_append_right _ (hwork ▸ List.mem_cons_self)
  obtain rfl : net.response m.origin.1 = queue := Option.some.inj ((h.requests m hmem).symm.trans hqueue)
  calc
    _ = ((s.replied ++ [m.reply body]) ++ (s.working.eraseIdx 0 ++ s.queue net.listener)).map Message.origin := by
      rw [Network.log, Network.push_of_ne _ _ (net.response_ne_listener m.origin.1).symm]
      rfl
    _ = (s.replied ++ (m :: s.working.eraseIdx 0 ++ s.queue net.listener)).map Message.origin := by
      simp only [List.map_append, List.map_cons, Message.reply_origin, List.append_assoc, List.cons_append, List.nil_append]
    _ = s.log net := by
      rw [← hwork]
      rfl

/-- Such a listener leaves the log as it is, and a publish adds its own call at the end. -/
theorem Confined.log_step (h : Confined lib amqp_error_string2 net s) {l : Label ι} (hl : l.InOrder)
    (hstep : step lib amqp_error_string2 net s l = some s') :
    s'.log net = s.log net ∨ ∃ i r, (s.control i).current = some r ∧ r.delivered = false ∧
      s'.log net = s.log net ++ [(i, r.number)] := by
  cases l with
  | call i op =>
    obtain ⟨-, rfl⟩ := step_call hstep
    exact Or.inl rfl
  | publish i status delivered =>
    obtain ⟨r, queue, body, k, hcur, hk, -, rfl⟩ := step_publish hstep
    obtain ⟨rfl, -, hd, -⟩ := ((h.control i).current r hcur).1.publish hk
    cases delivered with
    | false => exact Or.inl rfl
    | true =>
      rw [if_pos rfl]
      exact Or.inr ⟨i, r, hcur, hd, Network.log_push (s := s) ⟨(i, r.number), body⟩⟩
  | consume i =>
    obtain ⟨r, queue, k, m, rest, hcur, hk, -, rfl⟩ := step_consume hstep
    obtain ⟨rfl, -⟩ := ((h.control i).current r hcur).1.consume hk
    exact Or.inl (Network.log_setQueue (s := s) (i := i) rest)
  | consumeError i library_error =>
    obtain ⟨r, queue, k, -, -, rfl⟩ := step_consumeError hstep
    exact Or.inl rfl
  | ret i =>
    obtain ⟨r, d, -, -, rfl⟩ := step_ret hstep
    exact Or.inl rfl
  | take n =>
    obtain rfl : n = 0 := hl
    exact Or.inl (log_take_zero hstep)
  | answer n body =>
    obtain rfl : n = 0 := hl
    exact Or.inl (h.log_answer_zero hstep)

/-- What is in the log of one client is in the order of its calls. -/
def Network.Ordered (net : Clients ι) (s : Network ι) : Prop :=
  (s.log net).Pairwise fun o o' => o.1 = o'.1 → o.2 < o'.2

theorem Confined.ordered (h : Confined lib amqp_error_string2 net s) (ho : s.Ordered net) {l : Label ι} (hl : l.InOrder)
    (hstep : step lib amqp_error_string2 net s l = some s') : s'.Ordered net := by
  rcases h.log_step hl hstep with hlog | ⟨i, r, hcur, hd, hlog⟩
  · rwa [Network.Ordered, hlog]
  · rw [Network.Ordered, hlog]
    refine List.pairwise_append.mpr ⟨ho, List.pairwise_singleton _ _, fun o hmem o' ho' hi => ?_⟩
    obtain rfl := List.mem_singleton.mp ho'
    obtain ⟨j, n⟩ := o
    obtain rfl : j = i := hi
    exact (h.control j).lt_of_sent hcur hd (h.sent j n hmem)

end Step

/-! ## Runs -/

section Runs

variable {ι : Type} [DecidableEq ι] {lib : JsonLib} {amqp_error_string2 : Int → Bytes} {net : Clients ι}
  {s : Network ι} {ls : List (Label ι)}

theorem confined_of_run (hrun : steps (step lib amqp_error_string2 net) Network.init ls = some s) :
    Confined lib amqp_error_string2 net s :=
  steps_invariant (C := fun _ _ => True) _ (fun _ _ _ h _ hstep => confined_step h hstep) confined_init
    (AllSteps.of_forall _ (fun _ _ _ => trivial) _) hrun

theorem ordered_of_run (hin : ∀ l ∈ ls, l.InOrder)
    (hrun : steps (step lib amqp_error_string2 net) Network.init ls = some s) : s.Ordered net := by
  have h : Confined lib amqp_error_string2 net s ∧ s.Ordered net :=
    steps_invariant (C := fun _ l => Label.InOrder l)
      (I := fun s => Confined lib amqp_error_string2 net s ∧ s.Ordered net) _
      (fun _ _ _ h hl hstep => ⟨confined_step h.1 hstep, h.1.ordered h.2 hl hstep⟩) ⟨confined_init, .nil⟩
      (AllSteps.of_forall _ (fun l hl _ => hin l hl) _) hrun
  exact h.2

/-- What a client consumed and then what its queue holds are the replies to its requests, as they were published. A call
that consumed one took it from a request of its client, of this call or one before. No request is there twice. -/
structure RepliesStay (amqp_error_string2 : Int → Bytes) (net : Clients ι) (s : Network ι) : Prop where
  account : ∀ i, (s.control i).taken.reverse ++ s.queue (net.response i) = s.replied.filter fun m => m.origin.1 = i
  finished : ∀ i, ∀ d ∈ (s.control i).finished, ∀ m, d.consumed = some m →
    Took amqp_error_string2 i d.op d.number d.value m
  numbers : ∀ i, ((s.control i).finished.map Completed.number).Nodup
  sent : ∀ i n, (i, n) ∈ s.log net → (s.control i).Sent n
  once : (s.log net).Nodup

/-- Whatever fails and in whatever order the listener works, replies stay with their client. If it keeps the order, each
client consumes the replies in the order of its calls, none left out. -/
theorem repliesStay_of_run (hrun : steps (step lib amqp_error_string2 net) Network.init ls = some s) :
    RepliesStay amqp_error_string2 net s ∧ ((∀ l ∈ ls, l.InOrder) → ∀ i,
      (s.control i).taken.reverse.map Message.origin <+: (s.log net).filter (fun o => o.1 = i) ∧
        ((s.log net).filter fun o => o.1 = i).Pairwise fun o o' => o.2 < o'.2) := by
  have h := confined_of_run hrun
  refine ⟨⟨h.account, fun i => (h.control i).finished, fun i => ?_, h.sent, h.nodup⟩, fun hin i => ⟨?_, ?_⟩⟩
  · rw [(h.control i).numbers]
    exact (List.reverse_perm _).nodup_iff.mpr List.nodup_range
  · rw [Network.log, List.filter_map, List.filter_append, List.map_append]
    change _ <+: (s.replied.filter fun m => m.origin.1 = i).map Message.origin ++ _
    rw [← h.account i, List.map_append, List.append_assoc]
    exact List.prefix_append _ _
  · refine List.Pairwise.imp_of_mem ?_ ((ordered_of_run hin hrun).filter _)
    intro o o' ho ho' hlt
    have hi := of_decide_eq_true (List.mem_filter.mp ho).2
    have hi' := of_decide_eq_true (List.mem_filter.mp ho').2
    exact hlt (hi.trans hi'.symm)

theorem repliesStay_lateRun :
    ∃ s, steps (step sampleLib Transport.socketError sampleClients) Network.init lateRun = some s ∧
      RepliesStay Transport.socketError sampleClients s ∧
        (s.control ()).taken.reverse.map Message.origin <+: (s.log sampleClients).filter fun o => o.1 = () := by
  obtain ⟨s, hs⟩ := Option.isSome_iff_exists.mp
    (show (steps (step sampleLib Transport.socketError sampleClients) Network.init lateRun).isSome by decide)
  obtain ⟨hstay, horder⟩ := repliesStay_of_run hs
  refine ⟨s, hs, hstay, (horder (fun l hl => ?_) ()).1⟩
  simp only [lateRun, List.mem_cons, List.not_mem_nil, or_false] at hl
  rcases hl with rfl | rfl | rfl | rfl | rfl | rfl | rfl | rfl | rfl | rfl
  all_goals trivial

end Runs

end MqssClient
