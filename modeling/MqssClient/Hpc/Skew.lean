import MqssClient.Hpc.Confinement
import MqssClient.Hpc.Isolation

/-!
# Clients out of step

Between two calls a client is in step if nothing of it is under way. As long as its own calls do not fail it stays in
step, or out of step, whatever happens to the other clients.

* `Label.NoFailureOf`: a step in which no call of rabbitmq-c fails for a client;
* `Paced`: how much is under way of such a client; `Paced.step`: it stays the same but for the call it is in;
* `origin_of_consume`: what a call consumes when its request is all that is under way, and when it is not;
* `step_kept_of_run`: calls consume their own replies from a client in step, and earlier ones from one that is not.
-/

namespace MqssClient

open Foundations MQSSHPCClient

section Paced

variable {ι : Type}

namespace Label

/-- No call of rabbitmq-c fails for this client. -/
def NoFailureOf (i : ι) : Label ι → Prop
  | .publish j status _ => j = i → status = 0
  | .consumeError j _ => j ≠ i
  | _ => True

/-- The client that takes the step. -/
def client : Label ι → Option ι
  | .call i _ => some i
  | .publish i _ _ => some i
  | .consume i => some i
  | .consumeError i _ => some i
  | .ret i => some i
  | .take _ => none
  | .answer _ _ => none

variable [DecidableEq ι]

/-- The requests of a client that a step delivers. -/
def sends (i : ι) : Label ι → Nat
  | .publish j _ delivered => if j = i ∧ delivered then 1 else 0
  | _ => 0

/-- The messages that a client consumes in a step. -/
def consumes (i : ι) : Label ι → Nat
  | .consume j => if j = i then 1 else 0
  | _ => 0

theorem sends_of_ne {i : ι} {l : Label ι} (h : l.client ≠ some i) : l.sends i = 0 := by
  cases l with
  | publish j status delivered => exact if_neg fun hj => h (congrArg some hj.1)
  | _ => rfl

theorem consumes_of_ne {i : ι} {l : Label ι} (h : l.client ≠ some i) : l.consumes i = 0 := by
  cases l with
  | consume j => exact if_neg fun hj => h (congrArg some hj)
  | _ => rfl

end Label

variable (lib : JsonLib) (amqp_error_string2 : Int → Bytes) (net : Clients ι)

/-- What is under way of a client is a number of messages, and that for which its call waits. This call has not begun
until its request is delivered, and waits for a message exactly if it is under way. -/
structure Paced [DecidableEq ι] (s : Network ι) (i : ι) (count : Nat) : Prop where
  unsent : ∀ r, (s.control i).current = some r → r.delivered = false → r.consumed = none →
    r.prog = run lib amqp_error_string2 (net.client i) r.op
  waits : ∀ r, (s.control i).current = some r → r.awaited.isSome = r.consume.isSome
  flight : (s.flight net i).length = count + (s.control i).awaited.toList.length

/-- Of the calls from a number on, each that consumed a message consumed one as it should, and each that returned without
one could not serialise its request. -/
structure Control.Since (i : ι) (base : Nat) (P : Message ι → Nat → Prop) (c : Control ι) : Prop where
  current : ∀ r, c.current = some r → ∀ m, r.consumed = some m → P m r.number
  finished : ∀ d ∈ c.finished, base ≤ d.number → (∃ m, d.consumed = some m ∧ P m d.number) ∨
    (d.consumed = none ∧ lib.dump ((net.client i).envelope d.op) = none ∧ d.value = throws (.json_type_error 316) d.op)

/-- What a call consumes when so many messages are under way beside those of its own. -/
def Due (inOrder : Prop) (count : Nat) (m : Message ι) (number : Nat) : Prop :=
  (count = 0 → m.origin.2 = number) ∧ (inOrder → 0 < count → m.origin.2 < number)

/-- The invariant of a run in which a client does not fail. -/
structure Keeping [DecidableEq ι] (inOrder : Prop) (i : ι) (base count : Nat) (s : Network ι) : Prop where
  confined : Confined lib amqp_error_string2 net s
  ordered : inOrder → s.Ordered net
  paced : Paced lib amqp_error_string2 net s i count
  since : (s.control i).Since lib net i base (Due inOrder count)

end Paced

section Step

variable {ι : Type} [DecidableEq ι] {lib : JsonLib} {amqp_error_string2 : Int → Bytes} {net : Clients ι}
  {s s' : Network ι} {i : ι}

/-- A step of another client, or of the listener, leaves a client where it is. -/
theorem step_control_of_ne {l : Label ι} (hl : l.client ≠ some i)
    (hstep : step lib amqp_error_string2 net s l = some s') : s'.control i = s.control i := by
  have hne : ∀ j, l.client = some j → i ≠ j := fun j hj hi => hl (hi ▸ hj)
  cases l with
  | call j op =>
    obtain ⟨-, rfl⟩ := step_call hstep
    exact Network.setControl_of_ne _ _ (hne j rfl)
  | publish j status delivered =>
    obtain ⟨r, queue, body, k, -, -, -, rfl⟩ := step_publish hstep
    refine (Network.setControl_of_ne _ _ (hne j rfl)).trans ?_
    cases delivered <;> rfl
  | consume j =>
    obtain ⟨r, queue, k, m, rest, -, -, -, rfl⟩ := step_consume hstep
    exact Network.setControl_of_ne (s.setQueue queue rest) _ (hne j rfl)
  | consumeError j library_error =>
    obtain ⟨r, queue, k, -, -, rfl⟩ := step_consumeError hstep
    exact Network.setControl_of_ne _ _ (hne j rfl)
  | ret j =>
    obtain ⟨r, d, -, -, rfl⟩ := step_ret hstep
    exact Network.setControl_of_ne _ _ (hne j rfl)
  | take n =>
    obtain ⟨m, rest, -, rfl⟩ := step_take hstep
    rfl
  | answer n body =>
    obtain ⟨m, rest, queue, -, -, rfl⟩ := step_answer hstep
    rfl

theorem Network.length_flight (s : Network ι) (i : ι) : (s.flight net i).length =
    ((s.requests net).countP fun m => m.origin.1 = i) + (s.queue (net.response i)).length := by
  rw [Network.flight, List.length_map, List.length_append, Network.outstanding, List.countP_eq_length_filter]

/-- What is under way of a client grows with what it sends and shrinks with what it consumes. -/
theorem Confined.flight_step (h : Confined lib amqp_error_string2 net s) {l : Label ι}
    (hstep : step lib amqp_error_string2 net s l = some s') (i : ι) :
    (s'.flight net i).length + l.consumes i = (s.flight net i).length + l.sends i := by
  cases l with
  | call j op =>
    obtain ⟨-, rfl⟩ := step_call hstep
    rfl
  | publish j status delivered =>
    obtain ⟨r, queue, body, k, hcur, hk, -, rfl⟩ := step_publish hstep
    obtain ⟨rfl, -⟩ := ((h.control j).current r hcur).1.publish hk
    cases delivered with
    | false =>
      have hsends : Label.sends i (.publish j status false) = 0 := if_neg (by simp)
      rw [hsends]
      rfl
    | true =>
      have hcount := (Network.requests_push net s ⟨(j, r.number), body⟩).countP_eq fun m => decide (m.origin.1 = i)
      have hresponse : (s.push net.listener ⟨(j, r.number), body⟩).queue (net.response i) = s.queue (net.response i) :=
        Network.push_of_ne s _ (net.response_ne_listener i)
      rw [if_pos rfl, Network.setCurrent, Network.flight_setControl, Network.length_flight, hcount, hresponse,
        Network.length_flight, List.countP_cons]
      simp only [Label.consumes, Label.sends, and_true, decide_eq_true_eq]
      omega
  | consume j =>
    obtain ⟨r, queue, k, m, rest, hcur, hk, hqueue, rfl⟩ := step_consume hstep
    obtain ⟨rfl, -⟩ := ((h.control j).current r hcur).1.consume hk
    rw [Network.setCurrent, Network.flight_setControl, Network.length_flight, Network.requests_setQueue,
      Network.length_flight]
    rcases eq_or_ne i j with rfl | hne
    · rw [Network.setQueue_self, hqueue, List.length_cons, Label.consumes, if_pos rfl]
      rfl
    · rw [Network.setQueue_of_ne _ _ (net.response_ne hne), Label.consumes, if_neg hne.symm]
      rfl
  | consumeError j library_error =>
    obtain ⟨r, queue, k, -, -, rfl⟩ := step_consumeError hstep
    rfl
  | ret j =>
    obtain ⟨r, d, -, -, rfl⟩ := step_ret hstep
    rfl
  | take n =>
    obtain ⟨hrequests, -, -, hresponse⟩ := Confined.requests_take hstep
    rw [Network.length_flight, Network.length_flight, hrequests.countP_eq, hresponse]
    rfl
  | answer n body =>
    obtain ⟨m, hrequests, -, -, hself, hother⟩ := h.requests_answer hstep
    rw [Network.length_flight, Network.length_flight, hrequests.countP_eq, List.countP_cons]
    rcases eq_or_ne i m.origin.1 with rfl | hne
    · rw [hself, List.length_append, List.length_singleton, if_pos (by simp)]
      simp only [Label.consumes, Label.sends]
      omega
    · rw [hother i hne, if_neg (by simpa using hne.symm)]
      rfl

omit [DecidableEq ι] in
theorem consume_run (op : BaseCall) (number : Nat) :
    Running.consume (⟨op, number, run lib amqp_error_string2 (net.client i) op, false, none⟩ : Running ι) = none := by
  rw [Running.consume]
  dsimp only
  rw [run_eq]
  cases lib.dump ((net.client i).envelope op) <;> rfl

omit [DecidableEq ι] in
theorem consume_of_ret {r : Running ι} {d : Completed ι} (h : r.ret = some d) : r.consume = none := by
  unfold Running.ret at h
  split at h
  next hprog => rw [Running.consume, hprog]
  · cases h

namespace Paced

variable {count : Nat}

theorem setCurrent {r : Running ι}
    (hunsent : r.delivered = false → r.consumed = none → r.prog = run lib amqp_error_string2 (net.client i) r.op)
    (hr : r.awaited.isSome = r.consume.isSome)
    (hflight : (s.flight net i).length = count + r.awaited.toList.length) :
    Paced lib amqp_error_string2 net (s.setCurrent i r) i count where
  unsent r' hr' := by
    rw [Network.setCurrent, Network.setControl_self] at hr'
    cases hr'
    exact hunsent
  waits r' hr' := by
    rw [Network.setCurrent, Network.setControl_self] at hr'
    cases hr'
    exact hr
  flight := by
    rw [Network.setCurrent, Network.flight_setControl, Network.setControl_self]
    exact hflight

theorem mem_awaited (hp : Paced lib amqp_error_string2 net s i count) {r : Running ι}
    (hcur : (s.control i).current = some r) (hc : r.consume.isSome) : r.number ∈ (s.control i).awaited := by
  obtain ⟨n, hn⟩ := Option.isSome_iff_exists.mp ((hp.waits r hcur).trans hc)
  have hmem : n ∈ (s.control i).awaited := by
    rw [Control.awaited, hcur]
    exact hn
  obtain ⟨r', hr', -, -, rfl⟩ := Control.mem_awaited.mp hmem
  obtain rfl : r = r' := Option.some.inj (hcur.symm.trans hr')
  exact hmem

theorem call (hp : Paced lib amqp_error_string2 net s i count) {op : BaseCall}
    (hstep : MqssClient.step lib amqp_error_string2 net s (.call i op) = some s') :
    Paced lib amqp_error_string2 net s' i count := by
  obtain ⟨hcur, rfl⟩ := step_call hstep
  have hbefore := hp.flight
  rw [Control.awaited, hcur] at hbefore
  refine setCurrent (fun _ _ => rfl) ?_ hbefore
  rw [consume_run]
  rfl

/-- A publish without an error puts the request under way for which its call goes on to wait. -/
theorem publish (hp : Paced lib amqp_error_string2 net s i count) (h : Confined lib amqp_error_string2 net s)
    {delivered : Bool} (hstep : MqssClient.step lib amqp_error_string2 net s (.publish i 0 delivered) = some s') :
    Paced lib amqp_error_string2 net s' i count := by
  have hflight := h.flight_step hstep i
  have hbefore := hp.flight
  obtain ⟨r, queue, body, k, hcur, hk, hdelivered, rfl⟩ := step_publish hstep
  obtain ⟨-, -, hd, -, rfl⟩ := ((h.control i).current r hcur).1.publish hk
  obtain rfl : delivered = true := hdelivered rfl
  have hnone : r.awaited = none := if_neg (by simp [hd])
  have hprog : afterSend amqp_error_string2 (net.client i) r.op 0 = _ := if_pos (by cases r.op <;> rfl)
  have hsends : Label.sends i (.publish i 0 true) = 1 := if_pos ⟨rfl, rfl⟩
  rw [Control.awaited, hcur, Option.bind_some, hnone] at hbefore
  rw [hsends, hbefore] at hflight
  refine setCurrent (fun hd' _ => by cases hd') ?_ hflight
  dsimp only
  rw [hprog]
  rfl

theorem consume (hp : Paced lib amqp_error_string2 net s i count) (h : Confined lib amqp_error_string2 net s)
    (hstep : MqssClient.step lib amqp_error_string2 net s (.consume i) = some s') :
    Paced lib amqp_error_string2 net s' i count := by
  have hflight := h.flight_step hstep i
  have hbefore := hp.flight
  obtain ⟨r, queue, k, m, rest, hcur, hk, hqueue, rfl⟩ := step_consume hstep
  obtain ⟨-, -, rfl⟩ := ((h.control i).current r hcur).1.consume hk
  have hnone : ∀ prog, Running.awaited ⟨r.op, r.number, prog, r.delivered, some m⟩ = none := fun prog => if_neg (by simp)
  have hconsumes : Label.consumes i (.consume i) = 1 := if_pos rfl
  rw [Option.mem_def.mp (hp.mem_awaited hcur (by rw [hk]; rfl))] at hbefore
  rw [hconsumes, hbefore] at hflight
  refine setCurrent (fun _ hc' => by cases hc') ?_ ?_
  · rw [hnone]
    rfl
  · rw [hnone]
    exact Nat.succ.inj hflight

theorem ret (hp : Paced lib amqp_error_string2 net s i count)
    (hstep : MqssClient.step lib amqp_error_string2 net s (.ret i) = some s') :
    Paced lib amqp_error_string2 net s' i count := by
  have hbefore := hp.flight
  obtain ⟨r, d, hcur, hd, rfl⟩ := step_ret hstep
  have hnone : r.awaited = none := by
    rw [← Option.not_isSome_iff_eq_none, hp.waits r hcur, consume_of_ret hd]
    exact Bool.false_ne_true
  have hidle : ((s.setControl i ⟨none, d :: (s.control i).finished⟩).control i).current = none := by
    rw [Network.setControl_self]
  rw [Control.awaited, hcur, Option.bind_some, hnone] at hbefore
  refine ⟨fun r' hr' => ?_, fun r' hr' => ?_, ?_⟩
  · cases hidle.symm.trans hr'
  · cases hidle.symm.trans hr'
  · rw [Control.awaited, hidle]
    exact hbefore

/-- The call of a client that does not fail waits for a message from when it sends its request until it consumes one. -/
theorem step (hp : Paced lib amqp_error_string2 net s i count) (h : Confined lib amqp_error_string2 net s) {l : Label ι}
    (hl : l.NoFailureOf i) (hstep : MqssClient.step lib amqp_error_string2 net s l = some s') :
    Paced lib amqp_error_string2 net s' i count := by
  by_cases hclient : l.client = some i
  · -- the client takes a step of its call
    cases l with
    | take n => cases hclient
    | answer n body => cases hclient
    | call j op =>
      obtain rfl : j = i := Option.some.inj hclient
      exact hp.call hstep
    | publish j status delivered =>
      obtain rfl : j = i := Option.some.inj hclient
      obtain rfl : status = 0 := hl rfl
      exact hp.publish h hstep
    | consume j =>
      obtain rfl : j = i := Option.some.inj hclient
      exact hp.consume h hstep
    | consumeError j library_error => exact absurd (Option.some.inj hclient) hl
    | ret j =>
      obtain rfl : j = i := Option.some.inj hclient
      exact hp.ret hstep
  · have hcontrol := step_control_of_ne hclient hstep
    have hflight := h.flight_step hstep i
    rw [Label.consumes_of_ne hclient, Label.sends_of_ne hclient] at hflight
    exact ⟨hcontrol ▸ hp.unsent, hcontrol ▸ hp.waits, by rw [hcontrol, ← hp.flight]; exact hflight⟩

end Paced

/-- A call that waits for its reply consumes it if nothing else is under way, and an earlier one otherwise, if they come
in order. -/
theorem Confined.origin_of_consume (h : Confined lib amqp_error_string2 net s) {r : Running ι} {m : Message ι}
    {rest : List (Message ι)} (hcur : (s.control i).current = some r) (hn : r.number ∈ (s.control i).awaited)
    (hqueue : s.queue (net.response i) = m :: rest) :
    ((s.flight net i).length = 1 → m.origin.2 = r.number) ∧
      (s.Ordered net → 1 < (s.flight net i).length → m.origin.2 < r.number) := by
  have hm : m.origin ∈ s.flight net i := List.mem_map_of_mem (by simp [hqueue])
  refine ⟨fun hone => ?_, fun hordered hmore => ?_⟩
  · obtain ⟨o, ho⟩ := List.length_eq_one_iff.mp hone
    have hown := h.awaited i _ hn
    rw [ho, List.mem_singleton] at hm hown
    rw [hm, ← hown]
  · set tail := rest ++ (s.working ++ s.queue net.listener).filter fun m => m.origin.1 = i
    have hsplit : ((s.replied ++ (s.working ++ s.queue net.listener)).filter fun m => m.origin.1 = i) =
        (s.control i).taken.reverse ++ m :: tail := by
      rw [List.filter_append, ← h.account i, hqueue, List.append_assoc]
      rfl
    have hlength : (s.flight net i).length = tail.length + 1 := by
      rw [Network.length_flight, hqueue, List.countP_eq_length_filter, Network.requests, List.filter_append,
        List.length_append, List.length_cons, List.length_append, List.filter_append, List.length_append]
      omega
    obtain ⟨x, hx⟩ := List.exists_mem_of_length_pos (l := tail) (by omega)
    have hxs : x ∈ (s.replied ++ (s.working ++ s.queue net.listener)).filter fun m => m.origin.1 = i :=
      hsplit ▸ List.mem_append_right _ (List.mem_cons_of_mem _ hx)
    have hxi : x.origin.1 = i := of_decide_eq_true (List.mem_filter.mp hxs).2
    have hlt : m.origin.1 = x.origin.1 → m.origin.2 < x.origin.2 := by
      have hpairs := (List.pairwise_map.mp hordered).filter fun m => decide (m.origin.1 = i)
      rw [hsplit] at hpairs
      exact (List.pairwise_cons.mp (List.pairwise_append.mp hpairs).2.1).1 x hx
    have hle : x.origin.2 ≤ r.number := by
      refine (h.control i).le_of_sent hcur (h.sent i _ ?_)
      rw [← hxi]
      exact List.mem_map_of_mem (List.mem_of_mem_filter hxs)
    have := hlt ((h.mem_replied_of_queue hqueue).2.trans hxi.symm)
    omega

namespace Control.Since

variable {base count : Nat} {P : Message ι → Nat → Prop}

/-- A call that returns without a message did not wait for one, so it never published. -/
theorem ret (hs : (s.control i).Since lib net i base P) (hp : Paced lib amqp_error_string2 net s i count)
    (h : Confined lib amqp_error_string2 net s)
    (hstep : MqssClient.step lib amqp_error_string2 net s (.ret i) = some s') :
    (s'.control i).Since lib net i base P := by
  obtain ⟨r, d, hcur, hd, rfl⟩ := step_ret hstep
  obtain ⟨hdn, hdc, -⟩ := ((h.control i).current r hcur).1.ret hd
  rw [Network.setControl_self]
  refine ⟨fun r' hr' => (by cases hr'), fun d' hd' hbase => ?_⟩
  rcases List.mem_cons.mp hd' with rfl | hd'
  · cases hc : r.consumed with
    | some m => exact Or.inl ⟨m, hdc.trans hc, hdn ▸ hs.current r hcur m hc⟩
    | none =>
      have hundelivered : r.delivered = false := by
        by_contra hdelivered
        have hwaits := hp.waits r hcur
        rw [consume_of_ret hd, Running.awaited, if_pos ⟨by simpa using hdelivered, hc⟩] at hwaits
        cases hwaits
      exact Or.inr ⟨hdc.trans hc, Running.ret_of_run (hp.unsent r hcur hundelivered hc) hd⟩
  · exact hs.finished d' hd' hbase

theorem step (hs : (s.control i).Since lib net i base P) (hp : Paced lib amqp_error_string2 net s i count)
    (h : Confined lib amqp_error_string2 net s) {l : Label ι} (hl : l.NoFailureOf i)
    (hdue : ∀ r m rest, (s.control i).current = some r → r.number ∈ (s.control i).awaited →
      s.queue (net.response i) = m :: rest → P m r.number)
    (hstep : MqssClient.step lib amqp_error_string2 net s l = some s') : (s'.control i).Since lib net i base P := by
  by_cases hclient : l.client = some i
  · cases l with
    | call j op =>
      obtain rfl : j = i := Option.some.inj hclient
      obtain ⟨hcur, rfl⟩ := step_call hstep
      rw [Network.setCurrent, Network.setControl_self]
      refine ⟨fun r hr m hm => ?_, hs.finished⟩
      cases hr
      cases hm
    | publish j status delivered =>
      obtain rfl : j = i := Option.some.inj hclient
      obtain ⟨r, queue, body, k, hcur, hk, -, rfl⟩ := step_publish hstep
      obtain ⟨-, -, -, -, rfl⟩ := ((h.control j).current r hcur).1.publish hk
      rw [Network.setCurrent, Network.setControl_self]
      refine ⟨fun r' hr' m hm => ?_, ?_⟩
      · cases hr'
        cases hm
      · cases delivered <;> exact hs.finished
    | consume j =>
      obtain rfl : j = i := Option.some.inj hclient
      obtain ⟨r, queue, k, m, rest, hcur, hk, hqueue, rfl⟩ := step_consume hstep
      obtain ⟨rfl, -, rfl⟩ := ((h.control j).current r hcur).1.consume hk
      rw [Network.setCurrent, Network.setControl_self]
      refine ⟨fun r' hr' m' hm' => ?_, hs.finished⟩
      cases hr'
      cases hm'
      exact hdue r m rest hcur (hp.mem_awaited hcur (by rw [hk]; rfl)) hqueue
    | consumeError j library_error => exact absurd (Option.some.inj hclient) hl
    | ret j =>
      obtain rfl : j = i := Option.some.inj hclient
      exact hs.ret hp h hstep
    | take n => cases hclient
    | answer n body => cases hclient
  · exact step_control_of_ne hclient hstep ▸ hs

end Control.Since

theorem Keeping.step {inOrder : Prop} {base count : Nat} (h : Keeping lib amqp_error_string2 net inOrder i base count s)
    {l : Label ι} (hl : l.NoFailureOf i) (hin : inOrder → l.InOrder)
    (hstep : MqssClient.step lib amqp_error_string2 net s l = some s') :
    Keeping lib amqp_error_string2 net inOrder i base count s' where
  confined := confined_step h.confined hstep
  ordered ho := h.confined.ordered (h.ordered ho) (hin ho) hstep
  paced := h.paced.step h.confined hl hstep
  since := by
    refine h.since.step h.paced h.confined hl (fun r m rest hcur hn hqueue => ?_) hstep
    have hflight := h.paced.flight
    rw [Option.mem_def.mp hn, Option.toList_some, List.length_singleton] at hflight
    obtain ⟨hone, hmore⟩ := h.confined.origin_of_consume hcur hn hqueue
    exact ⟨fun h0 => hone (by omega), fun ho h0 => hmore (h.ordered ho) (by omega)⟩

omit [DecidableEq ι] in
theorem Control.Phased.number_lt {c : Control ι} (h : c.Phased lib amqp_error_string2 net i) {d : Completed ι}
    (hd : d ∈ c.finished) : d.number < c.finished.length := by
  have hmem : d.number ∈ (List.range c.finished.length).reverse := h.numbers ▸ List.mem_map_of_mem hd
  rwa [List.mem_reverse, List.mem_range] at hmem

/-- It holds where a client is in no call, with what is under way of it there. -/
theorem Confined.keeping (h : Confined lib amqp_error_string2 net s) {inOrder : Prop} (ho : inOrder → s.Ordered net)
    (hidle : (s.control i).current = none) :
    Keeping lib amqp_error_string2 net inOrder i (s.control i).finished.length (s.flight net i).length s := by
  have hnone : ∀ r, (s.control i).current ≠ some r := fun r hr => by cases hidle.symm.trans hr
  refine ⟨h, ho, ⟨fun r hr => absurd hr (hnone r), fun r hr => absurd hr (hnone r), ?_⟩,
    ⟨fun r hr => absurd hr (hnone r), fun d hd hbase => absurd ((h.control i).number_lt hd) (by omega)⟩⟩
  rw [Control.awaited, hidle]
  rfl

end Step

/-! ## Runs -/

section Runs

variable {ι : Type} [DecidableEq ι] {lib : JsonLib} {amqp_error_string2 : Int → Bytes} {net : Clients ι}
  {s s' : Network ι} {i : ι} {ls ls' : List (Label ι)}

/-- From one state to a later one, as many messages of a client are under way beside that for which it waits. Each call
that it made in between returned a reply, its own if none were, or could not serialise its request. -/
structure KeepsStep (lib : JsonLib) (amqp_error_string2 : Int → Bytes) (net : Clients ι) (i : ι) (s s' : Network ι) :
    Prop where
  flight : (s'.flight net i).length = (s.flight net i).length + (s'.control i).awaited.toList.length
  returned : ∀ d ∈ (s'.control i).finished, (s.control i).finished.length ≤ d.number →
    (∃ m ∈ s'.replied, d.consumed = some m ∧ Took amqp_error_string2 i d.op d.number d.value m ∧
      (s.flight net i = [] → m.origin = (i, d.number))) ∨
    (d.consumed = none ∧ lib.dump ((net.client i).envelope d.op) = none ∧ d.value = throws (.json_type_error 316) d.op)

/-- A client that is in no call, and whose own calls do not fail from here on, stays in step or out of step. In step, each
call returns its own reply; out of step, with a listener that keeps the order, none does, but that to an earlier call. -/
theorem keepsStep_of_run (hrun : steps (step lib amqp_error_string2 net) Network.init ls = some s)
    (hidle : (s.control i).current = none) (hok : ∀ l ∈ ls', l.NoFailureOf i)
    (hrun' : steps (step lib amqp_error_string2 net) s ls' = some s') :
    KeepsStep lib amqp_error_string2 net i s s' ∧ ((∀ l ∈ ls ++ ls', l.InOrder) → s.flight net i ≠ [] →
      ∀ d ∈ (s'.control i).finished, (s.control i).finished.length ≤ d.number →
        ∀ m, d.consumed = some m → m.origin.2 < d.number) := by
  have h0 : Keeping lib amqp_error_string2 net (∀ l ∈ ls ++ ls', l.InOrder) i _ _ s :=
    (confined_of_run hrun).keeping (fun hin => ordered_of_run (fun l hl => hin l (List.mem_append_left _ hl)) hrun) hidle
  have h := steps_invariant (C := fun _ l => Label.NoFailureOf i l ∧ ((∀ l ∈ ls ++ ls', l.InOrder) → l.InOrder))
    (step lib amqp_error_string2 net) (fun t l t' h hl hstep => h.step hl.1 hl.2 hstep) h0
    (AllSteps.of_forall _ (fun l hl _ => ⟨hok l hl, fun hin => hin l (List.mem_append_right _ hl)⟩) _) hrun'
  refine ⟨⟨h.paced.flight, fun d hd hbase => ?_⟩, fun hin hflight d hd hbase m hm => ?_⟩
  · refine (h.since.finished d hd hbase).imp_left ?_
    rintro ⟨m, hm, hdue, -⟩
    have htook := (h.confined.control i).finished d hd m hm
    refine ⟨m, ?_, hm, htook, fun hempty => Prod.ext htook.1 (hdue (List.length_eq_zero_iff.mpr hempty))⟩
    have htaken : m ∈ (s'.control i).taken := List.mem_append_right _ (List.mem_filterMap.mpr ⟨d, hd, hm⟩)
    exact List.mem_of_mem_filter (h.confined.account i ▸ List.mem_append_left _ (List.mem_reverse.mpr htaken))
  · rcases h.since.finished d hd hbase with ⟨m', hm', -, hdue⟩ | ⟨hnone, -⟩
    · obtain rfl : m = m' := Option.some.inj (hm.symm.trans hm')
      exact hdue hin (List.length_pos_of_ne_nil hflight)
    · cases hnone.symm.trans hm

/-- A listing that gives up on its reply. -/
def givingUpRun : List (Label Bool) := [
  .call false (.get (str "resources")), .publish false 0 true, .consumeError false (-9), .ret false]

/-- Another client fails, and the first one asks for the listing again. -/
def againRun : List (Label Bool) := [
  .call true (.get (str "resources")), .publish true (-9) false, .consumeError true (-9), .ret true,
  .call false (.get (str "resources")), .publish false 0 true, .take 0, .answer 0 (str "[]"), .take 0,
  .answer 0 (str "\x7b\x7d"), .consume false, .ret false]

theorem keepsStep_againRun :
    ∃ s s', steps (step pairLib Transport.socketError pairClients) Network.init givingUpRun = some s ∧
      steps (step pairLib Transport.socketError pairClients) s againRun = some s' ∧
      KeepsStep pairLib Transport.socketError pairClients false s s' ∧
      ∀ d ∈ (s'.control false).finished, 1 ≤ d.number → ∀ m, d.consumed = some m → m.origin.2 < d.number := by
  have hfirst : (steps (step pairLib Transport.socketError pairClients) Network.init givingUpRun).map (fun s =>
      ((s.control false).current.isNone, (s.control false).finished.length, s.flight pairClients false)) =
        some (true, 1, [(false, 0)]) := by
    decide
  have hboth : ((steps (step pairLib Transport.socketError pairClients) Network.init givingUpRun).bind fun s =>
      steps (step pairLib Transport.socketError pairClients) s againRun).isSome := by
    decide
  obtain ⟨s', hboth⟩ := Option.isSome_iff_exists.mp hboth
  obtain ⟨s, hs, hs'⟩ := Option.bind_eq_some_iff.mp hboth
  rw [hs, Option.map_some, Option.some_inj, Prod.mk.injEq, Prod.mk.injEq] at hfirst
  obtain ⟨hidle, hlength, hflight⟩ := hfirst
  have hok : ∀ l ∈ againRun, l.NoFailureOf false := by
    intro l hl
    simp only [againRun, List.mem_cons, List.not_mem_nil, or_false] at hl
    rcases hl with rfl | rfl | rfl | rfl | rfl | rfl | rfl | rfl | rfl | rfl | rfl | rfl
    all_goals first | trivial | (intro _; rfl) | (intro h; cases h)
  have hin : ∀ l ∈ givingUpRun ++ againRun, l.InOrder := by
    intro l hl
    simp only [givingUpRun, againRun, List.cons_append, List.nil_append, List.mem_cons, List.not_mem_nil, or_false] at hl
    rcases hl with rfl | rfl | rfl | rfl | rfl | rfl | rfl | rfl | rfl | rfl | rfl | rfl | rfl | rfl | rfl | rfl
    all_goals trivial
  obtain ⟨hkeeps, hearlier⟩ := keepsStep_of_run hs (Option.isNone_iff_eq_none.mp hidle) hok hs'
  exact ⟨s, s', hs, hs', hkeeps, fun d hd hbase => hearlier hin (by simp [hflight]) d hd (by omega)⟩

end Runs

end MqssClient
