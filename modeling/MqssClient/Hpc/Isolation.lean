import MqssClient.Hpc.Correlation

/-!
# Isolation of the clients

When no call of rabbitmq-c fails, a call that published always consumes, so that every step waits for its reply.

* `Label.NoFailure`: a step in which no call of rabbitmq-c fails;
* `Control.Faultless`: what this adds to the invariant: a call without a message never published;
* `isolated_of_run`: each client has at most one message under way, and each call consumed the reply to its request.
-/

namespace MqssClient

open Foundations MQSSHPCClient

section Isolation

variable {ι : Type}

def Label.NoFailure : Label ι → Prop
  | .publish _ status _ => status = 0
  | .consumeError _ _ => False
  | _ => True

theorem waitsForReply_of_noFailure [DecidableEq ι] {l : Label ι} (h : l.NoFailure) (s : Network ι) :
    WaitsForReply s l := by
  cases l with
  | publish i status delivered =>
    intro r _ _
    rw [show status = 0 from h]
    cases r.op <;> rfl
  | consumeError => exact h.elim
  | _ => trivial

variable (lib : JsonLib) (amqp_error_string2 : Int → Bytes) (net : Clients ι)

/-- A call whose request was not delivered has not published, and one that returned without a message could not
serialise its request. -/
structure Control.Faultless (i : ι) (c : Control ι) : Prop where
  current : ∀ r, c.current = some r → r.delivered = false → r.consumed = none →
    r.prog = run lib amqp_error_string2 (net.client i) r.op
  finished : ∀ d ∈ c.finished, d.consumed = none →
    lib.dump ((net.client i).envelope d.op) = none ∧ d.value = throws (.json_type_error 316) d.op

/-- A completed call consumed the reply to its own request, or threw before it had one. -/
def CompletedOwn [DecidableEq ι] (s : Network ι) (i : ι) (d : Completed ι) : Prop :=
  (∃ m ∈ s.replied, d.consumed = some m ∧ m.origin = (i, d.number) ∧
      d.value = finish amqp_error_string2 d.op (.ok m.body)) ∨
    (d.consumed = none ∧ lib.dump ((net.client i).envelope d.op) = none ∧ d.value = throws (.json_type_error 316) d.op)

/-- Each client has at most one request or reply under way, that of the call which waits for it, and its completed calls
consumed the replies to their requests. Each reply is in the queue of its client or consumed by it, and only once. -/
structure Isolated [DecidableEq ι] (s : Network ι) : Prop where
  outstanding : ∀ i, (s.outstanding net i).length ≤ 1
  pending : ∀ i, (s.outstanding net i).length + (s.queue (net.response i)).length ≤ 1
  flight : ∀ i, s.flight net i = (s.control i).awaited.toList.map fun n => (i, n)
  completed : ∀ i, ∀ d ∈ (s.control i).finished, CompletedOwn lib amqp_error_string2 net s i d
  numbers : ∀ i, ((s.control i).finished.map Completed.number).Nodup
  account : ∀ i, (s.queue (net.response i) ++ (s.control i).taken).Perm (s.replied.filter fun m => m.origin.1 = i)
  once : (s.replied.map Message.origin).Nodup

end Isolation

section Step

variable {ι : Type} {lib : JsonLib} {amqp_error_string2 : Int → Bytes} {net : Clients ι} {i : ι}

/-- A call that returns without having published could not serialise its request. -/
theorem Running.ret_of_run {r : Running ι} {d : Completed ι}
    (hprog : r.prog = run lib amqp_error_string2 (net.client i) r.op) (hr : r.ret = some d) :
    lib.dump ((net.client i).envelope d.op) = none ∧ d.value = throws (.json_type_error 316) d.op := by
  obtain ⟨op, number, prog, delivered, consumed⟩ := r
  obtain rfl : prog = run lib amqp_error_string2 (net.client i) op := hprog
  rw [Running.ret] at hr
  dsimp only at hr
  rw [run_eq] at hr
  cases hd : lib.dump ((net.client i).envelope op) with
  | none =>
    rw [hd] at hr
    cases hr
    exact ⟨hd, rfl⟩
  | some request =>
    rw [hd] at hr
    cases hr

variable [DecidableEq ι] {s s' : Network ι}

theorem faultless_setControl {c : Control ι} (hf : ∀ j, (s.control j).Faultless lib amqp_error_string2 net j)
    (hc : c.Faultless lib amqp_error_string2 net i) (j : ι) :
    ((s.setControl i c).control j).Faultless lib amqp_error_string2 net j := by
  rcases eq_or_ne j i with rfl | hne
  · rwa [Network.setControl_self]
  · rw [Network.setControl_of_ne _ _ hne]
    exact hf j

theorem faultless_setCurrent {r : Running ι} (hf : ∀ j, (s.control j).Faultless lib amqp_error_string2 net j)
    (hr : r.delivered = false → r.consumed = none → r.prog = run lib amqp_error_string2 (net.client i) r.op) (j : ι) :
    ((s.setCurrent i r).control j).Faultless lib amqp_error_string2 net j := by
  refine faultless_setControl (c := { s.control i with current := some r }) hf ⟨fun r' hr' => ?_, (hf i).finished⟩ j
  obtain rfl : r = r' := Option.some.inj hr'
  exact hr

theorem faultless_step (h : Correlated lib amqp_error_string2 net s)
    (hf : ∀ j, (s.control j).Faultless lib amqp_error_string2 net j) {l : Label ι} (hl : l.NoFailure)
    (hstep : step lib amqp_error_string2 net s l = some s') :
    ∀ j, (s'.control j).Faultless lib amqp_error_string2 net j := by
  cases l with
  | call i op =>
    obtain ⟨-, rfl⟩ := step_call hstep
    exact faultless_setCurrent hf fun _ _ => rfl
  | publish i status delivered =>
    obtain ⟨r, queue, body, k, hcur, hk, hdel, rfl⟩ := step_publish hstep
    obtain ⟨-, -, -, -, hnext⟩ := ((h.inSync i).control.current r hcur).1.publish hk
    obtain rfl : delivered = true := hdel hl
    refine faultless_setCurrent hf fun hd _ => ?_
    rw [(hnext status true).2.1] at hd
    cases hd
  | consume i =>
    obtain ⟨r, queue, k, m, rest, hcur, hk, -, rfl⟩ := step_consume hstep
    obtain ⟨-, -, rfl⟩ := ((h.inSync i).control.current r hcur).1.consume hk
    exact faultless_setCurrent (s := s.setQueue queue rest) hf fun _ hc => by cases hc
  | consumeError => exact hl.elim
  | ret i =>
    obtain ⟨r, d, hcur, hd, rfl⟩ := step_ret hstep
    obtain ⟨hawaited, -, hdc, -⟩ := ((h.inSync i).control.current r hcur).1.ret hd
    refine faultless_setControl hf ⟨fun r' hr' => (by cases hr'), fun d' hd' hc' => ?_⟩
    rcases List.mem_cons.mp hd' with rfl | hd'
    · -- it has no message, so its request would still be awaited
      have hnone : r.consumed = none := hdc ▸ hc'
      have hundelivered : r.delivered = false := by
        by_contra hdelivered
        rw [Running.awaited, if_pos ⟨by simpa using hdelivered, hnone⟩] at hawaited
        cases hawaited
      exact Running.ret_of_run ((hf i).current r hcur hundelivered hnone) hd
    · exact (hf i).finished d' hd' hc'
  | take n =>
    obtain ⟨m, rest, -, rfl⟩ := step_take hstep
    exact hf
  | answer n body =>
    obtain ⟨m, rest, queue, -, -, rfl⟩ := step_answer hstep
    exact hf

end Step

/-! ## Runs -/

section Runs

variable {ι : Type} [DecidableEq ι] {lib : JsonLib} {amqp_error_string2 : Int → Bytes} {net : Clients ι}
  {s : Network ι} {ls : List (Label ι)}

theorem faultless_of_run (hok : ∀ l ∈ ls, l.NoFailure)
    (hrun : steps (step lib amqp_error_string2 net) Network.init ls = some s) :
    Correlated lib amqp_error_string2 net s ∧ ∀ i, (s.control i).Faultless lib amqp_error_string2 net i := by
  refine steps_invariant (C := fun _ l => Label.NoFailure l)
    (I := fun s => Correlated lib amqp_error_string2 net s ∧ ∀ i, (s.control i).Faultless lib amqp_error_string2 net i)
    (step lib amqp_error_string2 net) (fun s l s' h hl hstep => ?_) ⟨correlated_init, fun i => ?_⟩
    (AllSteps.of_forall _ (fun l hl _ => hok l hl) _) hrun
  · exact ⟨correlated_step h.1 (waitsForReply_of_noFailure hl s) hstep, faultless_step h.1 h.2 hl hstep⟩
  · exact ⟨fun r hr => (by cases hr), fun d hd => (by cases hd)⟩

theorem InSync.flight_eq {i : ι} (h : InSync lib amqp_error_string2 net s i) :
    s.flight net i = (s.control i).awaited.toList.map fun n => (i, n) := by
  have := h.flight
  cases ha : (s.control i).awaited with
  | none =>
    rw [ha] at this
    exact this.eq_nil
  | some n =>
    rw [ha] at this
    exact List.perm_singleton.mp this

/-- In every run without failures, the clients are isolated from each other and their calls from each other. -/
theorem isolated_of_run (hok : ∀ l ∈ ls, l.NoFailure)
    (hrun : steps (step lib amqp_error_string2 net) Network.init ls = some s) :
    Isolated lib amqp_error_string2 net s := by
  obtain ⟨h, hf⟩ := faultless_of_run hok hrun
  have hpending : ∀ i, (s.outstanding net i).length + (s.queue (net.response i)).length ≤ 1 := by
    intro i
    have hlen := congrArg List.length (h.inSync i).flight_eq
    rw [Network.flight, List.length_map, List.length_append, List.length_map] at hlen
    rw [hlen]
    cases (s.control i).awaited <;> simp
  refine
    { outstanding := fun i => (Nat.le_add_right _ _).trans (hpending i)
      pending := hpending
      flight := fun i => (h.inSync i).flight_eq
      completed := fun i d hd => ?_
      numbers := fun i => ?_
      account := fun i => (h.inSync i).account
      once := h.nodup }
  · cases hc : d.consumed with
    | none => exact Or.inr ⟨hc, (hf i).finished d hd hc⟩
    | some m =>
      obtain ⟨horigin, hvalue⟩ := (h.inSync i).control.finished d hd m hc
      refine Or.inl ⟨m, (h.inSync i).mem_replied ?_, hc, horigin, hvalue⟩
      exact List.mem_append_right _ (List.mem_filterMap.mpr ⟨d, hd, hc⟩)
  · rw [(h.inSync i).control.numbers]
    exact (List.reverse_perm _).nodup_iff.mpr List.nodup_range

/-- Two clients, and a library for a listing of each. -/
def pair : Bool → MQSSHPCClient
  | false => ⟨str "listener", str "first"⟩
  | true => ⟨str "listener", str "second"⟩

def pairClients : Clients Bool where
  client := pair
  listener := str "listener"
  shares := by decide
  noNul := by decide
  distinct := by decide
  notListener := by decide

def pairLib : JsonLib := .ofTable [
  (requestText (str "GET") (str "resources") (str "first"), (pair false).envelope (.get (str "resources"))),
  (requestText (str "GET") (str "resources") (str "second"), (pair true).envelope (.get (str "resources")))] (by decide)

/-- The listener takes and answers the requests in the other order. -/
def crossedRun : List (Label Bool) := [
  .call false (.get (str "resources")), .publish false 0 true,
  .call true (.get (str "resources")), .publish true 0 true,
  .take 1, .take 0, .answer 0 (str "[]"), .answer 0 (str "\x7b\x7d"),
  .consume false, .consume true, .ret true, .ret false]

theorem isolated_crossedRun :
    ∃ s, steps (step pairLib Transport.socketError pairClients) Network.init crossedRun = some s ∧
      Isolated pairLib Transport.socketError pairClients s := by
  obtain ⟨s, hs⟩ := Option.isSome_iff_exists.mp
    (show (steps (step pairLib Transport.socketError pairClients) Network.init crossedRun).isSome by decide)
  refine ⟨s, hs, isolated_of_run (fun l hl => ?_) hs⟩
  simp only [crossedRun, List.mem_cons, List.not_mem_nil, or_false] at hl
  rcases hl with rfl | rfl | rfl | rfl | rfl | rfl | rfl | rfl | rfl | rfl | rfl | rfl
  all_goals trivial

end Runs

end MqssClient
