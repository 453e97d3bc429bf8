import MqssClient.Hpc.Progress
import MqssClient.Hpc.Skew

/-!
# Calls that block

A call consumes without a timeout, also when its publish failed. It ends if anything of its client is under way, be it the
reply to an earlier call; if nothing is, no step of the listener or of another client ends it.

* `exists_end_of_queue`, `exists_end_of_working`, `exists_end_of_listener`: how a call ends, by where a message is;
* `blocked_step`: what keeps a call from ending;
* `ends_or_blocks_of_run`: which of the two it is.
-/

namespace MqssClient

open Foundations MQSSHPCClient

section Ends

variable {ι : Type} [DecidableEq ι] (lib : JsonLib) (amqp_error_string2 : Int → Bytes) (net : Clients ι)

/-- Some steps without a failure and without a new call end the call of a client with a message. -/
def CanEnd (s : Network ι) (i : ι) : Prop :=
  ∃ ls s' d, (∀ l ∈ ls, l.Continues) ∧ steps (step lib amqp_error_string2 net) s ls = some s' ∧
    (s'.control i).finished = d :: (s.control i).finished ∧ d.consumed.isSome

/-- No call of rabbitmq-c fails to consume for this client. -/
def Label.NoConsumeErrorOf (i : ι) (l : Label ι) : Prop := ∀ library_error, l ≠ .consumeError i library_error

end Ends

section Step

variable {ι : Type} [DecidableEq ι] {lib : JsonLib} {amqp_error_string2 : Int → Bytes} {net : Clients ι}
  {s s' : Network ι} {i : ι} {r : Running ι}

theorem CanEnd.cons {l : Label ι} (hl : l.Continues) (hstep : step lib amqp_error_string2 net s l = some s')
    (hcontrol : s'.control i = s.control i) (h : CanEnd lib amqp_error_string2 net s' i) :
    CanEnd lib amqp_error_string2 net s i := by
  obtain ⟨ls, t, d, hls, hrun, hfinished, hd⟩ := h
  refine ⟨l :: ls, t, d, fun l' hl' => ?_, (steps_cons _).mpr ⟨s', hstep, hrun⟩, hcontrol ▸ hfinished, hd⟩
  rcases List.mem_cons.mp hl' with rfl | hl'
  · exact hl
  · exact hls l' hl'

theorem exists_end_of_queue (h : Confined lib amqp_error_string2 net s) (hcur : (s.control i).current = some r)
    (hwait : r.consume.isSome) (hqueue : s.queue (net.response i) ≠ []) : CanEnd lib amqp_error_string2 net s i := by
  obtain ⟨⟨queue, k⟩, hk⟩ := Option.isSome_iff_exists.mp hwait
  obtain ⟨rfl, -, rfl⟩ := ((h.control i).current r hcur).1.consume hk
  obtain ⟨m, hm⟩ := List.exists_mem_of_ne_nil _ hqueue
  have hconsume : (step lib amqp_error_string2 net s (.consume i)).isSome := isSome_step_consume hcur hk hm
  obtain ⟨t, ht⟩ := Option.isSome_iff_exists.mp hconsume
  obtain ⟨r', queue', k', m', rest, hcur', hk', -, hteq⟩ := step_consume ht
  obtain rfl : r = r' := Option.some.inj (hcur.symm.trans hcur')
  cases hk.symm.trans hk'
  have hdone : (t.control i).current = some
      ⟨r.op, r.number, .pure (finish amqp_error_string2 r.op (.ok m'.body)), r.delivered, some m'⟩ := by
    rw [hteq, Network.setCurrent, Network.setControl_self]
  have hfinished : (t.control i).finished = (s.control i).finished := by
    rw [hteq, Network.setCurrent, Network.setControl_self]
    rfl
  have hret : (step lib amqp_error_string2 net t (.ret i)).isSome := isSome_step_ret hdone rfl
  obtain ⟨t', ht'⟩ := Option.isSome_iff_exists.mp hret
  obtain ⟨r', d, hcur', hd, rfl⟩ := step_ret ht'
  cases hdone.symm.trans hcur'
  have hconsumed : d.consumed.isSome := by
    cases hd
    rfl
  refine ⟨[.consume i, .ret i], _, d, fun l hl => ?_,
    (steps_cons _).mpr ⟨t, ht, (steps_cons _).mpr ⟨_, ht', rfl⟩⟩, ?_, hconsumed⟩
  · simp only [List.mem_cons, List.not_mem_nil, or_false] at hl
    rcases hl with rfl | rfl
    · exact ⟨trivial, by rintro j op ⟨⟩⟩
    · exact ⟨trivial, by rintro j op ⟨⟩⟩
  · rw [Network.setControl_self, ← hfinished]

theorem exists_end_of_working (h : Confined lib amqp_error_string2 net s) (hcur : (s.control i).current = some r)
    (hwait : r.consume.isSome) {m : Message ι} (hm : m ∈ s.working) (hi : m.origin.1 = i) :
    CanEnd lib amqp_error_string2 net s i := by
  obtain ⟨n, hn⟩ := List.getElem?_of_mem hm
  have hresponse : responseQueue lib m.body = some (net.response i) := hi ▸ h.requests m (List.mem_append_right _ hm)
  have hanswer : step lib amqp_error_string2 net s (.answer n []) = some ({ s with
      working := s.working.eraseIdx n, replied := s.replied ++ [m.reply []] }.push (net.response i) (m.reply [])) := by
    simp [step, hn, hresponse]
  refine CanEnd.cons (l := .answer n []) ⟨trivial, by rintro j op ⟨⟩⟩ hanswer rfl ?_
  refine exists_end_of_queue (h.answer hanswer) hcur hwait ?_
  rw [Network.push_self]
  exact List.append_ne_nil_of_right_ne_nil _ (List.cons_ne_nil _ _)

theorem exists_end_of_listener (h : Confined lib amqp_error_string2 net s) (hcur : (s.control i).current = some r)
    (hwait : r.consume.isSome) {m : Message ι} (hm : m ∈ s.queue net.listener) (hi : m.origin.1 = i) :
    CanEnd lib amqp_error_string2 net s i := by
  obtain ⟨n, hn⟩ := List.getElem?_of_mem hm
  have htake : step lib amqp_error_string2 net s (.take n) = some { s.setQueue net.listener
      ((s.queue net.listener).eraseIdx n) with working := s.working ++ [m] } := by
    simp [step, hn]
  refine CanEnd.cons (l := .take n) ⟨trivial, by rintro j op ⟨⟩⟩ htake rfl ?_
  exact exists_end_of_working (h.take htake) hcur hwait (List.mem_append_right _ List.mem_cons_self) hi

/-- Whatever is under way of a client ends the call in which it waits for a message. -/
theorem canEnd_of_flight (h : Confined lib amqp_error_string2 net s) (hcur : (s.control i).current = some r)
    (hwait : r.consume.isSome) (hflight : s.flight net i ≠ []) : CanEnd lib amqp_error_string2 net s i := by
  obtain ⟨o, ho⟩ := List.exists_mem_of_ne_nil _ hflight
  obtain ⟨m, hm, rfl⟩ := List.mem_map.mp ho
  rcases List.mem_append.mp hm with hout | hqueue
  · obtain ⟨hrequest, hi⟩ := List.mem_filter.mp hout
    rcases List.mem_append.mp hrequest with hlistener | hworking
    · exact exists_end_of_listener h hcur hwait hlistener (of_decide_eq_true hi)
    · exact exists_end_of_working h hcur hwait hworking (of_decide_eq_true hi)
  · exact exists_end_of_queue h hcur hwait (List.ne_nil_of_mem hqueue)

omit [DecidableEq ι] in
theorem publish_of_consume (h : r.consume.isSome) : r.publish = none := by
  obtain ⟨p, hp⟩ := Option.isSome_iff_exists.mp h
  unfold Running.consume at hp
  split at hp
  next hprog => rw [Running.publish, hprog]
  · cases hp

/-- A client that waits with nothing of it under way is left to wait, and nothing of it gets under way. -/
theorem blocked_step (h : Confined lib amqp_error_string2 net s) (hcur : (s.control i).current = some r)
    (hwait : r.consume.isSome) (hflight : s.flight net i = []) {l : Label ι} (hl : l.NoConsumeErrorOf i)
    (hstep : step lib amqp_error_string2 net s l = some s') :
    s'.control i = s.control i ∧ s'.flight net i = [] := by
  have hclient : l.client ≠ some i := by
    intro hclient
    cases l with
    | take n => cases hclient
    | answer n body => cases hclient
    | call j op =>
      obtain rfl : j = i := Option.some.inj hclient
      cases (step_call hstep).1.symm.trans hcur
    | publish j status delivered =>
      obtain rfl : j = i := Option.some.inj hclient
      obtain ⟨r', queue, body, k, hcur', hk, -⟩ := step_publish hstep
      cases hcur.symm.trans hcur'
      cases (publish_of_consume hwait).symm.trans hk
    | consume j =>
      obtain rfl : j = i := Option.some.inj hclient
      obtain ⟨r', queue, k, m, rest, hcur', hk, hqueue, -⟩ := step_consume hstep
      obtain ⟨rfl, -⟩ := ((h.control j).current r' hcur').1.consume hk
      have hmem : m.origin ∈ s.flight net j := List.mem_map_of_mem (by simp [hqueue])
      rw [hflight] at hmem
      cases hmem
    | consumeError j library_error =>
      obtain rfl : j = i := Option.some.inj hclient
      exact hl library_error rfl
    | ret j =>
      obtain rfl : j = i := Option.some.inj hclient
      obtain ⟨r', d, hcur', hd, -⟩ := step_ret hstep
      cases hcur.symm.trans hcur'
      rw [consume_of_ret hd] at hwait
      cases hwait
  have hlength := h.flight_step hstep i
  rw [Label.consumes_of_ne hclient, Label.sends_of_ne hclient, hflight] at hlength
  exact ⟨step_control_of_ne hclient hstep, List.eq_nil_of_length_eq_zero hlength⟩

end Step

/-! ## Runs -/

section Runs

variable {ι : Type} [DecidableEq ι] {lib : JsonLib} {amqp_error_string2 : Int → Bytes} {net : Clients ι}
  {s : Network ι} {i : ι} {r : Running ι} {ls : List (Label ι)}

/-- Take any state of any run, and a call that waits for a message. If anything of its client is under way, some steps
without a failure end it. If nothing is, the request of this call never reached the broker, and whatever happens after, it
waits for ever unless its consume fails. -/
theorem ends_or_blocks_of_run (hrun : steps (step lib amqp_error_string2 net) Network.init ls = some s)
    (hcur : (s.control i).current = some r) (hwait : r.consume.isSome) :
    (s.flight net i ≠ [] → CanEnd lib amqp_error_string2 net s i) ∧
    (s.flight net i = [] → r.delivered = false ∧ ∀ ls' s', (∀ l ∈ ls', l.NoConsumeErrorOf i) →
      steps (step lib amqp_error_string2 net) s ls' = some s' → s'.control i = s.control i ∧ s'.flight net i = []) := by
  have h := confined_of_run hrun
  refine ⟨canEnd_of_flight h hcur hwait, fun hflight => ⟨?_, fun ls' s' hok hrun' => ?_⟩⟩
  · by_contra hdelivered
    obtain ⟨⟨queue, k⟩, hk⟩ := Option.isSome_iff_exists.mp hwait
    obtain ⟨-, hnone, -⟩ := ((h.control i).current r hcur).1.consume hk
    have hmem := h.awaited i r.number (Control.mem_awaited.mpr ⟨r, hcur, by simpa using hdelivered, hnone, rfl⟩)
    rw [hflight] at hmem
    cases hmem
  · have hend := steps_invariant (C := fun _ l => Label.NoConsumeErrorOf i l)
      (I := fun t => Confined lib amqp_error_string2 net t ∧ t.control i = s.control i ∧ t.flight net i = [])
      (step lib amqp_error_string2 net) (fun t l t' ⟨ht, hcontrol, hempty⟩ hl hstep => by
        obtain ⟨hcontrol', hempty'⟩ := blocked_step ht (hcontrol ▸ hcur) hwait hempty hl hstep
        exact ⟨confined_step ht hstep, hcontrol'.trans hcontrol, hempty'⟩)
      ⟨h, rfl, hflight⟩ (AllSteps.of_forall _ (fun l hl _ => hok l hl) _) hrun'
    exact hend.2

/-- A listing whose publish fails, and does not reach the broker. -/
def lostRun : List (Label Unit) := [.call () (.get (str "resources")), .publish () (-9) false]

theorem blocks_lostRun :
    ∃ s, steps (step sampleLib Transport.socketError sampleClients) Network.init lostRun = some s ∧
      ∀ ls' s', (∀ l ∈ ls', l.NoConsumeErrorOf ()) →
        steps (step sampleLib Transport.socketError sampleClients) s ls' = some s' →
          (s'.control ()).current.isSome := by
  have hrun : (steps (step sampleLib Transport.socketError sampleClients) Network.init lostRun).map (fun s =>
      (s.flight sampleClients (), (s.control ()).current.map fun r => r.consume.isSome)) = some ([], some true) := by
    decide
  obtain ⟨s, hs, heq⟩ := Option.map_eq_some_iff.mp hrun
  obtain ⟨hflight, hcurrent⟩ := Prod.mk.inj heq
  obtain ⟨r, hcur, hwait⟩ := Option.map_eq_some_iff.mp hcurrent
  refine ⟨s, hs, fun ls' s' hok hrun' => ?_⟩
  obtain ⟨-, hblocks⟩ := ends_or_blocks_of_run hs hcur hwait
  rw [((hblocks hflight).2 ls' s' hok hrun').1, hcur]
  rfl

end Runs

end MqssClient
