import MqssClient.Foundations.Potential
import MqssClient.Hpc.Isolation
import Mathlib.Algebra.BigOperators.Group.Finset.Piecewise

/-!
# Calls come to an end

A call consumes without a timeout. When no call of rabbitmq-c fails, nothing keeps it from ending but the listener: each
call takes its own few steps, whatever the other clients do, and as long as it has not returned one of them is possible.

* `Network.mover`: the client whose call or message a step moves;
* `Network.left`: the steps that the call of a client still takes; `left_step`: how a step changes them;
* `exists_step_of_busy`: a client in a call can be moved;
* `completes_of_run`, `returns_of_run`: how the calls of one client, and of all, come to an end.
-/

namespace MqssClient

open Foundations MQSSHPCClient

section Progress

variable {ι : Type} [DecidableEq ι]

/-- No call of rabbitmq-c fails, and no new call begins. -/
def Label.Continues (l : Label ι) : Prop := l.NoFailure ∧ ∀ i op, l ≠ .call i op

/-- The steps that a call still takes by itself, and for its request. -/
def Running.left (r : Running ι) : Nat :=
  match r.prog with
  | .pure _ => 1
  | .call (.consume_message _) _ => 2
  | .call (.basic_publish _ _) _ => 5

variable (lib : JsonLib) (net : Clients ι)

namespace Network

variable (s : Network ι)

/-- The client whose call or message a step moves. -/
def mover : Label ι → Option ι
  | .call i _ => some i
  | .publish i _ _ => some i
  | .consume i => some i
  | .consumeError i _ => some i
  | .ret i => some i
  | .take n => (s.queue net.listener)[n]?.map fun m => m.origin.1
  | .answer n _ => s.working[n]?.map fun m => m.origin.1

/-- The steps that the call of a client still takes: its own, and those of the listener with its request. -/
def left (i : ι) : Nat :=
  ((s.control i).current.elim 0 Running.left) +
    (2 * ((s.queue net.listener).countP fun m => m.origin.1 = i) + s.working.countP fun m => m.origin.1 = i)

/-- One step, if it moves the client. -/
def moves (i : ι) (l : Label ι) : Nat := if s.mover net l = some i then 1 else 0

/-- The steps of a call that begins: six, or two when its request cannot be serialised. -/
def brings (i : ι) (_ : Network ι) : Label ι → Nat
  | .call j op => if j = i then (if (lib.dump ((net.client i).envelope op)).isSome then 6 else 2) else 0
  | _ => 0

end Network

end Progress

section Points

variable {ι : Type} {lib : JsonLib} {amqp_error_string2 : Int → Bytes} {net : Clients ι} {i : ι} {r : Running ι}

namespace Running

theorem left_of_publish {p : Bytes × Bytes × (Int → Bool → Running ι)} (h : r.publish = some p) : r.left = 5 := by
  unfold publish at h
  split at h
  next hprog => rw [left, hprog]
  · cases h

theorem left_of_consume {p : Bytes × (Except Int Bytes → Option (Message ι) → Running ι)} (h : r.consume = some p) :
    r.left = 2 := by
  unfold consume at h
  split at h
  next hprog => rw [left, hprog]
  · cases h

theorem left_of_ret {d : Completed ι} (h : r.ret = some d) : r.left = 1 := by
  unfold ret at h
  split at h
  next hprog => rw [left, hprog]
  · cases h

theorem left_run (lib : JsonLib) (amqp_error_string2 : Int → Bytes) (net : Clients ι) (i : ι) (op : BaseCall)
    (number : Nat) :
    left (⟨op, number, run lib amqp_error_string2 (net.client i) op, false, none⟩ : Running ι) + 1 =
      if (lib.dump ((net.client i).envelope op)).isSome then 6 else 2 := by
  unfold left
  dsimp only
  rw [run_eq]
  cases lib.dump ((net.client i).envelope op) <;> rfl

/-- After a publish that succeeded, every call consumes. -/
theorem left_afterSend (op : BaseCall) (number : Nat) (delivered : Bool) :
    left (⟨op, number, afterSend amqp_error_string2 (net.client i) op 0, delivered, none⟩ : Running ι) = 2 := by
  have hw : awaits op 0 := by cases op <;> rfl
  rw [afterSend, if_pos hw, left]

theorem Stage.left_le (h : r.Stage lib amqp_error_string2 net i) : r.left + 2 * r.awaited.toList.length ≤ 5 := by
  cases h with
  | ready op number =>
    have hrun := left_run lib amqp_error_string2 net i op number
    rw [awaited, if_neg (by simp), Option.toList_none, List.length_nil]
    split_ifs at hrun <;> omega
  | waiting op number delivered =>
    show 2 + _ ≤ 5
    have := Option.length_toList_le (o := awaited (⟨op, number, .call (AmqpCall.consume_message (net.response i))
      fun reply => .pure (finish amqp_error_string2 op reply), delivered, none⟩ : Running ι))
    omega
  | done op number value delivered consumed own undelivered =>
    rw [awaited, if_neg (fun hw => by rw [undelivered hw.2] at hw; cases hw.1)]
    show 1 + _ ≤ 5
    simp

theorem left_pos (r : Running ι) : 0 < r.left := by
  unfold left
  split <;> omega

end Running

end Points

section Step

variable {ι : Type} [DecidableEq ι] {lib : JsonLib} {amqp_error_string2 : Int → Bytes} {net : Clients ι}
  {s s' : Network ι} {i : ι}

namespace Network

section Left

variable (net s i)

theorem left_setControl (c : Control ι) (j : ι) :
    (s.setControl i c).left net j + (if i = j then (s.control i).current.elim 0 Running.left else 0) =
      s.left net j + if i = j then c.current.elim 0 Running.left else 0 := by
  unfold left
  rcases eq_or_ne i j with rfl | hne
  · rw [if_pos rfl, if_pos rfl, setControl_self, setControl_queue]
    show _ + (_ + s.working.countP _) + _ = _
    omega
  · rw [if_neg hne, if_neg hne, setControl_of_ne _ _ hne.symm]
    rfl

theorem left_push (m : Message ι) (j : ι) :
    (s.push net.listener m).left net j = s.left net j + if m.origin.1 = j then 2 else 0 := by
  unfold left
  rw [push_self, List.countP_append, List.countP_singleton]
  show _ + (_ + s.working.countP _) = _ + (_ + s.working.countP _) + _
  simp only [decide_eq_true_eq]
  split_ifs
  · show (s.control j).current.elim 0 Running.left + _ = _
    omega
  · rfl

/-- What happens to a response queue is no step of the listener. -/
theorem left_setQueue (ms : List (Message ι)) (j : ι) :
    (s.setQueue (net.response i) ms).left net j = s.left net j := by
  unfold left
  rw [setQueue_of_ne _ _ (net.response_ne_listener i).symm]
  rfl

variable {i} in
/-- A client goes on with its call. -/
theorem left_setCurrent {r : Running ι} (hr : (s.control i).current = some r) (r' : Running ι) (j : ι) :
    (s.setCurrent i r').left net j + (if i = j then r.left else 0) = s.left net j + if i = j then r'.left else 0 := by
  have hleft := left_setControl net s i ⟨some r', (s.control i).finished⟩ j
  rw [hr] at hleft
  exact hleft

end Left

/-- What a step of the network brings to a client and uses up of it is what changes of the steps left. -/
theorem left_step (h : Correlated lib amqp_error_string2 net s) {l : Label ι} (hl : l.NoFailure)
    (hstep : step lib amqp_error_string2 net s l = some s') (j : ι) :
    s'.left net j + s.moves net j l = s.left net j + brings lib net j s l := by
  cases l with
  | call i op =>
    obtain ⟨hcur, rfl⟩ := step_call hstep
    have hleft := left_setControl net s i ⟨some ⟨op, (s.control i).finished.length,
      run lib amqp_error_string2 (net.client i) op, false, none⟩, (s.control i).finished⟩ j
    have hrun := Running.left_run lib amqp_error_string2 net i op (s.control i).finished.length
    rw [hcur, Option.elim_none, Option.elim_some] at hleft
    simp only [moves, mover, brings, Option.some.injEq, Network.setCurrent]
    rcases eq_or_ne i j with rfl | hne
    · simp only [if_true] at hleft ⊢
      omega
    · simpa only [if_neg hne] using hleft
  | publish i status delivered =>
    obtain ⟨r, queue, body, k, hcur, hk, hdel, rfl⟩ := step_publish hstep
    obtain rfl : status = 0 := hl
    obtain ⟨hstage, -⟩ := (h.inSync i).control.current r hcur
    obtain ⟨rfl, -⟩ := hstage.publish hk
    obtain ⟨-, hnext⟩ := hstage.envelope hk
    have hpush := left_push net s ⟨(i, r.number), body⟩ j
    have hleft := left_setCurrent net (s.push net.listener ⟨(i, r.number), body⟩) hcur (k 0 delivered) j
    rw [Running.left_of_publish hk, hnext, Running.left_afterSend, ← hnext] at hleft
    rw [hdel rfl, if_pos rfl, ← hdel rfl]
    simp only [moves, mover, brings, Option.some.injEq]
    split_ifs at hpush hleft ⊢ <;> omega
  | consume i =>
    obtain ⟨r, queue, k, m, rest, hcur, hk, hqueue, rfl⟩ := step_consume hstep
    obtain ⟨rfl, -, rfl⟩ := ((h.inSync i).control.current r hcur).1.consume hk
    have hrest := left_setQueue net s i rest j
    have hleft := left_setCurrent net (s.setQueue (net.response i) rest) hcur
      ⟨r.op, r.number, .pure (finish amqp_error_string2 r.op (.ok m.body)), r.delivered, some m⟩ j
    rw [Running.left_of_consume hk, hrest] at hleft
    simp only [moves, mover, brings, Option.some.injEq]
    split_ifs at hleft ⊢
    · exact Nat.succ.inj hleft
    · exact hleft
  | consumeError => exact hl.elim
  | ret i =>
    obtain ⟨r, d, hcur, hd, rfl⟩ := step_ret hstep
    have hleft := left_setControl net s i ⟨none, d :: (s.control i).finished⟩ j
    rw [hcur, Option.elim_some, Option.elim_none, Running.left_of_ret hd] at hleft
    simp only [moves, mover, brings, Option.some.injEq]
    split_ifs at hleft ⊢ <;> omega
  | take n =>
    obtain ⟨m, hm, h'⟩ := Option.bind_eq_some_iff.mp hstep
    obtain rfl := Option.some.inj h'
    have hcount := (perm_of_getElem? hm).countP_eq fun m => m.origin.1 = j
    rw [List.countP_cons] at hcount
    simp only [moves, mover, brings, hm, Option.map_some, Option.some.injEq, left, Network.setQueue_self,
      List.countP_append, List.countP_singleton, decide_eq_true_eq] at hcount ⊢
    show (s.control j).current.elim 0 Running.left + _ + _ = _
    split_ifs at hcount ⊢ <;> omega
  | answer n body =>
    obtain ⟨m, hm, h'⟩ := Option.bind_eq_some_iff.mp hstep
    obtain ⟨queue, hqueue, h'⟩ := Option.bind_eq_some_iff.mp h'
    obtain rfl := Option.some.inj h'
    have hmem : m ∈ s.requests net := List.mem_append_right _ (List.mem_of_getElem? hm)
    obtain rfl : net.response m.origin.1 = queue := Option.some.inj ((h.requests m hmem).symm.trans hqueue)
    have hcount := (perm_of_getElem? hm).countP_eq fun m => m.origin.1 = j
    rw [List.countP_cons] at hcount
    rw [Network.push, left_setQueue]
    simp only [moves, mover, brings, hm, Option.map_some, Option.some.injEq, left, decide_eq_true_eq] at hcount ⊢
    split_ifs at hcount ⊢ <;> omega

/-- A client has steps left exactly while it is in a call. -/
theorem left_eq_zero (h : Correlated lib amqp_error_string2 net s) :
    s.left net i = 0 ↔ (s.control i).current = none := by
  constructor
  · intro hleft
    cases hcur : (s.control i).current with
    | none => rfl
    | some r =>
      rw [left, hcur, Option.elim_some] at hleft
      have := r.left_pos
      omega
  · intro hcur
    have hnone : s.outstanding net i = [] := by
      refine List.eq_nil_iff_forall_not_mem.mpr fun m hm => ?_
      obtain ⟨-, r, hr, -⟩ := (h.inSync i).awaited_of_mem (List.mem_map_of_mem (List.mem_append_left _ hm))
      rw [hcur] at hr
      cases hr
    rw [outstanding, requests, List.filter_append] at hnone
    obtain ⟨hlistener, hworking⟩ := List.append_eq_nil_iff.mp hnone
    rw [left, hcur, List.countP_eq_length_filter, List.countP_eq_length_filter, hlistener, hworking]
    rfl

theorem left_le (h : Correlated lib amqp_error_string2 net s) (i : ι) : s.left net i ≤ 5 := by
  have hflight := congrArg List.length (h.inSync i).flight_eq
  rw [flight, outstanding, requests, List.length_map, List.filter_append, List.length_append, List.length_append,
    ← List.countP_eq_length_filter, ← List.countP_eq_length_filter, List.length_map, Control.awaited] at hflight
  rw [left]
  cases hcur : (s.control i).current with
  | none =>
    rw [hcur, Option.bind_none, Option.toList_none, List.length_nil] at hflight
    rw [Option.elim_none]
    omega
  | some r =>
    rw [hcur, Option.bind_some] at hflight
    rw [Option.elim_some]
    have := ((h.inSync i).control.current r hcur).1.left_le
    omega

end Network

theorem isSome_step_ret {r : Running ι} (hcur : (s.control i).current = some r) (hr : r.ret.isSome) :
    (step lib amqp_error_string2 net s (.ret i)).isSome := by
  obtain ⟨d, hd⟩ := Option.isSome_iff_exists.mp hr
  simp [step, hcur, hd]

theorem isSome_step_publish {r : Running ι} (hcur : (s.control i).current = some r) (hp : r.publish.isSome) :
    (step lib amqp_error_string2 net s (.publish i 0 true)).isSome := by
  obtain ⟨p, hp⟩ := Option.isSome_iff_exists.mp hp
  simp [step, hcur, hp]

theorem isSome_step_consume {r : Running ι} {k : Except Int Bytes → Option (Message ι) → Running ι} {m : Message ι}
    (hcur : (s.control i).current = some r) (hc : r.consume = some (net.response i, k))
    (hm : m ∈ s.queue (net.response i)) : (step lib amqp_error_string2 net s (.consume i)).isSome := by
  obtain ⟨m', hm'⟩ := Option.isSome_iff_exists.mp (List.isSome_head?.mpr (List.ne_nil_of_mem hm))
  simp [step, hcur, hc, hm']

/-- A client in a call can be moved. -/
theorem exists_step_of_busy (h : Correlated lib amqp_error_string2 net s)
    (hf : (s.control i).Faultless lib amqp_error_string2 net i) {r : Running ι} (hcur : (s.control i).current = some r) :
    ∃ l : Label ι, l.Continues ∧ s.mover net l = some i ∧ (step lib amqp_error_string2 net s l).isSome := by
  obtain ⟨hstage, hnumber⟩ := (h.inSync i).control.current r hcur
  cases hstage with
  | ready op number =>
    have hrun := run_eq lib amqp_error_string2 (net.client i) op
    cases hd : lib.dump ((net.client i).envelope op) with
    | none =>
      rw [hd] at hrun
      refine ⟨.ret i, ⟨trivial, by rintro j op ⟨⟩⟩, rfl, isSome_step_ret hcur ?_⟩
      rw [Running.ret, hrun]
      rfl
    | some request =>
      rw [hd] at hrun
      refine ⟨.publish i 0 true, ⟨rfl, by rintro j op ⟨⟩⟩, rfl, isSome_step_publish hcur ?_⟩
      rw [Running.publish, hrun]
      rfl
  | done op number value delivered consumed =>
    exact ⟨.ret i, ⟨trivial, by rintro j op ⟨⟩⟩, rfl, isSome_step_ret hcur rfl⟩
  | waiting op number delivered =>
    -- the request is with the listener, or its reply in the queue
    have hdelivered : delivered = true := by
      by_contra hlost
      have hrun := hf.current _ hcur (by simpa using hlost) rfl
      rw [run_eq] at hrun
      cases hd : lib.dump ((net.client i).envelope op) <;> rw [hd] at hrun <;> cases hrun
    have hflight : (i, number) ∈ s.flight net i := by
      rw [(h.inSync i).flight_eq, Control.awaited, hcur, Option.bind_some, Running.awaited, if_pos ⟨hdelivered, rfl⟩]
      exact List.mem_cons_self
    obtain ⟨m, hm, ho⟩ := List.mem_map.mp hflight
    have hi : m.origin.1 = i := congrArg Prod.fst ho
    rcases List.mem_append.mp hm with hout | hqueue
    · rcases List.mem_append.mp (List.mem_of_mem_filter hout) with hlistener | hworking
      · obtain ⟨n, hn⟩ := List.getElem?_of_mem hlistener
        refine ⟨.take n, ⟨trivial, by rintro j op ⟨⟩⟩, by rw [Network.mover, hn, Option.map_some, hi], ?_⟩
        simp [step, hn]
      · obtain ⟨n, hn⟩ := List.getElem?_of_mem hworking
        refine ⟨.answer n [], ⟨trivial, by rintro j op ⟨⟩⟩, by rw [Network.mover, hn, Option.map_some, hi], ?_⟩
        have hresponse := h.requests m (List.mem_of_mem_filter hout)
        simp [step, hn, hresponse]
    · exact ⟨.consume i, ⟨trivial, by rintro j op ⟨⟩⟩, rfl, isSome_step_consume hcur rfl hqueue⟩

/-- A step that continues brings nothing. -/
theorem brings_of_continues {l : Label ι} (hl : l.Continues) (s : Network ι) : Network.brings lib net i s l = 0 := by
  cases l with
  | call j op => exact absurd rfl (hl.2 j op)
  | _ => rfl

theorem isSome_mover {l : Label ι} (hstep : step lib amqp_error_string2 net s l = some s') : (s.mover net l).isSome := by
  cases l with
  | take n =>
    obtain ⟨m, hm, -⟩ := Option.bind_eq_some_iff.mp hstep
    rw [Network.mover, hm, Option.map_some, Option.isSome_some]
  | answer n body =>
    obtain ⟨m, hm, -⟩ := Option.bind_eq_some_iff.mp hstep
    rw [Network.mover, hm, Option.map_some, Option.isSome_some]
  | _ => rfl

end Step

/-! ## Runs -/

section Runs

variable {ι : Type} [DecidableEq ι] (lib : JsonLib) (amqp_error_string2 : Int → Bytes) (net : Clients ι)

/-- A state of a run in which no call of rabbitmq-c failed. -/
structure Undisturbed (s : Network ι) : Prop where
  correlated : Correlated lib amqp_error_string2 net s
  faultless : ∀ i, (s.control i).Faultless lib amqp_error_string2 net i

/-- How the calls of a client come to an end, after a run `ls` from the start to `s`. The steps of the client and of the
listener for it are those that its calls brought, but for what is left; that is nothing when it is in no call and at most
five steps when it is; and then one of these steps is possible, whatever the other clients do. -/
structure Completes (i : ι) (ls : List (Label ι)) (s : Network ι) : Prop where
  account : s.left net i + tally (step lib amqp_error_string2 net) (fun s => s.moves net i) Network.init ls =
    tally (step lib amqp_error_string2 net) (Network.brings lib net i) Network.init ls
  idle : s.left net i = 0 ↔ (s.control i).current = none
  few : s.left net i ≤ 5
  able : (s.control i).current ≠ none →
    ∃ l : Label ι, l.Continues ∧ s.mover net l = some i ∧ (step lib amqp_error_string2 net s l).isSome

variable {lib amqp_error_string2 net} {s s' : Network ι} {i : ι} {ls : List (Label ι)}

theorem Undisturbed.step (h : Undisturbed lib amqp_error_string2 net s) {l : Label ι} (hl : l.NoFailure)
    (hstep : step lib amqp_error_string2 net s l = some s') : Undisturbed lib amqp_error_string2 net s' where
  correlated := correlated_step h.correlated (waitsForReply_of_noFailure hl s) hstep
  faultless := faultless_step h.correlated h.faultless hl hstep

theorem undisturbed_of_run (hok : ∀ l ∈ ls, l.NoFailure)
    (hrun : steps (step lib amqp_error_string2 net) Network.init ls = some s) :
    Undisturbed lib amqp_error_string2 net s := by
  obtain ⟨hcorr, hfault⟩ := faultless_of_run hok hrun
  exact ⟨hcorr, hfault⟩

theorem Undisturbed.idle_or_able (h : Undisturbed lib amqp_error_string2 net s) (hbusy : (s.control i).current ≠ none) :
    ∃ l : Label ι, l.Continues ∧ s.mover net l = some i ∧ (MqssClient.step lib amqp_error_string2 net s l).isSome := by
  obtain ⟨r, hr⟩ := Option.ne_none_iff_exists'.mp hbusy
  exact exists_step_of_busy h.correlated (h.faultless i) hr

theorem undisturbed_init : Undisturbed lib amqp_error_string2 net Network.init :=
  undisturbed_of_run (fun _ hl => absurd hl List.not_mem_nil) rfl

/-- When no call of rabbitmq-c fails, the calls of each client take their own steps and no others. -/
theorem completes_of_run (hok : ∀ l ∈ ls, l.NoFailure)
    (hrun : steps (step lib amqp_error_string2 net) Network.init ls = some s) (i : ι) :
    Completes lib amqp_error_string2 net i ls s := by
  have h := undisturbed_of_run hok hrun
  refine ⟨?_, Network.left_eq_zero h.correlated, Network.left_le h.correlated i, h.idle_or_able⟩
  have hinv : ∀ t l t', Undisturbed lib amqp_error_string2 net t → l.NoFailure →
      step lib amqp_error_string2 net t l = some t' → Undisturbed lib amqp_error_string2 net t' :=
    fun _ _ _ h hl hstep => h.step hl hstep
  have hsteps := steps_potential (μ := fun s => s.left net i) hinv
    (fun _ _ _ h hl hstep => Network.left_step h.correlated hl hstep i) undisturbed_init
    (AllSteps.of_forall _ (fun l hl _ => hok l hl) _) hrun
  rw [hsteps, show Network.left net Network.init i = 0 from rfl, Nat.zero_add]

theorem noFailure_crossedRun : ∀ l ∈ crossedRun, l.NoFailure := by
  intro l hl
  simp only [crossedRun, List.mem_cons, List.not_mem_nil, or_false] at hl
  rcases hl with rfl | rfl | rfl | rfl | rfl | rfl | rfl | rfl | rfl | rfl | rfl | rfl
  all_goals trivial

theorem completes_crossedRun :
    ∃ s, steps (step pairLib Transport.socketError pairClients) Network.init crossedRun = some s ∧
      Completes pairLib Transport.socketError pairClients true crossedRun s := by
  obtain ⟨s, hs⟩ := Option.isSome_iff_exists.mp
    (show (steps (step pairLib Transport.socketError pairClients) Network.init crossedRun).isSome by decide)
  exact ⟨s, hs, completes_of_run noFailure_crossedRun hs true⟩

/-- A schedule of steps that continue stops when every client has returned, and not before. -/
theorem Undisturbed.stuck_iff (h : Undisturbed lib amqp_error_string2 net s) :
    (∀ l : Label ι, l.Continues → MqssClient.step lib amqp_error_string2 net s l = none) ↔
      ∀ i, (s.control i).current = none := by
  constructor
  · intro hstuck i
    by_contra hbusy
    obtain ⟨l, hl, -, hsome⟩ := h.idle_or_able hbusy
    rw [hstuck l hl] at hsome
    cases hsome
  · intro hidle l hl
    by_contra hstep
    obtain ⟨t, ht⟩ := Option.ne_none_iff_exists'.mp hstep
    obtain ⟨i, hi⟩ := Option.isSome_iff_exists.mp (isSome_mover ht)
    -- the step would use up a step of an idle client
    have hleft := Network.left_step h.correlated hl.1 ht i
    rw [Network.moves, if_pos hi, brings_of_continues hl, (Network.left_eq_zero h.correlated).mpr (hidle i)] at hleft
    omega

variable [Fintype ι]

/-- The steps that all calls still take. -/
theorem sum_left_step (h : Undisturbed lib amqp_error_string2 net s) {l : Label ι} (hl : l.Continues)
    (hstep : step lib amqp_error_string2 net s l = some s') :
    (∑ i, s'.left net i) + 1 = ∑ i, s.left net i := by
  obtain ⟨j, hj⟩ := Option.isSome_iff_exists.mp (isSome_mover hstep)
  have hone : ∑ i, s.moves net i l = 1 := by
    simp only [Network.moves, hj, Option.some.injEq]
    rw [Finset.sum_ite_eq Finset.univ j fun _ => 1, if_pos (Finset.mem_univ j)]
  rw [← hone, ← Finset.sum_add_distrib]
  refine Finset.sum_congr rfl fun i _ => ?_
  rw [Network.left_step h.correlated hl.1 hstep i, brings_of_continues hl, Nat.add_zero]

/-- From any state that is reached without a failure, the calls under way come to an end: any schedule of steps that
continue goes on until all have returned, and has then taken as many steps as were left. -/
theorem returns_of_run (hok : ∀ l ∈ ls, l.NoFailure)
    (hrun : steps (step lib amqp_error_string2 net) Network.init ls = some s) :
    (∀ ls' s', (∀ l ∈ ls', l.Continues) → steps (step lib amqp_error_string2 net) s ls' = some s' →
      (∑ i, s'.left net i) + ls'.length = ∑ i, s.left net i ∧
        ((∀ l : Label ι, l.Continues → step lib amqp_error_string2 net s' l = none) ↔
          ∀ i, (s'.control i).current = none)) ∧
      ∃ ls' s', (∀ l ∈ ls', l.Continues) ∧ steps (step lib amqp_error_string2 net) s ls' = some s' ∧
        ∀ i, (s'.control i).current = none := by
  have h := undisturbed_of_run hok hrun
  have hinv : ∀ t l t', Undisturbed lib amqp_error_string2 net t → l.Continues →
      step lib amqp_error_string2 net t l = some t' → Undisturbed lib amqp_error_string2 net t' :=
    fun _ _ _ h hl hstep => h.step hl.1 hstep
  have hmany : ∀ ls' s', (∀ l ∈ ls', l.Continues) → steps (step lib amqp_error_string2 net) s ls' = some s' →
      Undisturbed lib amqp_error_string2 net s' := fun ls' s' hls hs =>
    steps_invariant _ (C := fun _ l => l.Continues) hinv h (AllSteps.of_forall _ (fun l hl _ => hls l hl) _) hs
  refine ⟨fun ls' s' hls hs => ⟨?_, (hmany ls' s' hls hs).stuck_iff⟩, ?_⟩
  · have hsteps := steps_potential (μ := fun s => ∑ i, s.left net i)
      (w := fun _ _ => 1) (c := fun _ _ => 0) hinv (fun _ _ _ h hl hstep => sum_left_step h hl hstep) h
      (AllSteps.of_forall _ (fun l hl _ => hls l hl) _) hs
    rw [tally_one hs, tally_eq_zero fun _ _ _ => rfl] at hsteps
    exact hsteps
  · obtain ⟨ls', s', hls, hs, hstuck⟩ := exists_steps_stuck (μ := fun s => ∑ i, s.left net i) hinv
      (fun _ _ _ h hl hstep => by have := sum_left_step h hl hstep; omega) s h
    exact ⟨ls', s', hls, hs, (hmany ls' s' hls hs).stuck_iff.mp hstuck⟩

/-- Two clients whose requests are under way. -/
def requestedRun : List (Label Bool) := crossedRun.take 5

theorem returns_requestedRun :
    ∃ s, steps (step pairLib Transport.socketError pairClients) Network.init requestedRun = some s ∧
      ∃ ls' s', (∀ l ∈ ls', l.Continues) ∧ steps (step pairLib Transport.socketError pairClients) s ls' = some s' ∧
        ∀ i, (s'.control i).current = none := by
  obtain ⟨s, hs⟩ := Option.isSome_iff_exists.mp
    (show (steps (step pairLib Transport.socketError pairClients) Network.init requestedRun).isSome by decide)
  exact ⟨s, hs, (returns_of_run (fun l hl => noFailure_crossedRun l (List.mem_of_mem_take hl)) hs).2⟩

end Runs

end MqssClient
