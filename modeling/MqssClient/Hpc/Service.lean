import MqssClient.Hpc.Isolation
import Mathlib.Data.List.Nodup

/-!
# A service behind the listener

Behind the listener is a service with a state of its own. The listener carries out the requests it has taken one at a time,
in any order, and publishes the replies later, again in any order.

* `Service`, `Serving`, `servingStep`: the network of clients, broker and listener with the service behind it;
* `Running.Honest`: a call that ends without a message says so;
* `Serving.Sound`: what holds between the calls, their requests and the service; `Sound.step`: each step keeps it.
-/

namespace MqssClient

open Foundations MQSSHPCClient

/-- A service: the state it starts from, and what a request makes of a state, with the reply. -/
structure Service (σ : Type) where
  init : σ
  serve : σ → Bytes → σ × Bytes

/-- The network, the state of the service, and the replies to requests carried out that are not published yet. -/
structure Serving (ι σ : Type) where
  network : Network ι
  state : σ
  served : List (Message ι)

/-- A step of the network, or the service carries out the `n`-th request that the listener works on. -/
inductive ServingLabel (ι : Type) where
  | network (l : Label ι)
  | serve (n : Nat)

section Serving

variable {ι σ : Type} [DecidableEq ι] (lib : JsonLib) (amqp_error_string2 : Int → Bytes) (net : Clients ι)
  (service : Service σ)

/-- The listener answers a request with the reply of the service, once it has been carried out. -/
def servingStep (s : Serving ι σ) : ServingLabel ι → Option (Serving ι σ)
  | .serve n => do
    let m ← s.network.working[n]?
    if m.origin ∈ s.served.map Message.origin then none
    else
      let (state, reply) := service.serve s.state m.body
      some { s with state, served := s.served ++ [m.reply reply] }
  | .network (.answer n body) => do
    let m ← s.network.working[n]?
    if m.reply body ∈ s.served then
      let network ← step lib amqp_error_string2 net s.network (.answer n body)
      some { s with network, served := s.served.erase (m.reply body) }
    else none
  | .network l => do
    let network ← step lib amqp_error_string2 net s.network l
    some { s with network }

def Serving.init : Serving ι σ := ⟨Network.init, service.init, []⟩

/-- The steps of the network wait for replies. -/
def ServingWaits (s : Serving ι σ) : ServingLabel ι → Prop
  | .network l => WaitsForReply s.network l
  | .serve _ => True

/-- A value that says that a call was not carried out: an exception, or the text of a library error. -/
def Failed : (op : BaseCall) → BaseAns op → Prop
  | .get _, (value : Except Exn Bytes) => (∃ e, value = .error e) ∨ ∃ e, value = .ok (amqp_error_string2 e)
  | .post _ _, (value : Except Exn Bytes) => (∃ e, value = .error e) ∨ ∃ e, value = .ok (amqp_error_string2 e)
  | .del _, (value : Except Exn Unit) => ∃ e, value = .error e

end Serving

/-! ## What holds between the network and the service -/

/-- A call that ends without a message has failed, and no cancellation waits for a reply to a request that was lost. -/
structure Running.Honest {ι : Type} (amqp_error_string2 : Int → Bytes) (r : Running ι) : Prop where
  ends : ∀ d, r.ret = some d → d.consumed = none → Failed amqp_error_string2 d.op d.value
  waits : r.consume.isSome → r.delivered = false → ∀ path, r.op ≠ .del path

namespace Serving

variable {ι σ : Type} [DecidableEq ι] (lib : JsonLib) (amqp_error_string2 : Int → Bytes) (net : Clients ι)

/-- A request under way is that of the call its client is in. -/
def Calls (s : Network ι) : Prop :=
  ∀ i r, (s.control i).current = some r → r.Honest amqp_error_string2 ∧
    ∀ m ∈ s.requests net, m.origin.1 = i → lib.dump ((net.client i).envelope r.op) = some m.body

/-- The clients are correlated with their messages, and the service has carried out only requests that the listener works
on, each once. -/
structure Sound (s : Serving ι σ) : Prop where
  correlated : Correlated lib amqp_error_string2 net s.network
  calls : Calls lib amqp_error_string2 net s.network
  served : ∀ m ∈ s.served, m.origin ∈ s.network.working.map Message.origin
  once : (s.served.map Message.origin).Nodup

end Serving

section Points

variable {ι : Type} {lib : JsonLib} {amqp_error_string2 : Int → Bytes} {net : Clients ι} {i : ι} {r : Running ι}

theorem failed_throws (e : Exn) (op : BaseCall) : Failed amqp_error_string2 op (throws e op) := by
  cases op with
  | get => exact Or.inl ⟨e, rfl⟩
  | post => exact Or.inl ⟨e, rfl⟩
  | del => exact ⟨e, rfl⟩

theorem failed_finish {op : BaseCall} (h : ∀ path, op ≠ .del path) (library_error : Int) :
    Failed amqp_error_string2 op (finish amqp_error_string2 op (.error library_error)) := by
  cases op with
  | get => exact Or.inr ⟨library_error, rfl⟩
  | post => exact Or.inr ⟨library_error, rfl⟩
  | del path => exact absurd rfl (h path)

/-- Only a cancellation gives up on a failed publish. -/
theorem ne_del_of_awaits {op : BaseCall} {status : Int} (h : awaits op status) (hs : status ≠ 0) (path : Bytes) :
    op ≠ .del path := by
  rintro rfl
  exact hs (by simpa [awaits] using h)

namespace Running

theorem ret_op {r : Running ι} {d : Completed ι} (h : r.ret = some d) : d.op = r.op := by
  unfold Running.ret at h
  split at h
  · cases h
    rfl
  · cases h

theorem honest_run (op : BaseCall) (number : Nat) :
    Honest amqp_error_string2 (⟨op, number, run lib amqp_error_string2 (net.client i) op, false, none⟩ : Running ι) where
  ends d hd _ := by
    obtain ⟨-, hvalue⟩ := ret_of_run rfl hd
    rw [hvalue]
    exact failed_throws _ _
  waits hc := by
    rw [Running.consume] at hc
    dsimp only at hc
    rw [run_eq] at hc
    cases hd : lib.dump ((net.client i).envelope op) <;> rw [hd] at hc <;> cases hc

theorem honest_afterSend {op : BaseCall} {number : Nat} {status : Int} {delivered : Bool}
    (h : status = 0 → delivered = true) :
    Honest amqp_error_string2
      (⟨op, number, afterSend amqp_error_string2 (net.client i) op status, delivered, none⟩ : Running ι) := by
  unfold afterSend
  by_cases hw : awaits op status
  · rw [if_pos hw]
    refine ⟨fun d hd => (by cases hd), fun _ hd => ne_del_of_awaits hw fun h0 => ?_⟩
    rw [h h0] at hd
    cases hd
  · rw [if_neg hw]
    refine ⟨fun d hd _ => ?_, fun hc => ?_⟩
    · cases hd
      exact failed_throws _ _
    · cases hc

/-- A consume that fails, of a request that was not delivered. -/
theorem Honest.consumeError (h : r.Honest amqp_error_string2) (hc : r.consume.isSome) (hd : r.delivered = false)
    (library_error : Int) :
    Honest amqp_error_string2
      (⟨r.op, r.number, .pure (finish amqp_error_string2 r.op (.error library_error)), r.delivered, none⟩ :
        Running ι) := by
  refine ⟨fun d hret _ => ?_, fun hcons => by cases hcons⟩
  cases hret
  exact failed_finish (h.waits hc hd) library_error

theorem honest_consumed (op : BaseCall) (number : Nat) (value : BaseAns op) (delivered : Bool) (m : Message ι) :
    Honest amqp_error_string2 (⟨op, number, .pure value, delivered, some m⟩ : Running ι) where
  ends d hd hc := by
    cases hd
    cases hc
  waits hc := by cases hc

end Running

end Points

/-! ## The calls and their requests -/

namespace Serving

section Calls

variable {ι : Type} {lib : JsonLib} {amqp_error_string2 : Int → Bytes} {net : Clients ι} {s s' : Network ι} {i : ι}

theorem Calls.mono (h : Calls lib amqp_error_string2 net s) (hcontrol : s'.control = s.control)
    (hrequests : s'.requests net ⊆ s.requests net) : Calls lib amqp_error_string2 net s' := by
  intro j r hr
  rw [hcontrol] at hr
  exact ⟨(h j r hr).1, fun m hm => (h j r hr).2 m (hrequests hm)⟩

theorem Calls.push (h : Calls lib amqp_error_string2 net s) {m : Message ι}
    (hbody : ∀ r, (s.control m.origin.1).current = some r →
      lib.dump ((net.client m.origin.1).envelope r.op) = some m.body) :
    Calls lib amqp_error_string2 net (s.push net.listener m) := by
  intro j r hr
  refine ⟨(h j r hr).1, fun m' hm' hj => ?_⟩
  rcases List.mem_cons.mp ((Network.requests_push net s m).mem_iff.mp hm') with rfl | hm'
  · subst hj
    exact hbody r hr
  · exact (h j r hr).2 m' hm' hj

variable [DecidableEq ι]

theorem Calls.setControl (h : Calls lib amqp_error_string2 net s) {c : Control ι}
    (hc : ∀ r, c.current = some r → r.Honest amqp_error_string2 ∧
      ∀ m ∈ s.requests net, m.origin.1 = i → lib.dump ((net.client i).envelope r.op) = some m.body) :
    Calls lib amqp_error_string2 net (s.setControl i c) := by
  intro j r hr
  rcases eq_or_ne j i with rfl | hne
  · rw [Network.setControl_self] at hr
    exact hc r hr
  · rw [Network.setControl_of_ne _ _ hne] at hr
    exact h j r hr

/-- A call goes on. -/
theorem Calls.setCurrent (h : Calls lib amqp_error_string2 net s) {r r' : Running ι}
    (hr : (s.control i).current = some r) (hop : r'.op = r.op) (hhonest : r'.Honest amqp_error_string2) :
    Calls lib amqp_error_string2 net (s.setCurrent i r') := by
  refine h.setControl fun r'' hr'' => ?_
  obtain rfl : r' = r'' := Option.some.inj hr''
  rw [hop]
  exact ⟨hhonest, (h i r hr).2⟩

theorem Calls.step (h : Calls lib amqp_error_string2 net s) (hcorr : Correlated lib amqp_error_string2 net s)
    {l : Label ι} (hin : WaitsForReply s l) (hstep : step lib amqp_error_string2 net s l = some s') :
    Calls lib amqp_error_string2 net s' := by
  cases l with
  | call i op =>
    obtain ⟨hcur, rfl⟩ := step_call hstep
    refine h.setControl fun r hr => ?_
    obtain rfl := Option.some.inj hr
    refine ⟨Running.honest_run op _, fun m hm hi => ?_⟩
    -- nothing of an idle client is under way
    have hflight : m.origin ∈ s.flight net i :=
      List.mem_map_of_mem (List.mem_append_left _ (List.mem_filter.mpr ⟨hm, by simpa using hi⟩))
    obtain ⟨-, r, hr, -⟩ := (hcorr.inSync i).awaited_of_mem hflight
    rw [hcur] at hr
    cases hr
  | publish i status delivered =>
    obtain ⟨r, queue, body, k, hcur, hk, hdel, rfl⟩ := step_publish hstep
    obtain ⟨hstage, -⟩ := (hcorr.inSync i).control.current r hcur
    obtain ⟨rfl, -⟩ := hstage.publish hk
    obtain ⟨hbody, hnext⟩ := hstage.envelope hk
    rw [hnext]
    have hhonest : Running.Honest amqp_error_string2 (⟨r.op, r.number,
        afterSend amqp_error_string2 (net.client i) r.op status, delivered, none⟩ : Running ι) :=
      Running.honest_afterSend hdel
    cases delivered with
    | false => exact h.setCurrent hcur rfl hhonest
    | true =>
      rw [if_pos rfl]
      refine Calls.setCurrent (h.push fun r' hr' => ?_) hcur rfl hhonest
      obtain rfl : r = r' := Option.some.inj (hcur.symm.trans hr')
      exact hbody
  | consume i =>
    obtain ⟨r, queue, k, m, rest, hcur, hk, -, rfl⟩ := step_consume hstep
    obtain ⟨rfl, -, rfl⟩ := ((hcorr.inSync i).control.current r hcur).1.consume hk
    have hrest : Calls lib amqp_error_string2 net (s.setQueue (net.response i) rest) := by
      refine h.mono rfl ?_
      rw [Network.requests, Network.setQueue_of_ne _ _ (net.response_ne_listener i).symm]
      exact List.Subset.refl _
    exact hrest.setCurrent hcur rfl (Running.honest_consumed ..)
  | consumeError i library_error =>
    obtain ⟨r, queue, k, hcur, hk, rfl⟩ := step_consumeError hstep
    obtain ⟨-, -, rfl⟩ := ((hcorr.inSync i).control.current r hcur).1.consume hk
    exact h.setCurrent hcur rfl ((h i r hcur).1.consumeError (by rw [hk]; rfl) (hin r hcur) library_error)
  | ret i =>
    obtain ⟨r, d, hcur, -, rfl⟩ := step_ret hstep
    exact h.setControl fun r' hr' => by cases hr'
  | take n =>
    obtain ⟨m, rest, hperm, rfl⟩ := step_take hstep
    refine h.mono rfl fun m' hm' => ?_
    rw [Network.requests, Network.setQueue_self] at hm'
    rw [Network.requests, List.mem_append, hperm.mem_iff]
    simp only [List.mem_append, List.mem_cons, List.not_mem_nil, or_false] at hm' ⊢
    tauto
  | answer n body =>
    obtain ⟨m, rest, queue, hperm, hqueue, rfl⟩ := step_answer hstep
    have hm : m ∈ s.requests net := List.mem_append_right _ (hperm.mem_iff.mpr List.mem_cons_self)
    obtain rfl : net.response m.origin.1 = queue := Option.some.inj ((hcorr.requests m hm).symm.trans hqueue)
    refine h.mono rfl fun m' hm' => ?_
    rw [Network.requests, Network.push_of_ne _ _ (net.response_ne_listener m.origin.1).symm] at hm'
    rw [Network.requests, List.mem_append, hperm.mem_iff]
    simp only [Network.push, Network.setQueue, List.mem_append, List.mem_cons] at hm' ⊢
    tauto

end Calls

end Serving

/-! ## Steps -/

section Steps

variable {ι σ : Type} [DecidableEq ι] {lib : JsonLib} {amqp_error_string2 : Int → Bytes} {net : Clients ι}
  {service : Service σ} {s s' : Serving ι σ} {i : ι}

theorem servingStep_serve {n : Nat} (h : servingStep lib amqp_error_string2 net service s (.serve n) = some s') :
    ∃ m ∈ s.network.working, m.origin ∉ s.served.map Message.origin ∧
      s' = ⟨s.network, (service.serve s.state m.body).1, s.served ++ [m.reply (service.serve s.state m.body).2]⟩ := by
  obtain ⟨m, hm, h⟩ := Option.bind_eq_some_iff.mp h
  split_ifs at h with hserved
  exact ⟨m, List.mem_of_getElem? hm, hserved, (Option.some.inj h).symm⟩

/-- An answer publishes a reply of the service to the request it belongs to. -/
theorem servingStep_answer {n : Nat} {body : Bytes}
    (h : servingStep lib amqp_error_string2 net service s (.network (.answer n body)) = some s') :
    ∃ m rest queue, s.network.working.Perm (m :: rest) ∧ responseQueue lib m.body = some queue ∧
      m.reply body ∈ s.served ∧
      step lib amqp_error_string2 net s.network (.answer n body) = some s'.network ∧
      s' = ⟨{ s.network with working := rest, replied := s.network.replied ++ [m.reply body] }.push queue (m.reply body),
        s.state, s.served.erase (m.reply body)⟩ := by
  obtain ⟨m, hm, h⟩ := Option.bind_eq_some_iff.mp h
  split_ifs at h with hserved
  obtain ⟨network, hnetwork, h⟩ := Option.bind_eq_some_iff.mp h
  obtain rfl := Option.some.inj h
  obtain ⟨m', hm', hstep⟩ := Option.bind_eq_some_iff.mp hnetwork
  obtain rfl : m = m' := Option.some.inj (hm.symm.trans hm')
  obtain ⟨queue, hqueue, hstep⟩ := Option.bind_eq_some_iff.mp hstep
  exact ⟨m, _, queue, perm_of_getElem? hm, hqueue, hserved, hnetwork, by rw [← Option.some.inj hstep]⟩

/-- Whatever the network does but answer, the service has no part in it. -/
theorem servingStep_network {l : Label ι} (hl : ∀ n body, l ≠ .answer n body)
    (h : servingStep lib amqp_error_string2 net service s (.network l) = some s') :
    ∃ network, step lib amqp_error_string2 net s.network l = some network ∧ s' = ⟨network, s.state, s.served⟩ := by
  cases l with
  | answer n body => exact absurd rfl (hl n body)
  | _ =>
    obtain ⟨network, hnetwork, h⟩ := Option.bind_eq_some_iff.mp h
    exact ⟨network, hnetwork, (Option.some.inj h).symm⟩

/-- Only an answer takes a request from the listener. -/
theorem working_subset {t t' : Network ι} {l : Label ι} (hl : ∀ n body, l ≠ .answer n body)
    (h : step lib amqp_error_string2 net t l = some t') : t.working ⊆ t'.working := by
  cases l with
  | call i op =>
    obtain ⟨-, rfl⟩ := step_call h
    exact List.Subset.refl _
  | publish i status delivered =>
    obtain ⟨r, queue, body, k, -, -, -, rfl⟩ := step_publish h
    cases delivered <;> exact List.Subset.refl _
  | consume i =>
    obtain ⟨r, queue, k, m, rest, -, -, -, rfl⟩ := step_consume h
    exact List.Subset.refl _
  | consumeError i library_error =>
    obtain ⟨r, queue, k, -, -, rfl⟩ := step_consumeError h
    exact List.Subset.refl _
  | ret i =>
    obtain ⟨r, d, -, -, rfl⟩ := step_ret h
    exact List.Subset.refl _
  | take n =>
    obtain ⟨m, rest, -, rfl⟩ := step_take h
    exact List.subset_append_left _ _
  | answer n body => exact absurd rfl (hl n body)

namespace Serving

theorem Sound.serve (h : s.Sound lib amqp_error_string2 net) {n : Nat}
    (hstep : servingStep lib amqp_error_string2 net service s (.serve n) = some s') :
    s'.Sound lib amqp_error_string2 net := by
  obtain ⟨m, hm, hnew, rfl⟩ := servingStep_serve hstep
  refine ⟨h.correlated, h.calls, fun m' hm' => ?_, ?_⟩
  · rcases List.mem_append.mp hm' with hm' | hm'
    · exact h.served m' hm'
    · rw [List.mem_singleton.mp hm', Message.reply_origin]
      exact List.mem_map_of_mem hm
  · rw [List.map_append, List.map_singleton, Message.reply_origin]
    refine List.nodup_append.mpr ⟨h.once, List.pairwise_singleton _ _, fun o ho o' ho' he => hnew ?_⟩
    rw [← List.mem_singleton.mp ho', ← he]
    exact ho

theorem Sound.network (h : s.Sound lib amqp_error_string2 net) {l : Label ι} (hl : ∀ n body, l ≠ .answer n body)
    (hin : WaitsForReply s.network l)
    (hstep : servingStep lib amqp_error_string2 net service s (.network l) = some s') :
    s'.Sound lib amqp_error_string2 net := by
  obtain ⟨network, hnetwork, rfl⟩ := servingStep_network hl hstep
  refine ⟨correlated_step h.correlated hin hnetwork, h.calls.step h.correlated hin hnetwork, fun m hm => ?_, h.once⟩
  exact List.map_subset _ (working_subset hl hnetwork) (h.served m hm)

theorem Sound.answer (h : s.Sound lib amqp_error_string2 net) {n : Nat} {body : Bytes}
    (hstep : servingStep lib amqp_error_string2 net service s (.network (.answer n body)) = some s') :
    s'.Sound lib amqp_error_string2 net := by
  obtain ⟨m, rest, queue, hperm, hqueue, hserved, hnetwork, hs'⟩ := servingStep_answer hstep
  have hin : WaitsForReply s.network (.answer n body) := trivial
  refine ⟨correlated_step h.correlated hin hnetwork, h.calls.step h.correlated hin hnetwork, ?_, ?_⟩
  · rw [hs']
    intro m' hm'
    obtain ⟨hne, hmem⟩ := (List.Nodup.of_map _ h.once).mem_erase_iff.mp hm'
    obtain ⟨m'', hm'', ho⟩ := List.mem_map.mp (h.served m' hmem)
    rcases List.mem_cons.mp (hperm.mem_iff.mp hm'') with rfl | hrest
    · -- the reply to the same request is the one that is gone
      exact absurd (List.inj_on_of_nodup_map h.once hmem hserved ho.symm) hne
    · exact ho ▸ List.mem_map_of_mem hrest
  · rw [hs']
    exact h.once.sublist (List.erase_sublist.map _)

theorem Sound.step (h : s.Sound lib amqp_error_string2 net) {l : ServingLabel ι} (hin : ServingWaits s l)
    (hstep : servingStep lib amqp_error_string2 net service s l = some s') : s'.Sound lib amqp_error_string2 net := by
  cases l with
  | serve n => exact h.serve hstep
  | network l =>
    by_cases hl : ∃ n body, l = .answer n body
    · obtain ⟨n, body, rfl⟩ := hl
      exact h.answer hstep
    · exact h.network (fun n body he => hl ⟨n, body, he⟩) hin hstep

theorem sound_init : (Serving.init service : Serving ι σ).Sound lib amqp_error_string2 net where
  correlated := correlated_init
  calls i r hr := by cases hr
  served m hm := by cases hm
  once := List.Pairwise.nil

end Serving

end Steps

end MqssClient
