import MqssClient.Foundations.Simulation
import MqssClient.Hpc.Service

/-!
# Remote calls as atomic calls

* `CallEvent`, `seen`: what the users of the clients see of a step;
* `Atomic`, `AtomicStep`: the same calls without a network. A call is carried out in one step, or fails without one;
* `Serving.inSight`, `Serving.pending`: the reply on its way to a call, and the atomic call it stands for;
* `simulates_step`: what each step is in terms of atomic calls; `linearizable_of_run`: what a run is.
-/

namespace MqssClient

open Foundations MQSSHPCClient

/-- What the users of the clients see: a call begins, or ends with a value. -/
inductive CallEvent (ι : Type) where
  | call (i : ι) (op : BaseCall)
  | ret (i : ι) (op : BaseCall) (value : BaseAns op)

section Definitions

variable {ι σ : Type} [DecidableEq ι] (lib : JsonLib) (amqp_error_string2 : Int → Bytes) (net : Clients ι)
  (service : Service σ)

/-- What is seen of a step: the calls and their ends. -/
def seen (s : Serving ι σ) : ServingLabel ι → List (CallEvent ι)
  | .network (.call i op) => [.call i op]
  | .network (.ret i) => (((s.network.control i).current.bind Running.ret).map fun d => CallEvent.ret i d.op d.value).toList
  | _ => []

/-! ## Atomic calls -/

/-- A call under way, and the reply once it has been carried out. -/
structure Pending where
  op : BaseCall
  reply : Option Bytes

structure Atomic (ι σ : Type) where
  state : σ
  pending : ι → Option Pending

inductive AtomicLabel (ι : Type) where
  | invoke (i : ι) (op : BaseCall)
  | perform (i : ι)
  | respond (i : ι) (op : BaseCall) (value : BaseAns op)

/-- A call ends with what it makes of the reply, or fails without one. -/
def Ends (op : BaseCall) (reply : Option Bytes) (value : BaseAns op) : Prop :=
  match reply with
  | some body => value = finish amqp_error_string2 op (.ok body)
  | none => Failed amqp_error_string2 op value

inductive AtomicStep : Atomic ι σ → AtomicLabel ι → Atomic ι σ → Prop where
  | invoke {a : Atomic ι σ} {i : ι} (op : BaseCall) (idle : a.pending i = none) :
      AtomicStep a (.invoke i op) { a with pending := Function.update a.pending i (some ⟨op, none⟩) }
  | perform {a : Atomic ι σ} {i : ι} {op : BaseCall} {request : Bytes} (pending : a.pending i = some ⟨op, none⟩)
      (sent : lib.dump ((net.client i).envelope op) = some request) :
      AtomicStep a (.perform i)
        { state := (service.serve a.state request).1
          pending := Function.update a.pending i (some ⟨op, some (service.serve a.state request).2⟩) }
  | respond {a : Atomic ι σ} {i : ι} {op : BaseCall} {reply : Option Bytes} {value : BaseAns op}
      (pending : a.pending i = some ⟨op, reply⟩) (ends : Ends amqp_error_string2 op reply value) :
      AtomicStep a (.respond i op value) { a with pending := Function.update a.pending i none }

def Atomic.init : Atomic ι σ := ⟨service.init, fun _ => none⟩

def AtomicLabel.seen : AtomicLabel ι → List (CallEvent ι)
  | .invoke i op => [.call i op]
  | .perform _ => []
  | .respond i op value => [.ret i op value]

namespace Serving

/-- The replies to a client's requests, from the service to the call that consumes them. -/
def inSight (s : Serving ι σ) (i : ι) : List (Message ι) :=
  (s.served.filter fun m => m.origin.1 = i) ++
    (s.network.queue (net.response i) ++ ((s.network.control i).current.bind Running.consumed).toList)

/-- The atomic call that a call over the network stands for. -/
def pending (s : Serving ι σ) (i : ι) : Option Pending :=
  (s.network.control i).current.map fun r => ⟨r.op, (s.inSight net i).head?.map Message.body⟩

def atomic (s : Serving ι σ) : Atomic ι σ := ⟨s.state, s.pending net⟩

end Serving

end Definitions

/-! ## Steps as atomic calls -/

section Atomic

variable {ι σ : Type} [DecidableEq ι] {lib : JsonLib} {amqp_error_string2 : Int → Bytes} {net : Clients ι}
  {service : Service σ} {s s' : Serving ι σ} {i j : ι}

theorem op_setCurrent {t : Network ι} {r r' : Running ι} (hr : (t.control i).current = some r) (hop : r'.op = r.op)
    (j : ι) : ((t.setCurrent i r').control j).current.map Running.op = (t.control j).current.map Running.op := by
  rcases eq_or_ne j i with rfl | hne
  · rw [Network.setCurrent, Network.setControl_self, hr, Option.map_some, Option.map_some, hop]
  · rw [Network.setCurrent, Network.setControl_of_ne _ _ hne]

theorem consumed_setCurrent {t : Network ι} {r r' : Running ι} (hr : (t.control i).current = some r)
    (hc : r'.consumed = r.consumed) (j : ι) :
    ((t.setCurrent i r').control j).current.bind Running.consumed = (t.control j).current.bind Running.consumed := by
  rcases eq_or_ne j i with rfl | hne
  · rw [Network.setCurrent, Network.setControl_self, hr, Option.bind_some, Option.bind_some, hc]
  · rw [Network.setCurrent, Network.setControl_of_ne _ _ hne]

namespace Serving

/-- The service works only on a request that is awaited, and the reply is in one place at a time. -/
theorem Sound.inSight_length (h : s.Sound lib amqp_error_string2 net) (i : ι) :
    (s.served.filter fun m => m.origin.1 = i).length + (s.network.queue (net.response i)).length ≤
      (s.network.control i).awaited.toList.length := by
  have hflight := congrArg List.length (h.correlated.inSync i).flight_eq
  have hserved : (s.served.filter fun m => m.origin.1 = i).length ≤ (s.network.outstanding net i).length := by
    have hsub : (s.served.filter fun m => m.origin.1 = i).map Message.origin ⊆
        (s.network.outstanding net i).map Message.origin := by
      intro o ho
      obtain ⟨m, hm, rfl⟩ := List.mem_map.mp ho
      obtain ⟨hm, hi⟩ := List.mem_filter.mp hm
      obtain ⟨m', hm', ho⟩ := List.mem_map.mp (h.served m hm)
      rw [← ho] at hi ⊢
      exact List.mem_map_of_mem (List.mem_filter.mpr ⟨List.mem_append_right _ hm', hi⟩)
    have hlen := (List.subperm_of_subset (h.once.sublist (List.filter_sublist.map _)) hsub).length_le
    rwa [List.length_map, List.length_map] at hlen
  rw [Network.flight, List.length_map, List.length_append, List.length_map] at hflight
  omega

theorem mem_inSight {x : Message ι} : x ∈ s.inSight net j ↔
    (x ∈ s.served ∧ x.origin.1 = j) ∨ x ∈ s.network.queue (net.response j) ∨
      (s.network.control j).current.bind Running.consumed = some x := by
  rw [inSight, List.mem_append, List.mem_append, List.mem_filter, Option.mem_toList, decide_eq_true_iff]

theorem pending_congr (hcontrol : s'.network.control j = s.network.control j)
    (hserved : (s'.served.filter fun m => m.origin.1 = j) = s.served.filter fun m => m.origin.1 = j)
    (hqueue : s'.network.queue (net.response j) = s.network.queue (net.response j)) :
    s'.pending net j = s.pending net j := by
  unfold pending inSight
  rw [hcontrol, hserved, hqueue]

theorem atomic_eq {p : Option Pending} (hi : s'.pending net i = p) (hne : ∀ j, j ≠ i → s'.pending net j = s.pending net j) :
    s'.atomic net = ⟨s'.state, Function.update (s.pending net) i p⟩ := by
  rw [atomic, Atomic.mk.injEq]
  exact ⟨rfl, Function.eq_update_iff.mpr ⟨hi, hne⟩⟩

theorem Sound.inSight_of_awaited_none (h : s.Sound lib amqp_error_string2 net)
    (hawaited : (s.network.control i).awaited = none) :
    s.inSight net i = ((s.network.control i).current.bind Running.consumed).toList := by
  have hlen := h.inSight_length i
  rw [hawaited, Option.toList_none, List.length_nil] at hlen
  rw [inSight, List.eq_nil_of_length_eq_zero (by omega : (s.served.filter fun m => m.origin.1 = i).length = 0),
    List.eq_nil_of_length_eq_zero (by omega : (s.network.queue (net.response i)).length = 0), List.nil_append,
    List.nil_append]

theorem Sound.inSight_eq (h : s.Sound lib amqp_error_string2 net) {x : Message ι} (hx : x ∈ s.inSight net i) :
    s.inSight net i = [x] := by
  have hlen := h.inSight_length i
  have hone : (s.inSight net i).length ≤ 1 := by
    rw [inSight, List.length_append, List.length_append]
    cases hawaited : (s.network.control i).awaited with
    | none =>
      rw [hawaited, Option.toList_none, List.length_nil] at hlen
      have := Option.length_toList_le (o := (s.network.control i).current.bind Running.consumed)
      omega
    | some n =>
      obtain ⟨r, hr, hn⟩ := Option.bind_eq_some_iff.mp hawaited
      rw [Running.awaited] at hn
      split_ifs at hn with hw
      rw [hawaited, Option.toList_some, List.length_singleton] at hlen
      rw [hr, Option.bind_some, hw.2, Option.toList_none, List.length_nil]
      omega
  obtain ⟨y, hy⟩ := List.length_eq_one_iff.mp (le_antisymm hone (List.length_pos_of_mem hx))
  rw [hy, List.mem_singleton] at hx
  rw [hy, hx]

/-- A step in which no call begins or ends and no reply appears or disappears is no step of the atomic calls. -/
theorem Sound.pending_eq (h : s.Sound lib amqp_error_string2 net) (h' : s'.Sound lib amqp_error_string2 net)
    (hop : ∀ j, (s'.network.control j).current.map Running.op = (s.network.control j).current.map Running.op)
    (hmem : ∀ j x, x ∈ s'.inSight net j ↔ x ∈ s.inSight net j) : s'.pending net = s.pending net := by
  funext j
  have hsight : s'.inSight net j = s.inSight net j := by
    cases hs : s.inSight net j with
    | nil => exact List.eq_nil_iff_forall_not_mem.mpr fun x hx => by simpa [hs] using (hmem j x).mp hx
    | cons x rest =>
      have hx : x ∈ s.inSight net j := by rw [hs]; exact List.mem_cons_self
      rw [h'.inSight_eq ((hmem j x).mpr hx), ← hs, h.inSight_eq hx]
  have hpending : ∀ t : Serving ι σ, t.pending net j =
      ((t.network.control j).current.map Running.op).map fun op => ⟨op, (t.inSight net j).head?.map Message.body⟩ := by
    intro t
    rw [pending, Option.map_map]
    rfl
  rw [hpending, hpending, hop, hsight]

theorem Sound.stutter (h : s.Sound lib amqp_error_string2 net) (h' : s'.Sound lib amqp_error_string2 net)
    (hstate : s'.state = s.state)
    (hop : ∀ j, (s'.network.control j).current.map Running.op = (s.network.control j).current.map Running.op)
    (hmem : ∀ j x, x ∈ s'.inSight net j ↔ x ∈ s.inSight net j) : s'.atomic net = s.atomic net := by
  rw [atomic, atomic, hstate, h.pending_eq h' hop hmem]

theorem Sound.stutter_setCurrent (h : s.Sound lib amqp_error_string2 net) (h' : s'.Sound lib amqp_error_string2 net)
    {t : Network ι} {r r' : Running ι} (hs' : s' = ⟨t.setCurrent i r', s.state, s.served⟩)
    (hcontrol : t.control = s.network.control) (hqueue : ∀ j, t.queue (net.response j) = s.network.queue (net.response j))
    (hr : (s.network.control i).current = some r) (hop : r'.op = r.op) (hc : r'.consumed = r.consumed) :
    s'.atomic net = s.atomic net := by
  subst hs'
  rw [← hcontrol] at hr
  refine h.stutter h' rfl (fun j => ?_) fun j x => ?_
  · rw [← hcontrol]
    exact op_setCurrent hr hop j
  · rw [mem_inSight, mem_inSight, consumed_setCurrent hr hc, hcontrol, Network.setCurrent, Network.setControl_queue, hqueue]

theorem Sound.publish (h : s.Sound lib amqp_error_string2 net) (h' : s'.Sound lib amqp_error_string2 net)
    {status : Int} {delivered : Bool}
    (hstep : servingStep lib amqp_error_string2 net service s (.network (.publish i status delivered)) = some s') :
    s'.atomic net = s.atomic net := by
  obtain ⟨network, hnetwork, rfl⟩ := servingStep_network (by rintro n body ⟨⟩) hstep
  obtain ⟨r, queue, body, k, hcur, hk, -, rfl⟩ := step_publish hnetwork
  obtain ⟨hstage, -⟩ := (h.correlated.inSync i).control.current r hcur
  obtain ⟨rfl, -, -, hnone, -⟩ := hstage.publish hk
  obtain ⟨-, hnext⟩ := hstage.envelope hk
  rw [hnext] at h' ⊢
  cases delivered with
  | false => exact h.stutter_setCurrent h' rfl rfl (fun _ => rfl) hcur rfl hnone.symm
  | true =>
    refine h.stutter_setCurrent h' rfl rfl (fun j => ?_) hcur rfl hnone.symm
    exact Network.push_of_ne _ _ (net.response_ne_listener j)

theorem Sound.consumeError (h : s.Sound lib amqp_error_string2 net) (h' : s'.Sound lib amqp_error_string2 net)
    {library_error : Int}
    (hstep : servingStep lib amqp_error_string2 net service s (.network (.consumeError i library_error)) = some s') :
    s'.atomic net = s.atomic net := by
  obtain ⟨network, hnetwork, rfl⟩ := servingStep_network (by rintro n body ⟨⟩) hstep
  obtain ⟨r, queue, k, hcur, hk, rfl⟩ := step_consumeError hnetwork
  obtain ⟨-, hnone, rfl⟩ := ((h.correlated.inSync i).control.current r hcur).1.consume hk
  exact h.stutter_setCurrent h' rfl rfl (fun _ => rfl) hcur rfl hnone.symm

theorem Sound.consume (h : s.Sound lib amqp_error_string2 net) (h' : s'.Sound lib amqp_error_string2 net)
    (hstep : servingStep lib amqp_error_string2 net service s (.network (.consume i)) = some s') :
    s'.atomic net = s.atomic net := by
  obtain ⟨network, hnetwork, rfl⟩ := servingStep_network (by rintro n body ⟨⟩) hstep
  obtain ⟨r, queue, k, m, rest, hcur, hk, hqueue, rfl⟩ := step_consume hnetwork
  obtain ⟨rfl, hnone, rfl⟩ := ((h.correlated.inSync i).control.current r hcur).1.consume hk
  refine h.stutter h' rfl (op_setCurrent (t := s.network.setQueue (net.response i) rest) hcur rfl) fun j x => ?_
  rw [mem_inSight, mem_inSight]
  rcases eq_or_ne j i with rfl | hne
  · rw [hqueue, hcur, Network.setCurrent, Network.setControl_self, Network.setControl_queue, Network.setQueue_self,
      Option.bind_some, Option.bind_some, hnone, List.mem_cons]
    simp only [Option.some.injEq, reduceCtorEq, or_false]
    tauto
  · rw [Network.setCurrent, Network.setControl_of_ne _ _ hne, Network.setControl_queue,
      Network.setQueue_of_ne _ _ (net.response_ne hne)]
    exact Iff.rfl

theorem Sound.take (h : s.Sound lib amqp_error_string2 net) (h' : s'.Sound lib amqp_error_string2 net) {n : Nat}
    (hstep : servingStep lib amqp_error_string2 net service s (.network (.take n)) = some s') :
    s'.atomic net = s.atomic net := by
  obtain ⟨network, hnetwork, rfl⟩ := servingStep_network (by rintro n body ⟨⟩) hstep
  obtain ⟨m, rest, -, rfl⟩ := step_take hnetwork
  refine h.stutter h' rfl (fun _ => rfl) fun j x => ?_
  rw [mem_inSight, mem_inSight, Network.setQueue_of_ne _ _ (net.response_ne_listener j)]
  exact Iff.rfl

theorem Sound.stutter_answer (h : s.Sound lib amqp_error_string2 net) (h' : s'.Sound lib amqp_error_string2 net) {n : Nat}
    {body : Bytes} (hstep : servingStep lib amqp_error_string2 net service s (.network (.answer n body)) = some s') :
    s'.atomic net = s.atomic net := by
  obtain ⟨m, rest, queue, hperm, hqueue, hserved, -, rfl⟩ := servingStep_answer hstep
  have hm : m ∈ s.network.requests net := List.mem_append_right _ (hperm.mem_iff.mpr List.mem_cons_self)
  obtain rfl : net.response m.origin.1 = queue :=
    Option.some.inj ((h.correlated.requests m hm).symm.trans hqueue)
  refine h.stutter h' rfl (fun _ => rfl) fun j x => ?_
  rw [mem_inSight, mem_inSight, (List.Nodup.of_map _ h.once).mem_erase_iff]
  rcases eq_or_ne j m.origin.1 with rfl | hne
  · rw [Network.push_self, List.mem_append, List.mem_singleton]
    by_cases hx : x = m.reply body
    · rw [hx]
      exact iff_of_true (Or.inr (Or.inl (Or.inr rfl))) (Or.inl ⟨hserved, rfl⟩)
    · simp only [hx, ne_eq, not_false_eq_true, true_and, or_false]
      exact Iff.rfl
  · rw [Network.push_of_ne _ _ (net.response_ne hne)]
    have hx : x.origin.1 = j → x ≠ m.reply body := by
      rintro rfl rfl
      exact hne rfl
    change ((x ≠ m.reply body ∧ x ∈ s.served) ∧ x.origin.1 = j ∨ _) ↔ _
    tauto

theorem Sound.invoke (h : s.Sound lib amqp_error_string2 net) {op : BaseCall}
    (hstep : servingStep lib amqp_error_string2 net service s (.network (.call i op)) = some s') :
    AtomicStep lib amqp_error_string2 net service (s.atomic net) (.invoke i op) (s'.atomic net) := by
  obtain ⟨network, hnetwork, hs'⟩ := servingStep_network (by rintro n body ⟨⟩) hstep
  obtain ⟨hcur, rfl⟩ := step_call hnetwork
  have hidle : s.pending net i = none := by rw [pending, hcur, Option.map_none]
  -- nothing is in sight of an idle client
  have hsight := h.inSight_of_awaited_none (i := i) (by rw [Control.awaited, hcur, Option.bind_none])
  rw [hcur, Option.bind_none, Option.toList_none, inSight, hcur, Option.bind_none] at hsight
  have hi : s'.pending net i = some ⟨op, none⟩ := by
    rw [hs', pending, inSight, Network.setCurrent, Network.setControl_self, Network.setControl_queue, Option.bind_some,
      hsight]
    rfl
  have hne : ∀ j, j ≠ i → s'.pending net j = s.pending net j := by
    intro j hne
    rw [hs']
    exact pending_congr (Network.setControl_of_ne _ _ hne) rfl rfl
  rw [atomic_eq hi hne, hs']
  exact .invoke (a := s.atomic net) op hidle

/-- A call ends with what it makes of the reply it consumed, or fails without one. -/
theorem Sound.respond (h : s.Sound lib amqp_error_string2 net)
    (hstep : servingStep lib amqp_error_string2 net service s (.network (.ret i)) = some s') :
    ∃ d : Completed ι, seen s (.network (.ret i)) = [.ret i d.op d.value] ∧
      AtomicStep lib amqp_error_string2 net service (s.atomic net) (.respond i d.op d.value) (s'.atomic net) := by
  obtain ⟨network, hnetwork, hs'⟩ := servingStep_network (by rintro n body ⟨⟩) hstep
  obtain ⟨r, d, hcur, hd, rfl⟩ := step_ret hnetwork
  obtain ⟨hawaited, -, hdc, hown⟩ := ((h.correlated.inSync i).control.current r hcur).1.ret hd
  have hsight := h.inSight_of_awaited_none (i := i) (by rw [Control.awaited, hcur, Option.bind_some, hawaited])
  have hpending : s.pending net i = some ⟨d.op, d.consumed.map Message.body⟩ := by
    rw [pending, hsight, hcur, Option.bind_some, ← hdc, Running.ret_op hd]
    cases d.consumed <;> rfl
  have hends : Ends amqp_error_string2 d.op (d.consumed.map Message.body) d.value := by
    cases hc : d.consumed with
    | none => exact (h.calls i r hcur).1.ends d hd hc
    | some m => exact (hown m hc).2
  have hi : s'.pending net i = none := by rw [hs', pending, Network.setControl_self, Option.map_none]
  have hne : ∀ j, j ≠ i → s'.pending net j = s.pending net j := by
    intro j hne
    rw [hs']
    exact pending_congr (Network.setControl_of_ne _ _ hne) rfl rfl
  refine ⟨d, by rw [seen, hcur, Option.bind_some, hd]; rfl, ?_⟩
  rw [atomic_eq hi hne, hs']
  exact .respond (a := s.atomic net) hpending hends

/-- What the service carries out is the call that the client of the request is in, for the first time. -/
theorem Sound.perform (h : s.Sound lib amqp_error_string2 net) {n : Nat}
    (hstep : servingStep lib amqp_error_string2 net service s (.serve n) = some s') :
    ∃ i, AtomicStep lib amqp_error_string2 net service (s.atomic net) (.perform i) (s'.atomic net) := by
  have h' := h.serve hstep
  obtain ⟨m, hm, hnew, hs'⟩ := servingStep_serve hstep
  have hrequest : m ∈ s.network.requests net := List.mem_append_right _ hm
  have hout : m ∈ s.network.outstanding net m.origin.1 := List.mem_filter.mpr ⟨hrequest, by simp⟩
  obtain ⟨hflight, r, hcur, -, hnone, -⟩ :=
    (h.correlated.inSync m.origin.1).awaited_of_mem (List.mem_map_of_mem (List.mem_append_left _ hout))
  -- no reply to the client is in sight yet
  have hempty : s.inSight net m.origin.1 = [] := by
    refine List.eq_nil_iff_forall_not_mem.mpr fun x hx => ?_
    rcases mem_inSight.mp hx with ⟨hserved, hi⟩ | hqueue | hconsumed
    · obtain ⟨m', hm', ho⟩ := List.mem_map.mp (h.served x hserved)
      have hmem : m'.origin ∈ s.network.flight net m.origin.1 := by
        refine List.mem_map_of_mem (List.mem_append_left _ (List.mem_filter.mpr ⟨List.mem_append_right _ hm', ?_⟩))
        rw [ho, decide_eq_true_iff]
        exact hi
      rw [hflight, List.mem_singleton, ho] at hmem
      exact hnew (hmem ▸ List.mem_map_of_mem hserved)
    · have hlen := congrArg List.length hflight
      have hone := List.length_pos_of_mem hout
      have htwo := List.length_pos_of_mem hqueue
      simp only [Network.flight, List.length_map, List.length_append, List.length_singleton] at hlen
      omega
    · rw [hcur, Option.bind_some, hnone] at hconsumed
      cases hconsumed
  have hpending : s.pending net m.origin.1 = some ⟨r.op, none⟩ := by
    rw [pending, hempty, hcur]
    rfl
  have hi : s'.pending net m.origin.1 = some ⟨r.op, some (service.serve s.state m.body).2⟩ := by
    have hmem : m.reply (service.serve s.state m.body).2 ∈ s'.inSight net m.origin.1 := by
      rw [hs']
      exact mem_inSight.mpr (Or.inl ⟨List.mem_append_right _ List.mem_cons_self, rfl⟩)
    rw [pending, h'.inSight_eq hmem, hs', hcur]
    rfl
  have hne : ∀ j, j ≠ m.origin.1 → s'.pending net j = s.pending net j := by
    intro j hne
    rw [hs']
    refine pending_congr rfl ?_ rfl
    rw [List.filter_append, List.filter_cons_of_neg fun hp => hne (of_decide_eq_true hp).symm, List.filter_nil,
      List.append_nil]
  refine ⟨m.origin.1, ?_⟩
  rw [atomic_eq hi hne, hs']
  exact .perform (a := s.atomic net) hpending ((h.calls _ r hcur).2 m hrequest rfl)

end Serving

/-- Each step of the network and the service is a step of the atomic calls, or none. -/
theorem simulates_step : Simulation (servingStep lib amqp_error_string2 net service) seen
    (AtomicStep lib amqp_error_string2 net service) AtomicLabel.seen ServingWaits
    (fun s a => s.Sound lib amqp_error_string2 net ∧ a = s.atomic net) := by
  rintro s l s' a ⟨h, rfl⟩ hin hstep
  have h' := h.step hin hstep
  -- a step of which nothing is seen, and that leaves the atomic calls as they are
  have hstutter : seen s l = [] → s'.atomic net = s.atomic net →
      ∃ ms a', Runs (AtomicStep lib amqp_error_string2 net service) (s.atomic net) ms a' ∧
        ms.flatMap AtomicLabel.seen = seen s l ∧ s'.Sound lib amqp_error_string2 net ∧ a' = s'.atomic net :=
    fun hseen heq => ⟨[], _, .nil _, hseen.symm, h', heq.symm⟩
  cases l with
  | serve n =>
    obtain ⟨i, hperform⟩ := h.perform hstep
    exact ⟨_, _, .single hperform, rfl, h', rfl⟩
  | network l =>
    cases l with
    | call i op => exact ⟨_, _, .single (h.invoke hstep), rfl, h', rfl⟩
    | publish => exact hstutter rfl (h.publish h' hstep)
    | consume => exact hstutter rfl (h.consume h' hstep)
    | consumeError => exact hstutter rfl (h.consumeError h' hstep)
    | ret i =>
      obtain ⟨d, hseen, hrespond⟩ := h.respond hstep
      exact ⟨_, _, .single hrespond, hseen.symm, h', rfl⟩
    | take => exact hstutter rfl (h.take h' hstep)
    | answer => exact hstutter rfl (h.stutter_answer h' hstep)

/-- What the users see of a run in which calls wait for their replies is what they would see of atomic calls to the
service: each is carried out at most once, between its beginning and its end, and returns what is made of that reply; one
that fails was not carried out. -/
theorem linearizable_of_run {ls : List (ServingLabel ι)}
    (hwaits : AllSteps (servingStep lib amqp_error_string2 net service) ServingWaits (Serving.init service) ls)
    (hrun : steps (servingStep lib amqp_error_string2 net service) (Serving.init service) ls = some s) :
    ∃ ms, Runs (AtomicStep lib amqp_error_string2 net service) (Atomic.init service) ms ⟨s.state, s.pending net⟩ ∧
      ms.flatMap AtomicLabel.seen =
        observed (servingStep lib amqp_error_string2 net service) seen (Serving.init service) ls := by
  have hinit : (Atomic.init service : Atomic ι σ) = (Serving.init service).atomic net := rfl
  obtain ⟨ms, a, hms, hobs, -, rfl⟩ := simulates_step.run ⟨Serving.sound_init, hinit⟩ hwaits hrun
  exact ⟨ms, hms, hobs⟩

/-- A service that answers its first request with an empty list, and later ones with an empty object. -/
def firstList : Service Nat where
  init := 0
  serve n _ := (n + 1, if n = 0 then str "[]" else str "\x7b\x7d")

/-- The listener takes the second request first, and carries it out last. -/
def crossedService : List (ServingLabel Bool) := [
  .network (.call false (.get (str "resources"))), .network (.publish false 0 true),
  .network (.call true (.get (str "resources"))), .network (.publish true 0 true),
  .network (.take 1), .network (.take 0), .serve 1, .serve 0,
  .network (.answer 0 (str "\x7b\x7d")), .network (.answer 0 (str "[]")),
  .network (.consume false), .network (.consume true), .network (.ret true), .network (.ret false)]

theorem linearizable_crossedService :
    ∃ s, steps (servingStep pairLib Transport.socketError pairClients firstList) (Serving.init firstList)
        crossedService = some s ∧
      ∃ ms, Runs (AtomicStep pairLib Transport.socketError pairClients firstList) (Atomic.init firstList) ms
          ⟨s.state, s.pending pairClients⟩ ∧
        ms.flatMap AtomicLabel.seen = observed (servingStep pairLib Transport.socketError pairClients firstList) seen
          (Serving.init firstList) crossedService := by
  obtain ⟨s, hs⟩ := Option.isSome_iff_exists.mp
    (show (steps (servingStep pairLib Transport.socketError pairClients firstList) (Serving.init firstList)
      crossedService).isSome by decide)
  refine ⟨s, hs, linearizable_of_run (AllSteps.of_forall _ (fun l hl s => ?_) _) hs⟩
  have hfailure : ∀ l ∈ crossedService, ∀ l', l = .network l' → l'.NoFailure := by
    intro l hl l' he
    simp only [crossedService, List.mem_cons, List.not_mem_nil, or_false] at hl
    rcases hl with rfl | rfl | rfl | rfl | rfl | rfl | rfl | rfl | rfl | rfl | rfl | rfl | rfl | rfl <;> cases he
    all_goals trivial
  cases l with
  | serve => trivial
  | network l => exact waitsForReply_of_noFailure (hfailure _ hl l rfl) s.network

end Atomic

end MqssClient
