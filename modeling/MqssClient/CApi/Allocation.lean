import MqssClient.CApi.Job
import MqssClient.Foundations.Ownership

/-!
# Exporters under allocation failure

* `memLedger`: the allocator's calls as a ledger of addresses; `Allocator`: an allocator that may refuse any request and
  hands out no live block;
* `AllOrNothing`: what an exporter owes its caller, whatever the allocator refuses;
* `account_freeAll`, `account_newGates`, `account_fillCounts_granted`, `account_fillCounts_refused`: the accounts of the
  loops;
* `resourceGetInfo_iff`, `resourceGetGateInfo_iff`, `getJobResultCounts_iff`: when each exporter owes nothing;
* `exporters_allOrNothing_iff`: the three together.
-/

namespace MqssClient

open Foundations

/-- The addresses handed out and taken back. -/
def memLedger : Ledger MemAns Nat where
  acquired
    | .malloc _, (answer : Option Nat) => answer
    | .asprintf _, (answer : Option Nat) => answer
    | .free _, _ => none
    | .newGate _, (address : Nat) => some address
  released
    | .free address => some address
    | _ => none

/-- A request whose refusal is a failure. A null pointer for no bytes is not. -/
def MemCall.isPositive : MemCall → Prop
  | .malloc size => 0 < size
  | .asprintf _ => True
  | .free _ => False
  | .newGate _ => True

/-- An allocator: it may refuse any request, and never hands out a live block. -/
structure Allocator where
  env : Env MemAns
  fresh : memLedger.Fresh env

namespace Allocator

/-- The account of a run; the requests for no bytes do not count. -/
abbrev Account (A : Allocator) := memLedger.Account A.env MemCall.isPositive

/-- What a call that started after `tr`, ended with `tr'` and returned `ret` owes its caller, with the blocks `owned` behind
its output parameters and the addresses `pointers` in them. -/
structure AllOrNothing (A : Allocator) (tr tr' : List MemCall) (ret : Int) (owned pointers : List Nat) : Prop where
  zero_iff : ret = 0 ↔ memLedger.Granted A.env MemCall.isPositive tr tr'
  owns : ret = 0 → memLedger.Holds A.env tr tr' owned
  unchanged : ret < 0 → memLedger.live A.env tr' = memLedger.live A.env tr
  cleared : ret < 0 → ∀ a ∈ pointers, ¬ (memLedger.HandedOut A.env tr tr' a ∧ memLedger.TakenBack tr tr' a)

variable {A : Allocator} {tr tr' : List MemCall} {granted : Prop} {owned given returned pointers : List Nat} {ret : Int}
  {address size : Nat} {text : Bytes}

/-! ## Accounts of the calls -/

theorem Account.malloc (h : A.Account tr tr' granted owned given returned)
    (ha : A.env tr' (.malloc size) = some address) :
    A.Account tr (tr' ++ [.malloc size]) granted (address :: owned) (address :: given) returned :=
  h.acquire A.fresh rfl ha

theorem Account.malloc_refused (h : A.Account tr tr' granted owned given returned)
    (ha : A.env tr' (.malloc size) = none) :
    A.Account tr (tr' ++ [.malloc size]) (granted ∧ ¬ 0 < size) owned given returned := h.refuse rfl ha

theorem Account.asprintf (h : A.Account tr tr' granted owned given returned)
    (ha : A.env tr' (.asprintf text) = some address) :
    A.Account tr (tr' ++ [.asprintf text]) granted (address :: owned) (address :: given) returned :=
  h.acquire A.fresh rfl ha

theorem Account.asprintf_refused (h : A.Account tr tr' granted owned given returned)
    (ha : A.env tr' (.asprintf text) = none) :
    A.Account tr (tr' ++ [.asprintf text]) (granted ∧ ¬ True) owned given returned := h.refuse rfl ha

theorem Account.free (h : A.Account tr tr' granted (address :: owned) given returned) :
    A.Account tr (tr' ++ [.free address]) granted owned given (address :: returned) := h.release id rfl rfl

theorem Account.newGate (h : A.Account tr tr' granted owned given returned) (gate : Gate) :
    A.Account tr (tr' ++ [.newGate gate]) granted (A.env tr' (.newGate gate) :: owned)
      (A.env tr' (.newGate gate) :: given) returned := h.acquire A.fresh rfl rfl

/-! ## Accounts of the exporters -/

theorem Account.allOrNothing_zero (h : A.Account tr tr' granted owned given returned) :
    A.AllOrNothing tr tr' 0 owned pointers ↔ granted := by
  rw [← h.granted_iff]
  constructor
  · intro hall
    exact hall.zero_iff.mp rfl
  · intro hg
    exact ⟨iff_of_true rfl hg, fun _ => h.holds, fun hlt => absurd hlt (by omega), fun hlt => absurd hlt (by omega)⟩

theorem Account.allOrNothing_neg (h : A.Account tr tr' granted [] given returned) (hret : ret < 0) :
    A.AllOrNothing tr tr' ret owned pointers ↔ ¬ granted ∧ ∀ a ∈ pointers, ¬ (a ∈ given ∧ a ∈ returned) := by
  simp only [← h.granted_iff, ← h.given_iff, ← h.returned_iff]
  constructor
  · intro hall
    exact ⟨fun hg => absurd (hall.zero_iff.mpr hg) (by omega), hall.cleared hret⟩
  · rintro ⟨hg, hcleared⟩
    exact ⟨iff_of_false (by omega) hg, fun h0 => absurd h0 (by omega), fun _ => h.holds.live_eq, fun _ => hcleared⟩

/-- The result of an exporter with no null argument: its return code and output parameters, and the calls made. -/
def Exports {β : Type} (A : Allocator) (tr : List MemCall) (call : Prog MemAns (Int × Option β))
    (owned pointers : β → List Nat) : Prop :=
  ∃ ret info, (call.exec A.env tr).1 = (ret, some info) ∧
    A.AllOrNothing tr (call.exec A.env tr).2 ret (owned info) (pointers info)

theorem exports_iff {β : Type} {call : Prog MemAns (Int × Option β)} {own ptrs : β → List Nat} {info : β}
    (hexec : call.exec A.env tr = ((ret, some info), tr')) :
    A.Exports tr call own ptrs ↔ A.AllOrNothing tr tr' ret (own info) (ptrs info) := by
  unfold Exports
  rw [hexec]
  constructor
  · rintro ⟨_, _, heq, hall⟩
    cases heq
    exact hall
  · intro hall
    exact ⟨_, _, rfl, hall⟩

/-! ## Accounts of the loops -/

theorem account_freeAll {addresses : List Nat} (h : A.Account tr tr' granted (addresses ++ owned) given returned) :
    ∃ returned', A.Account tr ((freeAll addresses).exec A.env tr').2 granted owned given returned' ∧
      ∀ a, a ∈ returned' ↔ a ∈ addresses ∨ a ∈ returned := by
  induction addresses generalizing tr' returned with
  | nil => exact ⟨returned, h, by simp⟩
  | cons address addresses ih =>
    obtain ⟨returned', hacc, hmem⟩ := ih h.free
    refine ⟨returned', hacc, fun a => ?_⟩
    rw [hmem, List.mem_cons, List.mem_cons]
    tauto

theorem account_newGates (gates : List Gate) (h : A.Account tr tr' granted owned given returned) :
    ∃ given', A.Account tr ((newGates gates).exec A.env tr').2 granted
      (((newGates gates).exec A.env tr').1.map Prod.fst ++ owned) given' returned := by
  induction gates generalizing tr' owned given with
  | nil => exact ⟨given, h⟩
  | cons gate gates ih =>
    obtain ⟨given', hacc⟩ := ih (h.newGate gate)
    rw [newGates, Prog.exec_call, Prog.exec_map]
    exact ⟨given', hacc.perm List.perm_middle⟩

/-- The requests of the filling pass. -/
def keyRequests (entries : List (Bytes × UInt32)) : List MemCall := entries.map fun e => .malloc (e.1.length + 1)

section FillCounts

variable {counts bitstreams : Nat} {strings : List (Block UInt8)} {written : List Int}

/-- The filling pass begins without strings. -/
theorem account_no_strings (h : A.Account tr tr' granted owned given returned) :
    A.Account tr tr' granted (([] : List (Block UInt8)).map Block.address ++ owned) given returned := h

/-- A filling pass of which every request is granted owns the strings it wrote. -/
theorem account_fillCounts_granted (entries : List (Bytes × UInt32))
    (h : A.Account tr tr' True (strings.map Block.address ++ [bitstreams, counts]) given returned)
    (hg : memLedger.GrantsAll A.env tr' (keyRequests entries)) :
    ∃ strings' written' given' tr'',
      (fillCounts counts bitstreams entries strings written).exec A.env tr' = ((true, strings', written'), tr'') ∧
      A.Account tr tr'' True (strings'.map Block.address ++ [bitstreams, counts]) given' returned := by
  induction entries generalizing tr' strings written given with
  | nil => exact ⟨strings, written, given, tr', rfl, h⟩
  | cons entry entries ih =>
    obtain ⟨bitstream, count⟩ := entry
    obtain ⟨hgrant, hg⟩ := hg
    obtain ⟨address, ha⟩ := Option.isSome_iff_exists.mp hgrant
    change A.env tr' (.malloc (bitstream.length + 1)) = some address at ha
    rw [fillCounts, Prog.exec_call, ha]
    refine ih (h.malloc ha |>.perm ?_) hg
    rw [List.map_append, List.append_assoc]
    exact List.perm_middle.symm

/-- A filling pass of which a request is refused gives everything back, the two arrays with it. -/
theorem account_fillCounts_refused (entries : List (Bytes × UInt32))
    (h : A.Account tr tr' True (strings.map Block.address ++ [bitstreams, counts]) given returned)
    (hc : counts ∈ given) (hg : ¬ memLedger.GrantsAll A.env tr' (keyRequests entries)) :
    ∃ strings' written' given' returned' tr'',
      (fillCounts counts bitstreams entries strings written).exec A.env tr' = ((false, strings', written'), tr'') ∧
      A.Account tr tr'' False [] given' returned' ∧ counts ∈ given' ∧ counts ∈ returned' := by
  induction entries generalizing tr' strings written given with
  | nil => exact absurd trivial hg
  | cons entry entries ih =>
    obtain ⟨bitstream, count⟩ := entry
    rw [fillCounts, Prog.exec_call]
    cases ha : A.env tr' (.malloc (bitstream.length + 1)) with
    | none =>
      have hacc := (h.malloc_refused ha).congr (iff_false_intro fun hand => hand.2 (Nat.succ_pos _))
      rw [← List.append_nil (_ ++ [bitstreams, counts])] at hacc
      obtain ⟨returned', hacc, hmem⟩ := account_freeAll hacc
      exact ⟨strings, written, given, returned', _, Prog.exec_map .., hacc, hc, (hmem counts).mpr (by simp)⟩
    | some address =>
      refine ih (h.malloc ha |>.perm ?_) (List.mem_cons_of_mem _ hc) fun hrest => hg ⟨?_, hrest⟩
      · rw [List.map_append, List.append_assoc]
        exact List.perm_middle.symm
      · exact Option.isSome_iff_exists.mpr ⟨address, ha⟩

end FillCounts

end Allocator

/-! ## The output parameters -/

/-- The address in a pointer, if it is not null. -/
def pointer {α : Type} (p : Option (Block α)) : List Nat := (p.map Block.address).toList

@[simp] theorem pointer_none {α : Type} : pointer (none : Option (Block α)) = [] := rfl

@[simp] theorem pointer_some {α : Type} (b : Block α) : pointer (some b) = [b.address] := rfl

def ResourceInfo.pointers (info : ResourceInfo) : List Nat :=
  pointer info.name ++ pointer info.couplingMap ++ pointer info.nativeGateset

/-- The blocks behind the pointers, with the copies of the gates. -/
def ResourceInfo.owned (info : ResourceInfo) : List Nat :=
  (info.nativeGateset.elim [] fun gateset => gateset.data.map Prod.fst) ++ info.pointers

def GateInfo.pointers (info : GateInfo) : List Nat := pointer info.name ++ pointer info.supportedQubits

def JobResultCounts.pointers (info : JobResultCounts) : List Nat := pointer info.bitstreams ++ pointer info.counts

/-- The blocks behind the pointers, with the strings. -/
def JobResultCounts.owned (info : JobResultCounts) : List Nat :=
  (info.bitstreams.elim [] fun bitstreams => bitstreams.data.map Block.address) ++ info.pointers

namespace Allocator

variable (A : Allocator) (tr : List MemCall)

/-! ## Gates -/

theorem size_pos_iff {α : Type} {l : List α} {n : Nat} (hn : 0 < n) : 0 < l.length * n ↔ l ≠ [] := by
  rw [Nat.mul_pos_iff_of_pos_right hn, List.length_pos_iff]

/-- A gate without qubits is not answered with a null pointer. -/
def SparesGateInfo (g : Gate) : Prop :=
  A.env tr (.malloc (g.mName.length + 1)) ≠ none → g.mSupportedQubits.flatten = [] →
    A.env (tr ++ [.malloc (g.mName.length + 1)]) (.malloc 0) ≠ none

section GateInfo

variable {A tr} {g : Gate} {out : GateInfo} {name supportedQubits : Nat}

theorem resourceGetGateInfo_name_refused (hname : A.env tr (.malloc (g.mName.length + 1)) = none) :
    A.Exports tr (MQSSClientResourceGetGateInfo (some g) (some out)) GateInfo.pointers GateInfo.pointers := by
  have h0 : A.Account tr tr True [] [] [] := .refl
  refine (exports_iff (by rw [MQSSClientResourceGetGateInfo, Prog.exec_call, hname]; rfl)).mpr ?_
  rw [(h0.malloc_refused hname).allOrNothing_neg (by decide)]
  simp

theorem resourceGetGateInfo_qubits_refused (hname : A.env tr (.malloc (g.mName.length + 1)) = some name)
    (hqubits : A.env (tr ++ [.malloc (g.mName.length + 1)]) (.malloc (g.mSupportedQubits.flatten.length * 4)) = none) :
    A.Exports tr (MQSSClientResourceGetGateInfo (some g) (some out)) GateInfo.pointers GateInfo.pointers ↔
      g.mSupportedQubits.flatten ≠ [] := by
  have h0 : A.Account tr tr True [] [] [] := .refl
  refine (exports_iff (by
    rw [MQSSClientResourceGetGateInfo, Prog.exec_call, hname, flatten2D]
    dsimp only
    rw [Prog.call_bind, Prog.exec_call, hqubits]
    rfl)).trans ?_
  rw [((h0.malloc hname).malloc_refused hqubits).free.allOrNothing_neg (by decide), size_pos_iff (by decide)]
  constructor
  · rintro ⟨hsize, -⟩ hnil
    exact hsize ⟨trivial, not_not.mpr hnil⟩
  · intro hne
    exact ⟨fun hnil => hnil.2 hne, fun a ha => by cases ha⟩

theorem resourceGetGateInfo_granted (hname : A.env tr (.malloc (g.mName.length + 1)) = some name)
    (hqubits : A.env (tr ++ [.malloc (g.mName.length + 1)]) (.malloc (g.mSupportedQubits.flatten.length * 4)) =
      some supportedQubits) :
    A.Exports tr (MQSSClientResourceGetGateInfo (some g) (some out)) GateInfo.pointers GateInfo.pointers := by
  have h0 : A.Account tr tr True [] [] [] := .refl
  refine (exports_iff (by
    rw [MQSSClientResourceGetGateInfo, Prog.exec_call, hname, flatten2D]
    dsimp only
    rw [Prog.call_bind, Prog.exec_call, hqubits]
    rfl)).mpr ?_
  exact (Account.allOrNothing_zero (((h0.malloc hname).malloc hqubits).perm (.swap ..))).mpr trivial

end GateInfo

theorem resourceGetGateInfo_iff (g : Gate) (out : GateInfo) :
    A.Exports tr (MQSSClientResourceGetGateInfo (some g) (some out)) GateInfo.pointers GateInfo.pointers ↔
      A.SparesGateInfo tr g := by
  unfold SparesGateInfo
  cases hname : A.env tr (.malloc (g.mName.length + 1)) with
  | none => exact iff_of_true (resourceGetGateInfo_name_refused hname) fun h => absurd rfl h
  | some name =>
    cases hqubits : A.env (tr ++ [.malloc (g.mName.length + 1)]) (.malloc (g.mSupportedQubits.flatten.length * 4)) with
    | none =>
      rw [resourceGetGateInfo_qubits_refused hname hqubits]
      constructor
      · intro hne _ hnil
        exact absurd hnil hne
      · intro h hnil
        rw [hnil] at hqubits
        exact h (by simp) hnil hqubits
    | some supportedQubits =>
      refine iff_of_true (resourceGetGateInfo_granted hname hqubits) fun _ hnil h => ?_
      rw [hnil] at hqubits
      cases h.symm.trans hqubits

/-! ## Resources -/

/-- No null pointer is the answer to an empty coupling map or gate set; and no pointer that is left alone has the address
of the name by accident. -/
def SparesResourceInfo (r : Resource) (out : ResourceInfo) : Prop :=
  let name := MemCall.asprintf (c_str r.mName)
  let couplingMap := MemCall.malloc (r.mCouplingMap.flatten.length * 4)
  ∀ address, A.env tr name = some address →
    (A.env (tr ++ [name]) couplingMap = none → r.mCouplingMap.flatten ≠ [] ∧ address ∉ pointer out.nativeGateset) ∧
      (A.env (tr ++ [name]) couplingMap ≠ none → r.mNativeGateset = [] →
        A.env (tr ++ [name] ++ [couplingMap]) (.malloc 0) ≠ none)

section ResourceInfo

variable {A tr} {r : Resource} {out : ResourceInfo} {name couplingMap gateset : Nat}

theorem resourceGetInfo_name_refused (hname : A.env tr (.asprintf (c_str r.mName)) = none) :
    A.Exports tr (MQSSClientResourceGetInfo (some r) (some out)) ResourceInfo.owned ResourceInfo.pointers := by
  have h0 : A.Account tr tr True [] [] [] := .refl
  refine (exports_iff (by rw [MQSSClientResourceGetInfo, Prog.exec_call, hname]; rfl)).mpr ?_
  rw [(h0.asprintf_refused hname).allOrNothing_neg (by decide)]
  simp

/-- The freed name must not be the address in the pointer that is left alone. -/
theorem resourceGetInfo_map_refused (hname : A.env tr (.asprintf (c_str r.mName)) = some name)
    (hmap : A.env (tr ++ [.asprintf (c_str r.mName)]) (.malloc (r.mCouplingMap.flatten.length * 4)) = none) :
    A.Exports tr (MQSSClientResourceGetInfo (some r) (some out)) ResourceInfo.owned ResourceInfo.pointers ↔
      r.mCouplingMap.flatten ≠ [] ∧ name ∉ pointer out.nativeGateset := by
  have h0 : A.Account tr tr True [] [] [] := .refl
  refine (exports_iff (by
    rw [MQSSClientResourceGetInfo, Prog.exec_call, hname, flatten2D]
    dsimp only
    rw [Prog.call_bind, Prog.exec_call, hmap]
    rfl)).trans ?_
  rw [((h0.asprintf hname).malloc_refused hmap).free.allOrNothing_neg (by decide), size_pos_iff (by decide)]
  constructor
  · rintro ⟨hsize, hcleared⟩
    refine ⟨fun hnil => hsize ⟨trivial, not_not.mpr hnil⟩, fun hleft => ?_⟩
    exact hcleared name hleft ⟨List.mem_singleton_self _, List.mem_singleton_self _⟩
  · rintro ⟨hne, hleft⟩
    refine ⟨fun hnil => hnil.2 hne, fun a ha hgiven => hleft ?_⟩
    rw [← List.mem_singleton.mp hgiven.1]
    exact ha

theorem resourceGetInfo_gateset_refused (hname : A.env tr (.asprintf (c_str r.mName)) = some name)
    (hmap : A.env (tr ++ [.asprintf (c_str r.mName)]) (.malloc (r.mCouplingMap.flatten.length * 4)) = some couplingMap)
    (hset : A.env (tr ++ [.asprintf (c_str r.mName)] ++ [.malloc (r.mCouplingMap.flatten.length * 4)])
      (.malloc (r.mNativeGateset.length * 8)) = none) :
    A.Exports tr (MQSSClientResourceGetInfo (some r) (some out)) ResourceInfo.owned ResourceInfo.pointers ↔
      r.mNativeGateset ≠ [] := by
  have h0 : A.Account tr tr True [] [] [] := .refl
  have h2 := (h0.asprintf hname).malloc hmap
  refine (exports_iff (by
    rw [MQSSClientResourceGetInfo, Prog.exec_call, hname, flatten2D]
    dsimp only
    rw [Prog.call_bind, Prog.exec_call, hmap]
    dsimp only [Option.map_some, Prog.pure_bind]
    rw [Prog.exec_call, hset]
    rfl)).trans ?_
  rw [(h2.malloc_refused hset).free.free.allOrNothing_neg (by decide), size_pos_iff (by decide)]
  constructor
  · rintro ⟨hsize, -⟩ hnil
    exact hsize ⟨trivial, not_not.mpr hnil⟩
  · intro hne
    exact ⟨fun hnil => hnil.2 hne, fun a ha => by cases ha⟩

theorem resourceGetInfo_granted (hname : A.env tr (.asprintf (c_str r.mName)) = some name)
    (hmap : A.env (tr ++ [.asprintf (c_str r.mName)]) (.malloc (r.mCouplingMap.flatten.length * 4)) = some couplingMap)
    (hset : A.env (tr ++ [.asprintf (c_str r.mName)] ++ [.malloc (r.mCouplingMap.flatten.length * 4)])
      (.malloc (r.mNativeGateset.length * 8)) = some gateset) :
    A.Exports tr (MQSSClientResourceGetInfo (some r) (some out)) ResourceInfo.owned ResourceInfo.pointers := by
  have h0 : A.Account tr tr True [] [] [] := .refl
  obtain ⟨given, h3⟩ := account_newGates r.mNativeGateset (((h0.asprintf hname).malloc hmap).malloc hset)
  refine (exports_iff (by
    rw [MQSSClientResourceGetInfo, Prog.exec_call, hname, flatten2D]
    dsimp only
    rw [Prog.call_bind, Prog.exec_call, hmap]
    dsimp only [Option.map_some, Prog.pure_bind]
    rw [Prog.exec_call, hset]
    exact Prog.exec_map ..)).mpr ?_
  refine (Account.allOrNothing_zero (h3.perm ?_)).mpr trivial
  exact List.Perm.append_left _ (List.reverse_perm [name, couplingMap, gateset])

end ResourceInfo

theorem resourceGetInfo_iff (r : Resource) (out : ResourceInfo) :
    A.Exports tr (MQSSClientResourceGetInfo (some r) (some out)) ResourceInfo.owned ResourceInfo.pointers ↔
      A.SparesResourceInfo tr r out := by
  unfold SparesResourceInfo
  cases hname : A.env tr (.asprintf (c_str r.mName)) with
  | none =>
    refine iff_of_true (resourceGetInfo_name_refused hname) fun address h => ?_
    cases hname.symm.trans h
  | some name =>
    dsimp only
    cases hmap : A.env (tr ++ [.asprintf (c_str r.mName)]) (.malloc (r.mCouplingMap.flatten.length * 4)) with
    | none =>
      rw [resourceGetInfo_map_refused hname hmap]
      constructor
      · intro hcond address ha
        cases hname.symm.trans ha
        exact ⟨fun _ => hcond, fun h => absurd rfl h⟩
      · intro h
        exact (h name hname).1 rfl
    | some couplingMap =>
      cases hset : A.env (tr ++ [.asprintf (c_str r.mName)] ++ [.malloc (r.mCouplingMap.flatten.length * 4)])
        (.malloc (r.mNativeGateset.length * 8)) with
      | none =>
        rw [resourceGetInfo_gateset_refused hname hmap hset]
        constructor
        · intro hne address _
          exact ⟨(fun h => by cases h), fun _ hnil => absurd hnil hne⟩
        · intro h hnil
          rw [hnil] at hset
          exact (h name hname).2 (by simp) hnil hset
      | some gateset =>
        refine iff_of_true (resourceGetInfo_granted hname hmap hset) fun address _ => ?_
        refine ⟨(fun h => by cases h), fun _ hnil h => ?_⟩
        rw [hnil] at hset
        cases h.symm.trans hset

/-! ## Job results -/

theorem grantsAll_malloc {ops : List MemCall} : memLedger.GrantsAll A.env tr (.malloc size :: ops) ↔
    A.env tr (.malloc size) ≠ none ∧ memLedger.GrantsAll A.env (tr ++ [.malloc size]) ops :=
  and_congr_left' Option.isSome_iff_ne_none

/-- The two arrays are both refused, or else no request is refused. -/
def SparesJobResultCounts (r : JobResult) : Prop :=
  let counts := MemCall.malloc (4 * totalEntries r.mResults)
  let bitstreams := MemCall.malloc (8 * totalEntries r.mResults)
  totalEntries r.mResults = 0 ∨
    (A.env tr counts = none ∧ A.env (tr ++ [counts]) bitstreams = none) ∨
    memLedger.GrantsAll A.env tr (counts :: bitstreams :: keyRequests r.entries)

section JobResultCounts

variable {A tr} {r : JobResult} {out : JobResultCounts} {counts bitstreams : Nat}

theorem getJobResultCounts_empty (htotal : totalEntries r.mResults = 0) :
    A.Exports tr (MQSSClientGetJobResultCounts (some r) (some out)) JobResultCounts.owned JobResultCounts.pointers := by
  have h0 : A.Account tr tr True [] [] [] := .refl
  refine (exports_iff (by rw [MQSSClientGetJobResultCounts, if_pos htotal]; rfl)).mpr ?_
  exact (Account.allOrNothing_zero h0).mpr trivial

/-- Without the first array the second is freed, and its address is left behind. -/
theorem getJobResultCounts_counts_refused (htotal : totalEntries r.mResults ≠ 0)
    (hcounts : A.env tr (.malloc (4 * totalEntries r.mResults)) = none) :
    A.Exports tr (MQSSClientGetJobResultCounts (some r) (some out)) JobResultCounts.owned JobResultCounts.pointers ↔
      A.env (tr ++ [.malloc (4 * totalEntries r.mResults)]) (.malloc (8 * totalEntries r.mResults)) = none := by
  have h0 : A.Account tr tr True [] [] [] := .refl
  have h1 := h0.malloc_refused hcounts
  have h8 : 0 < 8 * totalEntries r.mResults := by omega
  cases hstreams : A.env (tr ++ [.malloc (4 * totalEntries r.mResults)]) (.malloc (8 * totalEntries r.mResults)) with
  | none =>
    refine (exports_iff (by
      rw [MQSSClientGetJobResultCounts, if_neg htotal, Prog.exec_call, hcounts, Prog.exec_call, hstreams]
      rfl)).trans ?_
    rw [(h1.malloc_refused hstreams).allOrNothing_neg (by decide)]
    exact iff_of_true ⟨fun hg => hg.2 h8, fun a ha => by cases ha⟩ rfl
  | some bitstreams =>
    refine (exports_iff (by
      rw [MQSSClientGetJobResultCounts, if_neg htotal, Prog.exec_call, hcounts, Prog.exec_call, hstreams]
      rfl)).trans ?_
    rw [(h1.malloc hstreams).free.allOrNothing_neg (by decide)]
    refine iff_of_false ?_ (by simp)
    rintro ⟨-, h⟩
    exact h bitstreams List.mem_cons_self ⟨List.mem_cons_self, List.mem_cons_self⟩

theorem getJobResultCounts_bitstreams_refused (htotal : totalEntries r.mResults ≠ 0)
    (hcounts : A.env tr (.malloc (4 * totalEntries r.mResults)) = some counts)
    (hstreams : A.env (tr ++ [.malloc (4 * totalEntries r.mResults)]) (.malloc (8 * totalEntries r.mResults)) = none) :
    ¬ A.Exports tr (MQSSClientGetJobResultCounts (some r) (some out)) JobResultCounts.owned JobResultCounts.pointers := by
  have h0 : A.Account tr tr True [] [] [] := .refl
  rw [exports_iff (by
    rw [MQSSClientGetJobResultCounts, if_neg htotal, Prog.exec_call, hcounts, Prog.exec_call, hstreams]
    rfl), ((h0.malloc hcounts).malloc_refused hstreams).free.allOrNothing_neg (by decide)]
  rintro ⟨-, h⟩
  exact h counts List.mem_cons_self ⟨List.mem_cons_self, List.mem_cons_self⟩

/-- With both arrays, a refused string makes both be freed, and their addresses are left behind. -/
theorem getJobResultCounts_arrays (htotal : totalEntries r.mResults ≠ 0)
    (hcounts : A.env tr (.malloc (4 * totalEntries r.mResults)) = some counts)
    (hstreams : A.env (tr ++ [.malloc (4 * totalEntries r.mResults)]) (.malloc (8 * totalEntries r.mResults)) =
      some bitstreams) :
    A.Exports tr (MQSSClientGetJobResultCounts (some r) (some out)) JobResultCounts.owned JobResultCounts.pointers ↔
      memLedger.GrantsAll A.env
        (tr ++ [.malloc (4 * totalEntries r.mResults)] ++ [.malloc (8 * totalEntries r.mResults)])
        (keyRequests r.entries) := by
  have h0 : A.Account tr tr True [] [] [] := .refl
  have h2 := account_no_strings ((h0.malloc hcounts).malloc hstreams)
  by_cases hkeys : memLedger.GrantsAll A.env
    (tr ++ [.malloc (4 * totalEntries r.mResults)] ++ [.malloc (8 * totalEntries r.mResults)]) (keyRequests r.entries)
  · obtain ⟨strings, written, given, tr', hfill, hacc⟩ := account_fillCounts_granted r.entries h2 hkeys
    refine (exports_iff (by
      rw [MQSSClientGetJobResultCounts, if_neg htotal, Prog.exec_call, hcounts, Prog.exec_call, hstreams]
      dsimp only
      rw [Prog.exec_map, hfill])).trans ?_
    exact (Account.allOrNothing_zero hacc).trans (iff_of_true trivial hkeys)
  · obtain ⟨strings, written, given, returned, tr', hfill, hacc, hgiven, hreturned⟩ :=
      account_fillCounts_refused r.entries h2 (by simp) hkeys
    refine (exports_iff (by
      rw [MQSSClientGetJobResultCounts, if_neg htotal, Prog.exec_call, hcounts, Prog.exec_call, hstreams]
      dsimp only
      rw [Prog.exec_map, hfill])).trans ?_
    dsimp only
    rw [if_neg (by decide), hacc.allOrNothing_neg (by decide)]
    refine iff_of_false ?_ hkeys
    rintro ⟨-, h⟩
    exact h counts (List.mem_cons_of_mem _ List.mem_cons_self) ⟨hgiven, hreturned⟩

end JobResultCounts

theorem getJobResultCounts_iff (r : JobResult) (out : JobResultCounts) :
    A.Exports tr (MQSSClientGetJobResultCounts (some r) (some out)) JobResultCounts.owned JobResultCounts.pointers ↔
      A.SparesJobResultCounts tr r := by
  unfold SparesJobResultCounts
  by_cases htotal : totalEntries r.mResults = 0
  · exact iff_of_true (getJobResultCounts_empty htotal) (Or.inl htotal)
  rw [or_iff_right htotal, grantsAll_malloc, grantsAll_malloc]
  cases hcounts : A.env tr (.malloc (4 * totalEntries r.mResults)) with
  | none =>
    rw [getJobResultCounts_counts_refused htotal hcounts]
    simp
  | some counts =>
    cases hstreams : A.env (tr ++ [.malloc (4 * totalEntries r.mResults)]) (.malloc (8 * totalEntries r.mResults)) with
    | none => exact iff_of_false (getJobResultCounts_bitstreams_refused htotal hcounts hstreams) (by simp)
    | some bitstreams =>
      rw [getJobResultCounts_arrays htotal hcounts hstreams]
      simp

end Allocator

/-! ## The exporters together -/

/-- The conditions under which each exporter, called after any calls on any allocator, owes its caller nothing. -/
theorem exporters_allOrNothing_iff (A : Allocator) (tr : List MemCall) :
    (∀ (result : JobResult) (out : JobResultCounts),
      A.Exports tr (MQSSClientGetJobResultCounts (some result) (some out)) JobResultCounts.owned JobResultCounts.pointers ↔
        A.SparesJobResultCounts tr result) ∧
    (∀ (r : Resource) (out : ResourceInfo),
      A.Exports tr (MQSSClientResourceGetInfo (some r) (some out)) ResourceInfo.owned ResourceInfo.pointers ↔
        A.SparesResourceInfo tr r out) ∧
    ∀ (g : Gate) (out : GateInfo),
      A.Exports tr (MQSSClientResourceGetGateInfo (some g) (some out)) GateInfo.pointers GateInfo.pointers ↔
        A.SparesGateInfo tr g :=
  ⟨A.getJobResultCounts_iff tr, A.resourceGetInfo_iff tr, A.resourceGetGateInfo_iff tr⟩

/-- An allocator that refuses the requests of one size and numbers the other blocks. -/
def Allocator.refusing (refused : Nat) : Allocator where
  env tr op :=
    match op with
    | .malloc size => if size = refused then none else some (tr.length + 1)
    | .asprintf _ => some (tr.length + 1)
    | .free _ => ()
    | .newGate _ => tr.length + 1
  fresh := by
    refine Ledger.fresh_of_numbered fun tr op a ha => ?_
    cases op with
    | malloc size =>
      change (if size = refused then none else some (tr.length + 1)) = some a at ha
      split_ifs at ha
      exact (Option.some.inj ha).symm
    | asprintf text => exact (Option.some.inj ha).symm
    | free address => cases ha
    | newGate gate => exact (Option.some.inj ha).symm

/-- A null pointer for no bytes makes the export of a resource without couplings fail, and that of a gate without qubits;
and a refused string leaves its caller with the addresses of two freed arrays. -/
theorem not_exporters_allOrNothing :
    ¬ (Allocator.refusing 0).Exports [] (MQSSClientResourceGetInfo (some ⟨str "A", 1, true, [], []⟩)
      (some ⟨none, 0, false, none, 0, none, 0⟩)) ResourceInfo.owned ResourceInfo.pointers ∧
    ¬ (Allocator.refusing 0).Exports [] (MQSSClientResourceGetGateInfo (some ⟨str "id", 1, 0, []⟩)
      (some ⟨none, 0, 0, none, 0⟩)) GateInfo.pointers GateInfo.pointers ∧
    ¬ (Allocator.refusing 2).Exports [] (MQSSClientGetJobResultCounts (some ⟨[.ofEntries [(str "0", 1)]], [], [], []⟩)
      (some ⟨none, none, 0⟩)) JobResultCounts.owned JobResultCounts.pointers := by
  refine ⟨fun h => ?_, fun h => ?_, fun h => ?_⟩
  · rw [Allocator.resourceGetInfo_iff] at h
    exact (((h 1 rfl).1 rfl).1 rfl)
  · rw [Allocator.resourceGetGateInfo_iff] at h
    exact h (by decide) rfl rfl
  · rw [Allocator.getJobResultCounts_iff] at h
    rcases h with h | ⟨h, -⟩ | ⟨-, -, h, -⟩
    · exact absurd h (by decide)
    · cases h
    · cases h

end MqssClient
