import MqssClient.Foundations.Blocks
import MqssClient.Foundations.Prog
import MqssClient.Resource
import Mathlib.Data.List.TakeDrop

/-!
# The C API of resources and gates

The exporters are programs over the calls of the allocator, any of which may refuse.

* `MemCall`: the calls; `Block`: an allocated block, with what was written to it;
* `flatten2D`, `MQSSClientResourceGetInfo`, `MQSSClientResourceGetGateInfo`;
* `exec_flatten2D`, `exec_resourceGetInfo`, `exec_resourceGetGateInfo`: what they export when no call refuses.
-/

namespace MqssClient

open Foundations

inductive MemCall where
  | malloc (size : Nat)
  | asprintf (text : Bytes)
  | free (address : Nat)
  | newGate (gate : Gate)
deriving DecidableEq

/-- `malloc` and `asprintf` answer an address, or refuse; `new` is taken not to. -/
abbrev MemAns : MemCall → Type
  | .malloc _ => Option Nat
  | .asprintf _ => Option Nat
  | .free _ => Unit
  | .newGate _ => Nat

/-- A block at an address, holding `data`. -/
structure Block (α : Type) where
  address : Nat
  data : List α
deriving DecidableEq

/-- The elements of all rows in one array, and their number; `none` where the allocation is refused. -/
def flatten2D {α : Type} (cast : α → Int) (input : List (List α)) : Prog MemAns (Option (Block Int × UInt32)) :=
  let total := input.flatten.length
  .call (MemCall.malloc (total * 4)) fun (result : Option Nat) =>
    .pure (result.map fun address => (⟨address, input.flatten.map cast⟩, toUnsigned total))

/-- The output parameters of `MQSSClientResourceGetInfo`. -/
structure ResourceInfo where
  name : Option (Block UInt8)
  qubitCount : UInt32
  online : Bool
  couplingMap : Option (Block Int)
  couplingMapSize : UInt32
  nativeGateset : Option (Block (Nat × Gate))
  gateCount : UInt32

/-- The copies of the gates, with their addresses. -/
def newGates : List Gate → Prog MemAns (List (Nat × Gate))
  | [] => .pure []
  | gate :: gates =>
    .call (MemCall.newGate gate) fun (address : Nat) => (newGates gates).map fun handles => (address, gate) :: handles

/-- The return code, and the output parameters afterwards. -/
def MQSSClientResourceGetInfo (resource : Option Resource) (out : Option ResourceInfo) :
    Prog MemAns (Int × Option ResourceInfo) :=
  match out, resource with
  | none, _ => .pure (-1, none)
  | some out, none => .pure (-2, some out)
  | some out, some r =>
    .call (MemCall.asprintf (c_str r.mName)) fun (name : Option Nat) =>
      match name with
      | none => .pure (-3, some out)
      | some name =>
        let out := { out with
          name := some ⟨name, c_str r.mName⟩, qubitCount := r.mQubitCount, online := r.mOnline }
        (flatten2D id r.mCouplingMap).bind fun
          | none => .call (MemCall.free name) fun _ => .pure (-4, some { out with couplingMap := none, name := none })
          | some (couplingMap, couplingMapSize) =>
            let gates := r.mNativeGateset
            let out := { out with
              couplingMap := some couplingMap, couplingMapSize, gateCount := toUnsigned gates.length }
            .call (MemCall.malloc (gates.length * 8)) fun (nativeGateset : Option Nat) =>
              match nativeGateset with
              | none =>
                .call (MemCall.free couplingMap.address) fun _ =>
                  .call (MemCall.free name) fun _ =>
                    .pure (-5, some { out with nativeGateset := none, couplingMap := none, name := none })
              | some address =>
                (newGates gates).map fun handles => (0, some { out with nativeGateset := some ⟨address, handles⟩ })

/-- The output parameters of `MQSSClientResourceGetGateInfo`. -/
structure GateInfo where
  name : Option (Block UInt8)
  qubitNumber : UInt32
  parameterNumber : UInt32
  supportedQubits : Option (Block Int)
  supportedQubitCount : UInt32

/-- `static_cast<int>` of an `unsigned int`. -/
def castInt (q : UInt32) : Int := toInt q.toNat

/-- The return code, and the output parameters afterwards. -/
def MQSSClientResourceGetGateInfo (gate : Option Gate) (out : Option GateInfo) : Prog MemAns (Int × Option GateInfo) :=
  match gate, out with
  | some g, some out =>
    .call (MemCall.malloc (g.mName.length + 1)) fun (name : Option Nat) =>
      match name with
      | none => .pure (-2, some { out with name := none })
      | some name =>
        let out := { out with
          name := some ⟨name, g.mName ++ [0]⟩, qubitNumber := g.mQubitNumber, parameterNumber := g.mParameterNumber }
        (flatten2D castInt g.mSupportedQubits).bind fun
          | none => .call (MemCall.free name) fun _ =>
            .pure (-2, some { out with supportedQubits := none, name := none })
          | some (supportedQubits, supportedQubitCount) =>
            .pure (0, some { out with supportedQubits := some supportedQubits, supportedQubitCount })
  | _, _ => .pure (-1, out)

/-! ## What is exported when no allocation is refused -/

/-- An environment that grants every allocation. -/
def Grants (env : Env MemAns) : Prop :=
  (∀ tr size, ∃ address, env tr (.malloc size) = some address) ∧
    ∀ tr text, ∃ address, env tr (.asprintf text) = some address

section Exec

variable {env : Env MemAns}

theorem exec_flatten2D (hg : Grants env) {α : Type} (cast : α → Int) (input : List (List α)) (tr : List MemCall) :
    ∃ address, ((flatten2D cast input).exec env tr).1 =
      some (⟨address, input.flatten.map cast⟩, toUnsigned input.flatten.length) := by
  obtain ⟨address, h⟩ := hg.1 tr (input.flatten.length * 4)
  refine ⟨address, ?_⟩
  rw [flatten2D, Prog.exec_call, h]
  rfl

theorem exec_newGates (gates : List Gate) (tr : List MemCall) :
    ((newGates gates).exec env tr).1.map Prod.snd = gates := by
  induction gates generalizing tr with
  | nil => rfl
  | cons g gates ih =>
    rw [newGates, Prog.exec_call, Prog.exec_map, List.map_cons, ih]

theorem exec_resourceGetInfo (hg : Grants env) (r : Resource) (out : ResourceInfo) (tr : List MemCall) :
    ∃ info couplingMap gateset, ((MQSSClientResourceGetInfo (some r) (some out)).exec env tr).1 = (0, some info) ∧
      info.couplingMap = some couplingMap ∧ couplingMap.data = r.mCouplingMap.flatten ∧
      info.couplingMapSize = toUnsigned r.mCouplingMap.flatten.length ∧
      info.nativeGateset = some gateset ∧ gateset.data.map Prod.snd = r.mNativeGateset := by
  obtain ⟨name, hname⟩ := hg.2 tr (c_str r.mName)
  obtain ⟨address, hflat⟩ := exec_flatten2D hg id r.mCouplingMap (tr ++ [.asprintf (c_str r.mName)])
  rw [List.map_id] at hflat
  rw [MQSSClientResourceGetInfo, Prog.exec_call, hname]
  dsimp only
  rw [Prog.exec_bind, hflat]
  dsimp only
  rw [Prog.exec_call]
  obtain ⟨array, harray⟩ := hg.1 ((flatten2D id r.mCouplingMap).exec env (tr ++ [.asprintf (c_str r.mName)])).2
    (r.mNativeGateset.length * 8)
  rw [harray]
  dsimp only
  rw [Prog.exec_map]
  exact ⟨_, _, _, rfl, rfl, rfl, rfl, rfl, exec_newGates ..⟩

theorem exec_resourceGetGateInfo (hg : Grants env) (g : Gate) (out : GateInfo) (tr : List MemCall) :
    ∃ info supportedQubits, ((MQSSClientResourceGetGateInfo (some g) (some out)).exec env tr).1 = (0, some info) ∧
      info.qubitNumber = g.mQubitNumber ∧ info.supportedQubits = some supportedQubits ∧
      supportedQubits.data = g.mSupportedQubits.flatten.map castInt ∧
      info.supportedQubitCount = toUnsigned g.mSupportedQubits.flatten.length := by
  obtain ⟨name, hname⟩ := hg.1 tr (g.mName.length + 1)
  rw [MQSSClientResourceGetGateInfo, Prog.exec_call, hname]
  dsimp only
  rw [Prog.exec_bind]
  obtain ⟨address, hflat⟩ := exec_flatten2D hg castInt g.mSupportedQubits (tr ++ [.malloc (g.mName.length + 1)])
  rw [hflat]
  exact ⟨_, _, rfl, rfl, rfl, rfl, rfl⟩

end Exec

/-! ## Cutting the exported arrays -/

/-- The array behind a pointer is as long as its count says, if the count has not wrapped around. -/
theorem take_count_eq_iff {α : Type} (l : List α) :
    l.take (toUnsigned l.length).toNat = l ↔ l.length < 2 ^ 32 := by
  have hcount := toNat_toUnsigned l.length
  rw [List.take_eq_self_iff]
  omega

/-- The rows of an exported array are recovered when they all have the length of a block and the count holds. -/
theorem cutsBack_export {α : Type} {n : Nat} (hn : 0 < n) (rows : List (List α)) :
    CutsBack n (rows.flatten.take (toUnsigned rows.flatten.length).toNat) rows ↔
      (∀ row ∈ rows, row.length = n) ∧ rows.flatten.length < 2 ^ 32 := by
  rw [cutsBack_iff hn, and_comm, ← take_count_eq_iff]
  exact and_congr_right fun _ => eq_comm

/-- An index, as the `int` that is exported. -/
def index (q : UInt32) : Int := q.toNat

/-- What `MQSSClientResourceGetInfo` exports of the coupling map: it is cut back into pairs if its count holds. -/
def ExportsCouplingMap (r : Resource) (info : ResourceInfo) : Prop :=
  ∃ couplingMap, info.couplingMap = some couplingMap ∧ couplingMap.data = r.mCouplingMap.flatten ∧
    (CutsBack 2 (couplingMap.data.take info.couplingMapSize.toNat) r.mCouplingMap ↔ r.mCouplingMap.length < 2 ^ 31)

/-- What `MQSSClientResourceGetGateInfo` exports of the qubits of a gate: no index is altered, and they are cut back into
blocks of `qubitNumber` if each tuple has this length and the count holds. -/
def ExportsQubits (g : Gate) (info : GateInfo) : Prop :=
  ∃ supportedQubits, info.supportedQubits = some supportedQubits ∧ info.qubitNumber = g.mQubitNumber ∧
    supportedQubits.data = g.mSupportedQubits.flatten.map index ∧
    (CutsBack info.qubitNumber.toNat (supportedQubits.data.take info.supportedQubitCount.toNat)
        (g.mSupportedQubits.map (List.map index)) ↔
      (∀ row ∈ g.mSupportedQubits, row.length = g.mQubitNumber.toNat) ∧ g.mSupportedQubits.flatten.length < 2 ^ 32)

variable {lib : JsonLib} {json : Json} {r : Resource} {env : Env MemAns}

theorem exportsCouplingMap_of_data {info : ResourceInfo} {couplingMap : Block Int}
    (hrows : ∀ row ∈ r.mCouplingMap, IsPair row)
    (hmap : info.couplingMap = some couplingMap) (hdata : couplingMap.data = r.mCouplingMap.flatten)
    (hsize : info.couplingMapSize = toUnsigned r.mCouplingMap.flatten.length) : ExportsCouplingMap r info := by
  have hpairs : ∀ row ∈ r.mCouplingMap, row.length = 2 := fun row hrow => by
    obtain ⟨a, b, rfl, -⟩ := hrows row hrow
    rfl
  refine ⟨couplingMap, hmap, hdata, ?_⟩
  rw [hdata, hsize, cutsBack_export (by decide), and_iff_right hpairs, length_flatten_of_rows hpairs]
  omega

theorem map_castInt {rows : List (List UInt32)} (h : ∀ row ∈ rows, ∀ q ∈ row, q.toNat < 2 ^ 31) :
    rows.flatten.map castInt = rows.flatten.map index := by
  refine List.map_congr_left fun q hq => ?_
  obtain ⟨row, hrow, hq⟩ := List.mem_flatten.mp hq
  have := h row hrow q hq
  exact toInt_of_bounds (by omega) (by omega)

theorem exportsQubits_of_data {g : Gate} {info : GateInfo} {supportedQubits : Block Int} (hg : g.Decoded)
    (hqubits : info.supportedQubits = some supportedQubits) (hnumber : info.qubitNumber = g.mQubitNumber)
    (hdata : supportedQubits.data = g.mSupportedQubits.flatten.map castInt)
    (hcount : info.supportedQubitCount = toUnsigned g.mSupportedQubits.flatten.length) : ExportsQubits g info := by
  rw [map_castInt hg.indices] at hdata
  refine ⟨supportedQubits, hqubits, hnumber, hdata, ?_⟩
  have hlen : g.mSupportedQubits.flatten.length = (g.mSupportedQubits.map (List.map index)).flatten.length := by
    rw [← List.map_flatten, List.length_map]
  rw [hdata, hcount, hnumber, List.map_flatten, hlen, cutsBack_export (getGateProterties_pos hg.properties)]
  simp

/-- The C export of a decoded resource, with all allocations granted. -/
theorem export_decodes (hr : Resource.ofJson lib json = .ok r) (hgrants : Grants env) :
    (∀ out tr, ∃ info, ((MQSSClientResourceGetInfo (some r) (some out)).exec env tr).1 = (0, some info) ∧
      ExportsCouplingMap r info ∧
      ∃ gateset, info.nativeGateset = some gateset ∧ gateset.data.map Prod.snd = r.mNativeGateset) ∧
    ∀ g ∈ r.mNativeGateset, ∀ out tr, ∃ info,
      ((MQSSClientResourceGetGateInfo (some g) (some out)).exec env tr).1 = (0, some info) ∧ ExportsQubits g info := by
  obtain ⟨hrows, hgates⟩ := Resource.decoded hr
  constructor
  · intro out tr
    obtain ⟨info, couplingMap, gateset, hexec, hmap, hdata, hsize, hset, hcopies⟩ :=
      exec_resourceGetInfo hgrants r out tr
    exact ⟨info, hexec, exportsCouplingMap_of_data hrows hmap hdata hsize, gateset, hset, hcopies⟩
  · intro g hg out tr
    obtain ⟨info, supportedQubits, hexec, hnumber, hqubits, hdata, hcount⟩ := exec_resourceGetGateInfo hgrants g out tr
    exact ⟨info, hexec, exportsQubits_of_data (hgates g hg) hqubits hnumber hdata hcount⟩

/-- A resource entry with two coupled qubits. -/
def sampleEntry (instructions : Bytes) : Json := .ofPairs [
  (str "connectivity", .string (str "[[0, 1], [1, 0]]")), (str "instructions", .string instructions)]

/-- An allocator that never refuses. -/
def grantingEnv : Env MemAns := fun tr c =>
  match c with
  | .malloc _ => some (tr.length + 1)
  | .asprintf _ => some (tr.length + 1)
  | .free _ => ()
  | .newGate _ => tr.length + 1

theorem grants_grantingEnv : Grants grantingEnv := ⟨fun _ _ => ⟨_, rfl⟩, fun _ _ => ⟨_, rfl⟩⟩

theorem export_decodes_sample :
    ∃ info, ((MQSSClientResourceGetGateInfo (some ⟨str "cz", 2, 0, [[0, 1]]⟩) (some ⟨none, 0, 0, none, 0⟩)).exec
      grantingEnv []).1 = (0, some info) ∧ ExportsQubits ⟨str "cz", 2, 0, [[0, 1]]⟩ info := by
  have hdecoded : Resource.ofJson (.ofTable [] (by decide)) (sampleEntry (str "[('cz', \x7b(0, 1): None\x7d)]")) =
      .ok ⟨[], 0, false, [[0, 1], [1, 0]], [⟨str "cz", 2, 0, [[0, 1]]⟩]⟩ := by decide
  exact (export_decodes hdecoded grants_grantingEnv).2 _ List.mem_cons_self _ _

/-- A tuple with one index for a gate on two qubits is decoded, and not cut back. -/
theorem not_export_decodes :
    ∃ r g info supportedQubits,
      Resource.ofJson (.ofTable [] (by decide)) (sampleEntry (str "[('cz', \x7b(0,): None\x7d)]")) = .ok r ∧
      g ∈ r.mNativeGateset ∧ Grants grantingEnv ∧
      ((MQSSClientResourceGetGateInfo (some g) (some ⟨none, 0, 0, none, 0⟩)).exec grantingEnv []).1 = (0, some info) ∧
      info.supportedQubits = some supportedQubits ∧
      ¬ CutsBack info.qubitNumber.toNat (supportedQubits.data.take info.supportedQubitCount.toNat)
        (g.mSupportedQubits.map (List.map index)) := by
  refine ⟨⟨[], 0, false, [[0, 1], [1, 0]], [⟨str "cz", 2, 0, [[0]]⟩]⟩, ⟨str "cz", 2, 0, [[0]]⟩, _, _, by decide,
    List.mem_cons_self, grants_grantingEnv, rfl, rfl, ?_⟩
  unfold CutsBack
  decide

end MqssClient
