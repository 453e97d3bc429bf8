import MqssClient.Delivery
import MqssClient.Resource.Catalogue
import MqssClient.Resource.CouplingMap
import MqssClient.Resource.Gates

/-!
# Resource documents

* `ResourceDocument`: what a document says of a resource, and how it prints the coupling map and the gate set;
* `ofJson_entry`: the document is decoded to what it says;
* `catalogue_read_back`: so is a catalogue of documents, listed or looked up.
-/

namespace MqssClient

open Foundations

/-- What a document says of a resource. Each member may be missing, and the printed ones may be `None`. -/
structure ResourceDocument where
  connectivity : Option (Option (List SpacedPair))
  instructions : Option (Option (List SpacedGate))
  name : Option Bytes
  online : Option Bool
  qubits : Option UInt32
  readable : ∀ gates, instructions = some (some gates) →
    ∀ g ∈ gates, ∀ e ∈ g.entries, e.isNone ∧ ∀ i ∈ e.tuple, i.value < 2 ^ 31

namespace ResourceDocument

variable (d : ResourceDocument)

def connectivityText : Option Bytes := d.connectivity.map fun pairs => pairs.elim (str "None") couplingText

def instructionsText : Option Bytes := d.instructions.map fun gates => gates.elim (str "None") gatesText

/-- The members, of which some may be missing. -/
def members : List (Bytes × Option Json) := [
  (str "connectivity", d.connectivityText.map .string),
  (str "instructions", d.instructionsText.map .string),
  (str "name", d.name.map .string),
  (str "online", d.online.map .boolean),
  (str "qubits", d.qubits.map fun n => .numberUnsigned n.toUInt64)]

/-- The document. -/
def entry : Json := .object (d.members.filterMap fun m => m.2.map fun v => (m.1, v))

/-- The resource of which it speaks. -/
def resource : Resource where
  mName := d.name.getD []
  mQubitCount := d.qubits.getD 0
  mOnline := d.online.getD false
  mCouplingMap := (d.connectivity.bind id).elim [] fun pairs => pairs.map SpacedPair.row
  mNativeGateset := (d.instructions.bind id).elim [] fun gates => gates.map SpacedGate.gate

/-! ## Members -/

theorem lookup_present {members : List (Bytes × Option Json)} (h : (members.map Prod.fst).Nodup) (key : Bytes) :
    lookup key (members.filterMap fun m => m.2.map fun v => (m.1, v)) = (lookup key members).bind id := by
  induction members with
  | nil => rfl
  | cons m members ih =>
    obtain ⟨k, v⟩ := m
    obtain ⟨hk, hnodup⟩ := List.nodup_cons.mp h
    have hcons : ∀ {α : Type} (a : α) (es : List (Bytes × α)),
        lookup key ((k, a) :: es) = if k = key then some a else lookup key es := by
      intro α a es
      unfold lookup
      split_ifs with hkey <;> simp [hkey]
    rw [hcons]
    split_ifs with hkey
    · have hnone : lookup key members = none := by
        rw [lookup, Option.map_eq_none_iff, List.find?_eq_none]
        intro e he
        have hne : e.1 ≠ key := fun heq => hk (List.mem_map.mpr ⟨e, he, heq.trans hkey.symm⟩)
        simpa using hne
      cases v with
      | none => exact (ih hnodup).trans (by rw [hnone]; rfl)
      | some v => exact (hcons v _).trans (if_pos hkey)
    · cases v with
      | none => exact ih hnodup
      | some v => exact ((hcons v _).trans (if_neg hkey)).trans (ih hnodup)

theorem find_entry (key : Bytes) : d.entry.find key = (lookup key d.members).bind id := by
  have hkeys : d.members.map Prod.fst =
    [str "connectivity", str "instructions", str "name", str "online", str "qubits"] := rfl
  exact lookup_present (by rw [hkeys]; decide) key

/-- A member of the document as it is parsed again. -/
theorem find_reparsed_entry (key : Bytes) :
    d.entry.reparsed.find key = ((lookup key d.members).bind id).map Json.reparsed := by
  rw [Json.find_reparsed, find_entry]

theorem value_reparsed_entry {α : Type} (get : Json → Except Exn α) (key : Bytes) (default : α) :
    d.entry.reparsed.value get key default =
      (((lookup key d.members).bind id).map Json.reparsed).elim (.ok default) get := by
  rw [← find_reparsed_entry]
  unfold entry
  rw [Json.reparsed, Json.value, Json.find]
  cases lookup key _ <;> rfl

/-! ## Decoding -/

theorem find_text (key : Bytes) (text : Option Bytes) (h : lookup key d.members = some (text.map .string)) :
    d.entry.reparsed.find key = text.map .string := by
  rw [find_reparsed_entry, h]
  cases text <;> rfl

theorem extractCouplingMap_entry :
    extractCouplingMap d.entry.reparsed (str "connectivity") = .ok d.resource.mCouplingMap := by
  have hfind := d.find_text (str "connectivity") d.connectivityText rfl
  unfold connectivityText at hfind
  unfold resource
  rcases hc : d.connectivity with _ | _ | pairs
  · rw [hc] at hfind
    rw [extractCouplingMap, decodedText, hfind]
    rfl
  · rw [hc] at hfind
    rw [extractCouplingMap, decodedText, hfind]
    rfl
  · rw [hc] at hfind
    exact extractCouplingMap_couplingText hfind

theorem extractGates_entry :
    extractGates d.entry.reparsed (str "instructions") = .ok d.resource.mNativeGateset := by
  have hfind := d.find_text (str "instructions") d.instructionsText rfl
  unfold instructionsText at hfind
  unfold resource
  rcases hc : d.instructions with _ | _ | gates
  · rw [hc] at hfind
    rw [extractGates, decodedText, hfind]
    rfl
  · rw [hc] at hfind
    rw [extractGates, decodedText, hfind]
    rfl
  · rw [hc] at hfind
    rw [extractGates, decodedText_gatesText hfind]
    show gateLoop (gatePattern.allMatches (gatesText gates)) [] = _
    rw [allMatches_gatesText]
    exact gateLoop_map fun g hg => bodyTuples_of_none (d.readable gates hc g hg)

theorem qubitCount_entry (lib : JsonLib) : qubitCount lib d.entry.reparsed = .ok d.resource.mQubitCount := by
  have hfind : d.entry.reparsed.find (str "qubits") = d.qubits.map fun n => .numberUnsigned n.toUInt64 := by
    rw [find_reparsed_entry]
    show ((some (d.qubits.map fun n => Json.numberUnsigned n.toUInt64)).bind id).map Json.reparsed = _
    cases d.qubits <;> rfl
  rw [qubitCount, Json.contains, Json.subscript, hfind]
  unfold resource
  cases d.qubits with
  | none => rfl
  | some n =>
    show lib.getUnsigned (.numberUnsigned n.toUInt64) = .ok n
    refine getUnsigned_of_count lib ?_
    rw [numericValue, UInt32.toNat_toUInt64]

/-- A document is decoded to what it says. -/
theorem ofJson_entry (lib : JsonLib) : Resource.ofJson lib d.entry.reparsed = .ok d.resource := by
  have hname : d.entry.reparsed.value Json.getString (str "name") [] = .ok d.resource.mName := by
    rw [value_reparsed_entry]
    show (((some (d.name.map Json.string)).bind id).map Json.reparsed).elim (.ok []) Json.getString = _
    unfold resource
    cases d.name <;> rfl
  have honline : d.entry.reparsed.value Json.getBool (str "online") false = .ok d.resource.mOnline := by
    rw [value_reparsed_entry]
    show (((some (d.online.map Json.boolean)).bind id).map Json.reparsed).elim (.ok false) Json.getBool = _
    unfold resource
    cases d.online <;> rfl
  rw [Resource.ofJson, hname, d.qubitCount_entry lib, honline, d.extractCouplingMap_entry, d.extractGates_entry]
  rfl

end ResourceDocument

namespace MQSSClient

variable {lib : JsonLib} {env : Env ClientAns}

theorem not_contains_error (d : ResourceDocument) : d.entry.contains (str "ERROR") = false := by
  rw [Json.contains, d.find_entry]
  rfl

/-- Whatever white space its documents are printed with, a catalogue is listed as the resources of which they speak, and each
of them can be looked up, except where the text of a document contains the words that say that there is none. -/
theorem catalogue_read_back {catalogue : List (Bytes × ResourceDocument)}
    (h : Serves lib env (catalogue.map fun e => (e.1, e.2.entry))) :
    ((getAllResources lib).exec env []).1 = .ok (catalogue.map fun e => e.2.resource) ∧
      ∀ e ∈ catalogue, ∃ s, lib.dump e.2.entry = some s ∧ ((getResourceInfo lib e.1).exec env []).1 =
        .ok (if (find (str "RESOURCE NOT FOUND") s).isSome then none else some e.2.resource) := by
  refine ⟨?_, fun e he => ?_⟩
  · rw [exec_getAllResources h, List.mapM_map, mapM_eq_ok, List.forall₂_map_right_iff, List.forall₂_same]
    exact fun e _ => e.2.ofJson_entry lib
  · obtain ⟨s, hs, henv⟩ := h.entries _ (List.mem_map_of_mem he)
    refine ⟨s, hs, ?_⟩
    rw [getResourceInfo, exec_getAnd_ok (henv []), decodeResourceInfo, lib.parse_dump hs]
    dsimp only
    rw [Json.contains_reparsed, not_contains_error, e.2.ofJson_entry lib]
    by_cases hfind : (find (str "RESOURCE NOT FOUND") s).isSome
    · rw [if_pos hfind, if_pos hfind]
    · rw [if_neg hfind, if_neg hfind]
      rfl

/-- A device with two couplings and two gates, and one of which nothing is known. -/
def pairDocument : ResourceDocument where
  connectivity := some (some samplePairs)
  instructions := some (some sampleGates)
  name := some (str "A")
  online := some true
  qubits := some 2
  readable := by
    rintro _ ⟨⟩
    decide

def bareDocument : ResourceDocument where
  connectivity := some none
  instructions := none
  name := some (str "B")
  online := none
  qubits := none
  readable := by
    rintro _ ⟨⟩

def bothDocuments : List (Bytes × ResourceDocument) := [(str "A", pairDocument), (str "B", bareDocument)]

set_option maxRecDepth 8000 in
theorem entries_bothDocuments : (bothDocuments.map fun e => (e.1, e.2.entry)) = bothEntries := rfl

theorem serves_bothDocuments :
    Serves catalogueLib bothService (bothDocuments.map fun e => (e.1, e.2.entry)) := by
  rw [entries_bothDocuments]
  exact serves_bothEntries

theorem catalogue_read_back_sample :
    ((getAllResources catalogueLib).exec bothService []).1 = .ok [
      ⟨str "A", 2, true, [[0, 2], [2, 2147483647]], [⟨str "r", 1, 2, [[0], [1]]⟩, ⟨str "cz", 2, 0, [[0, 1]]⟩]⟩,
      ⟨str "B", 0, false, [], []⟩] ∧
    ∀ e ∈ bothDocuments, ∃ s, catalogueLib.dump e.2.entry = some s ∧
      ((getResourceInfo catalogueLib e.1).exec bothService []).1 =
        .ok (if (find (str "RESOURCE NOT FOUND") s).isSome then none else some e.2.resource) :=
  catalogue_read_back serves_bothDocuments

end MQSSClient

end MqssClient
