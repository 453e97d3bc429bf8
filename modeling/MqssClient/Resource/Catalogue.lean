import MqssClient.Client

/-!
# Listing resources and looking them up

A catalogue is served twice: as one object under `resources`, and entry by entry under the names of the resources.

* `Serves`: the replies to both kinds of request are the serialised catalogue and entries;
* `MarkedMissing`: the entries for which a lookup returns nothing;
* `Agrees`: the listing is the list of what the lookups return;
* `agrees_iff`: the catalogues for which it is.
-/

namespace MqssClient

open Foundations

variable (lib : JsonLib)

theorem Json.range_reparsed_object (members : List (Bytes × Json)) :
    (Json.object members).reparsed.range = members.map fun e => e.2.reparsed := by
  show (Json.reparsedMembers members).map Prod.snd = _
  induction members with
  | nil => rfl
  | cons e members ih =>
    obtain ⟨k, v⟩ := e
    rw [Json.reparsedMembers, List.map_cons, List.map_cons, ih]

theorem Json.contains_reparsed (j : Json) (key : Bytes) : j.reparsed.contains key = j.contains key := by
  rw [Json.contains, Json.find_reparsed, Option.isSome_map]
  rfl

namespace MQSSClient

/-- The replies to the requests for a catalogue and for its entries. -/
structure Serves (env : Env ClientAns) (catalogue : List (Bytes × Json)) : Prop where
  all : ∃ s, lib.dump (.object catalogue) = some s ∧ ∀ tr, env tr (.request (.get (str "resources"))) = .ok s
  entries : ∀ e ∈ catalogue, ∃ s, lib.dump e.2 = some s ∧
    ∀ tr, env tr (.request (.get (str "resources/" ++ e.1))) = .ok s

/-- What a lookup takes for an error document. -/
def MarkedMissing (entry : Json) : Prop :=
  (∃ s, lib.dump entry = some s ∧ (find (str "RESOURCE NOT FOUND") s).isSome) ∨ entry.contains (str "ERROR")

/-- A lookup of each entry, in key order. -/
def lookups (env : Env ClientAns) (catalogue : List (Bytes × Json)) : List (Except Exn (Option Resource)) :=
  catalogue.map fun e => ((getResourceInfo lib e.1).exec env []).1

/-- If every lookup returns, the listing returns the resources that they return, in order. -/
def Agrees (env : Env ClientAns) (catalogue : List (Bytes × Json)) : Prop :=
  ∀ found : List (Option Resource), lookups lib env catalogue = found.map .ok →
    ((getAllResources lib).exec env []).1 = .ok (found.filterMap id)

variable {lib} {env : Env ClientAns} {catalogue : List (Bytes × Json)}

theorem exec_getAllResources (h : Serves lib env catalogue) :
    ((getAllResources lib).exec env []).1 = catalogue.mapM fun e => Resource.ofJson lib e.2.reparsed := by
  obtain ⟨s, hs, henv⟩ := h.all
  rw [getAllResources, exec_getAnd_ok (henv []), decodeAllResources, lib.parse_dump hs]
  show (Json.object catalogue).reparsed.range.mapM _ = _
  rw [Json.range_reparsed_object, List.mapM_map]
  rfl

/-- A lookup returns nothing for an entry that is marked missing, and decodes every other. -/
theorem exec_getResourceInfo (h : Serves lib env catalogue) {e : Bytes × Json} (he : e ∈ catalogue) :
    (MarkedMissing lib e.2 ∧ ((getResourceInfo lib e.1).exec env []).1 = .ok none) ∨
      (¬ MarkedMissing lib e.2 ∧
        ((getResourceInfo lib e.1).exec env []).1 = (Resource.ofJson lib e.2.reparsed).map some) := by
  obtain ⟨s, hs, henv⟩ := h.entries e he
  rw [getResourceInfo, exec_getAnd_ok (henv []), decodeResourceInfo, lib.parse_dump hs]
  dsimp only
  rw [Json.contains_reparsed]
  by_cases hfind : (find (str "RESOURCE NOT FOUND") s).isSome
  · exact Or.inl ⟨Or.inl ⟨s, hs, hfind⟩, if_pos hfind⟩
  · rw [if_neg hfind]
    by_cases herror : e.2.contains (str "ERROR")
    · exact Or.inl ⟨Or.inr herror, if_pos herror⟩
    · rw [if_neg herror]
      refine Or.inr ⟨?_, ?_⟩
      · rintro (⟨s', hs', hfind'⟩ | herror')
        · cases hs.symm.trans hs'
          exact hfind hfind'
        · exact herror herror'
      · cases Resource.ofJson lib e.2.reparsed <;> rfl

theorem lookup_returns (h : Serves lib env catalogue) {e : Bytes × Json} (he : e ∈ catalogue)
    (hdecodes : ¬ MarkedMissing lib e.2 → Resource.Decodes e.2.reparsed) :
    ∃ found : Option Resource, ((getResourceInfo lib e.1).exec env []).1 = .ok found ∧
      (MarkedMissing lib e.2 → found = none) := by
  rcases exec_getResourceInfo h he with ⟨hmarked, heq⟩ | ⟨hnot, heq⟩
  · exact ⟨none, heq, fun _ => rfl⟩
  · obtain ⟨r, hr⟩ := (Resource.returns_ofJson lib _).mpr (hdecodes hnot)
    exact ⟨some r, by rw [heq, hr]; rfl, fun hmarked => absurd hmarked hnot⟩

theorem lookup_unmarked (h : Serves lib env catalogue) {e : Bytes × Json} (he : e ∈ catalogue)
    (hnot : ¬ MarkedMissing lib e.2) {found : Option Resource}
    (hfound : ((getResourceInfo lib e.1).exec env []).1 = .ok found) :
    ∃ r, found = some r ∧ Resource.ofJson lib e.2.reparsed = .ok r := by
  rcases exec_getResourceInfo h he with ⟨hmarked, -⟩ | ⟨-, heq⟩
  · exact absurd hmarked hnot
  · rw [heq] at hfound
    obtain ⟨r, hr, hsome⟩ := bind_eq_ok.mp hfound
    exact ⟨r, (Except.ok.inj hsome).symm, hr⟩

theorem forall₂_filterMap {α β : Type} {R : α → Option β → Prop} {S : α → β → Prop}
    (hRS : ∀ a found, R a found → ∃ b, found = some b ∧ S a b) {l : List α} {found : List (Option β)}
    (h : List.Forall₂ R l found) : List.Forall₂ S l (found.filterMap id) := by
  induction h with
  | nil => exact .nil
  | cons hab _ ih =>
    obtain ⟨b, rfl, hb⟩ := hRS _ _ hab
    exact .cons hb ih

theorem lookups_eq_map {found : List (Option Resource)} :
    lookups lib env catalogue = found.map .ok ↔
      List.Forall₂ (fun e o => ((getResourceInfo lib e.1).exec env []).1 = .ok o) catalogue found := by
  rw [lookups, ← List.forall₂_eq_eq_eq, List.forall₂_map_left_iff, List.forall₂_map_right_iff]

/-- The listing agrees with the lookups exactly when a lookup throws, or no entry is marked missing. -/
theorem agrees_iff (h : Serves lib env catalogue) :
    Agrees lib env catalogue ↔
      (∃ e ∈ catalogue, ¬ MarkedMissing lib e.2 ∧ ¬ Resource.Decodes e.2.reparsed) ∨
        ∀ e ∈ catalogue, ¬ MarkedMissing lib e.2 := by
  constructor
  · intro hagrees
    by_cases hdecodes : ∀ e ∈ catalogue, ¬ MarkedMissing lib e.2 → Resource.Decodes e.2.reparsed
    · right
      intro e he hmarked
      choose! look hlook hnone using fun e he => lookup_returns h he (hdecodes e he)
      have hlist := hagrees (catalogue.map look)
        (lookups_eq_map.mpr (List.forall₂_map_right_iff.mpr (List.forall₂_same.mpr hlook)))
      rw [exec_getAllResources h] at hlist
      have hlen := (mapM_eq_ok.mp hlist).length_eq
      have hlt : ((catalogue.map look).filterMap id).length < (catalogue.map look).length :=
        List.length_filterMap_lt_length_iff_exists.mpr ⟨_, List.mem_map_of_mem he, hnone e he hmarked⟩
      rw [List.length_map] at hlt
      omega
    · left
      simpa only [not_forall, exists_prop] using hdecodes
  · intro hcond found hfound
    rcases hcond with ⟨e, he, hnot, hundecodable⟩ | hnone
    · -- the lookup of this entry throws
      have hmem : ((getResourceInfo lib e.1).exec env []).1 ∈ found.map .ok := hfound ▸ List.mem_map_of_mem he
      obtain ⟨o, -, ho⟩ := List.mem_map.mp hmem
      obtain ⟨r, -, hr⟩ := lookup_unmarked h he hnot ho.symm
      exact absurd ((Resource.returns_ofJson lib _).mp (hr ▸ returns_ok r)) hundecodable
    · rw [exec_getAllResources h, mapM_eq_ok]
      refine forall₂_filterMap ?_ ((List.forall₂_and_left _ _).mpr ⟨fun e he => he, lookups_eq_map.mp hfound⟩)
      rintro e o ⟨he, ho⟩
      obtain ⟨r, hfound, hr⟩ := lookup_unmarked h he (hnone e he) ho
      exact ⟨r, hfound, hr⟩

/-! ## Two catalogues -/

/-- The replies to the requests for the given paths. -/
def replying (replies : List (Bytes × Bytes)) : Env ClientAns := fun _ c =>
  match c with
  | .request (.get path) => .ok ((lookup path replies).getD [])
  | .request (.post _ _) => .ok []
  | .request (.del _) => .ok ()
  | .sleep_for _ => ()

/-- A device with two couplings and two gates. -/
def pairText : Bytes := str "\x7b\"connectivity\":\"[[0, 2], [2, 2147483647]]\"," ++
  str "\"instructions\":\"[('r', \x7b(0,): None, (1,): None\x7d), ('cz', \x7b(0, 1): None\x7d)]\"," ++
  str "\"name\":\"A\",\"online\":true,\"qubits\":2\x7d"

/-- A device of which nothing is known. -/
def bareText : Bytes := str "\x7b\"connectivity\":\"None\",\"name\":\"B\"\x7d"

def bothText : Bytes := str "\x7b\"A\":" ++ pairText ++ str ",\"B\":" ++ bareText ++ str "\x7d"

def pairEntry : Json := .object [
  (str "connectivity", .string (str "[[0, 2], [2, 2147483647]]")),
  (str "instructions", .string (str "[('r', \x7b(0,): None, (1,): None\x7d), ('cz', \x7b(0, 1): None\x7d)]")),
  (str "name", .string (str "A")), (str "online", .boolean true), (str "qubits", .numberUnsigned 2)]

def bareEntry : Json := .object [(str "connectivity", .string (str "None")), (str "name", .string (str "B"))]

def bothEntries : List (Bytes × Json) := [(str "A", pairEntry), (str "B", bareEntry)]

def bothService : Env ClientAns :=
  replying [(str "resources", bothText), (str "resources/A", pairText), (str "resources/B", bareText)]

def errorText : Bytes := str "\x7b\"ERROR\":\"Not Found\"\x7d"

def brokenText : Bytes := str "\x7b\"A\":" ++ errorText ++ str "\x7d"

def errorDocument : Json := .object [(str "ERROR", .string (str "Not Found"))]

set_option maxRecDepth 8000 in
/-- A library for these texts. -/
def catalogueLib : JsonLib := .ofTable [
  (pairText, pairEntry), (bareText, bareEntry), (bothText, .object bothEntries),
  (errorText, errorDocument), (brokenText, .object [(str "A", errorDocument)])] (by decide)

set_option maxRecDepth 8000 in
theorem dump_of_mem {e : Bytes × Json} (he : e ∈ bothEntries) :
    ∃ s, catalogueLib.dump e.2 = some s ∧ (∀ tr, bothService tr (.request (.get (str "resources/" ++ e.1))) = .ok s) ∧
      ¬ (find (str "RESOURCE NOT FOUND") s).isSome := by
  rcases List.mem_cons.mp he with rfl | he
  · exact ⟨pairText, by decide, fun _ => rfl, by decide⟩
  · cases List.mem_singleton.mp he
    exact ⟨bareText, by decide, fun _ => rfl, by decide⟩

set_option maxRecDepth 8000 in
theorem serves_bothEntries : Serves catalogueLib bothService bothEntries := by
  refine ⟨⟨bothText, by decide, fun _ => rfl⟩, fun e he => ?_⟩
  obtain ⟨s, hs, henv, -⟩ := dump_of_mem he
  exact ⟨s, hs, henv⟩

theorem agrees_sample : Agrees catalogueLib bothService bothEntries := by
  refine (agrees_iff serves_bothEntries).mpr (Or.inr fun e he => ?_)
  obtain ⟨s, hs, -, hfind⟩ := dump_of_mem he
  have herrors : ∀ e ∈ bothEntries, ¬ e.2.contains (str "ERROR") := by decide
  rintro (⟨s', hs', hfind'⟩ | herror)
  · cases hs.symm.trans hs'
    exact hfind hfind'
  · exact herrors e he herror

/-- An error document for which the lookup returns nothing is listed as a resource without a name. -/
theorem not_agrees :
    ∃ env, Serves catalogueLib env [(str "A", errorDocument)] ∧
      ((getResourceInfo catalogueLib (str "A")).exec env []).1 = .ok none ∧
      ((getAllResources catalogueLib).exec env []).1 = .ok [⟨[], 0, false, [], []⟩] ∧
      ¬ Agrees catalogueLib env [(str "A", errorDocument)] := by
  refine ⟨replying [(str "resources", brokenText), (str "resources/A", errorText)],
    ⟨⟨brokenText, by decide, fun _ => rfl⟩, fun e he => ?_⟩, by decide, by decide, fun h => ?_⟩
  · cases List.mem_singleton.mp he
    exact ⟨errorText, by decide, fun _ => rfl⟩
  · have hlist := h [none] (by decide)
    exact absurd hlist (by decide)

end MQSSClient

end MqssClient
