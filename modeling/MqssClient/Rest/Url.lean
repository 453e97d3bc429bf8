import MqssClient.Std

/-!
# URL normalisation

* `Libcurl`: the parts of libcurl the REST client uses, with what is documented of its URL parser;
* `normalizeUrl`: the check and rewriting of the base URL;
* `normalizeUrl_eq`: what it does, in terms of the URL cut at its first `://` and at the `/` after that;
* `Parts`, `url_set_parts`: the same URL as libcurl takes it apart; `plainCurl`: a libcurl for plain hosts.
-/

namespace MqssClient

open Foundations

def endsWithLetter (s : Bytes) : Bool := s.getLast?.any fun c => 97 ≤ tolower c && tolower c ≤ 122

/-- libcurl. `host` is the host that an authority names, `none` where the authority is refused: an empty one, one
with a user, or one that is not valid. -/
structure Libcurl where
  initialises : Bool
  knownScheme : Bytes → Bool
  host : Bytes → Option Bytes
  strerror : Nat → Bytes
  knows_http : knownScheme (str "http")
  knows_https : knownScheme (str "https")
  host_nil : host [] = none
  host_no_user : ∀ {a h}, host a = some h → 64 ∉ a
  host_lower : ∀ a, (host (lower a)).map lower = (host a).map lower
  host_port : ∀ a, endsWithLetter a → host (a ++ str ":4000") = host a

/-- What libcurl finds in a URL. -/
structure CurlUrl where
  scheme : Bytes
  authority : Bytes
  host : Bytes
deriving DecidableEq

namespace Libcurl

variable (curl : Libcurl)

/-- `curl_url_set` with `CURLU_DISALLOW_USER`: a scheme, a colon, one to three slashes and an authority up to the
next slash. -/
def url_set (url : Bytes) : Option CurlUrl :=
  let scheme := lower (url.takeWhile (· ≠ colon))
  let rest := url.dropWhile (· ≠ colon)
  let slashes := rest.tail.takeWhile (· = slash)
  let authority := (rest.tail.dropWhile (· = slash)).takeWhile (· ≠ slash)
  if rest ≠ [] ∧ 1 ≤ slashes.length ∧ slashes.length ≤ 3 ∧ curl.knownScheme scheme then
    (curl.host authority).map fun host => { scheme, authority, host }
  else none

/-- A scheme, one to three slashes, a non-empty authority and a path, as `url_set` takes a URL apart. -/
structure Parts where
  scheme : Bytes
  slashes : Nat
  authority : Bytes
  path : Bytes
  colon_not_mem : colon ∉ scheme
  slashes_pos : 1 ≤ slashes
  slashes_le : slashes ≤ 3
  authority_ne : authority ≠ []
  slash_not_mem : slash ∉ authority
  path_slash : path = [] ∨ ∃ t, path = slash :: t

def Parts.url (p : Parts) : Bytes :=
  p.scheme ++ colon :: (List.replicate p.slashes slash ++ (p.authority ++ p.path))

theorem url_set_parts (p : Parts) :
    curl.url_set p.url =
      if curl.knownScheme (lower p.scheme) then
        (curl.host p.authority).map fun host => ⟨lower p.scheme, p.authority, host⟩
      else none := by
  have hcolon : ∃ t, colon :: (List.replicate p.slashes slash ++ (p.authority ++ p.path)) = colon :: t := ⟨_, rfl⟩
  have hslash : ∀ c ∈ List.replicate p.slashes slash, decide (c = slash) = true := fun c hc => by
    simpa using List.eq_of_mem_replicate hc
  have hauthority : decide (p.authority.head p.authority_ne = slash) = false := by
    simpa using ne_of_mem_of_not_mem (List.head_mem p.authority_ne) p.slash_not_mem
  have hstop : (p.authority ++ p.path).takeWhile (· = slash) = [] ∧
      (p.authority ++ p.path).dropWhile (· = slash) = p.authority ++ p.path := by
    rw [← List.cons_head_tail p.authority_ne, List.cons_append, List.takeWhile_cons, List.dropWhile_cons,
      hauthority]
    exact ⟨rfl, rfl⟩
  unfold url_set Parts.url
  dsimp only
  rw [takeWhile_ne_append p.colon_not_mem (Or.inr hcolon), dropWhile_ne_append p.colon_not_mem (Or.inr hcolon),
    List.tail_cons, List.takeWhile_append_of_pos hslash, List.dropWhile_append_of_pos hslash, hstop.1, hstop.2,
    takeWhile_ne_append p.slash_not_mem p.path_slash, List.append_nil, List.length_replicate]
  simp [p.slashes_pos, p.slashes_le]

/-- An accepted URL has such parts. -/
theorem exists_parts {url : Bytes} {parsed : CurlUrl} (h : curl.url_set url = some parsed) :
    ∃ p : Parts, url = p.url := by
  unfold url_set at h
  dsimp only at h
  split_ifs at h with hok
  obtain ⟨hrest, hpos, hle, -⟩ := hok
  obtain ⟨host, hhost, -⟩ := Option.map_eq_some_iff.mp h
  obtain ⟨t, ht⟩ := (dropWhile_ne_cases colon url).resolve_left hrest
  rw [ht, List.tail_cons] at hpos hle hhost
  refine ⟨{
    scheme := url.takeWhile (· ≠ colon)
    slashes := (t.takeWhile (· = slash)).length
    authority := (t.dropWhile (· = slash)).takeWhile (· ≠ slash)
    path := (t.dropWhile (· = slash)).dropWhile (· ≠ slash)
    colon_not_mem := not_mem_takeWhile_ne colon url
    slashes_pos := hpos
    slashes_le := hle
    authority_ne := fun hnil => by rw [hnil, curl.host_nil] at hhost; cases hhost
    slash_not_mem := not_mem_takeWhile_ne slash _
    path_slash := dropWhile_ne_cases slash _ }, ?_⟩
  have hreplicate : List.replicate (t.takeWhile (· = slash)).length slash = t.takeWhile (· = slash) :=
    (List.eq_replicate_of_mem fun c hc => by simpa using List.mem_takeWhile_imp hc).symm
  rw [Parts.url, hreplicate, List.takeWhile_append_dropWhile, List.takeWhile_append_dropWhile, ← ht,
    List.takeWhile_append_dropWhile]

end Libcurl

/-! ## A libcurl for plain hosts -/

def isHostChar (c : UInt8) : Bool := isdigit c || (97 ≤ c && c ≤ 122) || c = 45 || c = 46

def plainHost (a : Bytes) : Option Bytes :=
  if a.takeWhile (· ≠ colon) ≠ [] ∧ (a.takeWhile (· ≠ colon)).all isHostChar ∧
      (a.dropWhile (· ≠ colon)).tail.all isdigit then
    some (a.takeWhile (· ≠ colon))
  else none

theorem plainHost_no_user {a h : Bytes} (hh : plainHost a = some h) : 64 ∉ a := by
  unfold plainHost at hh
  split_ifs at hh with hok
  rw [← List.takeWhile_append_dropWhile (p := fun c => decide (c ≠ colon)) (l := a), List.mem_append, not_or]
  refine ⟨fun hmem => absurd (List.all_eq_true.mp hok.2.1 64 hmem) (by decide), fun hmem => ?_⟩
  rcases dropWhile_ne_cases colon a with hd | ⟨t, hd⟩
  · rw [hd] at hmem
    cases hmem
  · rw [hd] at hmem hok
    rcases List.mem_cons.mp hmem with hc | hmem
    · exact absurd hc (by decide)
    · exact absurd (List.all_eq_true.mp hok.2.2 64 hmem) (by decide)

theorem plainHost_port {a : Bytes} (h : endsWithLetter a) : plainHost (a ++ str ":4000") = plainHost a := by
  have happ := List.takeWhile_append_dropWhile (p := fun c => decide (c ≠ colon)) (l := a)
  have hmem := not_mem_takeWhile_ne colon a
  unfold plainHost
  rcases dropWhile_ne_cases colon a with hd | ⟨t, hd⟩
  · rw [hd, List.append_nil] at happ
    rw [happ] at hmem ⊢
    have hport : str ":4000" = [] ∨ ∃ t, str ":4000" = colon :: t := Or.inr ⟨str "4000", by decide⟩
    rw [takeWhile_ne_append hmem hport, dropWhile_ne_append hmem hport, hd]
    congr 2
  · have hstop : a ++ str ":4000" = a.takeWhile (· ≠ colon) ++ (colon :: (t ++ str ":4000")) := by
      conv_lhs => rw [← happ, hd, List.append_assoc, List.cons_append]
    have hlast : ∃ c ∈ t, ¬ isdigit c := by
      rw [← happ, hd, endsWithLetter, List.getLast?_append_of_ne_nil _ (List.cons_ne_nil _ _)] at h
      cases t with
      | nil => exact absurd h (by decide)
      | cons d t =>
        rw [List.getLast?_cons_cons] at h
        obtain ⟨c, hc, hletter⟩ := (Option.any_eq_true _ _).mp h
        refine ⟨c, List.mem_of_getLast? hc, fun hdigit => ?_⟩
        rw [isdigit, Bool.and_eq_true, decide_eq_true_eq, decide_eq_true_eq] at hdigit
        have hlow : tolower c = c := by
          rw [tolower, if_neg]
          intro hupper
          rw [Bool.and_eq_true, decide_eq_true_eq] at hupper
          exact absurd (hupper.1.trans hdigit.2) (by decide)
        rw [hlow, Bool.and_eq_true, decide_eq_true_eq] at hletter
        exact absurd (hletter.1.trans hdigit.2) (by decide)
    have hfalse : ∀ s : Bytes, ¬ (t ++ s).all isdigit := by
      intro s hall
      obtain ⟨c, hc, hdigit⟩ := hlast
      exact hdigit (List.all_eq_true.mp hall c (List.mem_append_left s hc))
    rw [hstop, takeWhile_ne_append hmem (Or.inr ⟨_, rfl⟩), dropWhile_ne_append hmem (Or.inr ⟨_, rfl⟩), hd,
      List.tail_cons, List.tail_cons, if_neg fun hok => hfalse _ hok.2.2,
      if_neg fun hok => hfalse [] (by rw [List.append_nil]; exact hok.2.2)]

theorem endsWithLetter_lower (a : Bytes) : endsWithLetter (lower a) = endsWithLetter a := by
  unfold endsWithLetter lower
  rw [List.getLast?_map]
  cases a.getLast? <;> simp [tolower_tolower]

/-- A libcurl for hosts of letters, digits, dots and hyphens with an optional port. -/
def plainCurl : Libcurl where
  initialises := true
  knownScheme s := s = str "http" || s = str "https"
  host a := plainHost (lower a)
  strerror _ := str "Error"
  knows_http := by decide
  knows_https := by decide
  host_nil := by decide
  host_no_user hh hmem := plainHost_no_user hh (List.mem_map.mpr ⟨64, hmem, by decide⟩)
  host_lower a := by rw [lower_lower]
  host_port a ha := by
    rw [lower_append, show lower (str ":4000") = str ":4000" from by decide,
      plainHost_port (by rw [endsWithLetter_lower]; exact ha)]

namespace MQSSRestClient

def invalid : Exn := .invalid_argument (str
  "REST URL must be an absolute HTTP(S) URL without credentials, a query, or a fragment")

def port : Bytes := str ":4000"

def domains : List Bytes := [str ".quantum.lrz.de", str ".quantumpathway.eu"]

/-- `host.compare(host.size() - suffix.size(), suffix.size(), suffix) == 0` for a longer host. -/
def hasSuffix (host suffix : Bytes) : Bool :=
  host.length > suffix.length && substr host (host.length - suffix.length) (some suffix.length) = suffix

def dropPort (host : Bytes) : Bytes :=
  if hasSuffix host port then host.take (host.length - port.length) else host

def portalUrl (host : Bytes) : Bytes := str "https://" ++ host ++ port ++ str "/v1/"

def isPortalPath (path : Bytes) : Bool :=
  path.isEmpty || path = str "/" || path = str "/v1" || path = str "/v1/"

def withSlash (url : Bytes) : Bytes := if url.getLast? = some slash then url else url ++ [slash]

/-- `c <= 0x20 || c == 0x7f` -/
def isForbidden (c : UInt8) : Bool := c ≤ 0x20 || c = 0x7f

def isQueryOrFragment (c : UInt8) : Bool := c ∈ str "?#"

def normalizeUrl (curl : Libcurl) (url : Bytes) : Except Exn Bytes :=
  match find (str "://") url with
  | none => .error invalid
  | some separator =>
    if url.isEmpty || url.any isForbidden || separator + 3 = url.length || url[separator + 3]? = some slash ||
        url.any isQueryOrFragment then
      .error invalid
    else if !curl.initialises then .error (.runtime_error (str "Failed to initialize URL parser"))
    else
      match curl.url_set (c_str url) with
      | none => .error invalid
      | some parsed =>
        if parsed.scheme ≠ str "http" ∧ parsed.scheme ≠ str "https" then .error invalid
        else
          let pathStart := findFrom (str "/") url (separator + 3)
          let origin := lower (substr url 0 pathStart)
          let path := match pathStart with
            | none => []
            | some p => substr url p none
          if parsed.scheme = str "https" ∧ isPortalPath path then
            let host := dropPort (substr origin (separator + 3) none)
            if domains.any (hasSuffix host) then .ok (portalUrl host) else .ok (withSlash url)
          else .ok (withSlash url)

/-! ## The two cuts -/

/-- The text between the first `://` and the next slash. -/
def cutAuthority (url : Bytes) : Bytes :=
  match find (str "://") url with
  | none => []
  | some separator => (url.drop (separator + 3)).takeWhile (· ≠ slash)

/-- The text from the slash after the first `://` on. -/
def cutPath (url : Bytes) : Bytes :=
  match find (str "://") url with
  | none => []
  | some separator => (url.drop (separator + 3)).dropWhile (· ≠ slash)

/-- A URL that is turned away before libcurl sees it. -/
def isRefused (url : Bytes) : Bool :=
  (find (str "://") url).isNone || url.any isForbidden || url.any isQueryOrFragment ||
    (cutAuthority url).isEmpty

/-- The host that the second cut finds. -/
def cutHost (url : Bytes) : Bytes := dropPort (lower (cutAuthority url))

/-- An `https` URL for which this holds is rewritten. -/
def isRewritten (url : Bytes) : Bool := isPortalPath (cutPath url) && domains.any (hasSuffix (cutHost url))

theorem isEmpty_takeWhile_slash (s : Bytes) :
    (s.takeWhile (· ≠ slash)).isEmpty = (s.isEmpty || s.head? = some slash) := by
  cases s with
  | nil => rfl
  | cons c s => by_cases hc : c = slash <;> simp [hc]

section Cuts

variable (cut after : Bytes)

/-- The second cut of `normalizeUrl`, at the first slash of `after`. -/
theorem find_slash :
    findFrom (str "/") (cut ++ after) cut.length =
      if after.dropWhile (· ≠ slash) = [] then none
      else some (cut ++ after.takeWhile (· ≠ slash)).length := by
  have hstr : str "/" = [slash] := by decide
  rw [findFrom, List.drop_left, hstr]
  have happ := List.takeWhile_append_dropWhile (p := fun c => decide (c ≠ slash)) (l := after)
  rcases dropWhile_ne_cases slash after with hP | ⟨t, hP⟩
  · rw [if_pos hP]
    rw [hP, List.append_nil] at happ
    rw [find_singleton_of_not_mem (happ ▸ not_mem_takeWhile_ne slash after)]
    rfl
  · rw [if_neg (by rw [hP]; simp)]
    rw [hP] at happ
    conv_lhs => rw [← happ]
    rw [find_append (not_mem_takeWhile_ne slash after), show slash :: t = [slash] ++ t from rfl,
      find_prefix (by simp), List.length_append]
    simp [Nat.add_comm]

theorem cut_append :
    cut ++ after = cut ++ after.takeWhile (· ≠ slash) ++ after.dropWhile (· ≠ slash) := by
  rw [List.append_assoc, List.takeWhile_append_dropWhile]

theorem path_eq :
    (match findFrom (str "/") (cut ++ after) cut.length with
      | none => []
      | some p => substr (cut ++ after) p none) = after.dropWhile (· ≠ slash) := by
  rw [find_slash]
  split_ifs with hP
  · exact hP.symm
  · show (cut ++ after).drop (cut ++ after.takeWhile (· ≠ slash)).length = _
    rw [cut_append cut after, List.drop_left]

theorem authority_eq :
    substr (lower (substr (cut ++ after) 0 (findFrom (str "/") (cut ++ after) cut.length))) cut.length none =
      lower (after.takeWhile (· ≠ slash)) := by
  have hcut : substr (cut ++ after) 0 (findFrom (str "/") (cut ++ after) cut.length) =
      cut ++ after.takeWhile (· ≠ slash) := by
    rw [find_slash]
    split_ifs with hP
    · have happ := List.takeWhile_append_dropWhile (p := fun c => decide (c ≠ slash)) (l := after)
      rw [hP, List.append_nil] at happ
      rw [happ]
      rfl
    · show (cut ++ after).take (cut ++ after.takeWhile (· ≠ slash)).length = _
      rw [cut_append cut after, List.take_left]
  rw [hcut, lower_append, substr, show cut.length = (lower cut).length from (List.length_map ..).symm,
    List.drop_left]

end Cuts

/-- `normalizeUrl` in terms of the two cuts. -/
theorem normalizeUrl_eq (curl : Libcurl) (url : Bytes) :
    normalizeUrl curl url =
      if isRefused url then .error invalid
      else if !curl.initialises then .error (.runtime_error (str "Failed to initialize URL parser"))
      else match curl.url_set (c_str url) with
        | none => .error invalid
        | some parsed =>
          if parsed.scheme ≠ str "http" ∧ parsed.scheme ≠ str "https" then .error invalid
          else if parsed.scheme = str "https" ∧ isRewritten url then .ok (portalUrl (cutHost url))
          else .ok (withSlash url) := by
  unfold normalizeUrl isRefused isRewritten cutHost cutAuthority cutPath
  cases hf : find (str "://") url with
  | none => rfl
  | some separator =>
    obtain ⟨before, after, rfl, rfl⟩ := find_eq_some hf
    set cut := before ++ str "://" with hcut
    have hlen : before.length + 3 = cut.length := by simp [hcut, str]
    have hget : (cut ++ after)[cut.length]? = after.head? := by
      rw [← List.head?_drop, List.drop_left]
    have hend : decide (cut.length = (cut ++ after).length) = after.isEmpty := by
      cases after <;> simp
    have hempty : (cut ++ after).isEmpty = false := by
      cases before <;> rfl
    have hdrop : (cut ++ after).drop cut.length = after := List.drop_left
    simp only [hlen, hget, hend, hempty, hdrop, isEmpty_takeWhile_slash, path_eq, authority_eq,
      Option.isNone_some, Bool.false_or]
    have horder : ∀ a b c d : Bool, (a || b || c || d) = (a || d || (b || c)) := by decide
    rw [horder]
    congr 3
    funext parsed
    by_cases hs : parsed.scheme = str "https"
    · cases isPortalPath (after.dropWhile (· ≠ slash)) <;>
        cases domains.any (hasSuffix (dropPort (lower (after.takeWhile (· ≠ slash))))) <;> simp [hs]
    · simp [hs]

end MQSSRestClient

end MqssClient
