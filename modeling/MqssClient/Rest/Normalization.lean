import MqssClient.Rest.Url

/-!
# What URL normalisation does

The base URL is checked by libcurl and cut by `normalizeUrl` itself.

* `Accepted`, `normalizeUrl_parts`, `accepted_of_ok`: which URLs are accepted, and the base URL of one;
* `normalizeUrl_documented`: the documented rules;
* `contactsSameHost_iff`: when the base URL names the host that libcurl finds in the supplied one.
-/

namespace MqssClient

open Foundations Libcurl

namespace MQSSRestClient

/-! ## Suffixes -/

theorem hasSuffix_iff {host suffix : Bytes} :
    hasSuffix host suffix ↔ ∃ label, label ≠ [] ∧ host = label ++ suffix := by
  rw [hasSuffix, substr_some, Bool.and_eq_true, decide_eq_true_eq, decide_eq_true_eq]
  constructor
  · rintro ⟨hlen, heq⟩
    rw [List.take_of_length_le (by rw [List.length_drop]; omega)] at heq
    refine ⟨host.take (host.length - suffix.length), ?_, ?_⟩
    · rw [← List.length_pos_iff, List.length_take]
      omega
    · conv_lhs => rw [← List.take_append_drop (host.length - suffix.length) host, heq]
  · rintro ⟨label, hne, rfl⟩
    have hpos := List.length_pos_iff.mpr hne
    rw [List.length_append, Nat.add_sub_cancel, List.drop_left, List.take_length]
    exact ⟨by omega, rfl⟩

/-- A host in one of the portal domains, with a label of its own in front. -/
def IsPortalHost (host : Bytes) : Prop :=
  ∃ label domain, label ≠ [] ∧ domain ∈ domains ∧ host = label ++ domain

theorem any_hasSuffix_iff {host : Bytes} : domains.any (hasSuffix host) ↔ IsPortalHost host := by
  rw [List.any_eq_true]
  constructor
  · rintro ⟨domain, hmem, h⟩
    obtain ⟨label, hne, heq⟩ := hasSuffix_iff.mp h
    exact ⟨label, domain, hne, hmem, heq⟩
  · rintro ⟨label, domain, hne, hmem, heq⟩
    exact ⟨domain, hmem, hasSuffix_iff.mpr ⟨label, hne, heq⟩⟩

/-- `host` is `s` without the port 4000, if `s` has it. -/
def DropsPort (s host : Bytes) : Prop := s = host ++ port ∨ (¬ port <:+ s ∧ s = host)

theorem dropPort_append {host : Bytes} (h : host ≠ []) : dropPort (host ++ port) = host := by
  rw [dropPort, if_pos (hasSuffix_iff.mpr ⟨host, h, rfl⟩), List.length_append, Nat.add_sub_cancel, List.take_left]

theorem dropPort_of_not_suffix {s : Bytes} (h : ¬ port <:+ s) : dropPort s = s := by
  rw [dropPort, if_neg]
  intro hs
  obtain ⟨label, -, rfl⟩ := hasSuffix_iff.mp hs
  exact h (List.suffix_append label port)

/-- On anything but the bare port, `dropPort` drops an optional port. -/
theorem dropPort_cases (s : Bytes) : s = port ∧ dropPort s = port ∨ DropsPort s (dropPort s) := by
  by_cases h : port <:+ s
  · obtain ⟨host, rfl⟩ := h
    rcases eq_or_ne host [] with rfl | hne
    · exact Or.inl ⟨rfl, by decide⟩
    · exact Or.inr (Or.inl (by rw [dropPort_append hne]))
  · exact Or.inr (Or.inr ⟨h, (dropPort_of_not_suffix h).symm⟩)

theorem DropsPort.unique {s host host' : Bytes} (h : DropsPort s host) (h' : DropsPort s host') : host = host' := by
  rcases h with h | ⟨hn, h⟩ <;> rcases h' with h' | ⟨hn', h'⟩
  · exact List.append_cancel_right (h.symm.trans h')
  · exact absurd (h ▸ List.suffix_append host port) hn'
  · exact absurd (h' ▸ List.suffix_append host' port) hn
  · exact h.symm.trans h'

theorem isPortalHost_dropPort {s host : Bytes} (h : DropsPort s host) :
    IsPortalHost (dropPort s) ∧ dropPort s = host ∨ ¬ IsPortalHost (dropPort s) ∧ ¬ IsPortalHost host := by
  rcases dropPort_cases s with ⟨hs, hd⟩ | hd
  · have hnil : host = [] := by
      rcases h with h | ⟨hn, -⟩
      · have hport : host ++ port = [] ++ port := h.symm.trans hs
        exact List.append_cancel_right hport
      · exact absurd (hs ▸ List.suffix_rfl) hn
    rw [hd, hnil, ← any_hasSuffix_iff, ← any_hasSuffix_iff]
    exact Or.inr (by decide)
  · rw [hd.unique h]
    by_cases hp : IsPortalHost host
    · exact Or.inl ⟨hp, rfl⟩
    · exact Or.inr ⟨hp, hp⟩

/-! ## Accepted URLs -/

variable {curl : Libcurl} {url base : Bytes}

theorem c_str_of_not_refused (h : isRefused url = false) : c_str url = url := by
  refine c_str_eq_self fun c hc h0 => ?_
  simp only [isRefused, Bool.or_eq_false_iff] at h
  have hforbidden := List.any_eq_false.mp h.1.1.2 c hc
  rw [h0] at hforbidden
  exact hforbidden (by decide)

/-- What is known of a URL that `normalizeUrl` accepts, and of the base URL it returns. -/
theorem normalizeUrl_eq_ok (h : normalizeUrl curl url = .ok base) :
    isRefused url = false ∧ ∃ parsed, curl.url_set url = some parsed ∧
      (parsed.scheme = str "http" ∨ parsed.scheme = str "https") ∧
      base = if parsed.scheme = str "https" ∧ isRewritten url then portalUrl (cutHost url) else withSlash url := by
  rw [normalizeUrl_eq] at h
  split_ifs at h with hr hi
  rw [Bool.not_eq_true] at hr
  rw [c_str_of_not_refused hr] at h
  cases hp : curl.url_set url with
  | none => rw [hp] at h; cases h
  | some parsed =>
    rw [hp] at h
    dsimp only at h
    refine ⟨hr, parsed, rfl, ?_, ?_⟩
    · by_contra hn
      rw [if_pos (not_or.mp hn)] at h
      cases h
    · split_ifs at h ⊢ <;> cases h <;> rfl

/-- A byte that no accepted URL has. -/
def IsRejectedByte (c : UInt8) : Prop := c ≤ 0x20 ∨ c = 0x7f ∨ c = 63 ∨ c = 35

theorem IsRejectedByte.not_lower {c : UInt8} (h : IsRejectedByte c) : c < 97 ∨ 122 < c := by
  rcases h with h | rfl | rfl | rfl
  · exact Or.inl (h.trans_lt (by decide))
  · exact Or.inr (by decide)
  · exact Or.inl (by decide)
  · exact Or.inl (by decide)

/-- A URL has such a byte, no `://`, or nothing or a slash right after the first `://`. -/
def IsMalformed (url : Bytes) : Prop :=
  (∃ c ∈ url, IsRejectedByte c) ∨ find (str "://") url = none ∨
    ∃ i, find (str "://") url = some i ∧ (url.drop (i + 3) = [] ∨ (url.drop (i + 3)).head? = some slash)

theorem isRejectedByte_iff (c : UInt8) : (isForbidden c || isQueryOrFragment c) ↔ IsRejectedByte c := by
  have hstr : str "?#" = [63, 35] := by decide
  simp [isForbidden, isQueryOrFragment, IsRejectedByte, hstr, or_assoc]

theorem isRefused_iff : isRefused url ↔ IsMalformed url := by
  have hbytes : (url.any isForbidden || url.any isQueryOrFragment) ↔ ∃ c ∈ url, IsRejectedByte c := by
    rw [Bool.or_eq_true, List.any_eq_true, List.any_eq_true, ← exists_or]
    refine exists_congr fun c => ?_
    rw [← and_or_left, ← Bool.or_eq_true, isRejectedByte_iff]
  unfold isRefused IsMalformed cutAuthority
  cases hf : find (str "://") url with
  | none => simp
  | some i =>
    dsimp only
    rw [isEmpty_takeWhile_slash]
    simp only [Option.isNone_some, Bool.false_or, Bool.or_eq_true, hbytes, decide_eq_true_eq,
      List.isEmpty_iff, reduceCtorEq, false_or, Option.some.injEq, exists_eq_left']

/-! ## The cuts of a URL -/

/-- Where a `://` follows a scheme without a colon, the cuts are made behind it. -/
theorem cuts_of_scheme {scheme : Bytes} (h : colon ∉ scheme) (rest : Bytes) :
    find (str "://") (scheme ++ (str "://" ++ rest)) = some scheme.length ∧
      cutAuthority (scheme ++ (str "://" ++ rest)) = rest.takeWhile (· ≠ slash) ∧
      cutPath (scheme ++ (str "://" ++ rest)) = rest.dropWhile (· ≠ slash) := by
  have hfind : find (str "://") (scheme ++ (str "://" ++ rest)) = some scheme.length := by
    rw [show str "://" = colon :: [slash, slash] from by decide, find_append h, find_prefix (by simp)]
    simp
  have hdrop : (scheme ++ (str "://" ++ rest)).drop (scheme.length + 3) = rest := by
    rw [← List.append_assoc, show scheme.length + 3 = (scheme ++ str "://").length by simp [str], List.drop_left]
  unfold cutAuthority cutPath
  rw [hfind]
  dsimp only
  rw [hdrop]
  exact ⟨rfl, rfl, rfl⟩

theorem url_of_slashes (p : Parts) (h : p.slashes = 2) : p.url = p.scheme ++ (str "://" ++ (p.authority ++ p.path)) := by
  rw [Parts.url, h]
  rfl

/-- Where one `://` follows the scheme, the cuts of `normalizeUrl` are those of libcurl. -/
theorem cuts_of_parts (p : Parts) (h : p.slashes = 2) :
    cutAuthority p.url = p.authority ∧ cutPath p.url = p.path := by
  obtain ⟨-, hauth, hpath⟩ := cuts_of_scheme p.colon_not_mem (p.authority ++ p.path)
  rw [url_of_slashes p h, hauth, hpath]
  exact ⟨takeWhile_ne_append p.slash_not_mem p.path_slash, dropWhile_ne_append p.slash_not_mem p.path_slash⟩

theorem isPortalPath_iff (path : Bytes) :
    isPortalPath path ↔ path ∈ [[], str "/", str "/v1", str "/v1/"] := by
  simp [isPortalPath, or_assoc]

/-! ## What an accepted URL becomes -/

/-- What `normalizeUrl` and libcurl ask of a URL with these parts. -/
structure Accepted (curl : Libcurl) (p : Parts) : Prop where
  slashes : p.slashes = 2
  bytes : ∀ c ∈ p.url, ¬ IsRejectedByte c
  initialises : curl.initialises
  scheme : lower p.scheme = str "http" ∨ lower p.scheme = str "https"
  host : (curl.host p.authority).isSome

/-- The base URL of an accepted URL. -/
def baseUrl (p : Parts) : Bytes :=
  if lower p.scheme = str "https" ∧ isRewritten p.url then portalUrl (cutHost p.url) else withSlash p.url

theorem not_isRefused_of_parts {p : Parts} (h2 : p.slashes = 2) (hbytes : ∀ c ∈ p.url, ¬ IsRejectedByte c) :
    isRefused p.url = false := by
  rw [← Bool.not_eq_true, isRefused_iff]
  obtain ⟨hfind, -, -⟩ := cuts_of_scheme p.colon_not_mem (p.authority ++ p.path)
  rw [← url_of_slashes p h2] at hfind
  rintro (⟨c, hc, hrejected⟩ | hnone | ⟨i, hi, hcut⟩)
  · exact hbytes c hc hrejected
  · rw [hfind] at hnone
    cases hnone
  · have hauth := (cuts_of_parts p h2).1
    rw [cutAuthority, hi] at hauth
    refine p.authority_ne (hauth.symm.trans (List.isEmpty_iff.mp ?_))
    rw [isEmpty_takeWhile_slash]
    rcases hcut with h | h <;> simp [h]

theorem normalizeUrl_parts {p : Parts} (h : Accepted curl p) : normalizeUrl curl p.url = .ok (baseUrl p) := by
  have hrefused := not_isRefused_of_parts h.slashes h.bytes
  obtain ⟨host, hhost⟩ := Option.isSome_iff_exists.mp h.host
  have hknown : curl.knownScheme (lower p.scheme) := by
    rcases h.scheme with hs | hs <;> rw [hs]
    · exact curl.knows_http
    · exact curl.knows_https
  rw [normalizeUrl_eq, hrefused, if_neg (by decide), h.initialises, if_neg (by decide), c_str_of_not_refused hrefused,
    url_set_parts, if_pos hknown, hhost]
  dsimp only [Option.map_some]
  rw [if_neg fun hn => h.scheme.elim hn.1 hn.2, baseUrl]
  split_ifs <;> rfl

/-- No other URL with a `://` after its scheme is accepted. -/
theorem accepted_of_ok {p : Parts} (h2 : p.slashes = 2) (h : normalizeUrl curl p.url = .ok base) : Accepted curl p := by
  obtain ⟨hrefused, parsed, hset, hscheme, -⟩ := normalizeUrl_eq_ok h
  rw [url_set_parts] at hset
  split_ifs at hset
  obtain ⟨host, hhost, rfl⟩ := Option.map_eq_some_iff.mp hset
  refine ⟨h2, fun c hc hrejected => ?_, ?_, hscheme, Option.isSome_of_eq_some hhost⟩
  · rw [isRefused_iff.mpr (Or.inl ⟨c, hc, hrejected⟩)] at hrefused
    cases hrefused
  · rw [normalizeUrl_eq] at h
    split_ifs at h with _ hi
    simpa using hi

/-! ## The documented rules -/

/-- An `https` URL with one of the four paths of a portal, whose host is a portal's. -/
def IsPortal (p : Parts) (host : Bytes) : Prop :=
  lower p.scheme = str "https" ∧ p.path ∈ [[], str "/", str "/v1", str "/v1/"] ∧ IsPortalHost host

/-- The parts of a portal are those of a URL that is rewritten. -/
theorem isPortal_iff {p : Parts} (h2 : p.slashes = 2) {host : Bytes} (hhost : DropsPort (lower p.authority) host) :
    IsPortal p host ↔ lower p.scheme = str "https" ∧ isRewritten p.url := by
  obtain ⟨hauth, hpath⟩ := cuts_of_parts p h2
  have hrewritten : isRewritten p.url ↔ p.path ∈ [[], str "/", str "/v1", str "/v1/"] ∧
      IsPortalHost (dropPort (lower p.authority)) := by
    rw [isRewritten, Bool.and_eq_true, any_hasSuffix_iff, hpath, isPortalPath_iff, cutHost, hauth]
  rw [IsPortal, hrewritten]
  rcases isPortalHost_dropPort hhost with ⟨-, hdrop⟩ | ⟨hn, hn'⟩
  · rw [hdrop]
  · exact iff_of_false (fun h => hn' h.2.2) fun h => hn h.2.2

theorem baseUrl_of_portal {p : Parts} (h2 : p.slashes = 2) {host : Bytes} (hhost : DropsPort (lower p.authority) host)
    (h : IsPortal p host) : baseUrl p = str "https://" ++ host ++ str ":4000/v1/" := by
  have hdrop : cutHost p.url = host := by
    rw [cutHost, (cuts_of_parts p h2).1]
    exact (isPortalHost_dropPort hhost).elim And.right fun hn => absurd h.2.2 hn.2
  rw [baseUrl, if_pos ((isPortal_iff h2 hhost).mp h), portalUrl, hdrop, List.append_assoc]
  rfl

/-- The documented rules: an `https` URL of a portal host, with or without the port 4000 and with one of four
paths, becomes the portal's API URL; any other accepted URL is kept, up to a slash at its end; a malformed one is
rejected. -/
theorem normalizeUrl_documented (curl : Libcurl) :
    (∀ (p : Parts) (host : Bytes), Accepted curl p → DropsPort (lower p.authority) host →
      (IsPortal p host → normalizeUrl curl p.url = .ok (str "https://" ++ host ++ str ":4000/v1/")) ∧
      (¬ IsPortal p host →
        normalizeUrl curl p.url = .ok (if p.url.getLast? = some slash then p.url else p.url ++ [slash]))) ∧
    ∀ url, IsMalformed url → normalizeUrl curl url = .error invalid := by
  refine ⟨fun p host hp hhost => ?_, fun url hbad => ?_⟩
  · rw [normalizeUrl_parts hp]
    refine ⟨fun h => ?_, fun h => ?_⟩
    · rw [baseUrl_of_portal hp.slashes hhost h]
    · rw [baseUrl, if_neg (mt (isPortal_iff hp.slashes hhost).mpr h)]
      rfl
  · rw [normalizeUrl_eq, if_pos (isRefused_iff.mpr hbad)]

/-- A portal with its port, a host that only ends in the letters of one, and a URL with a query. -/
theorem normalizeUrl_documented_plainCurl :
    normalizeUrl plainCurl (str "HTTPS://Portal.Quantum.LRZ.de:4000/v1") =
        .ok (str "https://portal.quantum.lrz.de:4000/v1/") ∧
      normalizeUrl plainCurl (str "https://evilquantum.lrz.de") = .ok (str "https://evilquantum.lrz.de/") ∧
      normalizeUrl plainCurl (str "https://a.quantum.lrz.de/?x") = .error invalid := by
  refine ⟨?_, ?_, ?_⟩
  · have h := (normalizeUrl_documented plainCurl).1
      { scheme := str "HTTPS"
        slashes := 2
        authority := str "Portal.Quantum.LRZ.de:4000"
        path := str "/v1"
        colon_not_mem := by decide
        slashes_pos := by decide
        slashes_le := by decide
        authority_ne := by decide
        slash_not_mem := by decide
        path_slash := Or.inr ⟨str "v1", by decide⟩ }
      (str "portal.quantum.lrz.de") ⟨rfl, by simp only [← isRejectedByte_iff]; decide, rfl, by decide, by decide⟩
      (Or.inl (by decide))
    exact h.1 ⟨by decide, by decide, any_hasSuffix_iff.mp (by decide)⟩
  · have h := (normalizeUrl_documented plainCurl).1
      { scheme := str "https"
        slashes := 2
        authority := str "evilquantum.lrz.de"
        path := []
        colon_not_mem := by decide
        slashes_pos := by decide
        slashes_le := by decide
        authority_ne := by decide
        slash_not_mem := by decide
        path_slash := Or.inl rfl }
      (str "evilquantum.lrz.de") ⟨rfl, by simp only [← isRejectedByte_iff]; decide, rfl, by decide, by decide⟩
      (Or.inr ⟨by decide, by decide⟩)
    exact h.2 fun hp => absurd (any_hasSuffix_iff.mpr hp.2.2) (by decide)
  · exact (normalizeUrl_documented plainCurl).2 _ (isRefused_iff.mp (by decide))

/-! ## The host contacted -/

/-- The base URL names the host of the supplied URL, and carries no credentials, query or fragment. -/
def ContactsSameHost (curl : Libcurl) (url base : Bytes) : Prop :=
  (∃ supplied contacted, curl.url_set url = some supplied ∧ curl.url_set base = some contacted ∧
    lower contacted.host = lower supplied.host ∧ 64 ∉ contacted.authority) ∧
  (∀ c ∈ base, c ≠ 63 ∧ c ≠ 35) ∧ base.getLast? = some slash

/-- If the URL is rewritten, the authority after the first `://` names the host that libcurl finds. -/
def KeepsHost (curl : Libcurl) (url : Bytes) : Prop :=
  ∀ supplied, curl.url_set url = some supplied → supplied.scheme = str "https" → isRewritten url →
    (curl.host (cutAuthority url)).map lower = some (lower supplied.host)

theorem host_of_url_set {parsed : CurlUrl} (h : curl.url_set url = some parsed) :
    curl.host parsed.authority = some parsed.host := by
  unfold url_set at h
  dsimp only at h
  split_ifs at h
  obtain ⟨host, hhost, rfl⟩ := Option.map_eq_some_iff.mp h
  exact hhost

/-- The parts of a URL with a slash added at its end. -/
def addSlash (p : Parts) : Parts :=
  { p with
    path := p.path ++ [slash]
    path_slash := by
      rcases p.path_slash with hp | ⟨t, hp⟩
      · exact Or.inr ⟨[], by rw [hp]; rfl⟩
      · exact Or.inr ⟨t ++ [slash], by rw [hp]; rfl⟩ }

theorem url_addSlash (p : Parts) : (addSlash p).url = p.url ++ [slash] := by simp [addSlash, Parts.url]

theorem url_set_withSlash {parsed : CurlUrl} (h : curl.url_set url = some parsed) :
    curl.url_set (withSlash url) = some parsed := by
  unfold withSlash
  split_ifs
  · exact h
  · obtain ⟨p, rfl⟩ := exists_parts curl h
    rw [← url_addSlash, url_set_parts]
    rwa [url_set_parts] at h

theorem getLast?_withSlash : (withSlash url).getLast? = some slash := by
  unfold withSlash
  split_ifs with h
  · exact h
  · simp

theorem endsWithLetter_of_isPortalHost {host : Bytes} (h : IsPortalHost host) : endsWithLetter host := by
  obtain ⟨label, domain, -, hmem, rfl⟩ := h
  unfold endsWithLetter
  have hdomain : domain ≠ [] ∧ endsWithLetter domain := by
    revert domain
    decide
  rw [List.getLast?_append_of_ne_nil _ hdomain.1]
  exact hdomain.2

/-- What libcurl finds in the host of a rewritten URL. -/
theorem host_portal (h : IsPortalHost (cutHost url)) :
    (curl.host (cutHost url ++ port)).map lower = (curl.host (cutAuthority url)).map lower := by
  have hport : curl.host (cutHost url ++ port) = curl.host (cutHost url) :=
    curl.host_port _ (endsWithLetter_of_isPortalHost h)
  rw [hport, ← curl.host_lower (cutAuthority url)]
  rcases dropPort_cases (lower (cutAuthority url)) with ⟨-, hd⟩ | hd | ⟨-, hd⟩
  · rw [cutHost, hd] at h
    exact absurd (any_hasSuffix_iff.mpr h) (by decide)
  · rw [show lower (cutAuthority url) = cutHost url ++ port from hd, hport]
  · rw [show lower (cutAuthority url) = cutHost url from hd]

theorem mem_of_mem_cutHost {c : UInt8} (h : c ∈ cutHost url) : ∃ d ∈ cutAuthority url, tolower d = c := by
  have hsub : c ∈ lower (cutAuthority url) := by
    unfold cutHost dropPort at h
    split_ifs at h
    · exact List.mem_of_mem_take h
    · exact h
  exact List.mem_map.mp hsub

theorem slash_not_mem_cutHost : slash ∉ cutHost url := by
  intro h
  obtain ⟨d, hd, hc⟩ := mem_of_mem_cutHost h
  rw [tolower_eq hc (Or.inl (by decide))] at hd
  unfold cutAuthority at hd
  split at hd
  · cases hd
  · exact not_mem_takeWhile_ne slash _ hd

theorem mem_of_mem_cutAuthority {c : UInt8} (h : c ∈ cutAuthority url) : c ∈ url := by
  unfold cutAuthority at h
  split at h
  · cases h
  · exact List.mem_of_mem_drop (List.takeWhile_subset _ h)

/-- A rejected byte is in neither form of the base URL. -/
theorem rejected_not_mem_base (h : isRefused url = false)
    (hb : base = portalUrl (cutHost url) ∨ base = withSlash url) {d : UInt8} (hd : IsRejectedByte d) : d ∉ base := by
  have hurl : d ∉ url := by
    intro hmem
    have hrefused := isRefused_iff.mpr (Or.inl ⟨d, hmem, hd⟩)
    rw [h] at hrefused
    cases hrefused
  have hhost : d ∉ cutHost url := by
    intro hmem
    obtain ⟨e, he, hed⟩ := mem_of_mem_cutHost hmem
    rw [tolower_eq hed hd.not_lower] at he
    exact hurl (mem_of_mem_cutAuthority he)
  have hconst : ∀ c ∈ str "https://:4000/v1/", ¬ (isForbidden c || isQueryOrFragment c) := by decide
  have hliteral : d ∉ str "https://:4000/v1/" := fun hmem => hconst d hmem ((isRejectedByte_iff d).mpr hd)
  intro hmem
  rcases hb with rfl | rfl
  · rw [portalUrl, List.mem_append, List.mem_append, List.mem_append] at hmem
    rcases hmem with ((hmem | hmem) | hmem) | hmem
    · exact hliteral (List.mem_append_left (str ":4000/v1/") hmem)
    · exact hhost hmem
    · exact hliteral (List.mem_append_right (str "https://") (List.mem_append_left (str "/v1/") hmem))
    · exact hliteral (List.mem_append_right (str "https://:4000") hmem)
  · unfold withSlash at hmem
    split_ifs at hmem
    · exact hurl hmem
    · rcases List.mem_append.mp hmem with hmem | hmem
      · exact hurl hmem
      · exact hliteral (by rw [List.mem_singleton.mp hmem]; decide)

/-- Neither form of the base URL has a query or a fragment. -/
theorem no_query_of_base (h : isRefused url = false) (hb : base = portalUrl (cutHost url) ∨ base = withSlash url) :
    ∀ c ∈ base, c ≠ 63 ∧ c ≠ 35 := by
  have h63 : 63 ∉ base := rejected_not_mem_base h hb (Or.inr (Or.inr (Or.inl rfl)))
  have h35 : 35 ∉ base := rejected_not_mem_base h hb (Or.inr (Or.inr (Or.inr rfl)))
  intro c hc
  exact ⟨fun heq => h63 (heq ▸ hc), fun heq => h35 (heq ▸ hc)⟩

/-- The parts of the URL of a portal. -/
def portalParts (host : Bytes) (h : slash ∉ host) : Parts where
  scheme := str "https"
  slashes := 2
  authority := host ++ port
  path := str "/v1/"
  colon_not_mem := by decide
  slashes_pos := by decide
  slashes_le := by decide
  authority_ne := by simp [port, str]
  slash_not_mem := by
    rw [List.mem_append, not_or]
    exact ⟨h, by decide⟩
  path_slash := Or.inr ⟨str "v1/", by decide⟩

theorem url_portalParts {host : Bytes} (h : slash ∉ host) : (portalParts host h).url = portalUrl host := by
  simp [portalParts, portalUrl, Parts.url, str]

theorem url_set_portalUrl :
    curl.url_set (portalUrl (cutHost url)) =
      (curl.host (cutHost url ++ port)).map fun host => ⟨str "https", cutHost url ++ port, host⟩ := by
  have hlower : lower (portalParts (cutHost url) slash_not_mem_cutHost).scheme = str "https" := by
    show lower (str "https") = str "https"
    decide
  rw [← url_portalParts slash_not_mem_cutHost, url_set_parts, hlower, if_pos curl.knows_https]
  rfl

/-- The URL of the portal names the host of the URL when libcurl finds this host before the port. -/
theorem contactsSameHost_portalUrl_iff (hrefused : isRefused url = false) {supplied : CurlUrl}
    (hset : curl.url_set url = some supplied) : ContactsSameHost curl url (portalUrl (cutHost url)) ↔
      (curl.host (cutHost url ++ port)).map lower = some (lower supplied.host) := by
  have hslash : (portalUrl (cutHost url)).getLast? = some slash := by
    rw [portalUrl, List.getLast?_append_of_ne_nil _ (by decide)]
    decide
  constructor
  · rintro ⟨⟨s, contacted, hs, hc, heq, -⟩, -⟩
    rw [url_set_portalUrl] at hc
    obtain ⟨host, hhost, rfl⟩ := Option.map_eq_some_iff.mp hc
    rw [hset] at hs
    cases hs
    rw [hhost, Option.map_some, heq]
  · intro hk
    obtain ⟨host, hhost, heq⟩ := Option.map_eq_some_iff.mp hk
    refine ⟨⟨supplied, ⟨str "https", cutHost url ++ port, host⟩, hset, ?_, heq, curl.host_no_user hhost⟩,
      no_query_of_base hrefused (Or.inl rfl), hslash⟩
    rw [url_set_portalUrl, hhost]
    rfl

theorem contactsSameHost_withSlash (hrefused : isRefused url = false) {supplied : CurlUrl}
    (hset : curl.url_set url = some supplied) : ContactsSameHost curl url (withSlash url) := by
  refine ⟨⟨supplied, supplied, hset, url_set_withSlash hset, rfl, ?_⟩, no_query_of_base hrefused (Or.inr rfl), ?_⟩
  · exact curl.host_no_user (host_of_url_set hset)
  · exact getLast?_withSlash

/-- The base URL of an accepted URL names the same host exactly when the URL keeps its host. -/
theorem contactsSameHost_iff (h : normalizeUrl curl url = .ok base) :
    ContactsSameHost curl url base ↔ KeepsHost curl url := by
  obtain ⟨hrefused, supplied, hset, -, rfl⟩ := normalizeUrl_eq_ok h
  have hkeeps : KeepsHost curl url ↔ (supplied.scheme = str "https" → isRewritten url →
      (curl.host (cutAuthority url)).map lower = some (lower supplied.host)) := by
    unfold KeepsHost
    rw [hset]
    simp
  by_cases hr : supplied.scheme = str "https" ∧ isRewritten url
  · have hp : IsPortalHost (cutHost url) := any_hasSuffix_iff.mp (Bool.and_eq_true _ _ ▸ hr.2).2
    rw [if_pos hr, contactsSameHost_portalUrl_iff hrefused hset, hkeeps, host_portal hp]
    exact ⟨fun hk _ _ => hk, fun hk => hk hr.1 hr.2⟩
  · rw [if_neg hr]
    exact iff_of_true (contactsSameHost_withSlash hrefused hset) (hkeeps.mpr fun hs hrw => absurd ⟨hs, hrw⟩ hr)

theorem contactsSameHost_plainCurl :
    ContactsSameHost plainCurl (str "https://host.example:8080/x") (str "https://host.example:8080/x/") ↔
      KeepsHost plainCurl (str "https://host.example:8080/x") :=
  contactsSameHost_iff (by decide)

/-- libcurl takes one slash after the scheme, the second cut looks for `://`: the two find different hosts. -/
theorem not_contactsSameHost :
    ∃ base, normalizeUrl plainCurl (str "https:/evil.example/x://a.quantum.lrz.de") = .ok base ∧
      ¬ ContactsSameHost plainCurl (str "https:/evil.example/x://a.quantum.lrz.de") base := by
  refine ⟨str "https://a.quantum.lrz.de:4000/v1/", by decide, ?_⟩
  rintro ⟨⟨supplied, contacted, hs, hc, heq, -⟩, -⟩
  have hs' : plainCurl.url_set (str "https:/evil.example/x://a.quantum.lrz.de") =
      some ⟨str "https", str "evil.example", str "evil.example"⟩ := by decide
  have hc' : plainCurl.url_set (str "https://a.quantum.lrz.de:4000/v1/") =
      some ⟨str "https", str "a.quantum.lrz.de:4000", str "a.quantum.lrz.de"⟩ := by decide
  rw [hs] at hs'
  rw [hc] at hc'
  cases hs'
  cases hc'
  exact absurd heq (by decide)

/-- A URL whose `://` directly follows the scheme keeps its host. -/
theorem keepsHost_of_parts (p : Parts) (h : p.slashes = 2) : KeepsHost curl p.url := by
  intro supplied hset _ _
  rw [(cuts_of_parts p h).1]
  rw [url_set_parts] at hset
  split_ifs at hset
  obtain ⟨host, hhost, rfl⟩ := Option.map_eq_some_iff.mp hset
  rw [hhost]
  rfl

end MQSSRestClient

end MqssClient
