import MqssClient.Rest.Normalization

/-!
# Normalising a URL twice

* `FollowsScheme`: the first `://` of a URL directly follows its scheme; `exists_parts_of_followsScheme`: if it is not
  refused, the cuts of `normalizeUrl` are then those of libcurl;
* `accepted_portalParts`, `accepted_addSlash`: the two forms of a base URL are accepted;
* `isRewritten_portalParts`, `isRewritten_addSlash`: each stays in its class;
* `normalizeUrl_idempotent`: the base URL of a base URL is itself.
-/

namespace MqssClient

open Foundations Libcurl

namespace MQSSRestClient

variable {curl : Libcurl} {url base : Bytes}

/-- The first `://` directly follows the scheme. -/
def FollowsScheme (url : Bytes) : Prop := ∃ scheme rest, colon ∉ scheme ∧ url = scheme ++ (str "://" ++ rest)

theorem exists_parts_of_followsScheme (h : FollowsScheme url) (hrefused : isRefused url = false) :
    ∃ p : Parts, p.slashes = 2 ∧ url = p.url := by
  obtain ⟨scheme, rest, hcolon, rfl⟩ := h
  obtain ⟨-, hauth, -⟩ := cuts_of_scheme hcolon rest
  have hne : rest.takeWhile (· ≠ slash) ≠ [] := by
    intro hnil
    rw [isRefused, hauth, hnil] at hrefused
    simp at hrefused
  refine ⟨{
    scheme
    slashes := 2
    authority := rest.takeWhile (· ≠ slash)
    path := rest.dropWhile (· ≠ slash)
    colon_not_mem := hcolon
    slashes_pos := by decide
    slashes_le := by decide
    authority_ne := hne
    slash_not_mem := not_mem_takeWhile_ne slash rest
    path_slash := dropWhile_ne_cases slash rest }, rfl, ?_⟩
  rw [url_of_slashes _ rfl, List.takeWhile_append_dropWhile]

/-! ## The URL of a portal -/

theorem lower_cutHost : lower (cutHost url) = cutHost url := by
  unfold cutHost dropPort
  split_ifs
  · rw [lower, List.map_take]
    exact congrArg _ (lower_lower _)
  · exact lower_lower _

theorem cutHost_portalParts (hne : cutHost url ≠ []) :
    cutHost (portalParts (cutHost url) slash_not_mem_cutHost).url = cutHost url := by
  have hport : lower port = port := by decide
  rw [cutHost, (cuts_of_parts _ rfl).1]
  show dropPort (lower (cutHost url ++ port)) = _
  rw [lower_append, lower_cutHost, hport, dropPort_append hne]

theorem ne_nil_of_isPortalHost {host : Bytes} (h : IsPortalHost host) : host ≠ [] := by
  obtain ⟨label, domain, hne, -, rfl⟩ := h
  exact List.append_ne_nil_of_left_ne_nil hne _

theorem isRewritten_portalParts (h : IsPortalHost (cutHost url)) :
    isRewritten (portalParts (cutHost url) slash_not_mem_cutHost).url := by
  rw [isRewritten, Bool.and_eq_true, any_hasSuffix_iff, cutHost_portalParts (ne_nil_of_isPortalHost h),
    (cuts_of_parts _ rfl).2]
  exact ⟨(isPortalPath_iff _).mpr (by simp [portalParts]), h⟩

theorem accepted_portalParts {p : Parts} (h : Accepted curl p) (hp : IsPortalHost (cutHost p.url)) :
    Accepted curl (portalParts (cutHost p.url) slash_not_mem_cutHost) where
  slashes := rfl
  bytes := by
    intro c hc hrejected
    rw [url_portalParts] at hc
    exact rejected_not_mem_base (not_isRefused_of_parts h.slashes h.bytes) (Or.inl rfl) hrejected hc
  initialises := h.initialises
  scheme := Or.inr (show lower (str "https") = str "https" by decide)
  host := by
    have hhost : (curl.host (cutHost p.url ++ port)).map lower = _ := host_portal hp
    rw [(cuts_of_parts p h.slashes).1] at hhost
    show (curl.host (cutHost p.url ++ port)).isSome
    rw [← Option.isSome_map (f := lower), hhost, Option.isSome_map]
    exact h.host

/-- The URL of a portal is left as it is. -/
theorem baseUrl_portalParts {p : Parts} (hp : IsPortalHost (cutHost p.url)) :
    baseUrl (portalParts (cutHost p.url) slash_not_mem_cutHost) = portalUrl (cutHost p.url) := by
  rw [baseUrl, if_pos ⟨by show lower (str "https") = _; decide, isRewritten_portalParts hp⟩,
    cutHost_portalParts (ne_nil_of_isPortalHost hp)]

/-! ## A URL with a slash added -/

/-- An added slash does not make the path one of a portal. -/
theorem isPortalPath_of_slash {path : Bytes} (h : isPortalPath (path ++ [slash])) : isPortalPath path := by
  rw [isPortalPath_iff] at h ⊢
  have hroot : str "/" = [] ++ [slash] := by decide
  have hv1 : str "/v1" = str "/v" ++ [49] := by decide
  have hapi : str "/v1/" = str "/v1" ++ [slash] := by decide
  simp only [List.mem_cons, List.not_mem_nil, or_false] at h ⊢
  rcases h with h | h | h | h
  · exact absurd h (by simp)
  · rw [hroot] at h
    exact Or.inl (List.append_cancel_right h)
  · rw [hv1] at h
    exact absurd (List.append_inj' h rfl).2 (by decide)
  · rw [hapi] at h
    exact Or.inr (Or.inr (Or.inl (List.append_cancel_right h)))

theorem isRewritten_addSlash {p : Parts} (h2 : p.slashes = 2) (h : isRewritten (addSlash p).url) : isRewritten p.url := by
  have hhost : cutHost (addSlash p).url = cutHost p.url := by
    rw [cutHost, cutHost, (cuts_of_parts p h2).1, (cuts_of_parts (addSlash p) h2).1]
    rfl
  rw [isRewritten, Bool.and_eq_true, hhost, (cuts_of_parts (addSlash p) h2).2] at h
  rw [isRewritten, Bool.and_eq_true, (cuts_of_parts p h2).2]
  exact ⟨isPortalPath_of_slash h.1, h.2⟩

theorem accepted_addSlash {p : Parts} (h : Accepted curl p) : Accepted curl (addSlash p) where
  slashes := h.slashes
  bytes := by
    intro c hc hrejected
    rw [url_addSlash] at hc
    rcases List.mem_append.mp hc with hc | hc
    · exact h.bytes c hc hrejected
    · rw [List.mem_singleton.mp hc] at hrejected
      exact absurd ((isRejectedByte_iff slash).mpr hrejected) (by decide)
  initialises := h.initialises
  scheme := h.scheme
  host := h.host

/-- A URL that is kept and gets a slash is kept. -/
theorem baseUrl_addSlash {p : Parts} (h2 : p.slashes = 2) (h : ¬ (lower p.scheme = str "https" ∧ isRewritten p.url)) :
    baseUrl (addSlash p) = p.url ++ [slash] := by
  rw [baseUrl, if_neg fun hn => h ⟨hn.1, isRewritten_addSlash h2 hn.2⟩, url_addSlash, withSlash, if_pos (by simp)]

/-! ## The base URL of a base URL -/

/-- Where the first `://` directly follows the scheme, the base URL of a URL is its own base URL. -/
theorem normalizeUrl_idempotent (hok : normalizeUrl curl url = .ok base) (h : FollowsScheme url) :
    normalizeUrl curl base = .ok base := by
  obtain ⟨p, h2, rfl⟩ := exists_parts_of_followsScheme h (normalizeUrl_eq_ok hok).1
  have haccepted := accepted_of_ok h2 hok
  have hbase : baseUrl p = base := Except.ok.inj ((normalizeUrl_parts haccepted).symm.trans hok)
  by_cases hr : lower p.scheme = str "https" ∧ isRewritten p.url
  · have hp : IsPortalHost (cutHost p.url) := any_hasSuffix_iff.mp (Bool.and_eq_true _ _ ▸ hr.2).2
    rw [baseUrl, if_pos hr] at hbase
    rw [← hbase, ← url_portalParts slash_not_mem_cutHost, normalizeUrl_parts (accepted_portalParts haccepted hp),
      baseUrl_portalParts hp, url_portalParts]
  · rw [baseUrl, if_neg hr, withSlash] at hbase
    split_ifs at hbase with hslash
    · rwa [hbase] at hok
    · rw [← hbase, ← url_addSlash, normalizeUrl_parts (accepted_addSlash haccepted), baseUrl_addSlash h2 hr, url_addSlash]

/-- A portal without a path, and its API URL. -/
theorem normalizeUrl_idempotent_plainCurl :
    normalizeUrl plainCurl (str "HTTPS://Portal.Quantum.LRZ.de") = .ok (str "https://portal.quantum.lrz.de:4000/v1/") ∧
      normalizeUrl plainCurl (str "https://portal.quantum.lrz.de:4000/v1/") =
        .ok (str "https://portal.quantum.lrz.de:4000/v1/") := by
  have hok : normalizeUrl plainCurl (str "HTTPS://Portal.Quantum.LRZ.de") =
      .ok (str "https://portal.quantum.lrz.de:4000/v1/") := by decide
  exact ⟨hok, normalizeUrl_idempotent hok ⟨str "HTTPS", str "Portal.Quantum.LRZ.de", by decide, by decide⟩⟩

end MQSSRestClient

end MqssClient
