import MqssClient.Rest.Connection

/-!
# The order of the calls of libcurl

* `Bounded`: the options with which a transfer is performed;
* `Held`, `allowed`: what libcurl has handed out, and in which order calls may be made;
* `normalizeUrl_keeps`, `request_keeps`, `new_keeps`: what each method does to it;
* `session_releases`: every session keeps the order, and gives everything back.
-/

namespace MqssClient

open Foundations

namespace Curl

/-- A handle for a transfer, with the options set so far, and whether the transfer was performed. -/
structure Easy where
  handle : Nat
  options : List EasyOption
  performed : Bool

/-- What libcurl has handed out: a URL parser, the text of a scheme, a list of headers with its lines, and a handle for a
transfer. -/
structure Held where
  parsed : Option Nat
  scheme : Option Nat
  headers : Option (Nat × List Bytes)
  easy : Option Easy

/-- The lines of a client's headers. -/
def headerLines (token : Bytes) : List Bytes :=
  [c_str (str "Authorization: Bearer " ++ token), str "Content-Type: application/json"]

/-! ## The options of a request -/

def methodOf (options : List EasyOption) : Bytes := (options.findSome? fun
  | .CUSTOMREQUEST method => some method
  | _ => none).getD []

def urlOf (options : List EasyOption) : Bytes := (options.findSome? fun
  | .URL url => some url
  | _ => none).getD []

def sizeOf (options : List EasyOption) : Nat := (options.findSome? fun
  | .POSTFIELDSIZE_LARGE size => some size
  | _ => none).getD 0

def dataOf (options : List EasyOption) : Option Bytes := options.findSome? fun
  | .POSTFIELDS data => some data
  | _ => none

/-- The full set of options: a request has its URL and method and the headers of its client, has its body delivered to the
callback, ends within a time limit, and knows the certificates to trust. A `POST` has data with its size, no other method
has data. -/
def Bounded (caBundle : Option Bytes) (pHeaders : Option Nat) (options : List EasyOption) : Prop :=
  .URL (urlOf options) ∈ options ∧ .HTTPHEADER pHeaders ∈ options ∧ .WRITEFUNCTION_writeResponse ∈ options ∧
    .WRITEDATA_response ∈ options ∧ .CONNECTTIMEOUT_MS 3000 ∈ options ∧ .TIMEOUT_MS 5000 ∈ options ∧
    .NOSIGNAL 1 ∈ options ∧ .CAINFO caBundle ∈ options ∧ .CUSTOMREQUEST (methodOf options) ∈ options ∧
    (methodOf options = str "POST" ↔ (dataOf options).isSome) ∧
    ∀ data ∈ dataOf options, .POSTFIELDSIZE_LARGE data.length ∈ options

instance (caBundle : Option Bytes) (pHeaders : Option Nat) (options : List EasyOption) :
    Decidable (Bounded caBundle pHeaders options) := by
  unfold Bounded
  infer_instance

namespace Held

def init : Held := ⟨none, none, none, none⟩

/-- The order of the calls: nothing is used that libcurl has not handed out or has taken back already, and nothing is
asked for twice at a time. A transfer is performed with the options that were set, and with the headers of the client,
which must have all their lines. -/
def allowed (token : Bytes) (caBundle : Option Bytes) (u : Held) : Exchange LibcurlAns → Option Held
  | ⟨.url, (parsed : Option Nat)⟩ => if u.parsed = none then some { u with parsed } else none
  | ⟨.url_set parsed _, _⟩ => if u.parsed = some parsed then some u else none
  | ⟨.url_get_scheme parsed, (result : Option (Nat × Bytes))⟩ =>
    if u.parsed = some parsed ∧ u.scheme = none then some { u with scheme := result.map Prod.fst } else none
  | ⟨.free text, _⟩ => if u.scheme = some text then some { u with scheme := none } else none
  | ⟨.url_cleanup parsed, _⟩ =>
    if u.parsed = some parsed ∧ u.scheme = none then some { u with parsed := none } else none
  | ⟨.slist_append list header, (headers : Option Nat)⟩ =>
    if list = u.headers.map Prod.fst then
      some { u with headers := headers.elim u.headers fun l => some (l, (u.headers.elim [] Prod.snd) ++ [header]) }
    else none
  | ⟨.slist_free_all list, _⟩ =>
    if u.headers.map Prod.fst = some list ∧ u.easy.isNone then some { u with headers := none } else none
  | ⟨.easy_init, (handle : Option Nat)⟩ =>
    if u.easy.isNone then some { u with easy := handle.map fun h => ⟨h, [], false⟩ } else none
  | ⟨.easy_setopt handle option, _⟩ =>
    match u.easy with
    | some e =>
      if e.handle = handle ∧ !e.performed then some { u with easy := some { e with options := e.options ++ [option] } }
      else none
    | none => none
  | ⟨.easy_perform handle options, _⟩ =>
    match u.easy with
    | some e =>
      if e.handle = handle ∧ !e.performed ∧ e.options = options ∧ Bounded caBundle (u.headers.map Prod.fst) options ∧
          u.headers.map Prod.snd = some (headerLines token) then
        some { u with easy := some { e with performed := true } }
      else none
    | none => none
  | ⟨.easy_getinfo_response_code handle, _⟩ =>
    match u.easy with
    | some e => if e.handle = handle ∧ e.performed then some u else none
    | none => none
  | ⟨.easy_cleanup handle, _⟩ =>
    match u.easy with
    | some e => if e.handle = handle then some { u with easy := none } else none
    | none => none

section Allowed

variable {token : Bytes} {caBundle : Option Bytes} {u : Held} {h : Nat}

theorem allowed_url (hu : u.parsed = none) (parsed : Option Nat) :
    allowed token caBundle u ⟨.url, parsed⟩ = some { u with parsed } := if_pos hu

theorem allowed_url_set (hu : u.parsed = some h) (url : Bytes) (ok : Bool) :
    allowed token caBundle u ⟨.url_set h url, ok⟩ = some u := if_pos hu

theorem allowed_url_get_scheme (hu : u.parsed = some h) (hs : u.scheme = none) (result : Option (Nat × Bytes)) :
    allowed token caBundle u ⟨.url_get_scheme h, result⟩ = some { u with scheme := result.map Prod.fst } :=
  if_pos ⟨hu, hs⟩

theorem allowed_free (hs : u.scheme = some h) :
    allowed token caBundle u ⟨.free h, ()⟩ = some { u with scheme := none } := if_pos hs

theorem allowed_url_cleanup (hu : u.parsed = some h) (hs : u.scheme = none) :
    allowed token caBundle u ⟨.url_cleanup h, ()⟩ = some { u with parsed := none } := if_pos ⟨hu, hs⟩

theorem allowed_slist_append {list : Option Nat} (hl : list = u.headers.map Prod.fst) (header : Bytes)
    (headers : Option Nat) :
    allowed token caBundle u ⟨.slist_append list header, headers⟩ = some { u with
      headers := headers.elim u.headers fun l => some (l, (u.headers.elim [] Prod.snd) ++ [header]) } := if_pos hl

theorem allowed_slist_free_all (hl : u.headers.map Prod.fst = some h) (he : u.easy = none) :
    allowed token caBundle u ⟨.slist_free_all h, ()⟩ = some { u with headers := none } := if_pos ⟨hl, by rw [he]; rfl⟩

theorem allowed_easy_init (he : u.easy = none) (handle : Option Nat) :
    allowed token caBundle u ⟨.easy_init, handle⟩ = some { u with easy := handle.map fun h => ⟨h, [], false⟩ } :=
  if_pos (by rw [he]; rfl)

theorem allowed_easy_setopt {options : List EasyOption} (he : u.easy = some ⟨h, options, false⟩) (option : EasyOption) :
    allowed token caBundle u ⟨.easy_setopt h option, ()⟩ =
      some { u with easy := some ⟨h, options ++ [option], false⟩ } := by
  simp [allowed, he]

theorem allowed_easy_perform {options : List EasyOption} {list : Nat} (he : u.easy = some ⟨h, options, false⟩)
    (hl : u.headers = some (list, headerLines token)) (hb : Bounded caBundle (some list) options) (transfer : Transfer) :
    allowed token caBundle u ⟨.easy_perform h options, transfer⟩ = some { u with easy := some ⟨h, options, true⟩ } := by
  simp [allowed, he, hl, hb]

theorem allowed_easy_getinfo {options : List EasyOption} (he : u.easy = some ⟨h, options, true⟩) :
    allowed token caBundle u ⟨.easy_getinfo_response_code h, ()⟩ = some u := by
  simp [allowed, he]

theorem allowed_easy_cleanup {options : List EasyOption} {performed : Bool} (he : u.easy = some ⟨h, options, performed⟩) :
    allowed token caBundle u ⟨.easy_cleanup h, ()⟩ = some { u with easy := none } := by
  simp [allowed, he]

end Allowed

end Held

/-! ## The methods keep the order -/

section Order

open Held

variable {token : Bytes} {curl : Libcurl} {lib : JsonLib} {caBundle : Option Bytes}

/-- The parser and the text of the scheme are given back in every case. -/
theorem normalizeUrl_keeps (url : Bytes) :
    (normalizeUrl url).Follows (allowed token caBundle) Held.init fun _ u => u = Held.init := by
  unfold normalizeUrl
  dsimp only
  split
  · rfl
  · split
    · rfl
    · refine .call fun (parsed : Option Nat) => ⟨_, allowed_url rfl parsed, ?_⟩
      cases parsed with
      | none => rfl
      | some parsed =>
        refine .call fun (ok : Bool) => ⟨_, allowed_url_set rfl _ ok, ?_⟩
        cases ok with
        | false => exact .call fun _ => ⟨_, allowed_url_cleanup rfl rfl, rfl⟩
        | true =>
          refine .call fun (result : Option (Nat × Bytes)) => ⟨_, allowed_url_get_scheme rfl rfl result, ?_⟩
          rcases result with _ | ⟨text, scheme⟩
          · exact .call fun _ => ⟨_, allowed_url_cleanup rfl rfl, rfl⟩
          · refine .call fun _ => ⟨_, allowed_free rfl, ?_⟩
            exact .call fun _ => ⟨_, allowed_url_cleanup rfl rfl, rfl⟩

section Options

variable (client : MQSSRestClient) (method url : Bytes) (postfields : Option Bytes)

theorem urlOf_options : urlOf (options caBundle client method url postfields) = c_str url := rfl

theorem methodOf_options : methodOf (options caBundle client method url postfields) = method := rfl

theorem dataOf_options : dataOf (options caBundle client method url postfields) = postfields := by
  cases postfields <;> rfl

theorem bounded_options (hmethod : method = str "POST" ↔ postfields.isSome) :
    Bounded caBundle client.pHeaders (options caBundle client method url postfields) := by
  unfold Bounded
  rw [urlOf_options, methodOf_options, dataOf_options]
  refine ⟨?_, ?_, ?_, ?_, ?_, ?_, ?_, ?_, ?_, hmethod, fun data hdata => ?size⟩
  case size =>
    subst hdata
    exact List.mem_append_right _ (by simp)
  all_goals exact List.mem_append_left _ (by simp)

end Options

/-- The payload of a request is there where it has data. -/
theorem isSome_of_payload {data : Option Json} {postfields : Option Bytes}
    (h : MqssClient.MQSSRestClient.payload lib data = some postfields) : postfields.isSome = data.isSome := by
  cases data with
  | none =>
    cases h
    rfl
  | some data =>
    obtain ⟨payload, -, rfl⟩ := Option.map_eq_some_iff.mp h
    rfl

/-- Options are added to those that are set. -/
theorem setOptions_keeps {α : Type} {next : Prog LibcurlAns α} {Q : α → Held → Prop} {u : Held} {h : Nat}
    (rest : List EasyOption) {before : List EasyOption} (he : u.easy = some ⟨h, before, false⟩)
    (hnext : next.Follows (allowed token caBundle) { u with easy := some ⟨h, before ++ rest, false⟩ } Q) :
    (setOptions h next rest).Follows (allowed token caBundle) u Q := by
  induction rest generalizing u before with
  | nil =>
    rw [List.append_nil, ← he] at hnext
    exact hnext
  | cons option rest ih =>
    refine .call fun _ => ⟨_, allowed_easy_setopt he option, ih rfl ?_⟩
    rw [List.append_assoc]
    exact hnext

/-- Between its calls a client holds nothing but its headers. -/
def Serves (token : Bytes) (client : MQSSRestClient) (u : Held) : Prop :=
  ∃ list, client.pHeaders = some list ∧ u = { Held.init with headers := some (list, headerLines token) }

/-- A request gives back its handle in every case, and is performed with all its options. -/
theorem request_keeps {client : MQSSRestClient} {u : Held} (hu : Serves token client u) {method : Bytes} (path : Bytes)
    {data : Option Json} (hmethod : method = str "POST" ↔ data.isSome) :
    (request curl lib caBundle client method path data).Follows (allowed token caBundle) u fun _ u' =>
      Serves token client u' := by
  obtain ⟨list, hlist, rfl⟩ := hu
  have hserves : Serves token client { Held.init with headers := some (list, headerLines token) } := ⟨list, hlist, rfl⟩
  refine .call fun (handle : Option Nat) => ⟨_, allowed_easy_init rfl handle, ?_⟩
  cases handle with
  | none => exact hserves
  | some handle =>
    dsimp only
    cases hpayload : MqssClient.MQSSRestClient.payload lib data with
    | none => exact .call fun _ => ⟨_, allowed_easy_cleanup rfl, hserves⟩
    | some postfields =>
      refine setOptions_keeps _ rfl (.call fun (transfer : Transfer) => ⟨_, allowed_easy_perform rfl rfl ?_ transfer, ?_⟩)
      · rw [← hlist]
        exact bounded_options client method _ postfields (by rwa [isSome_of_payload hpayload])
      · dsimp only
        split
        · exact .call fun _ => ⟨_, allowed_easy_cleanup rfl, hserves⟩
        · refine .call fun _ => ⟨_, allowed_easy_getinfo rfl, ?_⟩
          refine .call fun _ => ⟨_, allowed_easy_cleanup rfl, ?_⟩
          split <;> exact hserves

/-- Each call leaves the client as it found it. -/
theorem run_keeps (call : ClientCall) {client : MQSSRestClient} {u : Held} (hu : Serves token client u) :
    (run curl lib caBundle call client).Follows (allowed token caBundle) u fun r u' => Serves token r.2 u' := by
  cases call with
  | sleep_for seconds => exact hu
  | request base =>
    cases base with
    | get path => exact .map (.map (request_keeps hu path (by decide)))
    | post path data => exact .map (.map (request_keeps hu path (by simp)))
    | del path => exact .map (.map (request_keeps hu path (by decide)))

/-- The list of headers is freed where there is one. -/
theorem freeHeaders_keeps (headers : Option (Nat × List Bytes)) :
    (freeHeaders (headers.map Prod.fst)).Follows (allowed token caBundle) { Held.init with headers } fun _ u =>
      u = Held.init := by
  cases headers with
  | none => rfl
  | some headers => exact .call fun _ => ⟨_, allowed_slist_free_all rfl rfl, rfl⟩

/-- A line is added to the headers, or they are as they were. -/
theorem appendHeader_keeps (headers : Option (Nat × List Bytes)) (header : Bytes) :
    (appendHeader (headers.map Prod.fst) header).Follows (allowed token caBundle) { Held.init with headers } fun r u =>
      match r with
      | .error _ => u = { Held.init with headers }
      | .ok pHeaders => ∃ list, pHeaders = some list ∧
          u = { Held.init with headers := some (list, headers.elim [] Prod.snd ++ [header]) } := by
  refine .call fun (list : Option Nat) => ⟨_, allowed_slist_append rfl header list, ?_⟩
  cases list with
  | none => rfl
  | some list => exact ⟨list, rfl, rfl⟩

/-- The constructor leaves a client with its headers, or nothing. -/
theorem new_keeps (url : Bytes) :
    (new curl lib caBundle token url).Follows (allowed token caBundle) Held.init fun r u =>
      match r with
      | .error _ => u = Held.init
      | .ok client => Serves token client u := by
  refine (normalizeUrl_keeps url).bind ?_
  rintro (e | mUrl) u rfl
  · rfl
  · refine (appendHeader_keeps none _).bind ?_
    rintro (e | first) u hu
    · exact hu
    · obtain ⟨list, rfl, rfl⟩ := hu
      refine (appendHeader_keeps (some (list, _)) _).bind ?_
      rintro (e | pHeaders) u hu
      · obtain rfl := hu
        exact .map (freeHeaders_keeps (some (list, _)))
      · obtain ⟨list, rfl, rfl⟩ := hu
        have hserves : Serves token ⟨mUrl, some list⟩ { Held.init with headers := some (list, headerLines token) } :=
          ⟨list, rfl, rfl⟩
        refine (request_keeps hserves _ (by decide)).bind ?_
        rintro (e | body) u ⟨_, ⟨⟩, rfl⟩
        · exact .map (freeHeaders_keeps (some (list, _)))
        · exact ⟨list, rfl, rfl⟩

theorem session_follows {α : Type} (curl : Libcurl) (lib : JsonLib) (caBundle : Option Bytes) (token url : Bytes)
    (p : Prog ClientAns α) :
    (session curl lib caBundle token url p).Follows (allowed token caBundle) Held.init fun _ u => u = Held.init := by
  refine (new_keeps url).bind ?_
  rintro (e | client) u hu
  · exact hu
  · refine (Prog.Follows.interpret (fun call _ _ h => run_keeps call h) p hu).bind ?_
    rintro ⟨a, client⟩ u ⟨list, hlist, rfl⟩
    dsimp only at hlist ⊢
    rw [hlist]
    exact .map (freeHeaders_keeps (some (list, _)))

end Order

end Curl

end MqssClient
