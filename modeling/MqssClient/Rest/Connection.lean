import MqssClient.Foundations.Protocol
import MqssClient.Rest.Client

/-!
# The handles of a REST client

`MQSSRestClient` call by call: the handles it is given by libcurl, the options of a request, and how the body arrives.

* `EasyOption`, `LibcurlCall`: the options and the calls of libcurl; `Transfer`: what a transfer does;
* `Curl.writeResponse`, `Curl.received`: the callback, and what it makes of the parts of a body;
* `Curl.normalizeUrl`, `request`, `get`, `post`, `del`, `new`: the methods; `Curl.session`: a client is made, used and
  destroyed.
-/

namespace MqssClient

open Foundations

/-- The options that a request sets, in the words of libcurl. -/
inductive EasyOption where
  | URL (url : Bytes)
  | HTTPHEADER (headers : Option Nat)
  | WRITEFUNCTION_writeResponse
  | WRITEDATA_response
  | CONNECTTIMEOUT_MS (ms : Int)
  | TIMEOUT_MS (ms : Int)
  | NOSIGNAL (on : Int)
  | CAINFO (path : Option Bytes)
  | CUSTOMREQUEST (method : Bytes)
  | POSTFIELDS (data : Bytes)
  | POSTFIELDSIZE_LARGE (size : Nat)
deriving DecidableEq

/-- The calls of libcurl. A transfer is performed with the options that were set for its handle. -/
inductive LibcurlCall where
  | url
  | url_set (parsed : Nat) (url : Bytes)
  | url_get_scheme (parsed : Nat)
  | free (text : Nat)
  | url_cleanup (parsed : Nat)
  | slist_append (list : Option Nat) (header : Bytes)
  | slist_free_all (list : Nat)
  | easy_init
  | easy_setopt (handle : Nat) (option : EasyOption)
  | easy_perform (handle : Nat) (options : List EasyOption)
  | easy_getinfo_response_code (handle : Nat)
  | easy_cleanup (handle : Nat)

/-- A transfer: the parts of the body that are handed to the callback and whether memory for each can be had, the code with
which it ends, and the HTTP status. -/
structure Transfer where
  chunks : List (Bytes × Bool)
  code : Nat
  status : Int

/-- Calls that hand something out answer with a pointer, or `none` for `nullptr`. -/
abbrev LibcurlAns : LibcurlCall → Type
  | .url => Option Nat
  | .url_set _ _ => Bool
  | .url_get_scheme _ => Option (Nat × Bytes)
  | .slist_append _ _ => Option Nat
  | .easy_init => Option Nat
  | .easy_perform _ _ => Transfer
  | _ => Unit

/-- What the constructor throws besides the exceptions of a request. -/
inductive Thrown where
  | exn (e : Exn)
  | bad_alloc

namespace Curl

/-! ## The body -/

/-- The callback: the number of bytes taken, and the body so far. Memory for `append` can be had or not. -/
def writeResponse (data : Bytes) (fits : Bool) (output : Bytes) : Nat × Bytes :=
  if fits then (data.length, output ++ data) else (0, output)

/-- The response once the callback was handed these parts. -/
def received (chunks : List (Bytes × Bool)) (response : Bytes) : Bytes :=
  chunks.foldl (fun response chunk => (writeResponse chunk.1 chunk.2 response).2) response

/-! ## The methods -/

/-- The URL is parsed for its scheme; the parser and the text of the scheme are freed in every case. -/
def normalizeUrl (url : Bytes) : Prog LibcurlAns (Except Exn Bytes) :=
  let invalid := MqssClient.MQSSRestClient.invalid
  match find (str "://") url with
  | none => .pure (.error invalid)
  | some separator =>
    if url.isEmpty || url.any MqssClient.MQSSRestClient.isForbidden || separator + 3 = url.length ||
        url[separator + 3]? = some slash || url.any MqssClient.MQSSRestClient.isQueryOrFragment then
      .pure (.error invalid)
    else
      .call .url fun (parsed : Option Nat) =>
        match parsed with
        | none => .pure (.error (.runtime_error (str "Failed to initialize URL parser")))
        | some parsed =>
          .call (.url_set parsed (c_str url)) fun (ok : Bool) =>
            if !ok then .call (.url_cleanup parsed) fun _ => .pure (.error invalid)
            else
              .call (.url_get_scheme parsed) fun (result : Option (Nat × Bytes)) =>
                match result with
                | none => .call (.url_cleanup parsed) fun _ => .pure (.error invalid)
                | some (text, scheme) =>
                  let value : Except Exn Bytes :=
                    if scheme ≠ str "http" ∧ scheme ≠ str "https" then .error invalid
                    else
                      let pathStart := findFrom (str "/") url (separator + 3)
                      let origin := lower (substr url 0 pathStart)
                      let path := match pathStart with
                        | none => []
                        | some p => substr url p none
                      if scheme = str "https" ∧ MqssClient.MQSSRestClient.isPortalPath path then
                        let host := MqssClient.MQSSRestClient.dropPort (substr origin (separator + 3) none)
                        if MqssClient.MQSSRestClient.domains.any (MqssClient.MQSSRestClient.hasSuffix host) then
                          .ok (MqssClient.MQSSRestClient.portalUrl host)
                        else .ok (MqssClient.MQSSRestClient.withSlash url)
                      else .ok (MqssClient.MQSSRestClient.withSlash url)
                  .call (.free text) fun _ => .call (.url_cleanup parsed) fun _ => .pure value

/-- The base URL and the list of headers, a pointer that the client owns. -/
structure MQSSRestClient where
  mUrl : Bytes
  pHeaders : Option Nat

/-- The options of a request, in the order in which they are set. -/
def options (caBundle : Option Bytes) (client : MQSSRestClient) (method url : Bytes) (postfields : Option Bytes) :
    List EasyOption :=
  [.URL (c_str url), .HTTPHEADER client.pHeaders, .WRITEFUNCTION_writeResponse, .WRITEDATA_response,
    .CONNECTTIMEOUT_MS 3000, .TIMEOUT_MS 5000, .NOSIGNAL 1, .CAINFO caBundle, .CUSTOMREQUEST method] ++
  match postfields with
  | none => []
  | some payload => [.POSTFIELDS payload, .POSTFIELDSIZE_LARGE payload.length]

/-- Set options one after the other. -/
def setOptions {α : Type} (handle : Nat) (next : Prog LibcurlAns α) : List EasyOption → Prog LibcurlAns α
  | [] => next
  | option :: rest => .call (.easy_setopt handle option) fun _ => setOptions handle next rest

variable (curl : Libcurl) (lib : JsonLib) (caBundle : Option Bytes)

/-- The handle is cleaned up in every case; `caBundle` is the variable `CURL_CA_BUNDLE`. -/
def request (client : MQSSRestClient) (method path : Bytes) (data : Option Json) : Prog LibcurlAns (Except Exn Bytes) :=
  .call .easy_init fun (handle : Option Nat) =>
    match handle with
    | none => .pure (.error (.runtime_error (str "Failed to initialize REST connection")))
    | some handle =>
      match MqssClient.MQSSRestClient.payload lib data with
      | none => .call (.easy_cleanup handle) fun _ => .pure (.error (.json_type_error 316))
      | some postfields =>
        let options := options caBundle client method (client.mUrl ++ path) postfields
        setOptions handle
          (.call (.easy_perform handle options) fun (transfer : Transfer) =>
            let errorPrefix := str "REST " ++ method ++ str " failed: "
            let result := transfer.code
            let response := received transfer.chunks []
            if result ≠ 0 then
              .call (.easy_cleanup handle) fun _ => .pure (.error (.runtime_error (errorPrefix ++ curl.strerror result)))
            else
              .call (.easy_getinfo_response_code handle) fun _ =>
                let status := transfer.status
                .call (.easy_cleanup handle) fun _ =>
                  if status < 200 ∨ 300 ≤ status then
                    .pure (.error (.runtime_error (errorPrefix ++ str "HTTP " ++ to_string status)))
                  else .pure (.ok response))
          options

def get (client : MQSSRestClient) (path : Bytes) : Prog LibcurlAns (Except Exn Bytes) :=
  (request curl lib caBundle client (str "GET") path none).map MqssClient.MQSSRestClient.orEmpty

def post (client : MQSSRestClient) (path : Bytes) (data : Json) : Prog LibcurlAns (Except Exn Bytes) :=
  (request curl lib caBundle client (str "POST") path (some data)).map MqssClient.MQSSRestClient.orEmpty

def del (client : MQSSRestClient) (path : Bytes) : Prog LibcurlAns (Except Exn Unit) :=
  (request curl lib caBundle client (str "DELETE") path none).map fun r => r.map fun _ => ()

/-- A call of the client: a request, or a pause. -/
def run : (c : ClientCall) → MQSSRestClient → Prog LibcurlAns (ClientAns c × MQSSRestClient)
  | .request (.get path), client => (get curl lib caBundle client path).map fun answer => (answer, client)
  | .request (.post path data), client => (post curl lib caBundle client path data).map fun answer => (answer, client)
  | .request (.del path), client => (del curl lib caBundle client path).map fun answer => (answer, client)
  | .sleep_for _, client => .pure ((), client)

/-- The destructor of the list of headers. -/
def freeHeaders (pHeaders : Option Nat) : Prog LibcurlAns Unit :=
  match pHeaders with
  | none => .pure ()
  | some list => .call (.slist_free_all list) fun _ => .pure ()

/-- `appendHeader`: the list is left alone when it throws. -/
def appendHeader (pHeaders : Option Nat) (header : Bytes) : Prog LibcurlAns (Except Thrown (Option Nat)) :=
  .call (.slist_append pHeaders header) fun (headers : Option Nat) =>
    match headers with
    | none => .pure (.error .bad_alloc)
    | some list => .pure (.ok (some list))

/-- The constructor. When it throws, the headers are a member that is destroyed. -/
def new (token url : Bytes) : Prog LibcurlAns (Except Thrown MQSSRestClient) :=
  (normalizeUrl url).bind fun
    | .error e => .pure (.error (.exn e))
    | .ok mUrl =>
      (appendHeader none (c_str (str "Authorization: Bearer " ++ token))).bind fun
        | .error e => .pure (.error e)
        | .ok first =>
          (appendHeader first (str "Content-Type: application/json")).bind fun
            | .error e => (freeHeaders first).map fun _ => .error e
            | .ok pHeaders =>
              (request curl lib caBundle ⟨mUrl, pHeaders⟩ (str "GET") (str "resources") none).bind fun
                | .error e => (freeHeaders pHeaders).map fun _ => .error (.exn e)
                | .ok _ => .pure (.ok ⟨mUrl, pHeaders⟩)

/-- A client is made, used by a program, and destroyed. -/
def session {α : Type} (token url : Bytes) (p : Prog ClientAns α) : Prog LibcurlAns (Except Thrown α) :=
  (new curl lib caBundle token url).bind fun
    | .error e => .pure (.error e)
    | .ok client =>
      (p.interpret (run curl lib caBundle) client).bind fun (a, client) =>
        (freeHeaders client.pHeaders).map fun _ => .ok a

/-! ## A session of one listing -/

def listingLib : JsonLib := .ofTable [(str "[]", .array [])] (by decide)

/-- A client that lists the resources. -/
def listing : Prog LibcurlAns (Except Thrown (Except Exn (List Resource))) :=
  session plainCurl listingLib none (str "token") (str "https://h") (MQSSClient.getAllResources listingLib)

end Curl

end MqssClient
