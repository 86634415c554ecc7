import Mathlib.Data.List.AList
import Maiden.Base.Java
import Maiden.Base.Utf

/-!
# The HTTP client (`common/HttpClient.scala`)

A client is made for one request: its constructor builds the request (`buildRequest`) and
throws if that fails, so that an `HttpClient` here is made of its arguments and of the request
that they give. Each `fetch` then sends the request anew, and reads the body of the answer as
a text (`fetchAsString`), which `fetchAsJson` and `fetchAsMap` parse.

What is not the client's own code is a parameter: `fromString` is `Uri.fromString` of http4s,
`exchange` is what comes back for a request, with the redirect that the client follows, and
`Json` is the parser of json4s. Times are in milliseconds.
-/

namespace Maiden.Http

/-- Why a client threw. -/
inductive HttpFailure where
  | invalidUrl (message : JString)
  | urlNotFound (message : JString)
  | externalResponse (message : JString)
  /-- An `ExternalResponseException` with the exception that it was made of. -/
  | externalResponseOf (message : JString) (exc : HttpFailure)
  | externalResponseTimeout (message : JString)
  /-- `new Exception("Invalid Post Data")`. -/
  | invalidPostData
  /-- `v(0)` of an empty sequence. -/
  | indexOutOfBounds
  /-- An exception of http4s or json4s. -/
  | library (message : JString)
deriving DecidableEq, Repr

inductive Method where
  | get | post | put | delete
deriving DecidableEq, Repr

structure Request (Uri : Type) where
  method : Method
  uri : Uri
  headers : List (JString × JString) := []
  body : List UInt8 := []
deriving DecidableEq, Repr

/-! ## The request -/

/-- The arguments of the constructor (`HttpClient.scala:23`). -/
structure HttpArgs where
  url : JString
  timeout : Nat := 30000
  method : JString := js ['G', 'E', 'T']
  data : AList fun _ : JString => List JString := ∅
  headers : AList fun _ : JString => JString := ∅

/-- `v(0)`. -/
def headValue : List JString → Except HttpFailure JString
  | [] => .error .indexOutOfBounds
  | v :: _ => .ok v

section

variable {Uri : Type} (fromString : JString → Option Uri)

/-- `HttpClient.scala:59–60`. -/
def getUri (s : JString) : Except HttpFailure Uri :=
  match fromString s with
  | some uri => .ok uri
  | none => .error (.invalidUrl s)

namespace HttpArgs

/-- `HttpClient.scala:28`. -/
def params (a : HttpArgs) : Except HttpFailure JString := do
  let pairs ← a.data.entries.mapM fun e => do return e.1 ++ jc '=' :: (← headValue e.2)
  return [jc '&'].intercalate pairs

/-- `HttpClient.scala:63–70`. -/
def getUriWithParams (params s : JString) : Except HttpFailure Uri :=
  getUri fromString (s ++ if params = [] then [] else jc '?' :: params)

/-- The text that is posted (`HttpClient.scala:32–37`): a single field `json` is posted as it
is. -/
def postText (a : HttpArgs) (params : JString) : Except HttpFailure JString :=
  match a.data.entries with
  | [⟨key, values⟩] => if key = js ['j', 's', 'o', 'n'] then headValue values else .ok params
  | _ => .ok params

/-- The body of the request (`HttpClient.scala:34–44`). -/
def postBytes (text : JString) : Except HttpFailure (List UInt8) :=
  match Utf.encodeUtf8 text with
  | some bytes => .ok bytes
  | none => .error .invalidPostData

/-- `HttpClient.scala:30–56`. The text is encoded before the method is looked at. -/
def buildRequest (a : HttpArgs) : Except HttpFailure (Request Uri) := do
  let params ← a.params
  let text ← a.postText params
  let p ← postBytes text
  let h := a.headers.entries.map fun e => (e.1, e.2)
  if a.method = js ['P', 'O', 'S', 'T'] then
    return { method := .post, uri := ← getUri fromString a.url, headers := h, body := p }
  else if a.method = js ['G', 'E', 'T'] then
    return { method := .get, uri := ← getUriWithParams fromString params a.url, headers := h }
  else if a.method = js ['P', 'U', 'T'] then
    return { method := .put, uri := ← getUri fromString a.url, headers := h, body := p }
  else if a.method = js ['D', 'E', 'L', 'E', 'T', 'E'] then
    return { method := .delete, uri := ← getUri fromString a.url }
  else
    return { method := .get, uri := ← getUri fromString a.url }

end HttpArgs

/-- A client whose constructor has returned (`HttpClient.scala:57`). -/
structure HttpClient extends HttpArgs where
  request : Request Uri
  built : toHttpArgs.buildRequest fromString = .ok request

end

/-! ## The answer -/

structure Response where
  status : Nat
  body : List UInt8
  /-- What `toString` shows of it. -/
  shown : JString := []
deriving DecidableEq, Repr

/-- `Successful` and `NotFound` of http4s. -/
def Response.isSuccessful (r : Response) : Bool := 200 ≤ r.status && r.status ≤ 299

def Response.isNotFound (r : Response) : Bool := r.status == 404

/-- How an exchange ends: with a response, with a `TimeoutException` of the connection, or with
another exception. -/
inductive Outcome where
  | response (r : Response)
  | timedOut
  | failed (e : HttpFailure)
deriving DecidableEq, Repr

/-- An exchange, and how long it takes. -/
structure Exchange where
  millis : Nat
  outcome : Outcome
deriving DecidableEq, Repr

/-- `_.toChar` of a byte: Java's bytes are signed, and a character has 16 bits. -/
def toChar (b : UInt8) : Nat := b.toInt8.toInt16.toUInt16.toNat

/-- The parser, and the fields of an object as a map. -/
structure Json (JValue Fields : Type) where
  parse : JString → Except HttpFailure JValue
  extract : JValue → Except HttpFailure Fields

namespace HttpClient

variable {Uri : Type} {fromString : JString → Option Uri} (c : HttpClient fromString)
  (exchange : Request Uri → Exchange)

/-- `HttpClient.scala:86–102`. -/
def fetchRaw : Except HttpFailure (List UInt8) :=
  if c.timeout < (exchange c.request).millis then .error (.externalResponseTimeout c.url)
  else
    match (exchange c.request).outcome with
    | .response r =>
      if r.isSuccessful then .ok r.body
      else if r.isNotFound then .error (.urlNotFound c.url)
      else .error (.externalResponse r.shown)
    | .timedOut => .error (.externalResponseTimeout c.url)
    | .failed e => .error e

/-- `HttpClient.scala:104–108`. -/
def fetchAsString : Except HttpFailure JString := (c.fetchRaw exchange).map (List.map toChar)

/-- `HttpClient.scala:110`. -/
def fetch : Except HttpFailure JString := c.fetchAsString exchange

/-- `HttpClient.scala:111`. -/
def fetchWith {T : Type} (callback : JString → Except HttpFailure T) : Except HttpFailure T :=
  c.fetchAsString exchange >>= callback

section

variable {JValue Fields : Type} (json : Json JValue Fields)

/-- `HttpClient.scala:72–77`. -/
def asJson (s : JString) : Except HttpFailure JValue :=
  (json.parse s).mapError (.externalResponseOf c.url)

/-- `HttpClient.scala:79–84`. -/
def asMap (s : JString) : Except HttpFailure Fields :=
  (c.asJson json s >>= json.extract).mapError (.externalResponseOf c.url)

/-- `HttpClient.scala:112`. -/
def fetchAsMap : Except HttpFailure Fields := c.fetchWith exchange (c.asMap json)

/-- `HttpClient.scala:113`. -/
def fetchAsJson : Except HttpFailure JValue := c.fetchWith exchange (c.asJson json)

end

end HttpClient

end Maiden.Http
