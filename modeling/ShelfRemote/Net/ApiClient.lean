import ShelfRemote.Lib.Runs
import ShelfRemote.Net.Endpoints

/-! The HTTP client every component sends through.

A request on the wire is an `Exchange`: what was sent, under which origin epoch,
and the closure its reply is handed to, which is a value of the callback type `κ`
and opaque to the client. A reply that answers 401 to a request that may be
retried is not delivered but parked: its closure goes to the unauthorized handler
and comes back with the outcome of a refresh (`resume`).

`inFlight` is Qt's side, the replies that have not finished; `active` is the
client's own set of them, which `setBaseUrl` aborts. `wire` is history: every
request ever put on the wire, newest first, which nothing here reads. -/
namespace ShelfRemote.Net
open Qt

inductive Verb where
  | get
  | post
  | patch
  | delete
  deriving DecidableEq, Repr

structure Request where
  verb : Verb
  target : Target
  /-- The token of the `Authorization: Bearer` header. -/
  bearer : Option String
  /-- The `x-refresh-token` header. -/
  refreshToken : Option String := none
  /-- The `x-return-tokens` header. -/
  returnTokens : Bool := false
  /-- `NoAuthRetryAttribute`. -/
  noAuthRetry : Bool := false
  body : Json := .null
  followRedirects : Bool := true

/-- What a finished `QNetworkReply` says: status 0 when there was no answer, the
transport error if there was one, the parsed body and the redirect target. -/
structure RawReply where
  status : Nat
  error : Option String := none
  body : Json := .null
  location : Option QUrl := none

structure ApiResponse where
  status : Nat
  ok : Bool
  stale : Bool
  body : Json
  errorString : String
  redirectLocation : Option QUrl

/-- Success takes both a 2xx status and no transport error. -/
def buildResponse (raw : RawReply) : ApiResponse :=
  { status := raw.status
    ok := raw.error.isNone && decide (200 ≤ raw.status) && decide (raw.status < 300)
    stale := false
    body := raw.body
    errorString := raw.error.getD ""
    redirectLocation := raw.location }

/-- A request on the wire, with the closure connected to its reply. -/
structure Exchange (κ : Type) where
  id : Nat
  request : Request
  allowRetry : Bool
  epoch : Nat
  cb : κ

/-- A closure handed to the unauthorized handler, with the 401 it holds back. -/
structure Parked (κ : Type) where
  request : Request
  epoch : Nat
  cb : κ
  res : ApiResponse

def Parked.map {κ κ' : Type} (f : κ → κ') (p : Parked κ) : Parked κ' :=
  ⟨p.request, p.epoch, f p.cb, p.res⟩

structure ApiClient (κ : Type) where
  endpoints : Endpoints
  accessToken : String := ""
  epoch : Nat := 0
  /-- Whether an unauthorized handler is installed. -/
  onUnauthorized : Bool := true
  active : List Nat := []
  inFlight : List (Exchange κ) := []
  created : Nat := 0
  wire : List (Exchange κ) := []

namespace ApiClient
variable {κ : Type}

def baseUrl (c : ApiClient κ) : QUrl := c.endpoints.base

def setAccessToken (c : ApiClient κ) (token : String) : ApiClient κ := {c with accessToken := token}

/-- The bearer is attached when there is one. -/
def makeRequest (c : ApiClient κ) (verb : Verb) (target : Target) : Request :=
  { verb, target, bearer := if c.accessToken = "" then none else some c.accessToken }

def sendImpl (c : ApiClient κ) (request : Request) (cb : κ) (allowRetry : Bool) : ApiClient κ :=
  let x : Exchange κ := ⟨c.created, request, allowRetry, c.epoch, cb⟩
  {c with
    created := c.created + 1
    active := x.id :: c.active
    inFlight := x :: c.inFlight
    wire := x :: c.wire}

def send (c : ApiClient κ) (request : Request) (cb : κ) : ApiClient κ := c.sendImpl request cb true

/-- The reply of `x` has finished; `rest` is what is still in flight. -/
def drop (c : ApiClient κ) (x : Exchange κ) (rest : List (Exchange κ)) : ApiClient κ :=
  {c with active := c.active.erase x.id, inFlight := rest}

def response (c : ApiClient κ) (x : Exchange κ) (raw : RawReply) : ApiResponse :=
  {buildResponse raw with stale := x.epoch != c.epoch}

/-- The reply asks for a refresh instead of being delivered. -/
def asksRefresh (c : ApiClient κ) (x : Exchange κ) (raw : RawReply) : Bool :=
  (c.response x raw).status == 401 && x.allowRetry && !x.request.noAuthRetry &&
    !(c.response x raw).stale && c.onUnauthorized

def park (c : ApiClient κ) (x : Exchange κ) (raw : RawReply) : Parked κ :=
  ⟨x.request, x.epoch, x.cb, c.response x raw⟩

/-- The handler reports for a parked closure: a request still of this origin goes
out once more with the bearer of now, anything else gets the original 401. -/
def resume (c : ApiClient κ) (p : Parked κ) (refreshed : Bool) :
    ApiClient κ × Option ApiResponse :=
  if !refreshed || p.epoch != c.epoch then
    (c, some {p.res with stale := p.res.stale || p.epoch != c.epoch})
  else (c.sendImpl {p.request with bearer := some c.accessToken} p.cb false, none)

/-- The first half of `setBaseUrl`: the new origin, before the old replies are
aborted. -/
def moveBase (c : ApiClient κ) (base : QUrl) : ApiClient κ :=
  {c with endpoints := Endpoints.setBase base, epoch := c.epoch + 1}

end ApiClient

end ShelfRemote.Net
