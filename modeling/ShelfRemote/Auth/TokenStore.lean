import ShelfRemote.Auth.Secrets
import ShelfRemote.Net.ApiClient

/-! The tokens of the active server, in memory and at rest.

The store writes through two other objects, which it holds here: the client,
whose bearer follows the access token, and the secrets table. Closures are
opaque: what is sent for others carries a `κ`, and whoever waits for a refresh is
an `ω`. Waiters are not called here. An operation returns those to be told and
what to tell them, and the caller does. -/
namespace ShelfRemote.Auth
open Qt Net Runs

/-- What the program takes from Qt and from the machine it runs on. -/
structure Platform where
  text : UrlText
  /-- The JSON object in a base64url segment. -/
  jwtSegment : List Char → Json
  /-- The order in which `setBaseUrl` meets the replies in its hash set. -/
  abortOrder : List Nat → List Nat
  /-- What an aborted reply says. -/
  aborted : RawReply

/-- A platform that writes a URL as its host, which is enough for runs on `https`
servers at the root of their host. -/
instance : Inhabited Platform where
  default :=
    { text :=
        { toString := fun u => u.host
          parse := fun host => {scheme := "https", host}
          sha1 := fun text => text }
      jwtSegment := fun _ => .null
      abortOrder := fun ids => ids
      aborted := {status := 0, error := some "Operation canceled"} }

/-- A closure handed to `ApiClient::send`: the token store's own, which holds the
server key it was made under, or somebody else's. -/
inductive Handler (κ : Type) where
  | refresh (key : String)
  | call (cb : κ)

def Handler.isRefresh {κ : Type} : Handler κ → Bool
  | .refresh _ => true
  | .call _ => false

/-- The server key a refresh was sent under. -/
def Handler.refreshKey {κ : Type} : Handler κ → Option String
  | .refresh key => some key
  | .call _ => none

/-- An access token that got into the store: its owner is the base URL configured
then, and `sent` requests had gone out before. -/
structure Acquired where
  token : String
  owner : QUrl
  sent : Nat

structure TokenStore (κ ω : Type) where
  api : ApiClient (Handler κ)
  secrets : SecureStore := {}
  serverKey : String := ""
  accountId : String := ""
  accessToken : String := ""
  refreshToken : String := ""
  accessExpiry : Option Int := none
  refreshing : Bool := false
  pending : List ω := []
  /-- History: each access token that got in here, newest first. -/
  acquired : List Acquired := []

/-- Waiters to be told the outcome of a refresh, and whether `refreshFailed` is
emitted first. -/
structure Settled (ω : Type) where
  waiters : List ω
  ok : Bool
  refreshFailed : Bool := false

namespace TokenStore
variable {κ ω : Type}

def hasTokens (ts : TokenStore κ ω) : Bool := ts.accessToken ≠ "" && ts.refreshToken ≠ ""

/-- The `exp` claim of a token, unverified, in seconds. -/
def expiryFromJwt (P : Platform) (jwt : String) : Option Int :=
  match jwt.toList.splitOn '.' with
  | _ :: payload :: _ =>
    match P.jwtSegment payload with
    | .object fields =>
      if fields.any (·.1 == "exp") then
        let exp := ((Json.object fields).value "exp").toDouble 0
        some (exp.num.tdiv exp.den)
      else none
    | _ => none
  | _ => none

/-- Whether `now` is within a minute of the expiry; an unknown one is left to a 401. -/
def needsRefresh (ts : TokenStore κ ω) (now : Int) : Bool :=
  match ts.accessExpiry with
  | none => false
  | some expiry => decide (expiry ≤ now + 60)

/-- The row of the current server. -/
def row (ts : TokenStore κ ω) : String := tokensKey ts.serverKey

def context (ts : TokenStore κ ω) : SecretContext :=
  { serverId := ts.serverKey, accountId := ts.accountId, credType := "tokens" }

def setServerKey (ts : TokenStore κ ω) (key : String) : TokenStore κ ω := {ts with serverKey := key}

def setAccount (ts : TokenStore κ ω) (account : String) : TokenStore κ ω := {ts with accountId := account}

def tokensJson (ts : TokenStore κ ω) : Json :=
  .object [("access", .string ts.accessToken), ("refresh", .string ts.refreshToken)]

def persist (ts : TokenStore κ ω) : TokenStore κ ω :=
  if ts.serverKey = "" then ts
  else {ts with secrets := ts.secrets.store ts.row ts.tokensJson ts.context}

@[simp] theorem persist_api (ts : TokenStore κ ω) : ts.persist.api = ts.api := by
  unfold persist
  split <;> rfl

@[simp] theorem persist_pending (ts : TokenStore κ ω) : ts.persist.pending = ts.pending := by
  unfold persist
  split <;> rfl

/-- The tokens in memory and the bearer of the client, together. -/
def hold (P : Platform) (ts : TokenStore κ ω) (access refresh : String) : TokenStore κ ω :=
  {ts with
    accessToken := access
    refreshToken := refresh
    accessExpiry := expiryFromJwt P access
    api := ts.api.setAccessToken access
    acquired := ⟨access, ts.api.baseUrl, ts.api.created⟩ :: ts.acquired}

def setTokens (P : Platform) (ts : TokenStore κ ω) (access refresh : String) : TokenStore κ ω :=
  (ts.hold P access refresh).persist

@[simp] theorem setTokens_api (P : Platform) (ts : TokenStore κ ω) (access refresh : String) :
    (ts.setTokens P access refresh).api = ts.api.setAccessToken access :=
  persist_api _

@[simp] theorem setTokens_pending (P : Platform) (ts : TokenStore κ ω) (access refresh : String) :
    (ts.setTokens P access refresh).pending = ts.pending :=
  persist_pending _

/-- Drops the tokens in memory; what is persisted stays. -/
def resetMemory (ts : TokenStore κ ω) : TokenStore κ ω :=
  {ts with
    accessToken := ""
    refreshToken := ""
    accessExpiry := none
    api := ts.api.setAccessToken ""}

def clear (ts : TokenStore κ ω) : TokenStore κ ω :=
  let ts := ts.resetMemory
  if ts.serverKey = "" then ts else {ts with secrets := ts.secrets.remove ts.row}

@[simp] theorem clear_api (ts : TokenStore κ ω) : ts.clear.api = ts.api.setAccessToken "" := by
  unfold clear
  dsimp only
  split <;> rfl

@[simp] theorem clear_pending (ts : TokenStore κ ω) : ts.clear.pending = ts.pending := by
  unfold clear
  dsimp only
  split <;> rfl

/-- The status says what is emitted: `secretsUnreadable` for a row that does not
open, which is dropped, `secretsUnavailable` where there is no master secret. -/
def load (P : Platform) (ts : TokenStore κ ω) : TokenStore κ ω × RetrieveStatus × Bool :=
  if ts.serverKey = "" then (ts, .missing, false)
  else
    match ts.secrets.retrieve ts.row ts.context with
    | (.ok, tokens) =>
      let access := (tokens.value "access").toString ""
      let refresh := (tokens.value "refresh").toString ""
      let ts :=
        if access = "" then
          {ts with accessToken := access, refreshToken := refresh, accessExpiry := expiryFromJwt P access}
        else ts.hold P access refresh
      (ts, .ok, ts.hasTokens)
    | (.undecryptable, _) =>
      ({ts with secrets := ts.secrets.remove ts.row}, .undecryptable, false)
    | (status, _) => (ts, status, false)

/-- The request of a refresh. -/
def refreshRequest (ts : TokenStore κ ω) : Request :=
  {ts.api.makeRequest .post ts.api.endpoints.authRefresh with
    refreshToken := some ts.refreshToken
    noAuthRetry := true
    body := .object []
    followRedirects := false}

/-- `refresh(cb)`: without a refresh token the caller is told at once. A refresh
already under way is joined. -/
def refresh (ts : TokenStore κ ω) (waiter : ω) : TokenStore κ ω × Option (Settled ω) :=
  if ts.refreshToken = "" then (ts, some { waiters := [waiter], ok := false })
  else
    let ts := {ts with pending := ts.pending ++ [waiter]}
    if ts.refreshing then (ts, none)
    else
      ({ts with
          refreshing := true
          api := ts.api.send ts.refreshRequest (.refresh ts.serverKey)}, none)

/-- Everyone who waits is to be told. -/
def settle (ts : TokenStore κ ω) (ok : Bool) (refreshFailed : Bool := false) :
    TokenStore κ ω × Settled ω :=
  ({ts with refreshing := false, pending := []}, ⟨ts.pending, ok, refreshFailed⟩)

/-- The tokens in a reply: at the root or under "user". -/
def replyToken (body : Json) (name : String) : String :=
  (body.value name).toString (((body.value "user").toObject.value name).toString "")

/-- The statuses with which a server refuses a refresh token. -/
def Refused (status : Nat) : Prop := status = 400 ∨ status = 401 ∨ status = 403

instance (status : Nat) : Decidable (Refused status) := inferInstanceAs (Decidable (_ ∨ _ ∨ _))

/-- The reply to a refresh that was sent under `key`. -/
def refreshReply (P : Platform) (ts : TokenStore κ ω) (key : String) (res : ApiResponse) :
    TokenStore κ ω × Settled ω :=
  if res.stale || key != ts.serverKey then ts.settle false
  else if !res.ok then ts.settle false (decide (Refused res.status))
  else
    let body := res.body.toObject
    let access := replyToken body "accessToken"
    let rotated := replyToken body "refreshToken"
    -- The refresh token is kept when the server did not rotate it.
    let rotated := if rotated = "" then ts.refreshToken else rotated
    if access = "" then ts.settle false true
    else (ts.setTokens P access rotated).settle true

/-- The reply brings an access token for the server and the key the refresh was
sent for. -/
structure Adopts (ts : TokenStore κ ω) (key : String) (res : ApiResponse) : Prop where
  fresh : res.stale = false
  key : key = ts.serverKey
  ok : res.ok = true
  access : replyToken res.body.toObject "accessToken" ≠ ""

theorem adopts_iff {ts : TokenStore κ ω} {key : String} {res : ApiResponse} :
    ts.Adopts key res ↔ res.stale = false ∧ key = ts.serverKey ∧ res.ok = true ∧
      replyToken res.body.toObject "accessToken" ≠ "" :=
  ⟨fun h => ⟨h.fresh, h.key, h.ok, h.access⟩, fun h => ⟨h.1, h.2.1, h.2.2.1, h.2.2.2⟩⟩

instance (ts : TokenStore κ ω) (key : String) (res : ApiResponse) : Decidable (ts.Adopts key res) :=
  decidable_of_iff _ adopts_iff.symm

/-- The refresh token after an adopted reply. -/
def rotated (ts : TokenStore κ ω) (res : ApiResponse) : String :=
  let rotated := replyToken res.body.toObject "refreshToken"
  if rotated = "" then ts.refreshToken else rotated

/-- A reply is adopted, and those who wait are told so, or it comes to nothing. -/
theorem refreshReply_cases (P : Platform) (ts : TokenStore κ ω) (key : String) (res : ApiResponse) :
    (ts.Adopts key res ∧ ts.refreshReply P key res =
      (ts.setTokens P (replyToken res.body.toObject "accessToken") (ts.rotated res)).settle true) ∨
    (¬ts.Adopts key res ∧ ∃ failed, ts.refreshReply P key res = ts.settle false failed) := by
  unfold refreshReply
  by_cases hs : (res.stale || key != ts.serverKey) = true
  · right
    refine ⟨fun h => ?_, false, if_pos hs⟩
    simp [h.fresh, h.key] at hs
  · rw [if_neg hs]
    by_cases hok : res.ok = true
    · by_cases ha : replyToken res.body.toObject "accessToken" = ""
      · right
        exact ⟨fun h => h.access ha, true, by simp [hok, ha]⟩
      · left
        simp only [Bool.or_eq_true, bne_iff_ne, not_or, ne_eq, Decidable.not_not, Bool.not_eq_true] at hs
        exact ⟨⟨hs.1, hs.2, hok, ha⟩, by simp [hok, ha, rotated]⟩
    · right
      exact ⟨fun h => hok h.ok, decide (Refused res.status), by simp [hok]⟩

end TokenStore

end ShelfRemote.Auth
