import ShelfRemote.Auth.TokenStore

/-! Signing in, step by step.

An attempt is a chain of requests and timers, and each link is a closure
(`Callback`, `Waiter`) or a timer that runs here. An event is what reaches the
thread from outside: a call of the user, a reply, a timer, a browser callback.
Whatever a handler does, aborts of `setBaseUrl` and waiters of a refresh
included, happens before the next event.

Other components use the same client. What they send is an event of its own, and
what their closures do is left to such events. The server row is saved by the
handler of `authenticated`, and the handler of a 401 is `TokenStore::refresh`, as
they are wired together. -/
namespace ShelfRemote.Auth
open Qt Net Runs

inductive State where
  | disconnected
  | checking
  | needsLogin
  | authenticating
  | authenticated
  | error
  deriving DecidableEq, Repr

structure Pkce where
  state : String := ""
  codeVerifier : String := ""
  codeChallenge : String := ""

/-- The closures handed to the client. -/
inductive Callback where
  | status
  | login
  /-- Labelled with the PKCE state of its attempt. -/
  | openidStart (attempt : String)
  | openidCallback
  | authorize
  | logout
  /-- A closure of another component. -/
  | other (n : Nat)
  deriving DecidableEq, Repr

/-- Who waits for a refresh: the restore that started it, or a request that was
answered 401. -/
inductive Waiter where
  | restore
  | retry (p : Parked Callback)

inductive Signal where
  | stateChanged (s : State)
  | authenticated (user : Json)
  | loginFailed (reason : String)
  | sessionEnding

structure AuthManager where
  tokens : TokenStore Callback Waiter
  state : State := .disconnected
  authMethods : List String := []
  oidcButtonText : String := "Login with OpenID"
  serverVersion : String := ""
  lastError : String := ""
  notice : String := ""
  user : Json := .object []
  pkce : Pkce := {}
  oidcInProgress : Bool := false
  /-- While the two-minute timer runs, the attempt that started it. -/
  oidcTimeout : Option String := none
  /-- The delay in seconds of the keyring timer, while it runs. -/
  keyringRetry : Option Nat := none
  restoreUrl : QUrl := {}
  restoreKey : String := ""
  keyringAttempts : Nat := 0
  keyringUnavailable : Bool := false
  /-- The servers table. -/
  servers : List ServerRow := []
  /-- The clock, in seconds. -/
  now : Int := 0
  /-- The pages handed to the browser, newest first. -/
  opened : List QUrl := []
  /-- What the event being handled has emitted, oldest first. -/
  signals : List Signal := []

/-- `kKeyringRetrySeconds`. -/
def keyringRetrySeconds : List Nat := [2, 5, 10, 20, 40, 60]

namespace AuthManager

def api (s : AuthManager) : ApiClient (Handler Callback) := s.tokens.api

def withApi (s : AuthManager) (api : ApiClient (Handler Callback)) : AuthManager :=
  {s with tokens := {s.tokens with api}}

def emit (s : AuthManager) (signal : Signal) : AuthManager := {s with signals := s.signals ++ [signal]}

def setState (s : AuthManager) (state : State) : AuthManager :=
  if s.state = state then s else {s with state}.emit (.stateChanged state)

def setNotice (s : AuthManager) (notice : String) : AuthManager := {s with notice}

/-- Sets the error without forcing the error state. -/
def setLastError (s : AuthManager) (lastError : String) : AuthManager := {s with lastError}

def setError (s : AuthManager) (msg : String) : AuthManager := (s.setLastError msg).setState .error

def clearError (s : AuthManager) : AuthManager := {s with lastError := ""}

def stopWaitingForKeyring (s : AuthManager) : AuthManager :=
  {s with keyringRetry := none, keyringAttempts := 0}.setNotice ""

def send (s : AuthManager) (request : Request) (cb : Callback) : AuthManager :=
  s.withApi (s.api.send request (.call cb))

def get (s : AuthManager) (target : Target) (cb : Callback) (followRedirects : Bool := true) :
    AuthManager :=
  s.send {s.api.makeRequest .get target with followRedirects} cb

/-! ### From tokens to signed in -/

/-- POST /api/authorize. -/
def authorizeAndFinish (s : AuthManager) : AuthManager :=
  s.send {s.api.makeRequest .post s.api.endpoints.authorize with body := .object []} .authorize

/-- The reply of /login and of the OIDC callback. -/
def applyLoginPayload (P : Platform) (s : AuthManager) (payload : Json) : AuthManager :=
  let user := (payload.value "user").toObject
  let access := TokenStore.replyToken payload "accessToken"
  let refresh := TokenStore.replyToken payload "refreshToken"
  if access = "" then s.setError "Login response did not include an access token"
  else
    -- The account is bound before the tokens are persisted under it.
    let account := (user.value "id").toString ""
    {s with
      tokens := (s.tokens.setAccount account).setTokens P access refresh
      user := if user.isEmpty then payload else user}.authorizeAndFinish

/-- The row saved for the configured server. -/
def serverRow (P : Platform) (s : AuthManager) (user : Json) : ServerRow :=
  Net.saveServer P.text s.api.baseUrl s.api.baseUrl.host ((user.value "id").toString "")

/-- The handler of `authenticated` that saves the server: an upsert by id. -/
def saveServer (P : Platform) (s : AuthManager) (user : Json) : AuthManager :=
  let row := s.serverRow P user
  {s with servers := row :: s.servers.filter (·.id ≠ row.id)}

/-! ### Replies -/

def onStatus (s : AuthManager) (res : ApiResponse) : AuthManager :=
  if res.stale then s
  else if !res.ok then
    s.setError (if res.errorString = "" then
      "Server unreachable (HTTP " ++ toString res.status ++ ")" else res.errorString)
  else
    let obj := res.body.toObject
    let methods := (obj.value "authMethods").toArray.map (·.toString "")
    {s with
      serverVersion := (obj.value "serverVersion").toString ""
      authMethods := if methods.isEmpty then ["local"] else methods
      oidcButtonText :=
        ((obj.value "authFormData").toObject.value "authOpenIDButtonText").toString
          s.oidcButtonText}.setState .needsLogin

def onLogin (P : Platform) (s : AuthManager) (res : ApiResponse) : AuthManager :=
  if res.stale then s
  else if !res.ok then
    let s := s.setLastError "Invalid username or password"
    (s.emit (.loginFailed s.lastError)).setState .needsLogin
  else s.applyLoginPayload P res.body.toObject

/-- `browser` says whether the desktop could open the page. -/
def onOpenidStart (s : AuthManager) (attempt : String) (res : ApiResponse) (browser : Bool) :
    AuthManager :=
  let abandon (msg : String) : AuthManager :=
    ({s with oidcInProgress := false}.setLastError msg).setState .needsLogin
  if res.stale then {s with oidcInProgress := false}
  else
    match res.redirectLocation with
    | none => abandon "Server did not return an OpenID redirect"
    | some idpUrl =>
      if idpUrl.isEmpty then abandon "Server did not return an OpenID redirect"
      else if toLower idpUrl.scheme ≠ "https" ∧ toLower idpUrl.scheme ≠ "http" then
        abandon "Server returned an unsupported OpenID redirect"
      else if browser then {s with opened := idpUrl :: s.opened, oidcTimeout := some attempt}
      else abandon "Could not open a browser for OpenID login"

def onOpenidCallback (P : Platform) (s : AuthManager) (res : ApiResponse) : AuthManager :=
  let s := {s with oidcInProgress := false}
  if res.stale then s
  else if !res.ok then
    s.setError ("Code exchange failed (HTTP " ++ toString res.status ++ ")")
  else s.applyLoginPayload P res.body.toObject

def onAuthorize (P : Platform) (s : AuthManager) (res : ApiResponse) : AuthManager :=
  if res.stale then s
  else if !res.ok then
    let s := if res.status = 401 ∨ res.status = 403 then {s with tokens := s.tokens.clear} else s
    let s := s.setLastError "Your session could not be verified; please sign in again"
    (s.emit (.loginFailed s.lastError)).setState .needsLogin
  else
    let user := (res.body.toObject.value "user").toObject
    let s := if user.isEmpty then s else {s with user}
    let account := (s.user.value "id").toString ""
    let s := if account = "" then s
      else {s with tokens := (s.tokens.setAccount account).persist}
    let s := s.clearError.setState .authenticated
    (s.emit (.authenticated s.user)).saveServer P s.user

def onLogout (P : Platform) (s : AuthManager) (res : ApiResponse) : AuthManager :=
  if res.stale then s
  else
    let idpLogout := (res.body.toObject.value "logoutUrl").toString ""
    if idpLogout = "" then s else {s with opened := P.text.parse idpLogout :: s.opened}

/-- The closure of a reply runs. -/
def call (P : Platform) (s : AuthManager) (cb : Callback) (res : ApiResponse) (browser : Bool) :
    AuthManager :=
  match cb with
  | .status => s.onStatus res
  | .login => s.onLogin P res
  | .openidStart attempt => s.onOpenidStart attempt res browser
  | .openidCallback => s.onOpenidCallback P res
  | .authorize => s.onAuthorize P res
  | .logout => s.onLogout P res
  | .other _ => s

/-- One waiter learns the outcome of a refresh. -/
def tell (P : Platform) (ok browser : Bool) (s : AuthManager) (w : Waiter) : AuthManager :=
  match w with
  | .restore => if ok then s.authorizeAndFinish else s.setState .needsLogin
  | .retry p =>
    match s.api.resume (p.map .call) ok with
    | (api, none) => s.withApi api
    | (_, some res) => s.call P p.cb res browser

/-- `refreshFailed` sends the user to the login form; then the waiters run, in the
order they came. -/
def settle (P : Platform) (s : AuthManager) (t : Settled Waiter) (browser : Bool) : AuthManager :=
  let s := if t.refreshFailed then s.setState .needsLogin else s
  t.waiters.foldl (tell P t.ok browser) s

def refresh (P : Platform) (s : AuthManager) (w : Waiter) (browser : Bool) : AuthManager :=
  match s.tokens.refresh w with
  | (tokens, none) => {s with tokens}
  | (tokens, some t) => {s with tokens}.settle P t browser

def refreshReply (P : Platform) (s : AuthManager) (key : String) (res : ApiResponse)
    (browser : Bool) : AuthManager :=
  let (tokens, t) := s.tokens.refreshReply P key res
  {s with tokens}.settle P t browser

/-- The reply of one request has finished. A refresh is sent with
`NoAuthRetryAttribute`, so what asks for one is never a refresh. -/
def finished (P : Platform) (s : AuthManager) (id : Nat) (raw : RawReply) (browser : Bool) :
    AuthManager :=
  match pick (fun x => x.id == id) s.api.inFlight with
  | none => s
  | some (x, rest) =>
    let api := s.api
    let s := s.withApi (api.drop x rest)
    match x.cb with
    | .refresh key => s.refreshReply P key (api.response x raw) browser
    | .call cb =>
      if api.asksRefresh x raw then
        s.refresh P (.retry ⟨x.request, x.epoch, cb, api.response x raw⟩) browser
      else s.call P cb (api.response x raw) browser

/-- `ApiClient::setBaseUrl`: every reply still active is aborted at once. -/
def setBaseUrl (P : Platform) (s : AuthManager) (base : QUrl) : AuthManager :=
  if s.api.baseUrl = base then s
  else
    let ids := P.abortOrder s.api.active
    let s := s.withApi (s.api.moveBase base)
    let s := ids.foldl (fun s id => s.finished P id P.aborted false) s
    s.withApi {s.api with active := []}

/-! ### Calls of the user -/

def cancelAuth (s : AuthManager) : AuthManager :=
  let s := {s.stopWaitingForKeyring with oidcTimeout := none, oidcInProgress := false}
  if s.state = .authenticating ∨ s.state = .checking then s.setState .needsLogin else s

def checkServer (P : Platform) (s : AuthManager) (baseUrl : QUrl) : AuthManager :=
  let s := s.stopWaitingForKeyring.setBaseUrl P baseUrl
  let tokens := (s.tokens.resetMemory.setServerKey (idForUrl P.text baseUrl)).setAccount ""
  let s := {s with tokens, lastError := ""}.setState .checking
  s.get s.api.endpoints.status .status

def loginLocal (s : AuthManager) (username password : String) : AuthManager :=
  let s := s.clearError.setState .authenticating
  s.send {s.api.makeRequest .post s.api.endpoints.login with
    returnTokens := true
    body := .object [("password", .string password), ("username", .string username)]
    followRedirects := false} .login

/-- The query of /auth/openid. -/
def openidQuery (pkce : Pkce) : List (String × String) :=
  [("code_challenge", pkce.codeChallenge), ("code_challenge_method", "S256"),
    ("redirect_uri", "jw6-shelfremote://oauth"), ("client_id", "ShelfRemote"),
    ("response_type", "code"), ("state", pkce.state)]

/-- `pkce` is what `Pkce::generate` came up with. -/
def beginOidc (s : AuthManager) (pkce : Pkce) : AuthManager :=
  if s.api.baseUrl.scheme ≠ "https" then
    s.setLastError "OpenID login requires an https server URL"
  else
    let s := {s.clearError.setState .authenticating with pkce, oidcInProgress := true}
    s.get (s.api.endpoints.openidStart (openidQuery pkce)) (.openidStart pkce.state) false

def exchangeCode (s : AuthManager) (code state : String) : AuthManager :=
  s.get (s.api.endpoints.openidCallback
    [("state", state), ("code", code), ("code_verifier", s.pkce.codeVerifier)]) .openidCallback

def onOauthCallback (s : AuthManager) (code state error : String) : AuthManager :=
  if !s.oidcInProgress then s
  else
    let s := {s with oidcTimeout := none}
    if error ≠ "" then {s with oidcInProgress := false}.setError ("OpenID login failed: " ++ error)
    else if state ≠ s.pkce.state then
      {s with oidcInProgress := false}.setError "OpenID state mismatch; aborting for safety"
    else s.exchangeCode code state

/-- POST /logout. -/
def logoutRequest (s : AuthManager) : Request :=
  {s.api.makeRequest .post s.api.endpoints.logout with
    refreshToken := some s.tokens.refreshToken
    body := .object []
    followRedirects := false}

/-- The request is built while the tokens are held and sent after they are gone. -/
def logout (s : AuthManager) : AuthManager :=
  let s := (s.emit .sessionEnding).stopWaitingForKeyring
  let request := s.logoutRequest
  let s := {s with tokens := s.tokens.clear, user := .object []}.setState .needsLogin
  s.send request .logout

/-! ### Restoring -/

def waitForKeyring (s : AuthManager) : AuthManager :=
  match keyringRetrySeconds[s.keyringAttempts]? with
  | none =>
    (s.stopWaitingForKeyring.setLastError
      ("Your saved sign-in is stored in the system keyring, which is locked or not running. " ++
        "Unlock it, then choose your server under Saved servers. To stop depending on the " ++
        "keyring, sign in and set Settings › Saved sign-in to This device.")).setState .needsLogin
  | some delay =>
    let s := {s with keyringAttempts := s.keyringAttempts + 1}
    let s := s.clearError.setNotice "Waiting for the system keyring to unlock your saved sign-in…"
    {s.setState .authenticating with keyringRetry := some delay}

/-- `last_user_id` of the first row with this id. -/
def accountOf (servers : List ServerRow) (key : String) : String :=
  ((servers.find? (·.id = key)).map (·.lastUserId)).getD ""

/-- What is emitted while the store loads: an unreadable row sends the user to the
login form, a locked keyring is noted. -/
def onLoad (s : AuthManager) (status : RetrieveStatus) : AuthManager :=
  match status with
  | .undecryptable =>
    (s.setLastError "Your saved session couldn't be unlocked; please sign in again").setState .needsLogin
  | .providerUnavailable => {s with keyringUnavailable := true}
  | _ => s

/-- The client and the store point at the server to restore. -/
def pointAt (P : Platform) (s : AuthManager) : AuthManager :=
  let url := s.restoreUrl
  let key := s.restoreKey
  let s := s.setBaseUrl P url
  { s with
    tokens := (s.tokens.setServerKey key).setAccount (accountOf s.servers key)
    keyringUnavailable := false }

def attemptRestore (P : Platform) (s : AuthManager) : AuthManager × Bool :=
  let s := s.pointAt P
  let (tokens, status, loaded) := s.tokens.load P
  let s := {s with tokens}.onLoad status
  if !loaded then
    if s.keyringUnavailable then (s.waitForKeyring, true) else (s, false)
  else
    let s := s.stopWaitingForKeyring.setState .authenticating
    if s.tokens.needsRefresh s.now then (s.refresh P .restore false, true)
    else (s.authorizeAndFinish, true)

def restoreSession (P : Platform) (s : AuthManager) (baseUrl : QUrl) (serverKey : String) :
    AuthManager × Bool :=
  {s.stopWaitingForKeyring with restoreUrl := baseUrl, restoreKey := serverKey}.attemptRestore P

/-! ### Timers -/

def onKeyringTimeout (P : Platform) (s : AuthManager) : AuthManager :=
  match s.keyringRetry with
  | none => s
  | some _ =>
    let (s, waiting) := {s with keyringRetry := none}.attemptRestore P
    if waiting then s else s.stopWaitingForKeyring.setState .needsLogin

def onOidcTimeout (s : AuthManager) : AuthManager :=
  match s.oidcTimeout with
  | none => s
  | some _ =>
    let s := {s with oidcTimeout := none}
    if !s.oidcInProgress then s
    else
      ({s with oidcInProgress := false}.setLastError
        "OpenID login timed out; please try again").setState .needsLogin

/-! ### Events -/

inductive Event where
  | checkServer (baseUrl : QUrl)
  | loginLocal (username password : String)
  | beginOidc (pkce : Pkce)
  | cancelAuth
  | logout
  | restoreSession (baseUrl : QUrl) (serverKey : String)
  | keyringTimeout
  | oidcTimeout
  | oauthCallback (code state error : String)
  | reply (id : Nat) (raw : RawReply) (browser : Bool)
  /-- Another component sends a request to the configured server. -/
  | external (n : Nat) (verb : Verb) (path : String) (query : List (String × String)) (body : Json)
  /-- The secrets table or the keyring behind it changes. -/
  | secrets (store : SecureStore)
  | clock (now : Int)

def handle (P : Platform) (s : AuthManager) : Event → AuthManager
  | .checkServer baseUrl => s.checkServer P baseUrl
  | .loginLocal username password => s.loginLocal username password
  | .beginOidc pkce => s.beginOidc pkce
  | .cancelAuth => s.cancelAuth
  | .logout => s.logout
  | .restoreSession baseUrl serverKey => (s.restoreSession P baseUrl serverKey).1
  | .keyringTimeout => s.onKeyringTimeout P
  | .oidcTimeout => s.onOidcTimeout
  | .oauthCallback code state error => s.onOauthCallback code state error
  | .reply id raw browser => s.finished P id raw browser
  | .external n verb path query body =>
    s.send {s.api.makeRequest verb ⟨s.api.endpoints, path, query⟩ with body} (.other n)
  | .secrets store => {s with tokens := {s.tokens with secrets := store}}
  | .clock now => {s with now}

/-- The next event starts: nothing is emitted yet. -/
def fresh (s : AuthManager) : AuthManager := {s with signals := []}

def machine (P : Platform) : Machine AuthManager Event := ⟨fun s e => s.fresh.handle P e⟩

/-! ### Runs used below -/

/-- The user signs in at a server with a password: the login goes out as request 1
and the verification as request 2. -/
def signIn (server : QUrl) (access refresh : String) : List Event :=
  [.checkServer server, .reply 0 {status := 200} true, .loginLocal "user" "password",
    .reply 1
      { status := 200
        body := .object [("accessToken", .string access), ("refreshToken", .string refresh)] } true,
    .reply 2 {status := 200} true]

/-- A process that has just started, over what an earlier one left behind. -/
def launch (secrets : SecureStore) (servers : List ServerRow) (now : Int) : AuthManager :=
  {tokens := {api := {endpoints := default}, secrets}, servers, now}

end AuthManager

end ShelfRemote.Auth
