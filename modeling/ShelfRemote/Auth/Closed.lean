import ShelfRemote.Auth.Handlers

/-! Predicates of the token store that every handler keeps.

The handlers act on the client, the waiters and the acquired tokens through few
operations: outstanding work goes, a request of this origin goes out, a parked
one goes out again, a closure is parked, a token comes or goes. A predicate
these keep (`Closed`) is kept by every event that does not change the origin
(`Closed.step`). What a change of origin owes it is a hypothesis of its own
(`Closed.everyStep`). -/
namespace ShelfRemote.Auth
open Qt Net Runs

/-- A request built now: for the configured server, with the bearer held now, and
marked as a refresh exactly when it is one. -/
structure Proper {κ : Type} (c : ApiClient (Handler κ)) (h : Handler κ) (request : Request) : Prop where
  server : request.target.server = c.endpoints
  bearer : request.bearer = none ∨ c.accessToken ≠ "" ∧ request.bearer = some c.accessToken
  marked : request.noAuthRetry = h.isRefresh

theorem makeRequest_bearer {κ : Type} (c : ApiClient κ) (verb : Verb) (target : Target) :
    (c.makeRequest verb target).bearer = none ∨
      c.accessToken ≠ "" ∧ (c.makeRequest verb target).bearer = some c.accessToken := by
  unfold ApiClient.makeRequest
  by_cases h : c.accessToken = ""
  · left
    simp [h]
  · right
    simp [h]

structure Closed (P : Platform) (I : TokenStore Callback Waiter → Prop) : Prop where
  book : ∀ ts account secrets access refresh expiry refreshing, I ts →
    I {ts with
      accountId := account, secrets, accessToken := access, refreshToken := refresh
      accessExpiry := expiry, refreshing }
  fewer : ∀ ts active inFlight pending, (∀ x ∈ inFlight, x ∈ ts.api.inFlight) →
    (∀ w ∈ pending, w ∈ ts.pending) → I ts →
    I {ts with api := {ts.api with active, inFlight}, pending}
  hold : ∀ ts access refresh, access ≠ "" → I ts → I (ts.hold P access refresh)
  unbear : ∀ ts, I ts → I {ts with api := ts.api.setAccessToken ""}
  send : ∀ ts request h, Proper ts.api h request → I ts → I {ts with api := ts.api.send request h}
  again : ∀ ts p, .retry p ∈ ts.pending → p.epoch = ts.api.epoch → ts.api.accessToken ≠ "" → I ts →
    I {ts with
      api := ts.api.sendImpl {p.request with bearer := some ts.api.accessToken} (.call p.cb) false}
  park : ∀ ts x cb raw, x ∈ ts.api.inFlight → x.cb = .call cb → ts.api.asksRefresh x raw = true →
    I ts → I {ts with pending := ts.pending ++ [.retry ⟨x.request, x.epoch, cb, ts.api.response x raw⟩]}
  join : ∀ ts, I ts → I {ts with pending := ts.pending ++ [.restore]}

namespace Closed
open AuthManager
variable {P : Platform} {I : TokenStore Callback Waiter → Prop} (hI : Closed P I)
include hI

/-! ### Operations of the token store -/

theorem persist {ts : TokenStore Callback Waiter} (h : I ts) : I ts.persist := by
  unfold TokenStore.persist
  split
  · exact h
  · exact hI.book ts _ _ _ _ _ _ h

theorem setTokens {ts : TokenStore Callback Waiter} (h : I ts) {access : String} (ha : access ≠ "")
    (refresh : String) : I (ts.setTokens P access refresh) :=
  hI.persist (hI.hold ts access refresh ha h)

theorem resetMemory {ts : TokenStore Callback Waiter} (h : I ts) : I ts.resetMemory :=
  hI.book _ _ _ "" "" none _ (hI.unbear ts h)

theorem clear {ts : TokenStore Callback Waiter} (h : I ts) : I ts.clear := by
  have hreset := hI.resetMemory h
  unfold TokenStore.clear
  simp only
  split
  · exact hreset
  · exact hI.book _ _ _ _ _ _ _ hreset

/-! ### Handlers

While a refresh settles, the waiters still to be told are no longer in the store.
What follows is stated with them put back (`awaited`). -/

end Closed

/-- The store with these waiters for the pending ones. -/
def TokenStore.awaited {κ ω : Type} (ts : TokenStore κ ω) (l : List ω) : TokenStore κ ω :=
  {ts with pending := l}

section Awaited
variable {κ ω : Type} (ts : TokenStore κ ω) (l : List ω)

theorem persist_awaited : (ts.awaited l).persist = ts.persist.awaited l := by
  unfold TokenStore.persist
  show (if ts.serverKey = "" then _ else _) = _
  split <;> rfl

theorem setTokens_awaited (P : Platform) (access refresh : String) :
    (ts.awaited l).setTokens P access refresh = (ts.setTokens P access refresh).awaited l :=
  persist_awaited (ts.hold P access refresh) l

theorem clear_awaited : (ts.awaited l).clear = ts.clear.awaited l := by
  unfold TokenStore.clear
  show (if ts.serverKey = "" then _ else _) = (if ts.serverKey = "" then _ else _ : TokenStore κ ω).awaited l
  split <;> rfl

end Awaited

namespace Closed
open AuthManager
variable {P : Platform} {I : TokenStore Callback Waiter → Prop} (hI : Closed P I)
variable {s : AuthManager} {l : List Waiter}
include hI

theorem account (h : I (s.tokens.awaited l)) (account : String) :
    I ((s.tokens.setAccount account).awaited l) :=
  hI.book _ account _ _ _ _ _ h

theorem sendNow (h : I (s.tokens.awaited l)) {r : Request} {cb : Callback}
    (hr : Proper s.api (.call cb) r) : I ((s.send r cb).tokens.awaited l) :=
  hI.send (s.tokens.awaited l) r (.call cb) hr h

theorem get (h : I (s.tokens.awaited l)) {target : Target} (ht : target.server = s.api.endpoints)
    (cb : Callback) (follow : Bool) : I ((s.get target cb follow).tokens.awaited l) := by
  apply hI.sendNow h
  exact ⟨ht, makeRequest_bearer s.api .get target, rfl⟩

theorem authorizeAndFinish (h : I (s.tokens.awaited l)) :
    I (s.authorizeAndFinish.tokens.awaited l) := by
  apply hI.sendNow h
  exact ⟨rfl, makeRequest_bearer s.api .post s.api.endpoints.authorize, rfl⟩

theorem applyLoginPayload (h : I (s.tokens.awaited l)) (payload : Json) :
    I ((s.applyLoginPayload P payload).tokens.awaited l) := by
  unfold AuthManager.applyLoginPayload
  simp only
  split
  · rw [setError_tokens]
    exact h
  · next ha =>
    apply hI.authorizeAndFinish
    show I (TokenStore.awaited (TokenStore.setTokens ..) l)
    rw [← setTokens_awaited]
    exact hI.setTokens (hI.account h _) ha _

theorem onAuthorize (h : I (s.tokens.awaited l)) (res : ApiResponse) :
    I ((s.onAuthorize P res).tokens.awaited l) := by
  rcases onAuthorize_tokens P s res with ht | ⟨_, _, _, ht⟩ | ⟨account, ht⟩
  · rw [ht]
    exact h
  · rw [ht, ← clear_awaited]
    exact hI.clear h
  · rw [ht, ← persist_awaited]
    exact hI.persist (hI.account h account)

theorem call (h : I (s.tokens.awaited l)) (cb : Callback) (res : ApiResponse) (browser : Bool) :
    I ((s.call P cb res browser).tokens.awaited l) := by
  cases cb with
  | status =>
    simp only [AuthManager.call, onStatus]
    split_ifs <;> simpa using h
  | login =>
    simp only [AuthManager.call, onLogin]
    split_ifs
    · exact h
    · simpa using h
    · exact hI.applyLoginPayload h _
  | openidStart attempt =>
    simp only [AuthManager.call, onOpenidStart]
    split
    · exact h
    · split
      · simpa using h
      · split_ifs <;> simpa using h
  | openidCallback =>
    simp only [AuthManager.call, onOpenidCallback]
    split_ifs
    · exact h
    · simpa using h
    · exact hI.applyLoginPayload (s := {s with oidcInProgress := false}) h _
  | authorize => exact hI.onAuthorize h res
  | logout =>
    simp only [AuthManager.call, onLogout]
    split_ifs <;> exact h
  | other n => exact h

/-- A successful refresh leaves a token for those it tells. -/
theorem tell (h : I (s.tokens.awaited l)) {w : Waiter} (hw : w ∈ l) {ok : Bool} (browser : Bool)
    (hok : ok = true → s.api.accessToken ≠ "") :
    I ((s.tell P ok browser w).tokens.awaited l) ∧
      (ok = true → (s.tell P ok browser w).api.accessToken ≠ "") := by
  cases ok with
  | false =>
    refine ⟨?_, fun ho => by cases ho⟩
    cases w with
    | restore => simpa [AuthManager.tell] using h
    | retry p => exact hI.call h ..
  | true =>
    cases w with
    | restore => exact ⟨hI.authorizeAndFinish h, hok⟩
    | retry p =>
      by_cases he : p.epoch = s.api.epoch
      · simp only [AuthManager.tell, ApiClient.resume, Parked.map, he, Bool.not_true, bne_self_eq_false,
          Bool.or_self, Bool.false_eq_true, if_false]
        exact ⟨hI.again (s.tokens.awaited l) p hw he (hok rfl) h, fun _ => hok rfl⟩
      · have hb : (p.epoch != s.api.epoch) = true := by simpa using he
        simp only [AuthManager.tell, ApiClient.resume, Parked.map, hb, Bool.not_true, Bool.or_true, if_true]
        rcases call_stale P s p.cb (r := {p.res with stale := true}) rfl browser with hc | hc
        · rw [hc]
          exact ⟨h, fun _ => hok rfl⟩
        · rw [hc]
          exact ⟨h, fun _ => hok rfl⟩

theorem settle (h : I (s.tokens.awaited l)) {t : Settled Waiter} (browser : Bool)
    (ht : ∀ w ∈ t.waiters, w ∈ l) (hp : ∀ w ∈ s.tokens.pending, w ∈ l)
    (hok : t.ok = true → s.api.accessToken ≠ "") : I (s.settle P t browser).tokens := by
  have hall : I ((s.settle P t browser).tokens.awaited l) ∧
      (t.ok = true → (s.settle P t browser).api.accessToken ≠ "") := by
    apply settle_keeps (I := fun s => I (s.tokens.awaited l) ∧ (t.ok = true → s.api.accessToken ≠ "")) _ _
      ⟨h, hok⟩
    · intro s h
      simpa [api] using h
    · exact fun s h w hw => hI.tell h.1 (ht w hw) browser h.2
  refine hI.fewer ((s.settle P t browser).tokens.awaited l) (s.settle P t browser).api.active
    (s.settle P t browser).api.inFlight
    (s.settle P t browser).tokens.pending (fun _ hx => hx) ?_ hall.1
  rw [settle_pending]
  exact hp

theorem refreshReply (h : I s.tokens) (key : String) (res : ApiResponse) (browser : Bool) :
    I (s.refreshReply P key res browser).tokens := by
  -- What the waiters find, whichever way the refresh went.
  have hsettle : ∀ (ts : TokenStore Callback Waiter) (t : Settled Waiter),
      I ts → t.waiters = ts.pending → (t.ok = true → ts.api.accessToken ≠ "") →
      I ({s with tokens := {ts with refreshing := false, pending := []}}.settle P t browser).tokens := by
    intro ts t hts ht hok
    refine hI.settle (l := ts.pending) ?_ browser (fun w hw => ht ▸ hw) (fun w hw => by cases hw) hok
    exact hI.book ts _ _ _ _ _ false hts
  unfold AuthManager.refreshReply TokenStore.refreshReply TokenStore.settle
  dsimp only
  split
  · exact hsettle s.tokens _ h rfl fun ho => by cases ho
  · split
    · exact hsettle s.tokens _ h rfl fun ho => by cases ho
    · split
      · exact hsettle s.tokens _ h rfl fun ho => by cases ho
      · next ha =>
        refine hsettle _ _ (hI.setTokens h ha _) rfl fun _ => ?_
        rw [TokenStore.setTokens_api]
        exact ha

/-- Somebody starts to wait for a refresh, and is in the store from then on. -/
theorem refresh {w : Waiter} (h : I {s.tokens with pending := s.tokens.pending ++ [w]})
    (browser : Bool) : I (s.refresh P w browser).tokens := by
  rcases refresh_cases P s w browser with ⟨_, he⟩ | ⟨_, he⟩ | ⟨_, he⟩
  · rw [he]
    refine hI.settle (l := s.tokens.pending ++ [w]) h browser ?_ ?_ (fun ho => by cases ho)
    · intro v hv
      exact List.mem_append_right _ hv
    · intro v hv
      exact List.mem_append_left _ hv
  · rw [he]
    exact h
  · rw [he]
    refine hI.send {s.tokens with pending := s.tokens.pending ++ [w], refreshing := true}
      s.tokens.refreshRequest _ ⟨rfl, makeRequest_bearer s.api .post s.api.endpoints.authRefresh, rfl⟩ ?_
    exact hI.book _ _ _ _ _ _ true h

theorem finished (h : I s.tokens) (id : Nat) (raw : RawReply) (browser : Bool) :
    I (s.finished P id raw browser).tokens := by
  rcases finished_cases P s id raw browser with he | ⟨x, rest, hpick, hcase⟩
  · rw [he]
    exact h
  · have hdrop : ∀ ts : TokenStore Callback Waiter, ts.api = s.api → I ts →
        I {ts with api := s.api.drop x rest} := by
      intro ts hts hi
      have := hI.fewer ts (s.api.active.erase x.id) rest ts.pending
        (fun y hy => by rw [hts]; exact pick_rest hpick hy) (fun _ hw => hw) hi
      rw [hts] at this
      exact this
    rcases hcase with ⟨key, _, he⟩ | ⟨cb, hcb, ha, he⟩ | ⟨cb, hcb, ha, he⟩
    · rw [he]
      exact hI.refreshReply (s := s.without x rest) (hdrop s.tokens rfl h) ..
    · rw [he]
      refine hI.refresh (s := s.without x rest) ?_ browser
      exact hdrop {s.tokens with pending := s.tokens.pending ++ [_]} rfl
        (hI.park s.tokens x cb raw (pick_mem hpick) hcb ha h)
    · rw [he]
      have hcall := hI.call (s := s.without x rest) (l := (s.without x rest).tokens.pending)
        (hdrop s.tokens rfl h) cb (s.api.response x raw) browser
      rw [← call_pending P (s.without x rest) cb (s.api.response x raw) browser] at hcall
      exact hcall

/-! ### Events -/

omit hI in
theorem cancelAuth (h : I s.tokens) : I s.cancelAuth.tokens := by
  unfold AuthManager.cancelAuth
  dsimp only
  split
  · rwa [setState_tokens]
  · exact h

theorem sendHere (h : I s.tokens) {r : Request} {cb : Callback} (hr : Proper s.api (.call cb) r) :
    I (s.send r cb).tokens :=
  hI.sendNow (l := s.tokens.pending) h hr

theorem getHere (h : I s.tokens) {target : Target} (ht : target.server = s.api.endpoints)
    (cb : Callback) (follow : Bool) : I (s.get target cb follow).tokens :=
  hI.get (l := s.tokens.pending) h ht cb follow

omit hI in
theorem setState (h : I s.tokens) (state : State) : I (s.setState state).tokens := by
  rwa [setState_tokens]

theorem loginLocal (h : I s.tokens) (username password : String) :
    I (s.loginLocal username password).tokens := by
  apply hI.sendHere (s := s.clearError.setState .authenticating) (Closed.setState (s := s.clearError) h _)
  exact ⟨rfl, makeRequest_bearer _ .post (s.clearError.setState .authenticating).api.endpoints.login,
    rfl⟩

theorem beginOidc (h : I s.tokens) (pkce : Pkce) : I (s.beginOidc pkce).tokens := by
  unfold AuthManager.beginOidc
  split
  · exact h
  · refine hI.getHere ?_ ?_ _ _
    · exact Closed.setState (s := s.clearError) h _
    · rfl

theorem onOauthCallback (h : I s.tokens) (code state error : String) :
    I (s.onOauthCallback code state error).tokens := by
  unfold AuthManager.onOauthCallback
  dsimp only
  split_ifs
  · exact h
  · simpa using h
  · simpa using h
  · refine hI.getHere ?_ ?_ _ _
    · exact h
    · rfl

omit hI in
theorem onOidcTimeout (h : I s.tokens) : I s.onOidcTimeout.tokens := by
  unfold AuthManager.onOidcTimeout
  split
  · exact h
  · dsimp only
    split
    · exact h
    · simpa using h

/-- The request of a logout is of the moment it is called; that the tokens go
before it does makes no difference to the client. -/
theorem logout (h : I s.tokens) : I s.logout.tokens := by
  have hsent := hI.sendHere h (r := s.logoutRequest)
    (show Proper s.api (.call .logout) _ from
      ⟨rfl, makeRequest_bearer s.api .post s.api.endpoints.logout, rfl⟩)
  have hclear := hI.unbear _ hsent
  rw [logout_tokens, TokenStore.clear_api]
  unfold TokenStore.clear
  dsimp only
  split <;> exact hI.book _ _ _ "" "" none _ hclear

/-- A restore keeps what holds once the client points at the server and its
tokens were looked for. -/
theorem attemptRestore (h : I (s.looked P).tokens) : I (s.attemptRestore P).1.tokens := by
  have hbusy : I ((s.looked P).stopWaitingForKeyring.setState .authenticating).tokens :=
    Closed.setState (s := (s.looked P).stopWaitingForKeyring) h _
  rcases attemptRestore_cases P s with ⟨_, he | he⟩ | ⟨_, he | he⟩
  · rw [he, waitForKeyring_tokens]
    exact h
  · rw [he]
    exact h
  · rw [he]
    exact hI.refresh (hI.join _ hbusy) false
  · rw [he]
    exact hI.authorizeAndFinish (l := TokenStore.pending _) hbusy

/-- The events that may point the client at another server. -/
def Repoints : Event → Prop
  | .checkServer _ => True
  | .restoreSession _ _ => True
  | .keyringTimeout => True
  | _ => False

/-- Every other event keeps what the operations keep. -/
theorem step (h : I s.tokens) (e : Event) (he : ¬Repoints e) : I ((machine P).step s e).tokens := by
  have h : I s.fresh.tokens := h
  show I (s.fresh.handle P e).tokens
  generalize s.fresh = s at h
  cases e with
  | checkServer => exact absurd trivial he
  | restoreSession => exact absurd trivial he
  | keyringTimeout => exact absurd trivial he
  | loginLocal username password => exact hI.loginLocal h username password
  | beginOidc pkce => exact hI.beginOidc h pkce
  | cancelAuth => exact Closed.cancelAuth h
  | logout => exact hI.logout h
  | oidcTimeout => exact Closed.onOidcTimeout h
  | oauthCallback code state error => exact hI.onOauthCallback h code state error
  | reply id raw browser => exact hI.finished h id raw browser
  | external n verb path query body =>
    apply hI.sendHere h
    exact ⟨rfl, makeRequest_bearer s.api verb ⟨s.api.endpoints, path, query⟩, rfl⟩
  | secrets store => exact hI.book _ _ store _ _ _ _ h
  | clock now => exact h

/-! ### Changes of origin -/

theorem load {ts : TokenStore Callback Waiter} (h : I ts) : I (ts.load P).1 := by
  unfold TokenStore.load
  split
  · exact h
  · split
    · dsimp only
      split
      · exact hI.book ts _ _ _ _ _ _ h
      · next ha => exact hI.hold ts _ _ ha h
    · exact hI.book ts _ _ _ _ _ _ h
    · exact h

/-- What also survives every change of origin is kept by every event. -/
theorem everyStep
    (hmove : ∀ (s : AuthManager) (base : QUrl), I s.tokens → I (s.setBaseUrl P base).tokens)
    (hkey : ∀ (ts : TokenStore Callback Waiter) (key : String), I ts → I (ts.setServerKey key))
    (h : I s.tokens) (e : Event) : I ((machine P).step s e).tokens := by
  have hrestore : ∀ s : AuthManager, I s.tokens → I (s.attemptRestore P).1.tokens := by
    intro s h
    apply hI.attemptRestore
    rw [looked_tokens]
    exact hI.load (hI.book _ _ _ _ _ _ _ (hkey _ s.restoreKey (hmove s s.restoreUrl h)))
  by_cases hr : Repoints e
  · have h : I s.fresh.tokens := h
    show I (s.fresh.handle P e).tokens
    generalize s.fresh = s at h
    cases e with
    | checkServer url =>
      refine hI.getHere ?_ rfl _ _
      apply Closed.setState
      exact hI.book _ "" _ _ _ _ _ (hkey _ _ (hI.resetMemory (hmove s.stopWaitingForKeyring url h)))
    | restoreSession url key =>
      exact hrestore {s.stopWaitingForKeyring with restoreUrl := url, restoreKey := key} h
    | keyringTimeout =>
      show I (s.onKeyringTimeout P).tokens
      unfold onKeyringTimeout
      split
      · exact h
      · have hrestored := hrestore {s with keyringRetry := none} h
        dsimp only
        split
        · exact hrestored
        · rw [setState_tokens]
          exact hrestored
    | _ => exact absurd hr id
  · exact hI.step h e hr

end Closed

/-! ### What always holds of the outstanding work -/

/-- The 401 handler is installed, no request is of a later origin, and only a
refresh is barred from asking for one. -/
structure Wired (ts : TokenStore Callback Waiter) : Prop extends AuthManager.Epochs ts where
  handler : ts.api.onUnauthorized = true
  marked : ∀ x ∈ ts.api.inFlight, x.request.noAuthRetry = x.cb.isRefresh
  unmarked : ∀ p, .retry p ∈ ts.pending → p.request.noAuthRetry = false

namespace Wired
variable {P : Platform}

theorem sendImpl {ts : TokenStore Callback Waiter} (h : Wired ts) {r : Request}
    {cb : Handler Callback} (hr : r.noAuthRetry = cb.isRefresh) (retry : Bool) :
    Wired {ts with api := ts.api.sendImpl r cb retry} where
  inFlight x hx := by
    rcases List.mem_cons.mp hx with rfl | hx
    · exact Nat.le_refl _
    · exact h.inFlight x hx
  pending := h.pending
  handler := h.handler
  marked x hx := by
    rcases List.mem_cons.mp hx with rfl | hx
    · exact hr
    · exact h.marked x hx
  unmarked := h.unmarked

theorem closed : Closed P Wired where
  book ts account secrets access refresh expiry refreshing h := { h with }
  fewer ts active inFlight pending hf hp h :=
    { h with
      inFlight := fun x hx => h.inFlight x (hf x hx)
      pending := fun p hp' => h.pending p (hp _ hp')
      marked := fun x hx => h.marked x (hf x hx)
      unmarked := fun p hp' => h.unmarked p (hp _ hp') }
  hold ts access refresh _ h := { h with }
  unbear ts h := { h with }
  send ts request cb hr h := h.sendImpl hr.marked true
  again ts p hp _ _ h := by
    apply h.sendImpl
    exact h.unmarked p hp
  park ts x cb raw hx hcb _ h := by
    refine { h with pending := ?_, unmarked := ?_ }
    · intro p hp
      rcases List.mem_append.mp hp with hp | hp
      · exact h.pending p hp
      · cases List.mem_singleton.mp hp
        exact h.inFlight x hx
    · intro p hp
      rcases List.mem_append.mp hp with hp | hp
      · exact h.unmarked p hp
      · cases List.mem_singleton.mp hp
        rw [h.marked x hx, hcb]
        rfl
  join ts h := by
    refine { h with pending := ?_, unmarked := ?_ }
    · intro p hp
      exact h.pending p (by simpa using hp)
    · intro p hp
      exact h.unmarked p (by simpa using hp)

open AuthManager

theorem setBaseUrl {s : AuthManager} (h : Wired s.tokens) (base : QUrl) :
    Wired (s.setBaseUrl P base).tokens := by
  rcases setBaseUrl_tokens h.toEpochs P base with ⟨_, he⟩ | ⟨r, hr, he⟩
  · rw [he]
    exact h
  · rw [he]
    exact
      { h.toEpochs.moved hr base with
        handler := h.handler
        marked := fun x hx => h.marked x (hr.inFlight x hx)
        unmarked := fun p hp => h.unmarked p (hr.pending _ hp) }

theorem keeps : Machine.Keeps (machine P) (fun _ _ => True) (fun s => Wired s.tokens) :=
  ⟨fun _ e h _ => closed.everyStep (fun _ base h => h.setBaseUrl base) (fun _ _ h => { h with }) h e⟩

theorem launch (secrets : SecureStore) (servers : List ServerRow) (now : Int) :
    Wired (AuthManager.launch secrets servers now).tokens where
  inFlight x hx := by cases hx
  pending p hp := by cases hp
  handler := rfl
  marked x hx := by cases hx
  unmarked p hp := by cases hp

end Wired

end ShelfRemote.Auth
