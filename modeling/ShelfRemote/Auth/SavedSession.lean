import ShelfRemote.Auth.Closed

/-! What a saved session is lost to.

A row of the secrets table goes when the user signs out, when it does not open,
and when the server has said that the session is over. `Costs` lists these. Every
other step keeps every row (`step_kept`), but for one: a refresh that comes to
nothing hands the 401 it held back to whoever waits, and the reply handler of
/api/authorize cannot tell that 401 from a verdict (`Undecided`). -/
namespace ShelfRemote.Auth
open Qt Net Runs

/-- No row is lost. -/
def Kept {κ ω : Type} (ts ts' : TokenStore κ ω) : Prop :=
  ∀ key, ts.secrets.rows key ≠ none → ts'.secrets.rows key ≠ none

namespace Kept
variable {κ ω : Type} {ts ts' ts'' : TokenStore κ ω}

theorem refl (ts : TokenStore κ ω) : Kept ts ts := fun _ h => h

theorem trans (h : Kept ts ts') (h' : Kept ts' ts'') : Kept ts ts'' := fun key hk => h' key (h key hk)

theorem of_secrets (h : ts'.secrets = ts.secrets) : Kept ts ts' := by
  intro key hk
  rw [h]
  exact hk

theorem persist (ts : TokenStore κ ω) : Kept ts ts.persist := by
  unfold TokenStore.persist
  split
  · exact refl ts
  · exact fun key hk => SecureStore.store_rows hk _ _ _

theorem setTokens (P : Platform) (ts : TokenStore κ ω) (access refresh : String) :
    Kept ts (ts.setTokens P access refresh) :=
  (of_secrets rfl).trans (persist (ts.hold P access refresh))

/-- Looking for the tokens costs a row only where it does not open. -/
theorem load (P : Platform) {ts : TokenStore κ ω}
    (h : ts.serverKey ≠ "" → (ts.secrets.retrieve ts.row ts.context).1 ≠ .undecryptable) :
    Kept ts (ts.load P).1 := by
  unfold TokenStore.load
  split
  · exact refl ts
  · next hk =>
    rcases hr : ts.secrets.retrieve ts.row ts.context with ⟨status, tokens⟩
    cases status with
    | ok =>
      dsimp only
      split <;> exact of_secrets rfl
    | missing => exact refl ts
    | undecryptable => exact absurd (by rw [hr]) (h hk)
    | providerUnavailable => exact refl ts

end Kept

namespace AuthManager
variable {P : Platform} {s : AuthManager}

/-! ### Replies -/

theorem applyLoginPayload_kept (P : Platform) (s : AuthManager) (payload : Json) :
    Kept s.tokens (s.applyLoginPayload P payload).tokens := by
  unfold applyLoginPayload
  dsimp only
  split
  · rw [setError_tokens]
    exact Kept.refl _
  · have hset := Kept.setTokens P (s.tokens.setAccount (((payload.value "user").toObject.value "id").toString ""))
      (TokenStore.replyToken payload "accessToken") (TokenStore.replyToken payload "refreshToken")
    exact fun key hk => hset key hk

/-- Only the reply to /api/authorize costs a row, and only as a 401 or 403 of the
current server. -/
theorem call_kept (P : Platform) (s : AuthManager) {cb : Callback} {res : ApiResponse} (browser : Bool)
    (h : cb = .authorize → res.stale = false → res.status ≠ 401 ∧ res.status ≠ 403) :
    Kept s.tokens (s.call P cb res browser).tokens := by
  cases cb with
  | status =>
    simp only [call, onStatus]
    split_ifs <;> simp [Kept.refl]
  | login =>
    simp only [call, onLogin]
    split_ifs
    · exact Kept.refl _
    · simp [Kept.refl]
    · exact applyLoginPayload_kept P s _
  | openidStart attempt =>
    simp only [call, onOpenidStart]
    split
    · exact Kept.refl _
    · split
      · simp [Kept.refl]
      · split_ifs <;> simp [Kept.refl]
  | openidCallback =>
    simp only [call, onOpenidCallback]
    split_ifs
    · exact Kept.refl _
    · simp [Kept.refl]
    · exact applyLoginPayload_kept P {s with oidcInProgress := false} _
  | authorize =>
    rcases onAuthorize_tokens P s res with ht | ⟨hs, _, h4, _⟩ | ⟨account, ht⟩
    · rw [call, ht]
      exact Kept.refl _
    · have := h rfl hs
      exact absurd h4 (by simp [this])
    · rw [call, ht]
      exact (Kept.of_secrets rfl).trans (Kept.persist (s.tokens.setAccount account))
  | logout =>
    simp only [call, onLogout]
    split_ifs <;> exact Kept.refl _
  | other n => exact Kept.refl _

/-- The origin does not change while closures run. -/
theorem epoch_closed (P : Platform) (epoch : Nat) :
    Closed P (fun ts : TokenStore Callback Waiter => ts.api.epoch = epoch) where
  book _ _ _ _ _ _ _ h := h
  fewer _ _ _ _ _ _ h := h
  hold _ _ _ _ h := h
  unbear _ h := h
  send _ _ _ _ h := h
  again _ _ _ _ _ h := h
  park _ _ _ _ _ _ _ h := h
  join _ h := h

/-- A waiter that holds back a 401 of /api/authorize, sent in `epoch`. -/
def holdsVerdict (epoch : Nat) : Waiter → Bool
  | .restore => false
  | .retry p => p.cb == .authorize && p.epoch == epoch

theorem tell_kept (P : Platform) (s : AuthManager) {w : Waiter} {ok : Bool} (browser : Bool)
    (h : ok = false → holdsVerdict s.api.epoch w = false) :
    Kept s.tokens (s.tell P ok browser w).tokens := by
  cases w with
  | restore =>
    simp only [tell]
    split
    · exact Kept.of_secrets rfl
    · rw [setState_tokens]
      exact Kept.refl _
  | retry p =>
    rw [tell_retry]
    split
    · next hc =>
      apply call_kept
      intro hcb hstale
      -- The 401 held back is of this origin, so the refresh did not succeed.
      have he : p.epoch = s.api.epoch := by
        simp only [Bool.or_eq_false_iff, bne_eq_false_iff_eq] at hstale
        exact hstale.2
      have hok : ok = false := by simpa [he] using hc
      have hno := h hok
      simp [holdsVerdict, hcb, he] at hno
    · exact Kept.of_secrets rfl

theorem tell_epoch (P : Platform) (s : AuthManager) (w : Waiter) (ok browser : Bool) :
    (s.tell P ok browser w).api.epoch = s.api.epoch := by
  have hI := epoch_closed P s.api.epoch
  cases w with
  | restore =>
    simp only [tell]
    split
    · rfl
    · simp [api]
  | retry p =>
    rw [tell_retry]
    split
    · exact hI.call (l := s.tokens.pending) rfl ..
    · rfl

theorem settle_kept (P : Platform) (s : AuthManager) {t : Settled Waiter} (browser : Bool)
    (h : t.ok = false → ∀ w ∈ t.waiters, holdsVerdict s.api.epoch w = false) :
    Kept s.tokens (s.settle P t browser).tokens := by
  have hall : Kept s.tokens (s.settle P t browser).tokens ∧ (s.settle P t browser).api.epoch = s.api.epoch := by
    apply settle_keeps (I := fun s' => Kept s.tokens s'.tokens ∧ s'.api.epoch = s.api.epoch) _ _
      ⟨Kept.refl _, rfl⟩
    · intro s' hs
      simpa [api] using hs
    · intro s' hs w hw
      refine ⟨hs.1.trans (tell_kept P s' browser fun ho => ?_), (tell_epoch P s' w t.ok browser).trans hs.2⟩
      rw [hs.2]
      exact h ho w hw
  exact hall.1

/-! ### The exchange with the server -/

/-- The row a restore of `key` would look for is there and does not open. -/
def Unreadable (s : AuthManager) (key : String) : Prop :=
  (s.tokens.secrets.retrieve (tokensKey key)
    { serverId := key, accountId := accountOf s.servers key, credType := "tokens" }).1 = .undecryptable

instance (s : AuthManager) (key : String) : Decidable (s.Unreadable key) :=
  inferInstanceAs (Decidable (_ = _))

/-- Some request of this origin to /api/authorize waits with its 401 held back. -/
def VerdictHeld (s : AuthManager) : Prop :=
  ∃ w ∈ s.tokens.pending, holdsVerdict s.api.epoch w = true

instance (s : AuthManager) : Decidable s.VerdictHeld := inferInstanceAs (Decidable (∃ w ∈ _, _))

/-- The server has said that the session is over: it refused the refresh token, or
said 403 to /api/authorize, or 401 once more after a refresh or with no refresh
token to use. -/
def Verdict (s : AuthManager) (x : Exchange (Handler Callback)) (raw : RawReply) : Prop :=
  match x.cb with
  | .refresh _ => TokenStore.Refused raw.status
  | .call .authorize =>
    raw.status = 403 ∨ raw.status = 401 ∧ (x.allowRetry = false ∨ s.tokens.refreshToken = "")
  | .call _ => False

instance (s : AuthManager) (x : Exchange (Handler Callback)) (raw : RawReply) :
    Decidable (s.Verdict x raw) :=
  match hcb : x.cb with
  | .refresh _ => decidable_of_iff (TokenStore.Refused raw.status) (by simp only [Verdict, hcb])
  | .call cb =>
    decidable_of_iff
      (cb = .authorize ∧ (raw.status = 403 ∨
        raw.status = 401 ∧ (x.allowRetry = false ∨ s.tokens.refreshToken = "")))
      (by cases cb <;> simp [Verdict, hcb])

theorem refreshReply_kept (P : Platform) (s : AuthManager) {key : String} {res : ApiResponse}
    (browser : Bool) (h : s.VerdictHeld → s.tokens.Adopts key res) :
    Kept s.tokens (s.refreshReply P key res browser).tokens := by
  unfold refreshReply
  rcases s.tokens.refreshReply_cases P key res with ⟨_, he⟩ | ⟨hno, failed, he⟩
  · rw [he]
    dsimp only [TokenStore.settle]
    refine Kept.trans ?_ (settle_kept P _ browser ?_)
    · exact fun key hk => Kept.setTokens P s.tokens _ _ key hk
    · intro ho
      cases ho
  · rw [he]
    dsimp only [TokenStore.settle]
    refine Kept.trans ?_ (settle_kept P _ browser ?_)
    · exact fun key hk => hk
    · intro _ w hw
      by_contra hv
      exact hno (h ⟨w, hw, eq_true_of_ne_false hv⟩)

theorem refresh_kept (P : Platform) (s : AuthManager) {w : Waiter} (browser : Bool)
    (h : s.tokens.refreshToken = "" → holdsVerdict s.api.epoch w = false) :
    Kept s.tokens (s.refresh P w browser).tokens := by
  rcases refresh_cases P s w browser with ⟨hr, he⟩ | ⟨_, he⟩ | ⟨_, he⟩
  · rw [he]
    apply settle_kept
    intro _ v hv
    rw [List.mem_singleton.mp hv]
    exact h hr
  · rw [he]
    exact fun key hk => hk
  · rw [he]
    exact fun key hk => hk

/-- A refresh comes to nothing and the server has not refused it, while a 401 of
/api/authorize is held back for its outcome. -/
def Undecided (s : AuthManager) : Event → Prop
  | .reply id raw _ =>
    s.VerdictHeld ∧ ¬TokenStore.Refused raw.status ∧
      Picked (fun x => ∃ key ∈ x.cb.refreshKey, ¬s.tokens.Adopts key (s.api.response x raw))
        (pick (fun x => x.id == id) s.api.inFlight)
  | _ => False

/-- What a saved session may be lost to: signing out, a verdict of the server, a
row that does not open. What happens to the secrets table from outside is not the
doing of these components. -/
def Costs (s : AuthManager) : Event → Prop
  | .logout => True
  | .reply id raw _ =>
    Picked (fun x => s.Verdict x raw) (pick (fun x => x.id == id) s.api.inFlight)
  | .restoreSession _ key => s.Unreadable key
  | .keyringTimeout => s.Unreadable s.restoreKey
  | .secrets _ => True
  | _ => False

theorem finished_kept (hw : Wired s.tokens) {id : Nat} {raw : RawReply} {browser : Bool}
    (hno : ¬s.Costs (.reply id raw browser)) (hun : ¬s.Undecided (.reply id raw browser)) :
    Kept s.tokens (s.finished P id raw browser).tokens := by
  rcases finished_cases P s id raw browser with he | ⟨x, rest, hpick, hcase⟩
  · rw [he]
    exact Kept.refl _
  · simp only [Costs, Undecided, hpick, Picked, Verdict] at hno hun
    have hmarked := hw.marked x (pick_mem hpick)
    rcases hcase with ⟨key, hcb, he⟩ | ⟨cb, hcb, ha, he⟩ | ⟨cb, hcb, ha, he⟩
    · rw [he]
      simp only [hcb] at hno hun
      have hadopts : s.VerdictHeld → s.tokens.Adopts key (s.api.response x raw) := by
        intro hv
        by_contra hn
        exact hun ⟨hv, hno, key, rfl, hn⟩
      refine refreshReply_kept P (s.without x rest) browser fun hv => ?_
      have ha := hadopts hv
      exact ⟨ha.fresh, ha.key, ha.ok, ha.access⟩
    · rw [he]
      refine refresh_kept P (s.without x rest) browser fun hr => ?_
      have h401 : raw.status = 401 := by
        simp [ApiClient.asksRefresh, ApiClient.response, buildResponse] at ha
        exact ha.1.1.1.1
      cases cb with
      | authorize =>
        simp only [hcb] at hno
        exact absurd (.inr ⟨h401, .inr hr⟩) hno
      | _ => rfl
    · rw [he]
      apply call_kept P (s.without x rest)
      intro hauth hstale
      simp only [hcb, hauth, not_or, not_and] at hno
      refine ⟨fun h401 => ?_, hno.1⟩
      -- A first 401 of this origin would have asked for a refresh.
      have hmark : x.request.noAuthRetry = false := by rw [hmarked, hcb, Handler.isRefresh]
      have hretry : x.allowRetry = false := by
        cases hr : x.allowRetry
        · rfl
        · have hhandler : s.api.onUnauthorized = true := hw.handler
          simp [ApiClient.asksRefresh, hr, hmark, hhandler, hstale, h401] at ha
      exact (hno.2 h401).1 hretry

/-! ### Calls of the user and timers -/

theorem setBaseUrl_kept (hw : Wired s.tokens) (P : Platform) (base : QUrl) :
    (s.setBaseUrl P base).tokens.secrets = s.tokens.secrets := by
  rcases setBaseUrl_tokens hw.toEpochs P base with ⟨_, he⟩ | ⟨r, _, he⟩
  · rw [he]
  · rw [he]
    rfl

theorem attemptRestore_kept (hw : Wired s.tokens) (P : Platform) (h : ¬s.Unreadable s.restoreKey) :
    Kept s.tokens (s.attemptRestore P).1.tokens := by
  have hpoint : (s.pointAt P).tokens.secrets = s.tokens.secrets := setBaseUrl_kept hw P s.restoreUrl
  have hlooked : Kept s.tokens (s.looked P).tokens := by
    rw [looked_tokens]
    refine (Kept.of_secrets hpoint).trans (Kept.load P fun _ => ?_)
    have hservers := setBaseUrl_servers hw.toEpochs P s.restoreUrl
    rw [hpoint]
    show (s.tokens.secrets.retrieve (tokensKey s.restoreKey)
      { serverId := s.restoreKey, accountId := accountOf (s.setBaseUrl P s.restoreUrl).servers s.restoreKey,
        credType := "tokens" }).1 ≠ _
    rw [hservers]
    exact h
  refine hlooked.trans ?_
  have hbusy : ((s.looked P).stopWaitingForKeyring.setState .authenticating).tokens = (s.looked P).tokens :=
    setState_tokens _
  rcases attemptRestore_cases P s with ⟨_, he | he⟩ | ⟨_, he | he⟩
  · rw [he, waitForKeyring_tokens]
    exact Kept.refl _
  · rw [he]
    exact Kept.refl _
  · rw [he, ← hbusy]
    exact refresh_kept P _ false fun _ => rfl
  · rw [he, ← hbusy]
    exact Kept.of_secrets rfl

theorem onKeyringTimeout_kept (hw : Wired s.tokens) (P : Platform) (h : ¬s.Unreadable s.restoreKey) :
    Kept s.tokens (s.onKeyringTimeout P).tokens := by
  unfold onKeyringTimeout
  split
  · exact Kept.refl _
  · have hrestored := attemptRestore_kept (s := {s with keyringRetry := none}) hw P h
    dsimp only
    split
    · exact hrestored
    · rw [setState_tokens]
      exact hrestored

theorem checkServer_secrets (hw : Wired s.tokens) (P : Platform) (url : QUrl) :
    (s.checkServer P url).tokens.secrets = s.tokens.secrets := by
  unfold checkServer
  rw [get_secrets, setState_tokens]
  exact setBaseUrl_kept (s := s.stopWaitingForKeyring) hw P url

theorem loginLocal_secrets (s : AuthManager) (username password : String) :
    (s.loginLocal username password).tokens.secrets = s.tokens.secrets := by
  simp [loginLocal]

theorem beginOidc_secrets (s : AuthManager) (pkce : Pkce) :
    (s.beginOidc pkce).tokens.secrets = s.tokens.secrets := by
  unfold beginOidc
  split <;> simp

theorem cancelAuth_secrets (s : AuthManager) : s.cancelAuth.tokens.secrets = s.tokens.secrets := by
  unfold cancelAuth
  dsimp only
  split <;> simp

theorem onOidcTimeout_secrets (s : AuthManager) :
    s.onOidcTimeout.tokens.secrets = s.tokens.secrets := by
  unfold onOidcTimeout
  split
  · rfl
  · dsimp only
    split <;> simp

theorem onOauthCallback_secrets (s : AuthManager) (code state error : String) :
    (s.onOauthCallback code state error).tokens.secrets = s.tokens.secrets := by
  unfold onOauthCallback
  dsimp only
  split_ifs <;> simp [exchangeCode]

/-- One event costs a row only for a reason, or by the defect. -/
theorem step_kept (hw : Wired s.tokens) {e : Event} (hno : ¬s.Costs e) (hun : ¬s.Undecided e) :
    Kept s.tokens ((machine P).step s e).tokens := by
  have hw : Wired s.fresh.tokens := hw
  cases e with
  | checkServer url => exact Kept.of_secrets (checkServer_secrets hw P url)
  | loginLocal username password => exact Kept.of_secrets (loginLocal_secrets s.fresh username password)
  | beginOidc pkce => exact Kept.of_secrets (beginOidc_secrets s.fresh pkce)
  | cancelAuth => exact Kept.of_secrets (cancelAuth_secrets s.fresh)
  | logout => exact absurd trivial hno
  | restoreSession url key =>
    exact attemptRestore_kept
      (s := {s.fresh.stopWaitingForKeyring with restoreUrl := url, restoreKey := key}) hw P hno
  | keyringTimeout => exact onKeyringTimeout_kept hw P hno
  | oidcTimeout => exact Kept.of_secrets (onOidcTimeout_secrets s.fresh)
  | oauthCallback code state error =>
    exact Kept.of_secrets (onOauthCallback_secrets s.fresh code state error)
  | reply id raw browser => exact finished_kept (s := s.fresh) hw hno hun
  | external n verb path query body => exact Kept.refl _
  | secrets store => exact absurd trivial hno
  | clock now => exact Kept.refl _

/-- **A saved session.** In a run in which no refresh comes to nothing while a 401
of /api/authorize waits for it, every step keeps every row of the secrets table,
unless it is a sign-out, a verdict of the server or a row that does not open. -/
theorem saved_session_kept (P : Platform) (secrets : SecureStore) (servers : List ServerRow)
    (now : Int) (events : List Event)
    (h : (machine P).Along (fun s e => ¬s.Undecided e) (launch secrets servers now) events) :
    (machine P).Along (fun s e => Kept s.tokens ((machine P).step s e).tokens ∨ s.Costs e)
      (launch secrets servers now) events := by
  have hkeeps : Machine.Keeps (machine P) (fun s e => ¬s.Undecided e) (fun s => Wired s.tokens) :=
    ⟨fun s e hw _ => Wired.keeps.step s e hw trivial⟩
  refine hkeeps.along ?_ (Wired.launch secrets servers now) h
  intro s e hw hun
  by_cases hno : s.Costs e
  · exact .inr hno
  · exact .inl (step_kept hw hno hun)

instance (s : AuthManager) (e : Event) : Decidable (s.Costs e) :=
  match e with
  | .logout | .secrets _ => .isTrue trivial
  | .reply id raw _ =>
    inferInstanceAs (Decidable (Picked (fun x => s.Verdict x raw)
      (pick (fun x => x.id == id) s.api.inFlight)))
  | .restoreSession _ key => inferInstanceAs (Decidable (s.Unreadable key))
  | .keyringTimeout => inferInstanceAs (Decidable (s.Unreadable s.restoreKey))
  | .checkServer _ | .loginLocal _ _ | .beginOidc _ | .cancelAuth | .oidcTimeout | .oauthCallback _ _ _
  | .external _ _ _ _ _ | .clock _ => .isFalse id

instance (s : AuthManager) (e : Event) : Decidable (s.Undecided e) :=
  match e with
  | .reply id raw _ =>
    inferInstanceAs (Decidable (s.VerdictHeld ∧ ¬TokenStore.Refused raw.status ∧
      Picked (fun x => ∃ key ∈ x.cb.refreshKey, ¬s.tokens.Adopts key (s.api.response x raw))
        (pick (fun x => x.id == id) s.api.inFlight)))
  | .checkServer _ | .loginLocal _ _ | .beginOidc _ | .cancelAuth | .logout | .restoreSession _ _
  | .keyringTimeout | .oidcTimeout | .oauthCallback _ _ _ | .external _ _ _ _ _ | .secrets _ | .clock _ =>
    .isFalse id

/-- A sign-in whose verification is answered 401. -/
def unverified : List Event :=
  (signIn {scheme := "https", host := "a"} "access" "refresh").dropLast ++ [.reply 2 {status := 401} true]

/-- The refresh that follows times out and the row is gone. -/
theorem saved_session_lost :
    ¬(machine default).Along (fun s e => Kept s.tokens ((machine default).step s e).tokens ∨ s.Costs e)
      (launch {} [] 0)
      (unverified ++ [.reply 3 {status := 0, error := some "Operation timed out"} true]) := by
  intro h
  rcases ((Machine.along_append _ unverified _).mp h).2.1 with hkept | hcosts
  · exact absurd (hkept "a/tokens" (by decide)) (by decide)
  · exact absurd hcosts (by decide)

/-- The refresh that follows brings new tokens and nothing is lost. -/
theorem saved_session_kept_refreshed :
    (machine default).Along (fun s e => Kept s.tokens ((machine default).step s e).tokens ∨ s.Costs e)
      (launch {} [] 0)
      (unverified ++
        [.reply 3 {status := 200, body := .object [("accessToken", .string "access2")]} true]) :=
  saved_session_kept default {} [] 0
    (unverified ++ [.reply 3 {status := 200, body := .object [("accessToken", .string "access2")]} true])
    (by decide)

end AuthManager

end ShelfRemote.Auth
