import ShelfRemote.Auth.Closed

/-! What leaves a browser handoff alone.

An OIDC attempt spans two processes: the program asks for the page of the
identity provider, the browser shows it, and a callback comes back with a code,
which is exchanged for tokens. Here are all the handlers that send no exchange:
after them an attempt that goes on is the one that was (`Quiet`), and but for the
two that configure a server, it goes on at the same server (`Calm`). -/
namespace ShelfRemote.Auth
open Qt Net Runs

def Handler.isFor (cb : Callback) : Handler Callback → Bool
  | .refresh _ => false
  | .call c => c == cb

def Waiter.isFor (cb : Callback) : Waiter → Bool
  | .restore => false
  | .retry p => p.cb == cb

/-- The code exchanges among these requests. -/
def exchanges (l : List (Exchange (Handler Callback))) : List (Exchange (Handler Callback)) :=
  l.filter fun x => x.cb.isFor .openidCallback

namespace AuthManager
variable {P : Platform} {s s' s'' : AuthManager}

/-- The keyring timer retries the server that is configured. -/
def Rooted (s : AuthManager) : Prop :=
  s.keyringRetry ≠ none → s.api.endpoints = Endpoints.setBase s.restoreUrl

/-- No code exchange goes out, and an attempt that goes on is the one that was. -/
structure Quiet (s s' : AuthManager) : Prop where
  oidc : s'.oidcInProgress = true → s.oidcInProgress = true
  pkce : s'.pkce = s.pkce
  wire : exchanges s'.api.wire = exchanges s.api.wire
  created : s.api.created ≤ s'.api.created

/-- Nor is another server configured. -/
structure Calm (s s' : AuthManager) : Prop extends Quiet s s' where
  base : s'.api.endpoints = s.api.endpoints
  rooted : s.Rooted → s'.Rooted

theorem Quiet.trans (h : Quiet s s') (h' : Quiet s' s'') : Quiet s s'' where
  oidc ho := h.oidc (h'.oidc ho)
  pkce := h'.pkce.trans h.pkce
  wire := h'.wire.trans h.wire
  created := h.created.trans h'.created

theorem Calm.refl (s : AuthManager) : Calm s s := ⟨⟨id, rfl, rfl, Nat.le_refl _⟩, rfl, id⟩

theorem Calm.trans (h : Calm s s') (h' : Calm s' s'') : Calm s s'' where
  toQuiet := h.toQuiet.trans h'.toQuiet
  base := h'.base.trans h.base
  rooted hr := h'.rooted (h.rooted hr)

/-! ### Setters -/

/-- The tokens change, but not what the client has sent. -/
theorem Calm.of_tokens {tokens : TokenStore Callback Waiter}
    (ha : tokens.api.endpoints = s.api.endpoints) (hw : tokens.api.wire = s.api.wire)
    (hc : tokens.api.created = s.api.created) : Calm s {s with tokens} := by
  refine ⟨⟨id, rfl, ?_, ?_⟩, ha, fun hr hk => ?_⟩
  · show exchanges tokens.api.wire = _
    rw [hw]
  · exact Nat.le_of_eq hc.symm
  · show tokens.api.endpoints = _
    rw [ha]
    exact hr hk

theorem setState_calm (s : AuthManager) (state : State) : Calm s (s.setState state) := by
  rw [setState_eq]
  exact ⟨⟨id, rfl, rfl, Nat.le_refl _⟩, rfl, id⟩

theorem Calm.setState (h : Calm s s') (state : State) : Calm s (s'.setState state) :=
  h.trans (setState_calm s' state)

theorem setLastError_calm (s : AuthManager) (msg : String) : Calm s (s.setLastError msg) :=
  ⟨⟨id, rfl, rfl, Nat.le_refl _⟩, rfl, id⟩

theorem setError_calm (s : AuthManager) (msg : String) : Calm s (s.setError msg) :=
  (setLastError_calm s msg).setState .error

theorem stopWaiting_calm (s : AuthManager) : Calm s s.stopWaitingForKeyring :=
  ⟨⟨id, rfl, rfl, Nat.le_refl _⟩, rfl, fun _ hk => absurd rfl hk⟩

/-- The attempt ends. -/
theorem ended_calm (s : AuthManager) : Calm s {s with oidcInProgress := false} :=
  ⟨⟨fun ho => absurd ho Bool.false_ne_true, rfl, rfl, Nat.le_refl _⟩, rfl, id⟩

theorem stopTimer_calm (s : AuthManager) : Calm s {s with oidcTimeout := none} :=
  ⟨⟨id, rfl, rfl, Nat.le_refl _⟩, rfl, id⟩

/-! ### Sending -/

theorem sendImpl_calm (s : AuthManager) (r : Request) {cb : Handler Callback}
    (hcb : cb.isFor .openidCallback = false) (retry : Bool) :
    Calm s (s.withApi (s.api.sendImpl r cb retry)) := by
  refine ⟨⟨id, rfl, ?_, Nat.le_succ _⟩, rfl, id⟩
  show exchanges (_ :: s.api.wire) = exchanges s.api.wire
  simp [exchanges, hcb]

theorem send_calm (s : AuthManager) (r : Request) {cb : Callback} (hcb : cb ≠ .openidCallback) :
    Calm s (s.send r cb) :=
  sendImpl_calm s r (by simpa [Handler.isFor] using hcb) true

theorem Calm.send (h : Calm s s') (r : Request) {cb : Callback} (hcb : cb ≠ .openidCallback) :
    Calm s (s'.send r cb) :=
  h.trans (send_calm s' r hcb)

/-! ### Replies -/

theorem applyLoginPayload_calm (P : Platform) (s : AuthManager) (payload : Json) :
    Calm s (s.applyLoginPayload P payload) := by
  unfold applyLoginPayload
  dsimp only
  split
  · exact setError_calm s _
  · apply Calm.send
    · refine ⟨⟨id, rfl, ?_, ?_⟩, ?_, fun hr hk => ?_⟩
      · simp [api, TokenStore.setAccount, ApiClient.setAccessToken]
      · simp [api, TokenStore.setAccount, ApiClient.setAccessToken]
      · simp [api, TokenStore.setAccount, ApiClient.setAccessToken]
      · simpa [api, TokenStore.setAccount, ApiClient.setAccessToken] using hr hk
    · decide

theorem onAuthorize_calm (P : Platform) (s : AuthManager) (res : ApiResponse) :
    Calm s (s.onAuthorize P res) := by
  have hsame : (s.onAuthorize P res).oidcInProgress = s.oidcInProgress ∧
      (s.onAuthorize P res).pkce = s.pkce ∧ (s.onAuthorize P res).keyringRetry = s.keyringRetry ∧
      (s.onAuthorize P res).restoreUrl = s.restoreUrl := by
    unfold onAuthorize
    simp only [setState_eq]
    split_ifs <;> exact ⟨rfl, rfl, rfl, rfl⟩
  obtain ⟨ho, hp, hk, hu⟩ := hsame
  have htokens : (s.onAuthorize P res).api.endpoints = s.api.endpoints ∧
      (s.onAuthorize P res).api.wire = s.api.wire ∧
      (s.onAuthorize P res).api.created = s.api.created := by
    simp only [api]
    rcases onAuthorize_tokens P s res with ht | ⟨_, _, _, ht⟩ | ⟨account, ht⟩ <;>
      simp [ht, ApiClient.setAccessToken, TokenStore.setAccount]
  obtain ⟨ha, hw, hc⟩ := htokens
  refine ⟨⟨fun h => by rwa [ho] at h, hp, by rw [hw], Nat.le_of_eq hc.symm⟩, ha, fun hr h => ?_⟩
  rw [hk] at h
  rw [ha, hu]
  exact hr h

theorem call_calm (P : Platform) (s : AuthManager) (cb : Callback) (res : ApiResponse)
    (browser : Bool) : Calm s (s.call P cb res browser) := by
  cases cb with
  | status =>
    simp only [call, onStatus]
    split
    · exact Calm.refl s
    · split
      · exact setError_calm s _
      · apply Calm.setState
        exact ⟨⟨id, rfl, rfl, Nat.le_refl _⟩, rfl, id⟩
  | login =>
    simp only [call, onLogin]
    split_ifs
    · exact Calm.refl s
    · apply Calm.setState
      exact ⟨⟨id, rfl, rfl, Nat.le_refl _⟩, rfl, id⟩
    · exact applyLoginPayload_calm P s _
  | openidStart attempt =>
    have habandon : ∀ msg,
        Calm s (({s with oidcInProgress := false}.setLastError msg).setState .needsLogin) :=
      fun msg => ((ended_calm s).trans (setLastError_calm _ msg)).setState _
    simp only [call, onOpenidStart]
    split
    · exact ended_calm s
    · split
      · exact habandon _
      · split_ifs
        · exact habandon _
        · exact habandon _
        · exact ⟨⟨id, rfl, rfl, Nat.le_refl _⟩, rfl, id⟩
        · exact habandon _
  | openidCallback =>
    simp only [call, onOpenidCallback]
    split_ifs
    · exact ended_calm s
    · exact (ended_calm s).trans (setError_calm _ _)
    · exact (ended_calm s).trans (applyLoginPayload_calm P _ _)
  | authorize => exact onAuthorize_calm P s res
  | logout =>
    simp only [call, onLogout]
    split_ifs <;> exact ⟨⟨id, rfl, rfl, Nat.le_refl _⟩, rfl, id⟩
  | other n => exact Calm.refl s

/-- Telling a waiter is calm, unless it sends an exchange again. -/
theorem tell_calm (P : Platform) (s : AuthManager) {w : Waiter} {ok : Bool} (browser : Bool)
    (hw : ok = true → w.isFor .openidCallback = false) : Calm s (s.tell P ok browser w) := by
  cases w with
  | restore =>
    simp only [tell]
    split
    · exact send_calm s _ (by decide)
    · exact setState_calm s _
  | retry p =>
    rw [tell_retry]
    split
    · exact call_calm ..
    · next hc =>
      have hok : ok = true := by
        cases ok
        · exact absurd rfl hc
        · rfl
      have hcb : (Handler.call p.cb).isFor .openidCallback = false := hw hok
      exact sendImpl_calm s _ hcb false

theorem settle_calm (P : Platform) (s : AuthManager) {t : Settled Waiter} (browser : Bool)
    (ht : t.ok = true → ∀ w ∈ t.waiters, w.isFor .openidCallback = false) :
    Calm s (s.settle P t browser) := by
  apply settle_keeps (I := Calm s) _ _ (Calm.refl s)
  · exact fun s' h => h.setState .needsLogin
  · exact fun s' h w hw => h.trans (tell_calm P s' browser fun ho => ht ho w hw)

theorem Calm.settle (h : Calm s s') (P : Platform) {t : Settled Waiter} (browser : Bool)
    (ht : t.ok = true → ∀ w ∈ t.waiters, w.isFor .openidCallback = false) :
    Calm s (s'.settle P t browser) :=
  h.trans (settle_calm P s' browser ht)

theorem refreshReply_calm (P : Platform) (s : AuthManager) (key : String) (res : ApiResponse)
    (browser : Bool)
    (hp : s.tokens.Adopts key res → ∀ w ∈ s.tokens.pending, w.isFor .openidCallback = false) :
    Calm s (s.refreshReply P key res browser) := by
  unfold refreshReply
  rcases s.tokens.refreshReply_cases P key res with ⟨hadopts, he⟩ | ⟨_, failed, he⟩
  · rw [he]
    dsimp only [TokenStore.settle]
    apply Calm.settle
    · apply Calm.of_tokens <;> simp [api, ApiClient.setAccessToken]
    · intro _ w hw
      rw [TokenStore.setTokens_pending] at hw
      exact hp hadopts w hw
  · rw [he]
    dsimp only [TokenStore.settle]
    apply Calm.settle
    · exact Calm.of_tokens rfl rfl rfl
    · exact fun ho => absurd ho Bool.false_ne_true

theorem refresh_calm (P : Platform) (s : AuthManager) (w : Waiter) (browser : Bool) :
    Calm s (s.refresh P w browser) := by
  rcases refresh_cases P s w browser with ⟨_, he⟩ | ⟨_, he⟩ | ⟨_, he⟩
  · rw [he]
    exact settle_calm P _ browser fun ho => absurd ho Bool.false_ne_true
  · rw [he]
    exact Calm.of_tokens rfl rfl rfl
  · rw [he]
    have hsend := sendImpl_calm s s.tokens.refreshRequest
      (show (Handler.refresh s.tokens.serverKey).isFor .openidCallback = false from rfl) true
    exact hsend.trans (Calm.of_tokens rfl rfl rfl)

/-- The refresh succeeds for which an exchange waits that was answered 401. -/
def Resends (s : AuthManager) (id : Nat) (raw : RawReply) : Prop :=
  (∃ w ∈ s.tokens.pending, w.isFor .openidCallback = true) ∧
    Picked (fun x => ∃ key ∈ x.cb.refreshKey, s.tokens.Adopts key (s.api.response x raw))
      (pick (fun x => x.id == id) s.api.inFlight)

instance (s : AuthManager) (id : Nat) (raw : RawReply) : Decidable (s.Resends id raw) :=
  inferInstanceAs (Decidable (_ ∧ _))

theorem finished_calm (P : Platform) (s : AuthManager) {id : Nat} {raw : RawReply} (browser : Bool)
    (hr : ¬s.Resends id raw) : Calm s (s.finished P id raw browser) := by
  rcases finished_cases P s id raw browser with he | ⟨x, rest, hpick, hcase⟩
  · rw [he]
    exact Calm.refl s
  · have hdrop : Calm s (s.without x rest) := Calm.of_tokens rfl rfl rfl
    rcases hcase with ⟨key, hcb, he⟩ | ⟨cb, _, _, he⟩ | ⟨cb, _, _, he⟩
    · rw [he]
      refine hdrop.trans (refreshReply_calm P _ key _ browser fun hadopts w hw => ?_)
      simp only [Resends, hpick, Picked, hcb] at hr
      cases hf : w.isFor .openidCallback
      · rfl
      · refine absurd ⟨⟨w, hw, hf⟩, key, rfl, ?_⟩ hr
        exact ⟨hadopts.fresh, hadopts.key, hadopts.ok, hadopts.access⟩
    · rw [he]
      exact hdrop.trans (refresh_calm ..)
    · rw [he]
      exact hdrop.trans (call_calm ..)

/-! ### Configuring a server -/

/-- Wherever the client pointed, it points at this server now. -/
theorem setBaseUrl_quiet (h : Epochs s.tokens) (P : Platform) (base : QUrl) :
    Quiet s (s.setBaseUrl P base) ∧ (s.setBaseUrl P base).api.endpoints = Endpoints.setBase base ∧
      (s.setBaseUrl P base).keyringRetry = s.keyringRetry ∧
      (s.setBaseUrl P base).restoreUrl = s.restoreUrl := by
  rcases setBaseUrl_cases h P base with ⟨hb, he⟩ | ⟨r, hr, he⟩
  · rw [he]
    refine ⟨(Calm.refl s).toQuiet, ?_, rfl, rfl⟩
    rw [← hb]
    exact (Endpoints.setBase_base s.api.endpoints).symm
  · rw [he]
    unfold leave
    cases hf : r.failed
    · exact ⟨⟨hr.oidc, rfl, rfl, Nat.le_refl _⟩, rfl, rfl, rfl⟩
    · simp only [if_true, setState_eq]
      exact ⟨⟨hr.oidc, rfl, rfl, Nat.le_refl _⟩, rfl, rfl, rfl⟩

theorem waitForKeyring_calm (s : AuthManager) (h : s.api.endpoints = Endpoints.setBase s.restoreUrl) :
    Calm s s.waitForKeyring := by
  unfold waitForKeyring
  split
  · exact ((stopWaiting_calm s).trans (setLastError_calm _ _)).setState _
  · dsimp only
    rw [setState_eq]
    exact ⟨⟨id, rfl, rfl, Nat.le_refl _⟩, rfl, fun _ _ => h⟩

theorem load_calm (P : Platform) (s : AuthManager) : Calm s {s with tokens := (s.tokens.load P).1} := by
  apply Calm.of_tokens <;> unfold TokenStore.load <;> split_ifs <;> try rfl
  all_goals
    split
    · dsimp only
      split <;> rfl
    · rfl
    · rfl

theorem onLoad_calm (s : AuthManager) (status : RetrieveStatus) : Calm s (s.onLoad status) := by
  unfold onLoad
  split
  · exact (setLastError_calm s _).setState _
  · exact ⟨⟨id, rfl, rfl, Nat.le_refl _⟩, rfl, id⟩
  · exact Calm.refl s

theorem onLoad_restoreUrl (s : AuthManager) (status : RetrieveStatus) :
    (s.onLoad status).restoreUrl = s.restoreUrl := by
  unfold onLoad
  split
  · rw [setState_eq]
    rfl
  · rfl
  · rfl

/-- What a restore does once it points at its server. -/
theorem attemptRestore_calm (P : Platform) (s : AuthManager)
    (h : (s.pointAt P).api.endpoints = Endpoints.setBase (s.pointAt P).restoreUrl) :
    Calm (s.pointAt P) (s.attemptRestore P).1 := by
  have hlooked : Calm (s.pointAt P) (s.looked P) := (load_calm P _).trans (onLoad_calm _ _)
  have hgone : Calm (s.pointAt P) ((s.looked P).stopWaitingForKeyring.setState .authenticating) :=
    (hlooked.trans (stopWaiting_calm _)).setState _
  rcases attemptRestore_cases P s with ⟨_, he | he⟩ | ⟨_, he | he⟩
  · rw [he]
    refine hlooked.trans (waitForKeyring_calm _ ?_)
    rw [hlooked.base, h]
    unfold looked
    rw [onLoad_restoreUrl]
  · rw [he]
    exact hlooked
  · rw [he]
    exact hgone.trans (refresh_calm ..)
  · rw [he]
    exact hgone.send _ (by decide)

/-- A restore sends no exchange, and it leaves the client at its server. -/
theorem attemptRestore_quiet (h : Epochs s.tokens) (P : Platform) :
    Quiet s (s.attemptRestore P).1 ∧
      (s.attemptRestore P).1.api.endpoints = Endpoints.setBase s.restoreUrl ∧
      (s.attemptRestore P).1.Rooted := by
  obtain ⟨hq, hb, _, hu⟩ := setBaseUrl_quiet h P s.restoreUrl
  have hb : (s.pointAt P).api.endpoints = Endpoints.setBase s.restoreUrl := hb
  have hu : (s.pointAt P).restoreUrl = s.restoreUrl := hu
  have hq : Quiet s (s.pointAt P) := ⟨hq.oidc, hq.pkce, hq.wire, hq.created⟩
  have hc := attemptRestore_calm P s (by rw [hb, hu])
  refine ⟨hq.trans hc.toQuiet, hc.base.trans hb, hc.rooted fun _ => ?_⟩
  rw [hb, hu]

/-! ### Calls and timers -/

theorem checkServer_quiet (h : Epochs s.tokens) (P : Platform) (url : QUrl) :
    Quiet s (s.checkServer P url) ∧ (s.checkServer P url).Rooted := by
  obtain ⟨hq, _, hk, _⟩ := setBaseUrl_quiet (s := s.stopWaitingForKeyring) h P url
  have hk : (s.stopWaitingForKeyring.setBaseUrl P url).keyringRetry = none := hk
  unfold checkServer
  dsimp only
  rw [setState_eq]
  refine ⟨⟨hq.oidc, hq.pkce, ?_, Nat.le_succ_of_le hq.created⟩, fun hne => absurd hk hne⟩
  exact hq.wire

theorem loginLocal_calm (s : AuthManager) (username password : String) :
    Calm s (s.loginLocal username password) := by
  have hcleared : Calm s s.clearError := ⟨⟨id, rfl, rfl, Nat.le_refl _⟩, rfl, id⟩
  exact (hcleared.setState .authenticating).send _ (by decide)

theorem cancelAuth_calm (s : AuthManager) : Calm s s.cancelAuth := by
  have hstopped : Calm s {s.stopWaitingForKeyring with oidcTimeout := none, oidcInProgress := false} :=
    ((stopWaiting_calm s).trans (stopTimer_calm _)).trans (ended_calm _)
  unfold cancelAuth
  dsimp only
  split
  · exact hstopped.setState _
  · exact hstopped

theorem logout_calm (s : AuthManager) : Calm s s.logout := by
  have hemit : Calm s (s.emit .sessionEnding) := ⟨⟨id, rfl, rfl, Nat.le_refl _⟩, rfl, id⟩
  unfold logout
  apply Calm.send
  · apply Calm.setState
    refine (hemit.trans (stopWaiting_calm _)).trans ⟨⟨id, rfl, ?_, ?_⟩, ?_, fun hr hk => ?_⟩
    · simp [api, ApiClient.setAccessToken]
    · simp [api, ApiClient.setAccessToken]
    · simp [api, ApiClient.setAccessToken]
    · simpa [api, ApiClient.setAccessToken] using hr hk
  · decide

theorem restoreSession_quiet (h : Epochs s.tokens) (P : Platform) (url : QUrl) (key : String) :
    Quiet s (s.restoreSession P url key).1 ∧ (s.restoreSession P url key).1.Rooted := by
  obtain ⟨hq, _, hr⟩ := attemptRestore_quiet
    (s := {s.stopWaitingForKeyring with restoreUrl := url, restoreKey := key}) h P
  exact ⟨⟨hq.oidc, hq.pkce, hq.wire, hq.created⟩, hr⟩

/-- A retry of the keyring points the client at the server it points at. -/
theorem onKeyringTimeout_calm (h : Epochs s.tokens) (hr : s.Rooted) (P : Platform) :
    Calm s (s.onKeyringTimeout P) := by
  unfold onKeyringTimeout
  cases hk : s.keyringRetry with
  | none => exact Calm.refl s
  | some delay =>
    obtain ⟨hq, hb, hrooted⟩ := attemptRestore_quiet (s := {s with keyringRetry := none}) h P
    have htried : Calm s ({s with keyringRetry := none}.attemptRestore P).1 := by
      refine ⟨⟨hq.oidc, hq.pkce, hq.wire, hq.created⟩, hb.trans ?_, fun _ => hrooted⟩
      exact (hr (by rw [hk]; exact Option.some_ne_none delay)).symm
    dsimp only
    split
    · exact htried
    · exact (htried.trans (stopWaiting_calm _)).setState _

theorem onOidcTimeout_calm (s : AuthManager) : Calm s s.onOidcTimeout := by
  unfold onOidcTimeout
  split
  · exact Calm.refl s
  · dsimp only
    split
    · exact stopTimer_calm s
    · exact (((stopTimer_calm s).trans (ended_calm _)).trans (setLastError_calm _ _)).setState _

/-- A callback is ignored, or ends the attempt, or has its code exchanged. -/
theorem onOauthCallback_cases (s : AuthManager) (code state error : String) :
    (s.oidcInProgress = false ∧ s.onOauthCallback code state error = s) ∨
      (s.oidcInProgress = true ∧ ((error ≠ "" ∨ state ≠ s.pkce.state) ∧
          Calm s (s.onOauthCallback code state error) ∨
        error = "" ∧ state = s.pkce.state ∧ s.onOauthCallback code state error =
          {s with oidcTimeout := none}.exchangeCode code state)) := by
  have hended : ∀ msg, Calm s (setError {s with oidcTimeout := none, oidcInProgress := false} msg) :=
    fun msg => ((stopTimer_calm s).trans (ended_calm _)).trans (setError_calm _ msg)
  unfold onOauthCallback
  cases ho : s.oidcInProgress
  · exact .inl ⟨rfl, rfl⟩
  · refine .inr ⟨rfl, ?_⟩
    simp only [Bool.not_true, Bool.false_eq_true, if_false]
    split_ifs with he hs
    · exact .inl ⟨.inl he, hended _⟩
    · exact .inl ⟨.inr hs, hended _⟩
    · exact .inr ⟨not_not.mp he, not_not.mp hs, rfl⟩

end AuthManager

end ShelfRemote.Auth
