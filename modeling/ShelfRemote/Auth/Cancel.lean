import ShelfRemote.Auth.Closed

/-! Cancelling an attempt.

An attempt lives in its timers, in the flag of the browser handoff and in the
closures of its requests. Cancelling stops the timers and drops the flag; the
closures run when their replies come, as if nothing had happened. So a cancel is
final when no closure of an attempt is outstanding (`Idle`): from then on, until
a new attempt, none comes to be, and no timer and no callback finds anything to
do (`Over`). -/
namespace ShelfRemote.Auth
open Qt Net Runs

/-- The closures an attempt to sign in is made of. -/
def Callback.isAttempt : Callback → Bool
  | .status | .login | .openidStart _ | .openidCallback | .authorize => true
  | .logout | .other _ => false

def Handler.isAttempt : Handler Callback → Bool
  | .refresh _ => false
  | .call cb => cb.isAttempt

def Waiter.isAttempt : Waiter → Bool
  | .restore => true
  | .retry p => p.cb.isAttempt

/-- No request of an attempt is on the wire in this origin, and none waits for a
refresh. -/
structure Idle (ts : TokenStore Callback Waiter) : Prop where
  inFlight : ∀ x ∈ ts.api.inFlight, x.epoch = ts.api.epoch → x.cb.isAttempt = false
  pending : ∀ w ∈ ts.pending, w.isAttempt = false

instance (ts : TokenStore Callback Waiter) : Decidable (Idle ts) :=
  decidable_of_iff ((∀ x ∈ ts.api.inFlight, x.epoch = ts.api.epoch → x.cb.isAttempt = false) ∧
    ∀ w ∈ ts.pending, w.isAttempt = false) ⟨fun h => ⟨h.1, h.2⟩, fun h => ⟨h.inFlight, h.pending⟩⟩

namespace AuthManager
variable {P : Platform} {s : AuthManager}

/-- The attempt is over. -/
structure Over (s : AuthManager) : Prop where
  idle : Idle s.tokens
  oidc : s.oidcInProgress = false
  keyring : s.keyringRetry = none

/-- A new attempt begins. -/
def Starts (s : AuthManager) : Event → Prop
  | .checkServer _ => True
  | .loginLocal _ _ => True
  | .restoreSession _ _ => True
  | .beginOidc _ => s.api.baseUrl.scheme = "https"
  | _ => False

instance (s : AuthManager) (e : Event) : Decidable (s.Starts e) :=
  match e with
  | .checkServer _ | .loginLocal _ _ | .restoreSession _ _ => .isTrue trivial
  | .beginOidc _ => inferInstanceAs (Decidable (s.api.baseUrl.scheme = "https"))
  | .cancelAuth | .logout | .keyringTimeout | .oidcTimeout | .oauthCallback _ _ _ | .reply _ _ _
  | .external _ _ _ _ _ | .secrets _ | .clock _ => .isFalse id

/-- A timer, a browser callback, or a reply to a request of an attempt. -/
def OfAttempt (s : AuthManager) : Event → Prop
  | .keyringTimeout => True
  | .oidcTimeout => True
  | .oauthCallback _ _ _ => True
  | .reply id _ _ =>
    Picked (fun x => x.cb.isAttempt = true ∨
        x.cb.isRefresh = true ∧ ∃ w ∈ s.tokens.pending, w.isAttempt = true)
      (pick (fun x => x.id == id) s.api.inFlight)
  | _ => False

/-- Nobody is signed in or out, no token comes or goes, nothing is sent, and the
browser stays closed. -/
structure Untouched (s s' : AuthManager) : Prop where
  state : s'.state = s.state
  access : s'.tokens.accessToken = s.tokens.accessToken
  refresh : s'.tokens.refreshToken = s.tokens.refreshToken
  bearer : s'.api.accessToken = s.api.accessToken
  secrets : s'.tokens.secrets = s.tokens.secrets
  servers : s'.servers = s.servers
  wire : s'.api.wire = s.api.wire
  opened : s'.opened = s.opened
  signals : s'.signals = s.signals

/-! ### What is outstanding stays that way -/

theorem setState_over (h : s.Over) (state : State) : (s.setState state).Over := by
  rw [setState_eq]
  exact ⟨h.idle, h.oidc, h.keyring⟩

theorem idle_sendImpl {ts : TokenStore Callback Waiter} (h : Idle ts) {r : Request}
    {cb : Handler Callback} (hcb : cb.isAttempt = false) (retry : Bool) :
    Idle {ts with api := ts.api.sendImpl r cb retry} := by
  refine ⟨fun x hx he => ?_, h.pending⟩
  rcases List.mem_cons.mp hx with rfl | hx
  · exact hcb
  · exact h.inFlight x hx he

theorem idle_setTokens {ts : TokenStore Callback Waiter} (h : Idle ts) (P : Platform)
    (access refresh : String) : Idle (ts.setTokens P access refresh) := by
  refine ⟨?_, ?_⟩
  · rw [TokenStore.setTokens_api]
    exact h.inFlight
  · rw [TokenStore.setTokens_pending]
    exact h.pending

/-- What is not of an attempt signs nobody in. -/
theorem call_other (P : Platform) (s : AuthManager) {cb : Callback} (hcb : cb.isAttempt = false)
    (res : ApiResponse) (browser : Bool) :
    ∃ opened, s.call P cb res browser = {s with opened} := by
  cases cb with
  | logout =>
    simp only [call, onLogout]
    split_ifs
    · exact ⟨s.opened, rfl⟩
    · exact ⟨s.opened, rfl⟩
    · exact ⟨_, rfl⟩
  | other n => exact ⟨s.opened, rfl⟩
  | _ => cases hcb

theorem call_other_over (h : s.Over) {cb : Callback} (hcb : cb.isAttempt = false)
    (res : ApiResponse) (browser : Bool) : (s.call P cb res browser).Over := by
  obtain ⟨opened, he⟩ := call_other P s hcb res browser
  rw [he]
  exact ⟨h.idle, h.oidc, h.keyring⟩

theorem tell_over (h : s.Over) {w : Waiter} (hw : w.isAttempt = false) (ok browser : Bool) :
    (s.tell P ok browser w).Over := by
  cases w with
  | restore => cases hw
  | retry p =>
    rw [tell_retry]
    split
    · exact call_other_over h hw _ browser
    · exact ⟨idle_sendImpl h.idle (show (Handler.call p.cb).isAttempt = false from hw) false, h.oidc,
        h.keyring⟩

theorem settle_over (h : s.Over) {t : Settled Waiter} (ht : ∀ w ∈ t.waiters, w.isAttempt = false)
    (browser : Bool) : (s.settle P t browser).Over :=
  settle_keeps (fun _ h => setState_over h _) (fun _ h w hw => tell_over h (ht w hw) t.ok browser) h

theorem refreshReply_over (h : s.Over) (key : String) (res : ApiResponse) (browser : Bool) :
    (s.refreshReply P key res browser).Over := by
  unfold refreshReply
  rcases s.tokens.refreshReply_cases P key res with ⟨_, he⟩ | ⟨_, failed, he⟩
  · rw [he]
    dsimp only [TokenStore.settle]
    have hset := idle_setTokens h.idle P (TokenStore.replyToken res.body.toObject "accessToken")
      (s.tokens.rotated res)
    apply settle_over
    · exact ⟨⟨hset.inFlight, fun w hw => by cases hw⟩, h.oidc, h.keyring⟩
    · exact hset.pending
  · rw [he]
    dsimp only [TokenStore.settle]
    apply settle_over
    · exact ⟨⟨h.idle.inFlight, fun w hw => by cases hw⟩, h.oidc, h.keyring⟩
    · exact h.idle.pending

theorem refresh_over (h : s.Over) {w : Waiter} (hw : w.isAttempt = false) (browser : Bool) :
    (s.refresh P w browser).Over := by
  have hone : ∀ v ∈ [w], v.isAttempt = false := fun v hv => by rwa [List.mem_singleton.mp hv]
  have hjoin : Idle {s.tokens with pending := s.tokens.pending ++ [w]} := by
    refine ⟨h.idle.inFlight, fun v hv => ?_⟩
    rcases List.mem_append.mp hv with hv | hv
    · exact h.idle.pending v hv
    · exact hone v hv
  rcases refresh_cases P s w browser with ⟨_, he⟩ | ⟨_, he⟩ | ⟨_, he⟩
  · rw [he]
    exact settle_over h hone browser
  · rw [he]
    exact ⟨hjoin, h.oidc, h.keyring⟩
  · rw [he]
    refine ⟨⟨?_, hjoin.pending⟩, h.oidc, h.keyring⟩
    intro x hx he
    rcases List.mem_cons.mp hx with rfl | hx
    · rfl
    · exact hjoin.inFlight x hx he

/-! ### Replies -/

theorem without_over (h : s.Over) {accepts : Exchange (Handler Callback) → Bool}
    {x : Exchange (Handler Callback)} {rest : List (Exchange (Handler Callback))}
    (hpick : pick accepts s.api.inFlight = some (x, rest)) : (s.without x rest).Over :=
  ⟨⟨fun y hy => h.idle.inFlight y (pick_rest hpick hy), h.idle.pending⟩, h.oidc, h.keyring⟩

/-- A request of an attempt that is still on the wire is of an earlier origin. -/
theorem stale_of_attempt (h : s.Over) {accepts : Exchange (Handler Callback) → Bool}
    {x : Exchange (Handler Callback)} {rest : List (Exchange (Handler Callback))}
    (hpick : pick accepts s.api.inFlight = some (x, rest)) (hx : x.cb.isAttempt = true)
    (raw : RawReply) : (s.api.response x raw).stale = true := by
  have hne : x.epoch ≠ s.api.epoch := fun he => by
    have := h.idle.inFlight x (pick_mem hpick) he
    rw [hx] at this
    cases this
  simpa [ApiClient.response] using hne

theorem finished_over (h : s.Over) (id : Nat) (raw : RawReply) (browser : Bool) :
    (s.finished P id raw browser).Over := by
  rcases finished_cases P s id raw browser with he | ⟨x, rest, hpick, hcase⟩
  · rw [he]
    exact h
  · have hd := without_over h hpick
    rcases hcase with ⟨key, _, he⟩ | ⟨cb, hcb, ha, he⟩ | ⟨cb, hcb, _, he⟩
    · rw [he]
      exact refreshReply_over hd ..
    · rw [he]
      refine refresh_over hd ?_ browser
      cases hx : cb.isAttempt
      · exact hx
      · have hstale := stale_of_attempt h hpick (by rw [hcb]; exact hx) raw
        simp [ApiClient.asksRefresh, hstale] at ha
    · rw [he]
      cases hx : cb.isAttempt
      · exact call_other_over hd hx _ browser
      · have hstale := stale_of_attempt h hpick (by rw [hcb]; exact hx) raw
        rcases call_stale P (s.without x rest) cb hstale browser with hc | hc
        · rw [hc]
          exact hd
        · rw [hc]
          exact ⟨hd.idle, rfl, hd.keyring⟩

/-- A reply to a request of an attempt finds the attempt over. -/
theorem finished_untouched (h : s.Over) {id : Nat} {raw : RawReply} {browser : Bool}
    (he : s.OfAttempt (.reply id raw browser)) : Untouched s (s.finished P id raw browser) := by
  simp only [OfAttempt] at he
  rcases finished_cases P s id raw browser with hf | ⟨x, rest, hpick, hcase⟩
  · rw [hf]
    exact ⟨rfl, rfl, rfl, rfl, rfl, rfl, rfl, rfl, rfl⟩
  · simp only [hpick, Picked] at he
    rcases hcase with ⟨key, hcb, hf⟩ | ⟨cb, hcb, ha, hf⟩ | ⟨cb, hcb, _, hf⟩
    · rw [hcb] at he
      rcases he with he | ⟨_, w, hw, hattempt⟩
      · cases he
      · rw [h.idle.pending w hw] at hattempt
        cases hattempt
    · rw [hcb] at he
      have he : cb.isAttempt = true := he.resolve_right fun hr => absurd hr.1 Bool.false_ne_true
      have hstale := stale_of_attempt h hpick (by rw [hcb]; exact he) raw
      simp [ApiClient.asksRefresh, hstale] at ha
    · rw [hcb] at he
      have he : cb.isAttempt = true := he.resolve_right fun hr => absurd hr.1 Bool.false_ne_true
      have hstale := stale_of_attempt h hpick (by rw [hcb]; exact he) raw
      rw [hf]
      rcases call_stale P (s.without x rest) cb hstale browser with hc | hc
      · rw [hc]
        exact ⟨rfl, rfl, rfl, rfl, rfl, rfl, rfl, rfl, rfl⟩
      · rw [hc]
        exact ⟨rfl, rfl, rfl, rfl, rfl, rfl, rfl, rfl, rfl⟩

/-! ### Events -/

theorem logout_over (h : s.Over) : s.logout.Over := by
  have hsame : s.logout.oidcInProgress = s.oidcInProgress ∧ s.logout.keyringRetry = none := by
    unfold logout
    simp only [setState_eq]
    exact ⟨rfl, rfl⟩
  refine ⟨?_, by rw [hsame.1, h.oidc], hsame.2⟩
  rw [logout_tokens]
  refine ⟨fun x hx he => ?_, fun w hw => ?_⟩
  · rw [TokenStore.clear_api] at hx
    rcases List.mem_cons.mp hx with rfl | hx
    · rfl
    · rw [TokenStore.clear_api] at he
      exact h.idle.inFlight x hx he
  · have hw : w ∈ s.tokens.clear.pending := hw
    rw [TokenStore.clear_pending] at hw
    exact h.idle.pending w hw

theorem onOidcTimeout_eq (h : s.oidcInProgress = false) :
    s.onOidcTimeout = {s with oidcTimeout := none} := by
  unfold onOidcTimeout
  cases ht : s.oidcTimeout with
  | none =>
    simp only
    rw [← ht]
  | some attempt => simp [h]

theorem cancelAuth_over (h : Idle s.tokens) : s.cancelAuth.Over := by
  have hstopped : ({s.stopWaitingForKeyring with oidcTimeout := none, oidcInProgress := false} :
      AuthManager).Over := ⟨h, rfl, rfl⟩
  unfold cancelAuth
  dsimp only
  split
  · exact setState_over hstopped _
  · exact hstopped

/-- Over is over, until an attempt starts. -/
theorem step_over (h : s.Over) {e : Event} (he : ¬s.Starts e) : ((machine P).step s e).Over := by
  have h : s.fresh.Over := ⟨h.idle, h.oidc, h.keyring⟩
  cases e with
  | checkServer url => exact absurd trivial he
  | loginLocal username password => exact absurd trivial he
  | restoreSession url key => exact absurd trivial he
  | beginOidc pkce =>
    show (s.fresh.beginOidc pkce).Over
    have he : s.fresh.api.baseUrl.scheme ≠ "https" := he
    unfold beginOidc
    rw [if_pos he]
    exact ⟨h.idle, h.oidc, h.keyring⟩
  | cancelAuth => exact cancelAuth_over h.idle
  | logout => exact logout_over h
  | keyringTimeout =>
    show (s.fresh.onKeyringTimeout P).Over
    unfold onKeyringTimeout
    rw [h.keyring]
    exact h
  | oidcTimeout =>
    show s.fresh.onOidcTimeout.Over
    rw [onOidcTimeout_eq h.oidc]
    exact ⟨h.idle, h.oidc, h.keyring⟩
  | oauthCallback code state error =>
    show (s.fresh.onOauthCallback code state error).Over
    unfold onOauthCallback
    rw [h.oidc]
    exact h
  | reply id raw browser => exact finished_over h id raw browser
  | external n verb path query body => exact ⟨idle_sendImpl h.idle rfl true, h.oidc, h.keyring⟩
  | secrets store => exact ⟨⟨h.idle.inFlight, h.idle.pending⟩, h.oidc, h.keyring⟩
  | clock now => exact ⟨h.idle, h.oidc, h.keyring⟩

theorem step_untouched (h : s.Over) {e : Event} (he : s.OfAttempt e) :
    Untouched s.fresh ((machine P).step s e) := by
  have h : s.fresh.Over := ⟨h.idle, h.oidc, h.keyring⟩
  cases e with
  | keyringTimeout =>
    show Untouched s.fresh (s.fresh.onKeyringTimeout P)
    unfold onKeyringTimeout
    rw [h.keyring]
    exact ⟨rfl, rfl, rfl, rfl, rfl, rfl, rfl, rfl, rfl⟩
  | oidcTimeout =>
    show Untouched s.fresh s.fresh.onOidcTimeout
    rw [onOidcTimeout_eq h.oidc]
    exact ⟨rfl, rfl, rfl, rfl, rfl, rfl, rfl, rfl, rfl⟩
  | oauthCallback code state error =>
    show Untouched s.fresh (s.fresh.onOauthCallback code state error)
    unfold onOauthCallback
    rw [h.oidc]
    exact ⟨rfl, rfl, rfl, rfl, rfl, rfl, rfl, rfl, rfl⟩
  | reply id raw browser => exact finished_untouched h he
  | _ => exact absurd he id

/-! ### Runs -/

/-- The system, and whether a cancel was the last word so far. -/
def cancelled (P : Platform) : Machine (AuthManager × Bool) Event where
  step := fun (s, ended) e =>
    ((machine P).step s e, match e with
      | .cancelAuth => true
      | e => ended && !decide (s.Starts e))

instance (s : AuthManager) (e : Event) : Decidable (s.OfAttempt e) :=
  match e with
  | .keyringTimeout | .oidcTimeout | .oauthCallback _ _ _ => .isTrue trivial
  | .reply id _ _ =>
    inferInstanceAs (Decidable (Picked (fun x => x.cb.isAttempt = true ∨
        x.cb.isRefresh = true ∧ ∃ w ∈ s.tokens.pending, w.isAttempt = true)
      (pick (fun x => x.id == id) s.api.inFlight)))
  | .checkServer _ | .loginLocal _ _ | .beginOidc _ | .cancelAuth | .logout | .restoreSession _ _
  | .external _ _ _ _ _ | .secrets _ | .clock _ => .isFalse id

/-- Whether the event is a cancel, decided without comparing events. -/
instance (s : AuthManager × Bool) (e : Event) : Decidable (e = .cancelAuth → Idle s.1.tokens) :=
  match e with
  | .cancelAuth => decidable_of_iff (Idle s.1.tokens) ⟨fun h _ => h, fun h => h rfl⟩
  | .checkServer _ | .loginLocal _ _ | .beginOidc _ | .logout | .restoreSession _ _ | .keyringTimeout
  | .oidcTimeout | .oauthCallback _ _ _ | .reply _ _ _ | .external _ _ _ _ _ | .secrets _ | .clock _ =>
    .isTrue fun h => by cases h

/-- The user cancels a login before its reply has come. -/
def cancelledLogin : List Event :=
  [.checkServer {scheme := "https", host := "a"}, .reply 0 {status := 200} true,
    .loginLocal "user" "password", .cancelAuth]

def loginReply : RawReply :=
  {status := 200, body := .object [("accessToken", .string "access"), ("refreshToken", .string "refresh")]}

end AuthManager

end ShelfRemote.Auth
