import ShelfRemote.Auth.AuthManager

/-! What the handlers can do.

Everything later is said about runs, and a run is made of the handlers of
`AuthManager`. This file says once what each of them comes to: the state setters
as record updates, a reply by what becomes of its closure (`finished_cases`), and
the aborts of `setBaseUrl`, which only ever drop outstanding work
(`setBaseUrl_cases`). -/
namespace ShelfRemote.Auth
open Qt Net Runs

namespace AuthManager
variable {P : Platform} {s : AuthManager}

/-! ### Setters -/

/-- What `setState` adds to the signals. -/
def changed (s : AuthManager) (state : State) : List Signal :=
  if s.state = state then [] else [.stateChanged state]

theorem setState_eq (s : AuthManager) (state : State) :
    s.setState state = {s with state, signals := s.signals ++ s.changed state} := by
  unfold setState changed
  split
  · next h => rw [← h, List.append_nil]
  · rfl

@[simp] theorem setState_tokens (state : State) : (s.setState state).tokens = s.tokens := by
  rw [setState_eq]

@[simp] theorem setState_state (state : State) : (s.setState state).state = state := by
  rw [setState_eq]

@[simp] theorem emit_tokens (signal : Signal) : (s.emit signal).tokens = s.tokens := rfl

@[simp] theorem setLastError_tokens (msg : String) : (s.setLastError msg).tokens = s.tokens := rfl

@[simp] theorem setError_tokens (msg : String) : (s.setError msg).tokens = s.tokens :=
  setState_tokens _

@[simp] theorem clearError_tokens : s.clearError.tokens = s.tokens := rfl

@[simp] theorem setNotice_tokens (notice : String) : (s.setNotice notice).tokens = s.tokens := rfl

@[simp] theorem stopWaiting_tokens : s.stopWaitingForKeyring.tokens = s.tokens := rfl

@[simp] theorem saveServer_tokens (user : Json) : (s.saveServer P user).tokens = s.tokens := rfl

/-- Sending touches only the client. -/
@[simp] theorem send_secrets (r : Request) (cb : Callback) :
    (s.send r cb).tokens.secrets = s.tokens.secrets := rfl

@[simp] theorem get_secrets (target : Target) (cb : Callback) (follow : Bool) :
    (s.get target cb follow).tokens.secrets = s.tokens.secrets := rfl

theorem setState_idem (s : AuthManager) (state : State) :
    (s.setState state).setState state = s.setState state :=
  if_pos (setState_state state)

/-! ### Replies -/

/-- The state in which the closure of a finished reply runs. -/
def without (s : AuthManager) (x : Exchange (Handler Callback)) (rest : List (Exchange (Handler Callback))) :
    AuthManager := s.withApi (s.api.drop x rest)

/-- A reply is not awaited, or settles a refresh, or asks for one, or is
delivered. -/
theorem finished_cases (P : Platform) (s : AuthManager) (id : Nat) (raw : RawReply) (browser : Bool) :
    s.finished P id raw browser = s ∨
      ∃ x rest, pick (fun x => x.id == id) s.api.inFlight = some (x, rest) ∧
        ((∃ key, x.cb = .refresh key ∧ s.finished P id raw browser =
            (s.without x rest).refreshReply P key (s.api.response x raw) browser) ∨
          (∃ cb, x.cb = .call cb ∧ s.api.asksRefresh x raw = true ∧ s.finished P id raw browser =
            (s.without x rest).refresh P (.retry ⟨x.request, x.epoch, cb, s.api.response x raw⟩) browser) ∨
          ∃ cb, x.cb = .call cb ∧ s.api.asksRefresh x raw = false ∧ s.finished P id raw browser =
            (s.without x rest).call P cb (s.api.response x raw) browser) := by
  unfold finished without
  split
  · exact .inl rfl
  · next x rest hpick =>
    refine .inr ⟨x, rest, hpick, ?_⟩
    cases hcb : x.cb with
    | refresh key => exact .inl ⟨key, rfl, rfl⟩
    | call cb =>
      cases ha : s.api.asksRefresh x raw
      · exact .inr (.inr ⟨cb, rfl, rfl, by simp [ha]⟩)
      · exact .inr (.inl ⟨cb, rfl, rfl, by simp [ha]⟩)

/-- Without a refresh token the waiter is told at once. It joins the refresh under way, or
waits for the one that is sent. -/
theorem refresh_cases (P : Platform) (s : AuthManager) (w : Waiter) (browser : Bool) :
    (s.tokens.refreshToken = "" ∧
        s.refresh P w browser = s.settle P {waiters := [w], ok := false} browser) ∨
      (s.tokens.refreshing = true ∧
        s.refresh P w browser = {s with tokens := {s.tokens with pending := s.tokens.pending ++ [w]}}) ∨
      (s.tokens.refreshing = false ∧
        s.refresh P w browser = {s with tokens := {s.tokens with
          pending := s.tokens.pending ++ [w]
          refreshing := true
          api := s.tokens.api.send s.tokens.refreshRequest (.refresh s.tokens.serverKey)}}) := by
  unfold refresh TokenStore.refresh
  by_cases htoken : s.tokens.refreshToken = ""
  · exact .inl ⟨htoken, by simp only [htoken, if_true]⟩
  · cases hr : s.tokens.refreshing
    · refine .inr (.inr ⟨rfl, ?_⟩)
      simp only [htoken, if_false, Bool.false_eq_true]
      rfl
    · refine .inr (.inl ⟨rfl, ?_⟩)
      simp only [htoken, hr, if_false, if_true]

/-! ### What a reply does to the tokens -/

/-- The reply to /api/authorize drops the tokens when the server says 401 or 403,
and on success may write them once more under the account it names. -/
theorem onAuthorize_tokens (P : Platform) (s : AuthManager) (res : ApiResponse) :
    (s.onAuthorize P res).tokens = s.tokens ∨
      (res.stale = false ∧ res.ok = false ∧ (res.status = 401 ∨ res.status = 403) ∧
        (s.onAuthorize P res).tokens = s.tokens.clear) ∨
      ∃ account, (s.onAuthorize P res).tokens = (s.tokens.setAccount account).persist := by
  cases hstale : res.stale
  · cases hok : res.ok
    · simp only [onAuthorize, hstale, hok, Bool.false_eq_true, if_false, Bool.not_false, if_true,
        setState_tokens, emit_tokens, setLastError_tokens]
      by_cases hs : res.status = 401 ∨ res.status = 403
      · simp [hs]
      · simp [hs]
    · simp only [onAuthorize, hstale, hok, Bool.false_eq_true, if_false, Bool.not_true,
        saveServer_tokens, emit_tokens, setState_tokens, clearError_tokens]
      have huser : (if (res.body.toObject.value "user").toObject.isEmpty = true then s
          else {s with user := (res.body.toObject.value "user").toObject}).tokens = s.tokens := by
        split <;> rfl
      generalize (if (res.body.toObject.value "user").toObject.isEmpty = true then s
          else {s with user := (res.body.toObject.value "user").toObject}) = s' at huser ⊢
      rw [← huser]
      split
      · exact .inl rfl
      · exact .inr (.inr ⟨_, rfl⟩)
  · left
    simp [onAuthorize, hstale]

theorem call_pending (P : Platform) (s : AuthManager) (cb : Callback) (res : ApiResponse)
    (browser : Bool) : (s.call P cb res browser).tokens.pending = s.tokens.pending := by
  have hlogin : ∀ (s : AuthManager) (payload : Json),
      (s.applyLoginPayload P payload).tokens.pending = s.tokens.pending := by
    intro s payload
    unfold applyLoginPayload
    dsimp only
    split
    · rw [setError_tokens]
    · exact TokenStore.setTokens_pending P _ _ _
  cases cb with
  | status =>
    simp only [call, onStatus]
    split_ifs <;> simp
  | login =>
    simp only [call, onLogin]
    split_ifs <;> simp [hlogin]
  | openidStart attempt =>
    simp only [call, onOpenidStart]
    split
    · rfl
    · split
      · simp
      · split_ifs <;> simp
  | openidCallback =>
    simp only [call, onOpenidCallback]
    split_ifs <;> simp [hlogin]
  | authorize =>
    rcases onAuthorize_tokens P s res with ht | ⟨_, _, _, ht⟩ | ⟨account, ht⟩
    · rw [call, ht]
    · rw [call, ht, TokenStore.clear_pending]
    · rw [call, ht, TokenStore.persist_pending]
      rfl
  | logout =>
    simp only [call, onLogout]
    split_ifs <;> rfl
  | other n => rfl

/-- A waiter that parked an exchange sends it again, or gives back its 401. -/
theorem tell_retry (P : Platform) (s : AuthManager) (p : Parked Callback) (ok browser : Bool) :
    s.tell P ok browser (.retry p) =
      if !ok || p.epoch != s.api.epoch then
        s.call P p.cb {p.res with stale := p.res.stale || p.epoch != s.api.epoch} browser
      else
        s.withApi (s.api.sendImpl {p.request with bearer := some s.api.accessToken} (.call p.cb) false) := by
  simp only [tell, ApiClient.resume, Parked.map]
  by_cases hc : (!ok || p.epoch != s.api.epoch) = true
  · simp only [hc, if_true]
  · simp only [hc, Bool.false_eq_true, if_false]

theorem tell_pending (P : Platform) (s : AuthManager) (w : Waiter) (ok browser : Bool) :
    (s.tell P ok browser w).tokens.pending = s.tokens.pending := by
  cases w with
  | restore =>
    simp only [tell]
    split
    · rfl
    · rw [setState_tokens]
  | retry p =>
    rw [tell_retry]
    split
    · exact call_pending ..
    · rfl

/-- What the failure and every waiter keep is kept when a refresh settles. -/
theorem settle_keeps {I : AuthManager → Prop} {t : Settled Waiter} {browser : Bool}
    (hstate : ∀ s, I s → I (s.setState .needsLogin))
    (htell : ∀ s, I s → ∀ w ∈ t.waiters, I (s.tell P t.ok browser w)) (h : I s) :
    I (s.settle P t browser) := by
  have hstart : I (if t.refreshFailed then s.setState .needsLogin else s) := by
    split
    · exact hstate s h
    · exact h
  exact List.foldlRecOn t.waiters (tell P t.ok browser) hstart htell

/-- What the move, every reply that is aborted, and the end of the aborts keep is
kept by a change of the base URL. -/
theorem setBaseUrl_keeps {I : AuthManager → Prop} {base : QUrl} (hstay : s.api.baseUrl = base → I s)
    (hmove : I (s.withApi (s.api.moveBase base)))
    (hfinished : ∀ s, I s → ∀ id, I (s.finished P id P.aborted false))
    (hdone : ∀ s, I s → I (s.withApi {s.api with active := []})) : I (s.setBaseUrl P base) := by
  unfold setBaseUrl
  split
  · next h => exact hstay h
  · apply hdone
    exact List.foldlRecOn (P.abortOrder s.api.active) (fun s id => s.finished P id P.aborted false) hmove
      fun s h id _ => hfinished s h id

theorem settle_pending (P : Platform) (s : AuthManager) (t : Settled Waiter) (browser : Bool) :
    (s.settle P t browser).tokens.pending = s.tokens.pending := by
  apply settle_keeps (I := fun s' => s'.tokens.pending = s.tokens.pending) _ _ rfl
  · intro s' h
    rwa [setState_tokens]
  · exact fun s' h w _ => (tell_pending ..).trans h

/-! ### Signing out -/

theorem logout_tokens (s : AuthManager) :
    s.logout.tokens =
      {s.tokens.clear with api := s.tokens.clear.api.send s.logoutRequest (.call .logout)} := by
  unfold logout send withApi api
  dsimp only
  rw [setState_tokens]
  rfl

/-! ### Restoring -/

@[simp] theorem waitForKeyring_tokens (s : AuthManager) : s.waitForKeyring.tokens = s.tokens := by
  unfold waitForKeyring
  split <;> simp

@[simp] theorem onLoad_tokens (s : AuthManager) (status : RetrieveStatus) :
    (s.onLoad status).tokens = s.tokens := by
  unfold onLoad
  split <;> simp

/-- The state once the saved tokens of the server were looked for. -/
def looked (P : Platform) (s : AuthManager) : AuthManager :=
  let s := s.pointAt P
  {s with tokens := (s.tokens.load P).1}.onLoad (s.tokens.load P).2.1

/-- A restore that found no tokens waits or gives up, and one that did goes on
with them. -/
theorem attemptRestore_cases (P : Platform) (s : AuthManager) :
    (((s.pointAt P).tokens.load P).2.2 = false ∧
      (s.attemptRestore P = ((s.looked P).waitForKeyring, true) ∨
        s.attemptRestore P = (s.looked P, false))) ∨
    (((s.pointAt P).tokens.load P).2.2 = true ∧
      (s.attemptRestore P =
          (((s.looked P).stopWaitingForKeyring.setState .authenticating).refresh P .restore false, true) ∨
        s.attemptRestore P =
          (((s.looked P).stopWaitingForKeyring.setState .authenticating).authorizeAndFinish, true))) := by
  cases hl : ((s.pointAt P).tokens.load P).2.2
  · left
    refine ⟨rfl, ?_⟩
    unfold attemptRestore
    simp only [hl, Bool.not_false, if_true]
    by_cases hk : (s.looked P).keyringUnavailable = true
    · exact .inl (if_pos hk)
    · exact .inr (if_neg hk)
  · right
    refine ⟨rfl, ?_⟩
    unfold attemptRestore
    simp only [hl, Bool.not_true, Bool.false_eq_true, if_false]
    by_cases hn : ((s.looked P).stopWaitingForKeyring.setState .authenticating).tokens.needsRefresh
        ((s.looked P).stopWaitingForKeyring.setState .authenticating).now = true
    · exact .inl (if_pos hn)
    · exact .inr (if_neg hn)

theorem looked_tokens (P : Platform) (s : AuthManager) :
    (s.looked P).tokens = ((s.pointAt P).tokens.load P).1 := by
  unfold looked
  rw [onLoad_tokens]

/-! ### Aborting -/

/-- What is left of the outstanding work, and whether somebody was told that a
refresh came to nothing. -/
structure Remains where
  active : List Nat
  inFlight : List (Exchange (Handler Callback))
  pending : List Waiter
  refreshing : Bool
  oidcInProgress : Bool
  failed : Bool

/-- The outstanding work is what remains. -/
def outstanding (s : AuthManager) (r : Remains) : AuthManager :=
  { s with
    tokens :=
      { s.tokens with
        api := {s.tokens.api with active := r.active, inFlight := r.inFlight}
        pending := r.pending
        refreshing := r.refreshing }
    oidcInProgress := r.oidcInProgress }

def leave (s : AuthManager) (r : Remains) : AuthManager :=
  (if r.failed then s.setState .needsLogin else s).outstanding r

theorem outstanding_setState (s : AuthManager) (r : Remains) (state : State) :
    (s.outstanding r).setState state = (s.setState state).outstanding r := by
  unfold setState
  show (if s.state = state then _ else _) = _
  split <;> rfl

/-- All that is outstanding now. -/
def whole (s : AuthManager) : Remains :=
  ⟨s.api.active, s.api.inFlight, s.tokens.pending, s.tokens.refreshing, s.oidcInProgress, false⟩

/-- Nothing new is outstanding. -/
structure Remains.Within (r : Remains) (s : AuthManager) : Prop where
  inFlight : ∀ x ∈ r.inFlight, x ∈ s.api.inFlight
  pending : ∀ w ∈ r.pending, w ∈ s.tokens.pending
  oidc : r.oidcInProgress = true → s.oidcInProgress = true

theorem whole_within (s : AuthManager) : s.whole.Within s := ⟨fun _ h => h, fun _ h => h, id⟩

theorem leave_leave (s : AuthManager) (r r' : Remains) :
    (s.leave r).leave r' = s.leave {r' with failed := r.failed || r'.failed} := by
  cases hr : r.failed <;> cases hr' : r'.failed <;>
    simp only [leave, hr, hr', outstanding_setState, setState_idem, if_true, if_false,
      Bool.false_eq_true, Bool.or_self, Bool.or_true, Bool.or_false] <;> rfl

theorem within_leave {r r' : Remains} (h : r.Within s) (h' : r'.Within (s.leave r)) :
    {r' with failed := r.failed || r'.failed}.Within s :=
  ⟨fun x hx => h.inFlight x (h'.inFlight x hx), fun w hw => h.pending w (h'.pending w hw),
    fun ho => h.oidc (h'.oidc ho)⟩

/-- Every request on the wire and every parked one is of an earlier origin. -/
structure Outdated (s : AuthManager) : Prop where
  inFlight : ∀ x ∈ s.api.inFlight, x.epoch ≠ s.api.epoch
  pending : ∀ p, .retry p ∈ s.tokens.pending → p.epoch ≠ s.api.epoch

@[simp] theorem leave_api_epoch (r : Remains) : (s.leave r).api.epoch = s.api.epoch := by
  unfold leave
  split <;> simp [api, outstanding]

theorem Outdated.leave (h : s.Outdated) {r : Remains} (hr : r.Within s) : (s.leave r).Outdated := by
  refine ⟨fun x hx => ?_, fun p hp => ?_⟩
  · rw [leave_api_epoch]
    exact h.inFlight x (hr.inFlight x hx)
  · rw [leave_api_epoch]
    exact h.pending p (hr.pending _ hp)

/-- A closure does nothing with a stale reply, but for the end of an OIDC attempt. -/
theorem call_stale (P : Platform) (s : AuthManager) (cb : Callback) {r : ApiResponse}
    (h : r.stale = true) (browser : Bool) :
    s.call P cb r browser = s ∨ s.call P cb r browser = {s with oidcInProgress := false} := by
  cases cb with
  | openidStart attempt => right; simp [call, onOpenidStart, h]
  | openidCallback => right; simp [call, onOpenidCallback, h]
  | _ => left; simp [call, onStatus, onLogin, onAuthorize, onLogout, h]

/-- The state after an abort: less outstanding work. -/
def Aborted (s s' : AuthManager) : Prop := ∃ r : Remains, r.Within s ∧ s' = s.leave r

theorem Aborted.refl (s : AuthManager) : s.Aborted s := ⟨s.whole, s.whole_within, rfl⟩

theorem Aborted.trans {s' s'' : AuthManager} (h : s.Aborted s') (h' : s'.Aborted s'') :
    s.Aborted s'' := by
  obtain ⟨r, hr, rfl⟩ := h
  obtain ⟨r', hr', rfl⟩ := h'
  exact ⟨_, within_leave hr hr', leave_leave s r r'⟩

theorem aborted_call (P : Platform) (s : AuthManager) (cb : Callback) {r : ApiResponse}
    (h : r.stale = true) (browser : Bool) : s.Aborted (s.call P cb r browser) := by
  rcases call_stale P s cb h browser with hc | hc
  · rw [hc]
    exact Aborted.refl s
  · rw [hc]
    exact ⟨{s.whole with oidcInProgress := false}, ⟨fun _ h => h, fun _ h => h, fun ho => by cases ho⟩, rfl⟩

theorem aborted_failed (s : AuthManager) : s.Aborted (s.setState .needsLogin) :=
  ⟨{s.whole with failed := true}, ⟨fun _ h => h, fun _ h => h, fun h => h⟩,
    outstanding_setState s {s.whole with failed := true} .needsLogin⟩

/-- Telling a waiter that a refresh of an earlier origin came to nothing. -/
theorem aborted_tell (P : Platform) (s : AuthManager) (w : Waiter)
    (hw : ∀ p, w = .retry p → p.epoch ≠ s.api.epoch) (browser : Bool) :
    s.Aborted (s.tell P false browser w) := by
  cases w with
  | restore => exact aborted_failed s
  | retry p =>
    have hp := hw p rfl
    rw [tell_retry, if_pos (by simp)]
    apply aborted_call
    simp [hp]

theorem aborted_tells (P : Platform) (browser : Bool) (ws : List Waiter) :
    ∀ s : AuthManager, (∀ p, .retry p ∈ ws → p.epoch ≠ s.api.epoch) →
      s.Aborted (ws.foldl (tell P false browser) s) := by
  induction ws with
  | nil => intro s _; exact Aborted.refl s
  | cons w ws ih =>
    intro s hws
    have htell := aborted_tell P s w (fun p hp => hws p (by simp [hp])) browser
    refine htell.trans (ih _ fun p hp => ?_)
    obtain ⟨r, _, hr⟩ := htell
    rw [hr, leave_api_epoch]
    exact hws p (List.mem_cons_of_mem _ hp)

/-- A reply of an earlier origin drops work and starts none. -/
theorem aborted_finished (h : s.Outdated) (P : Platform) (id : Nat) (raw : RawReply) (browser : Bool) :
    s.Aborted (s.finished P id raw browser) := by
  rcases finished_cases P s id raw browser with he | ⟨x, rest, hpick, hcase⟩
  · rw [he]
    exact Aborted.refl s
  · have hstale : (s.api.response x raw).stale = true := by
      simpa [ApiClient.response] using h.inFlight x (pick_mem hpick)
    have hdrop : s.Aborted (s.without x rest) :=
      ⟨{s.whole with active := s.api.active.erase x.id, inFlight := rest},
        ⟨fun y hy => pick_rest hpick hy, fun _ h => h, fun h => h⟩, rfl⟩
    rcases hcase with ⟨key, _, he⟩ | ⟨cb, _, ha, he⟩ | ⟨cb, _, _, he⟩
    · rw [he]
      simp only [refreshReply, TokenStore.refreshReply, hstale, Bool.true_or, if_true,
        TokenStore.settle, settle, Bool.false_eq_true, if_false]
      have hquiet : (s.without x rest).Aborted
          {s.without x rest with
            tokens := {(s.without x rest).tokens with refreshing := false, pending := []}} :=
        ⟨{whole (s.without x rest) with refreshing := false, pending := []},
          ⟨fun _ h => h, fun _ h => (by cases h), fun h => h⟩, rfl⟩
      exact (hdrop.trans hquiet).trans (aborted_tells P browser _ _ h.pending)
    · simp [ApiClient.asksRefresh, hstale] at ha
    · rw [he]
      exact hdrop.trans (aborted_call P _ _ hstale browser)

theorem aborted_all (P : Platform) (ids : List Nat) :
    ∀ s : AuthManager, s.Outdated →
      s.Aborted (ids.foldl (fun s id => s.finished P id P.aborted false) s) := by
  induction ids with
  | nil => intro s _; exact Aborted.refl s
  | cons id ids ih =>
    intro s h
    have hone := aborted_finished h P id P.aborted false
    obtain ⟨r, hr, he⟩ := hone
    refine Aborted.trans ⟨r, hr, he⟩ (ih _ ?_)
    rw [he]
    exact h.leave hr

/-! ### A change of origin -/

/-- No request is of a later origin than the current one. -/
structure Epochs (ts : TokenStore Callback Waiter) : Prop where
  inFlight : ∀ x ∈ ts.api.inFlight, x.epoch ≤ ts.api.epoch
  pending : ∀ p, .retry p ∈ ts.pending → p.epoch ≤ ts.api.epoch

/-- Setting the base URL either finds it set, or moves the client to it and drops
outstanding work. -/
theorem setBaseUrl_cases (h : Epochs s.tokens) (P : Platform) (base : QUrl) :
    (s.api.baseUrl = base ∧ s.setBaseUrl P base = s) ∨
      ∃ r : Remains, r.Within s ∧
        s.setBaseUrl P base = (s.withApi (s.api.moveBase base)).leave {r with active := []} := by
  unfold setBaseUrl
  split
  · next hb => exact .inl ⟨hb, rfl⟩
  · right
    have hold : (s.withApi (s.api.moveBase base)).Outdated := by
      refine ⟨fun x hx => ?_, fun p hp => ?_⟩
      · have : x.epoch ≤ s.api.epoch := h.inFlight x hx
        show x.epoch ≠ s.api.epoch + 1
        omega
      · have : p.epoch ≤ s.api.epoch := h.pending p hp
        show p.epoch ≠ s.api.epoch + 1
        omega
    obtain ⟨r, hr, he⟩ := aborted_all P (P.abortOrder s.api.active) _ hold
    refine ⟨r, ⟨hr.inFlight, hr.pending, hr.oidc⟩, ?_⟩
    simp only [he]
    rfl

theorem leave_tokens (s : AuthManager) (r : Remains) :
    (s.leave r).tokens =
      { s.tokens with
        api := {s.tokens.api with active := r.active, inFlight := r.inFlight}
        pending := r.pending
        refreshing := r.refreshing } := by
  unfold leave
  split
  · simp [outstanding]
  · rfl

/-- The token store once its client points at another server. -/
def moved (ts : TokenStore Callback Waiter) (base : QUrl) (r : Remains) : TokenStore Callback Waiter :=
  { ts with
    api := {ts.api.moveBase base with active := [], inFlight := r.inFlight}
    pending := r.pending
    refreshing := r.refreshing }

theorem Epochs.moved {s : AuthManager} (h : Epochs s.tokens) {r : Remains} (hr : r.Within s)
    (base : QUrl) : Epochs (moved s.tokens base r) where
  inFlight x hx := Nat.le_succ_of_le (h.inFlight x (hr.inFlight x hx))
  pending p hp := Nat.le_succ_of_le (h.pending p (hr.pending _ hp))

theorem setBaseUrl_tokens (h : Epochs s.tokens) (P : Platform) (base : QUrl) :
    (s.api.baseUrl = base ∧ (s.setBaseUrl P base).tokens = s.tokens) ∨
      ∃ r : Remains, r.Within s ∧ (s.setBaseUrl P base).tokens = moved s.tokens base r := by
  rcases setBaseUrl_cases h P base with ⟨hb, he⟩ | ⟨r, hr, he⟩
  · exact .inl ⟨hb, by rw [he]⟩
  · refine .inr ⟨r, hr, ?_⟩
    rw [he, leave_tokens]
    rfl

theorem setBaseUrl_servers (h : Epochs s.tokens) (P : Platform) (base : QUrl) :
    (s.setBaseUrl P base).servers = s.servers := by
  rcases setBaseUrl_cases h P base with ⟨_, he⟩ | ⟨r, _, he⟩
  · rw [he]
  · rw [he]
    unfold leave
    split
    · rw [setState_eq]
      rfl
    · rfl

end AuthManager

end ShelfRemote.Auth
