import ShelfRemote.Auth.Handlers

/-! Every change of the sign-in state is announced.

Other components learn from `stateChanged` that the user is signed in or no longer
is. What a handler emits is only ever added to, and the state it leaves behind is
the one it found or one it has announced (`Told`). The state may pass through
others on the way; each of them is announced as well, so that a listener who acts
on every announcement misses none. -/
namespace ShelfRemote.Auth
open Qt Net Runs

namespace AuthManager
variable {P : Platform} {s s' s'' : AuthManager}

/-- From `s` to `s'` signals are added, and a new state is one of them. -/
def Told (s s' : AuthManager) : Prop :=
  ∃ news, s'.signals = s.signals ++ news ∧ (s'.state = s.state ∨ .stateChanged s'.state ∈ news)

theorem Told.refl (s : AuthManager) : Told s s := ⟨[], (List.append_nil _).symm, .inl rfl⟩

theorem Told.trans (h : Told s s') (h' : Told s' s'') : Told s s'' := by
  obtain ⟨news, hsignals, hstate⟩ := h
  obtain ⟨news', hsignals', hstate'⟩ := h'
  refine ⟨news ++ news', by rw [hsignals', hsignals, List.append_assoc], ?_⟩
  rcases hstate' with hsame | hnew
  · rw [hsame]
    exact hstate.imp_right (List.mem_append_left _)
  · exact .inr (List.mem_append_right _ hnew)

/-- What is neither the state nor a signal may change in silence. -/
theorem Told.of_eq (hsignals : s'.signals = s.signals) (hstate : s'.state = s.state) : Told s s' :=
  ⟨[], by rw [hsignals, List.append_nil], .inl hstate⟩

theorem setState_told (s : AuthManager) (state : State) : Told s (s.setState state) := by
  unfold setState
  split
  · exact Told.refl s
  · exact ⟨[.stateChanged state], rfl, .inr (List.mem_singleton.mpr rfl)⟩

theorem emit_told (s : AuthManager) (signal : Signal) : Told s (s.emit signal) := ⟨[signal], rfl, .inl rfl⟩

theorem Told.setState (h : Told s s') (state : State) : Told s (s'.setState state) :=
  h.trans (setState_told s' state)

/-- Silence, then an announcement. -/
theorem Told.silent (hsignals : s'.signals = s.signals) (hstate : s'.state = s.state) (state : State) :
    Told s (s'.setState state) :=
  (Told.of_eq hsignals hstate).setState state

theorem clearError_told (s : AuthManager) : Told s s.clearError := Told.of_eq rfl rfl

theorem stopWaiting_told (s : AuthManager) : Told s s.stopWaitingForKeyring := Told.of_eq rfl rfl

/-! ### Replies -/

theorem applyLoginPayload_told (P : Platform) (s : AuthManager) (payload : Json) :
    Told s (s.applyLoginPayload P payload) := by
  unfold applyLoginPayload
  dsimp only
  split
  · exact Told.silent rfl rfl .error
  · exact Told.of_eq rfl rfl

theorem onAuthorize_told (P : Platform) (s : AuthManager) (res : ApiResponse) :
    Told s (s.onAuthorize P res) := by
  have hfailed : ∀ s' : AuthManager, s'.signals = s.signals → s'.state = s.state →
      Told s ((s'.emit (.loginFailed s'.lastError)).setState .needsLogin) := by
    intro s' hsignals hstate
    exact ((Told.of_eq hsignals hstate).trans (emit_told s' _)).setState .needsLogin
  have hsigned : ∀ s' : AuthManager, s'.signals = s.signals → s'.state = s.state → ∀ user,
      Told s (((s'.clearError.setState .authenticated).emit (.authenticated user)).saveServer P user) := by
    intro s' hsignals hstate user
    have hclear : Told s s'.clearError := Told.of_eq hsignals hstate
    exact ((hclear.setState .authenticated).trans (emit_told _ _)).trans (Told.of_eq rfl rfl)
  unfold onAuthorize
  dsimp only
  split
  · exact Told.refl s
  · split
    · apply hfailed <;> split <;> rfl
    · apply hsigned <;> split_ifs <;> rfl

theorem onOpenidStart_told (s : AuthManager) (attempt : String) (res : ApiResponse) (browser : Bool) :
    Told s (s.onOpenidStart attempt res browser) := by
  unfold onOpenidStart
  dsimp only
  split
  · exact Told.of_eq rfl rfl
  · split
    · exact Told.silent rfl rfl .needsLogin
    · split_ifs
      · exact Told.silent rfl rfl .needsLogin
      · exact Told.silent rfl rfl .needsLogin
      · exact Told.of_eq rfl rfl
      · exact Told.silent rfl rfl .needsLogin

theorem call_told (P : Platform) (s : AuthManager) (cb : Callback) (res : ApiResponse) (browser : Bool) :
    Told s (s.call P cb res browser) := by
  cases cb with
  | status =>
    simp only [call, onStatus]
    split
    · exact Told.refl s
    · split
      · exact Told.silent rfl rfl .error
      · exact Told.silent rfl rfl .needsLogin
  | login =>
    simp only [call, onLogin]
    split_ifs
    · exact Told.refl s
    · exact ((Told.of_eq rfl rfl).trans (emit_told (s.setLastError _) _)).setState .needsLogin
    · exact applyLoginPayload_told P s _
  | openidStart attempt => exact onOpenidStart_told s attempt res browser
  | openidCallback =>
    simp only [call, onOpenidCallback]
    split_ifs
    · exact Told.of_eq rfl rfl
    · exact Told.silent rfl rfl .error
    · exact (Told.of_eq rfl rfl).trans (applyLoginPayload_told P _ _)
  | authorize => exact onAuthorize_told P s res
  | logout =>
    simp only [call, onLogout]
    split_ifs <;> exact Told.of_eq rfl rfl
  | other n => exact Told.refl s

theorem tell_told (P : Platform) (ok browser : Bool) (s : AuthManager) (w : Waiter) :
    Told s (s.tell P ok browser w) := by
  cases w with
  | restore =>
    simp only [tell]
    split
    · exact Told.of_eq rfl rfl
    · exact setState_told s _
  | retry p =>
    rw [tell_retry]
    split
    · exact call_told ..
    · exact Told.of_eq rfl rfl

theorem settle_told (P : Platform) (s : AuthManager) (t : Settled Waiter) (browser : Bool) :
    Told s (s.settle P t browser) := by
  apply settle_keeps (I := Told s) _ _ (Told.refl s)
  · exact fun s' h => h.setState .needsLogin
  · exact fun s' h w _ => h.trans (tell_told P t.ok browser s' w)

theorem refresh_told (P : Platform) (s : AuthManager) (w : Waiter) (browser : Bool) :
    Told s (s.refresh P w browser) := by
  unfold refresh
  split
  · exact Told.of_eq rfl rfl
  · exact (Told.of_eq rfl rfl).trans (settle_told P _ _ browser)

theorem finished_told (P : Platform) (s : AuthManager) (id : Nat) (raw : RawReply) (browser : Bool) :
    Told s (s.finished P id raw browser) := by
  rcases finished_cases P s id raw browser with he | ⟨x, rest, _, hcase⟩
  · rw [he]
    exact Told.refl s
  · have hdrop : Told s (s.without x rest) := Told.of_eq rfl rfl
    rcases hcase with ⟨key, _, he⟩ | ⟨cb, _, _, he⟩ | ⟨cb, _, _, he⟩
    · rw [he]
      exact (hdrop.trans (Told.of_eq rfl rfl)).trans (settle_told P _ _ browser)
    · rw [he]
      exact hdrop.trans (refresh_told ..)
    · rw [he]
      exact hdrop.trans (call_told ..)

/-- Aborted replies speak as well. -/
theorem setBaseUrl_told (P : Platform) (s : AuthManager) (base : QUrl) : Told s (s.setBaseUrl P base) := by
  apply setBaseUrl_keeps (I := Told s) (fun _ => Told.refl s) (Told.of_eq rfl rfl)
  · exact fun s' h id => h.trans (finished_told P s' id P.aborted false)
  · exact fun s' h => h.trans (Told.of_eq rfl rfl)

/-! ### Restoring -/

theorem waitForKeyring_told (s : AuthManager) : Told s s.waitForKeyring := by
  have hwait : ∀ (s' : AuthManager) (delay : Nat), s'.signals = s.signals → s'.state = s.state →
      Told s {s'.setState .authenticating with keyringRetry := some delay} :=
    fun s' delay hsignals hstate =>
      ((Told.of_eq hsignals hstate).setState .authenticating).trans (Told.of_eq rfl rfl)
  unfold waitForKeyring
  split
  · exact Told.silent rfl rfl .needsLogin
  · exact hwait _ _ rfl rfl

theorem onLoad_told (s : AuthManager) (status : RetrieveStatus) : Told s (s.onLoad status) := by
  unfold onLoad
  split
  · exact Told.silent rfl rfl .needsLogin
  · exact Told.of_eq rfl rfl
  · exact Told.refl s

theorem attemptRestore_told (P : Platform) (s : AuthManager) : Told s (s.attemptRestore P).1 := by
  have hpoint : Told s (s.pointAt P) := (setBaseUrl_told P s s.restoreUrl).trans (Told.of_eq rfl rfl)
  have hload : Told s ({s.pointAt P with tokens := ((s.pointAt P).tokens.load P).1}.onLoad
      ((s.pointAt P).tokens.load P).2.1) :=
    (hpoint.trans (Told.of_eq rfl rfl)).trans (onLoad_told _ _)
  have hloaded : ∀ s', Told s s' → Told s (s'.stopWaitingForKeyring.setState .authenticating) :=
    fun s' h => (h.trans (stopWaiting_told s')).setState .authenticating
  unfold attemptRestore
  dsimp only
  split_ifs
  · exact hload.trans (waitForKeyring_told _)
  · exact hload
  · exact (hloaded _ hload).trans (refresh_told ..)
  · exact (hloaded _ hload).trans (Told.of_eq rfl rfl)

/-! ### Events -/

/-- **No handler changes the state in silence.** -/
theorem handle_told (P : Platform) (s : AuthManager) (e : Event) : Told s (s.handle P e) := by
  cases e with
  | checkServer baseUrl =>
    show Told s (s.checkServer P baseUrl)
    have hset : Told s (s.stopWaitingForKeyring.setBaseUrl P baseUrl) :=
      (stopWaiting_told s).trans (setBaseUrl_told P s.stopWaitingForKeyring baseUrl)
    have hchecking : ∀ s' tokens, Told s s' →
        Told s ({s' with tokens, lastError := ""}.setState .checking) := by
      intro s' tokens h
      have hreset : Told s' {s' with tokens, lastError := ""} := Told.of_eq rfl rfl
      exact (h.trans hreset).setState .checking
    exact (hchecking _ _ hset).trans (Told.of_eq rfl rfl)
  | loginLocal username password =>
    show Told s (s.loginLocal username password)
    exact ((clearError_told s).setState .authenticating).trans (Told.of_eq rfl rfl)
  | beginOidc pkce =>
    show Told s (s.beginOidc pkce)
    unfold beginOidc
    split
    · exact Told.of_eq rfl rfl
    · exact ((clearError_told s).setState .authenticating).trans (Told.of_eq rfl rfl)
  | cancelAuth =>
    show Told s s.cancelAuth
    unfold cancelAuth
    dsimp only
    split
    · exact Told.silent rfl rfl .needsLogin
    · exact Told.of_eq rfl rfl
  | logout =>
    show Told s s.logout
    have hending : Told s (s.emit .sessionEnding).stopWaitingForKeyring :=
      (emit_told s .sessionEnding).trans (stopWaiting_told _)
    have hleft : ∀ s' tokens, Told s s' →
        Told s ({s' with tokens, user := .object []}.setState .needsLogin) := by
      intro s' tokens h
      have hcleared : Told s' {s' with tokens, user := .object []} := Told.of_eq rfl rfl
      exact (h.trans hcleared).setState .needsLogin
    exact (hleft _ _ hending).trans (Told.of_eq rfl rfl)
  | restoreSession baseUrl serverKey => exact (Told.of_eq rfl rfl).trans (attemptRestore_told P _)
  | keyringTimeout =>
    show Told s (s.onKeyringTimeout P)
    unfold onKeyringTimeout
    split
    · exact Told.refl s
    · have hrestore : Told s ({s with keyringRetry := none}.attemptRestore P).1 :=
        (Told.of_eq rfl rfl).trans (attemptRestore_told P _)
      dsimp only
      split
      · exact hrestore
      · exact (hrestore.trans (stopWaiting_told _)).setState .needsLogin
  | oidcTimeout =>
    show Told s s.onOidcTimeout
    unfold onOidcTimeout
    split
    · exact Told.refl s
    · dsimp only
      split
      · exact Told.of_eq rfl rfl
      · exact Told.silent rfl rfl .needsLogin
  | oauthCallback code state error =>
    show Told s (s.onOauthCallback code state error)
    unfold onOauthCallback
    dsimp only
    split_ifs
    · exact Told.refl s
    · exact Told.silent rfl rfl .error
    · exact Told.silent rfl rfl .error
    · exact Told.of_eq rfl rfl
  | reply id raw browser => exact finished_told P s id raw browser
  | external n verb path query body => exact Told.of_eq rfl rfl
  | secrets store => exact Told.of_eq rfl rfl
  | clock now => exact Told.of_eq rfl rfl

/-- After an event, a state that is new has been announced while it was handled. -/
theorem step_told (P : Platform) (s : AuthManager) (e : Event) :
    ((machine P).step s e).state = s.state ∨
      .stateChanged ((machine P).step s e).state ∈ ((machine P).step s e).signals := by
  obtain ⟨news, hsignals, hstate⟩ := handle_told P s.fresh e
  refine hstate.imp_right fun hnew => ?_
  have hnews : ((machine P).step s e).signals = news := hsignals.trans (List.nil_append _)
  rw [hnews]
  exact hnew

end AuthManager

end ShelfRemote.Auth
