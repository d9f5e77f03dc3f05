import Mathlib.Data.List.Pairwise
import ShelfRemote.Auth.Tracking

/-! Signing in never gets stuck.

While the sign-in is under way (`Busy`), something is to come that takes it further
(`Owed`): a reply whose closure drives the attempt, a refresh somebody waits for, the
timer of the keyring, or that of a browser handoff. `call_outcome` says what a closure
does with a reply of this origin, and every step is read off from it. -/
namespace ShelfRemote.Auth
open Qt Net Runs

namespace AuthManager
variable {P : Platform} {s s' : AuthManager} {l : List Waiter}

/-- The sign-in is under way. -/
def Busy (s : AuthManager) : Prop := s.state = .checking ∨ s.state = .authenticating

instance (s : AuthManager) : Decidable s.Busy := inferInstanceAs (Decidable (_ ∨ _))

/-- A closure that takes the sign-in further; that of a browser handoff only while the
attempt is in progress. -/
def Drives (inProgress : Bool) : Callback → Prop
  | .status => True
  | .login => True
  | .openidStart _ => inProgress = true
  | .openidCallback => True
  | .authorize => True
  | .logout => False
  | .other _ => False

def WaiterDrives (inProgress : Bool) : Waiter → Prop
  | .restore => True
  | .retry p => Drives inProgress p.cb

/-- Something is to come, with these waiting for a refresh. -/
inductive Owed (s : AuthManager) (l : List Waiter) : Prop
  | flying (x : Exchange (Handler Callback)) (cb : Callback) (hx : x ∈ s.api.inFlight) (hcb : x.cb = .call cb)
      (hd : Drives s.oidcInProgress cb)
  | waiting (w : Waiter) (hw : w ∈ l) (hd : WaiterDrives s.oidcInProgress w)
  | keyring (hk : s.keyringRetry.isSome = true)
  | handoff (ht : s.oidcTimeout.isSome = true) (ho : s.oidcInProgress = true)

/-- What is to come still is where nothing of it was taken away. -/
theorem Owed.mono {l' : List Waiter} (h : Owed s l)
    (hf : ∀ x ∈ s.api.inFlight, ∀ cb, x.cb = .call cb → x ∈ s'.api.inFlight ∨ ∃ w ∈ l', ∀ b, Drives b cb → WaiterDrives b w)
    (hl : ∀ w ∈ l, w ∈ l') (hk : s'.keyringRetry = s.keyringRetry) (ht : s.oidcInProgress = true → s'.oidcTimeout = s.oidcTimeout)
    (ho : s'.oidcInProgress = s.oidcInProgress) : Owed s' l' := by
  cases h with
  | flying x cb hx hcb hd =>
    rw [← ho] at hd
    obtain hx | ⟨w, hw, hwd⟩ := hf x hx cb hcb
    · exact .flying x cb hx hcb hd
    · exact .waiting w hw (hwd _ hd)
  | waiting w hw hd =>
    rw [← ho] at hd
    exact .waiting w (hl w hw) hd
  | keyring h => exact .keyring (hk ▸ h)
  | handoff h ho' => exact .handoff (ht ho' ▸ h) (ho ▸ ho')

theorem not_busy_of {state : State} (h : s.state = state) (hc : state ≠ .checking) (ha : state ≠ .authenticating) :
    ¬s.Busy := by
  unfold Busy
  rw [h]
  simp [hc, ha]

theorem setState_idle (s : AuthManager) {state : State} (hc : state ≠ .checking) (ha : state ≠ .authenticating) :
    ¬(s.setState state).Busy :=
  not_busy_of (setState_state state) hc ha

theorem needsLogin_idle (s : AuthManager) : ¬(s.setState .needsLogin).Busy :=
  setState_idle s (by decide) (by decide)

theorem setError_idle (s : AuthManager) (msg : String) : ¬(s.setError msg).Busy :=
  setState_idle _ (by decide) (by decide)

theorem emit_busy (s : AuthManager) (signal : Signal) : (s.emit signal).Busy ↔ s.Busy := Iff.rfl

theorem saveServer_busy (P : Platform) (s : AuthManager) (user : Json) : (s.saveServer P user).Busy ↔ s.Busy :=
  Iff.rfl

/-- The request that went out last is to come. -/
theorem send_owed (s : AuthManager) (request : Request) (cb : Callback) (hd : Drives s.oidcInProgress cb)
    (l : List Waiter) : Owed (s.send request cb) l :=
  .flying _ cb (List.mem_cons_self ..) rfl hd

/-! ### Closures -/

theorem applyLoginPayload_outcome (P : Platform) (s : AuthManager) (payload : Json) :
    ¬(s.applyLoginPayload P payload).Busy ∨
      ∃ s₁ : AuthManager, s₁.api.created = s.api.created ∧ s.applyLoginPayload P payload = s₁.authorizeAndFinish := by
  unfold applyLoginPayload
  dsimp only
  split
  · exact .inl (setError_idle s _)
  · refine .inr ⟨_, ?_, rfl⟩
    show (TokenStore.setTokens P _ _ _).api.created = _
    rw [TokenStore.setTokens_api]
    rfl

/-- A closure handed a reply of this origin ends the sign-in, or goes on to verify the
tokens, or hands over to the browser, or has nothing to do with it. -/
theorem call_outcome (P : Platform) (s : AuthManager) (cb : Callback) {res : ApiResponse} (hres : res.stale = false)
    (browser : Bool) :
    ¬(s.call P cb res browser).Busy ∨
    (∃ s₁ : AuthManager, s₁.api.created = s.api.created ∧ s.call P cb res browser = s₁.authorizeAndFinish) ∨
    (∃ opened attempt, cb = .openidStart attempt ∧
      s.call P cb res browser = {s with opened, oidcTimeout := some attempt}) ∨
    ((∀ b, ¬Drives b cb) ∧ ∃ opened, s.call P cb res browser = {s with opened}) := by
  cases cb with
  | status =>
    left
    simp only [call, onStatus, hres]
    split
    · contradiction
    · split
      · exact setError_idle s _
      · exact needsLogin_idle _
  | login =>
    simp only [call, onLogin, hres]
    split
    · contradiction
    · split
      · exact .inl (needsLogin_idle _)
      · exact (applyLoginPayload_outcome P s _).imp_right .inl
  | openidStart attempt =>
    simp only [call, onOpenidStart, hres]
    split
    · contradiction
    · split
      · exact .inl (needsLogin_idle _)
      · split_ifs
        · exact .inl (needsLogin_idle _)
        · exact .inl (needsLogin_idle _)
        · exact .inr (.inr (.inl ⟨_, attempt, rfl, rfl⟩))
        · exact .inl (needsLogin_idle _)
  | openidCallback =>
    simp only [call, onOpenidCallback, hres]
    split
    · contradiction
    · split
      · exact .inl (setError_idle _ _)
      · exact (applyLoginPayload_outcome P {s with oidcInProgress := false} _).imp_right .inl
  | authorize =>
    left
    simp only [call, onAuthorize, hres]
    split
    · contradiction
    · split
      · exact needsLogin_idle _
      · rw [saveServer_busy, emit_busy]
        exact setState_idle _ (by decide) (by decide)
  | logout =>
    refine .inr (.inr (.inr ⟨fun b hb => hb, ?_⟩))
    simp only [call, onLogout, hres]
    split
    · contradiction
    · split
      · exact ⟨s.opened, rfl⟩
      · exact ⟨_, rfl⟩
  | other n => exact .inr (.inr (.inr ⟨fun b hb => hb, s.opened, rfl⟩))

/-- A closure leaves something to come where something was, or where it drives. -/
theorem call_owed {cb : Callback} (h : s.Busy → Owed s l ∨ Drives s.oidcInProgress cb) (P : Platform)
    {res : ApiResponse} (hres : res.stale = false) (browser : Bool) (hb : (s.call P cb res browser).Busy) :
    Owed (s.call P cb res browser) l := by
  obtain hidle | ⟨s₁, -, he⟩ | ⟨opened, attempt, rfl, he⟩ | ⟨hnone, opened, he⟩ := call_outcome P s cb hres browser
  · exact absurd hb hidle
  · rw [he]
    exact send_owed s₁ _ .authorize trivial l
  · rw [he] at hb ⊢
    by_cases ho : s.oidcInProgress = true
    · exact .handoff rfl ho
    · have hs := (h hb).resolve_right ho
      exact hs.mono (fun x hx _ _ => .inl hx) (fun _ hw => hw) rfl (fun ho' => absurd ho' ho) rfl
  · rw [he] at hb ⊢
    have hs := (h hb).resolve_right (hnone _)
    exact hs.mono (fun x hx _ _ => .inl hx) (fun _ hw => hw) rfl (fun _ => rfl) rfl

/-! ### Waiters -/

theorem tell_owed {w : Waiter} (h : s.Busy → Owed s (w :: l))
    (hw : ∀ p, w = .retry p → p.epoch = s.api.epoch ∧ p.res.stale = false) (P : Platform) (ok browser : Bool)
    (hb : (s.tell P ok browser w).Busy) : Owed (s.tell P ok browser w) l := by
  cases w with
  | restore =>
    simp only [tell] at hb ⊢
    cases ok with
    | true => exact send_owed s _ .authorize trivial l
    | false => exact absurd hb (needsLogin_idle s)
  | retry p =>
    obtain ⟨hepoch, hstale⟩ := hw p rfl
    cases ok with
    | true =>
      rw [tell_retry, if_neg (by simp [hepoch])] at hb ⊢
      cases h hb with
      | flying x cb hx hcb hd => exact .flying x cb (List.mem_cons_of_mem _ hx) hcb hd
      | waiting w hw hd =>
        obtain rfl | hw := List.mem_cons.mp hw
        · exact .flying _ p.cb (List.mem_cons_self ..) rfl hd
        · exact .waiting w hw hd
      | keyring hk => exact .keyring hk
      | handoff ht ho => exact .handoff ht ho
    | false =>
      rw [tell_retry, if_pos (by simp)] at hb ⊢
      refine call_owed (fun hs => ?_) P (by simp [hstale, hepoch]) browser hb
      cases h hs with
      | flying x cb hx hcb hd => exact .inl (.flying x cb hx hcb hd)
      | waiting w hw hd =>
        obtain rfl | hw := List.mem_cons.mp hw
        · exact .inr hd
        · exact .inl (.waiting w hw hd)
      | keyring hk => exact .inl (.keyring hk)
      | handoff ht ho => exact .inl (.handoff ht ho)

/-- Those who are told give way to what they start. -/
theorem tells_owed (P : Platform) (ok browser : Bool) (ws : List Waiter) :
    ∀ s : AuthManager, (s.Busy → Owed s (ws ++ l)) →
      (∀ p, .retry p ∈ ws → p.epoch = s.api.epoch ∧ p.res.stale = false) →
      (ws.foldl (tell P ok browser) s).Busy → Owed (ws.foldl (tell P ok browser) s) l := by
  induction ws with
  | nil => exact fun s h _ hb => h hb
  | cons w ws ih =>
    intro s h hws
    refine ih _ (tell_owed h (fun p hp => hws p (hp ▸ List.mem_cons_self ..)) P ok browser) fun p hp => ?_
    rw [(Works.tell P ok browser s w).api.epoch]
    exact hws p (List.mem_cons_of_mem _ hp)

theorem settle_owed {t : Settled Waiter} (h : s.Busy → Owed s (t.waiters ++ l))
    (ht : ∀ p, .retry p ∈ t.waiters → p.epoch = s.api.epoch ∧ p.res.stale = false) (P : Platform) (browser : Bool)
    (hb : (s.settle P t browser).Busy) : Owed (s.settle P t browser) l := by
  unfold settle at *
  dsimp only at *
  split at hb
  · rw [if_pos ‹_›]
    refine tells_owed P t.ok browser t.waiters _ (fun hs => absurd hs (needsLogin_idle s)) (fun p hp => ?_) hb
    have := ht p hp
    rwa [show (s.setState .needsLogin).api = s.api by unfold api; rw [setState_tokens]]
  · rw [if_neg ‹_›]
    exact tells_owed P t.ok browser t.waiters s h ht hb

theorem refreshReply_owed (h : s.Busy → Owed s s.tokens.pending)
    (hp : ∀ p, .retry p ∈ s.tokens.pending → p.epoch = s.api.epoch ∧ p.res.stale = false) (P : Platform)
    (key : String) (res : ApiResponse) (browser : Bool) (hb : (s.refreshReply P key res browser).Busy) :
    Owed (s.refreshReply P key res browser) (s.refreshReply P key res browser).tokens.pending := by
  have hnone : ∀ (ts : TokenStore Callback Waiter) (t : Settled Waiter),
      ({s with tokens := {ts with refreshing := false, pending := []}}.settle P t browser).tokens.pending = [] :=
    fun ts t => settle_pending ..
  unfold refreshReply at *
  obtain ⟨-, he⟩ | ⟨-, failed, he⟩ := TokenStore.refreshReply_cases P s.tokens key res
  · rw [he] at hb ⊢
    dsimp only [TokenStore.settle] at hb ⊢
    rw [hnone]
    refine settle_owed (fun hs => ?_) (fun p hpp => ?_) P browser hb
    · rw [TokenStore.setTokens_pending, List.append_nil]
      refine (h hs).mono (fun x hx _ _ => .inl ?_) (fun _ hw => hw) rfl (fun _ => rfl) rfl
      show x ∈ (TokenStore.setTokens P s.tokens _ _).api.inFlight
      rw [TokenStore.setTokens_api]
      exact hx
    · rw [TokenStore.setTokens_pending] at hpp
      show p.epoch = (TokenStore.setTokens P s.tokens _ _).api.epoch ∧ _
      rw [TokenStore.setTokens_api]
      exact hp p hpp
  · rw [he] at hb ⊢
    dsimp only [TokenStore.settle] at hb ⊢
    rw [hnone]
    refine settle_owed (fun hs => ?_) hp P browser hb
    rw [List.append_nil]
    exact (h hs).mono (fun x hx _ _ => .inl hx) (fun _ hw => hw) rfl (fun _ => rfl) rfl

theorem refresh_owed {w : Waiter} (h : s.Busy → Owed s (s.tokens.pending ++ [w]))
    (hw : ∀ p, w = .retry p → p.epoch = s.api.epoch ∧ p.res.stale = false) (P : Platform) (browser : Bool)
    (hb : (s.refresh P w browser).Busy) :
    Owed (s.refresh P w browser) (s.refresh P w browser).tokens.pending := by
  obtain ⟨-, he⟩ | ⟨-, he⟩ | ⟨-, he⟩ := refresh_cases P s w browser
  · rw [he] at hb ⊢
    rw [settle_pending]
    refine settle_owed (fun hs => ?_) (fun p hp => hw p (List.mem_singleton.mp hp).symm) P browser hb
    refine (h hs).mono (fun x hx _ _ => .inl hx) (fun v hv => ?_) rfl (fun _ => rfl) rfl
    obtain hv | hv := List.mem_append.mp hv
    · exact List.mem_cons_of_mem _ hv
    · exact List.mem_append_left _ hv
  · rw [he] at hb ⊢
    exact (h hb).mono (fun x hx _ _ => .inl hx) (fun _ hv => hv) rfl (fun _ => rfl) rfl
  · rw [he] at hb ⊢
    exact (h hb).mono (fun x hx _ _ => .inl (List.mem_cons_of_mem _ hx)) (fun _ hv => hv) rfl (fun _ => rfl) rfl

/-! ### Events -/

/-- Where the sign-in is under way, something is to come. -/
def Going (s : AuthManager) : Prop := s.Busy → Owed s s.tokens.pending

theorem going_of_idle (h : ¬s.Busy) : s.Going := fun hb => absurd hb h

theorem finished_going (h : s.Going) (hc : Current s.tokens) (P : Platform) (id : Nat) (raw : RawReply)
    (browser : Bool) : (s.finished P id raw browser).Going := by
  obtain he | ⟨x, rest, hpick, hcase⟩ := finished_cases P s id raw browser
  · rw [he]
    exact h
  · have hmem : ∀ y ∈ s.api.inFlight, y = x ∨ y ∈ rest := fun y hy =>
      List.mem_cons.mp ((pick_perm hpick).mem_iff.mp hy)
    have hfresh : (s.api.response x raw).stale = false := by
      have hx : x.epoch = s.api.epoch := hc.epochs x (pick_mem hpick)
      simp [ApiClient.response, hx]
    obtain ⟨key, hx, he⟩ | ⟨cb, hx, _, he⟩ | ⟨cb, hx, _, he⟩ := hcase
    · intro hb
      rw [he] at hb ⊢
      refine refreshReply_owed (s := s.without x rest) (fun hs => ?_) hc.parked P key _ browser hb
      refine (h hs).mono (fun y hy cb hcb => .inl ((hmem y hy).resolve_left fun hyx => ?_)) (fun _ hw => hw) rfl
        (fun _ => rfl) rfl
      rw [hyx, hx] at hcb
      cases hcb
    · intro hb
      rw [he] at hb ⊢
      refine refresh_owed (s := s.without x rest) (fun hs => ?_) (fun p hp => ?_) P browser hb
      · refine (h hs).mono (fun y hy cb' hcb' => ?_) (fun _ hw => List.mem_append_left _ hw) rfl (fun _ => rfl) rfl
        obtain rfl | hy := hmem y hy
        · -- The closure waits for the refresh now.
          rw [hx] at hcb'
          cases hcb'
          exact .inr ⟨_, List.mem_append_right _ (List.mem_singleton.mpr rfl), fun b hd => hd⟩
        · exact .inl hy
      · cases hp
        exact ⟨hc.epochs x (pick_mem hpick), hfresh⟩
    · intro hb
      rw [he] at hb ⊢
      rw [call_pending]
      refine call_owed (s := s.without x rest) (fun hs => ?_) P hfresh browser hb
      cases h hs with
      | flying y cb' hy hcb' hd =>
        obtain rfl | hy := hmem y hy
        · rw [hx] at hcb'
          cases hcb'
          exact .inr hd
        · exact .inl (.flying y cb' hy hcb' hd)
      | waiting w hw hd => exact .inl (.waiting w hw hd)
      | keyring hk => exact .inl (.keyring hk)
      | handoff ht ho => exact .inl (.handoff ht ho)

theorem waitForKeyring_going (s : AuthManager) : s.waitForKeyring.Going := by
  unfold waitForKeyring
  split
  · exact going_of_idle (needsLogin_idle _)
  · exact fun _ => .keyring rfl

theorem looked_idle (h : ¬s.Busy) (hc : Current s.tokens) (P : Platform) : ¬(s.looked P).Busy := by
  have hmoved : ¬(s.setBaseUrl P s.restoreUrl).Busy := by
    have hepochs : Epochs s.tokens :=
      ⟨fun x hx => (hc.epochs x hx).le, fun p hp => (hc.parked p hp).1.le⟩
    obtain ⟨-, he⟩ | ⟨r, -, he⟩ := setBaseUrl_cases hepochs P s.restoreUrl
    · rw [he]
      exact h
    · rw [he]
      unfold leave
      split
      · exact needsLogin_idle _
      · exact h
  unfold looked onLoad
  dsimp only
  split
  · exact needsLogin_idle _
  · exact hmoved
  · exact hmoved

/-- A restore that goes on leaves something to come, and one that does not leaves an idle
state idle. -/
theorem attemptRestore_going (hc : Current s.tokens) (P : Platform) :
    if (s.attemptRestore P).2 then (s.attemptRestore P).1.Going else ¬s.Busy → ¬(s.attemptRestore P).1.Busy := by
  obtain ⟨-, he | he⟩ | ⟨-, he | he⟩ := attemptRestore_cases P s
  · rw [he]
    exact waitForKeyring_going _
  · rw [he]
    exact fun h => looked_idle h hc P
  · rw [he]
    refine refresh_owed (fun _ => ?_) (fun p hp => by cases hp) P false
    exact .waiting .restore (List.mem_append_right _ (List.mem_singleton.mpr rfl)) trivial
  · rw [he]
    exact fun _ => send_owed _ _ .authorize trivial _

theorem checkServer_going (P : Platform) (s : AuthManager) (url : QUrl) : (s.checkServer P url).Going := by
  intro _
  unfold checkServer
  exact send_owed _ _ .status trivial _

theorem onKeyringTimeout_going (h : s.Going) (hc : Current s.tokens) (P : Platform) : (s.onKeyringTimeout P).Going := by
  unfold onKeyringTimeout
  split
  · exact h
  · have hgoing := attemptRestore_going (s := {s with keyringRetry := none}) hc P
    dsimp only
    split
    · next hok => rwa [if_pos hok] at hgoing
    · exact going_of_idle (needsLogin_idle _)

theorem beginOidc_going (h : s.Going) (pkce : Pkce) : (s.beginOidc pkce).Going := by
  unfold beginOidc
  split
  · exact fun hb => (h hb).mono (fun x hx _ _ => .inl hx) (fun _ hw => hw) rfl (fun _ => rfl) rfl
  · exact fun _ =>
      send_owed {s.clearError.setState .authenticating with pkce, oidcInProgress := true} _
        (.openidStart pkce.state) rfl _

theorem onOauthCallback_going (h : s.Going) (code state error : String) : (s.onOauthCallback code state error).Going := by
  unfold onOauthCallback
  split
  · exact h
  · dsimp only
    split_ifs
    · exact going_of_idle (setError_idle _ _)
    · exact going_of_idle (setError_idle _ _)
    · exact fun _ => send_owed _ _ .openidCallback trivial _

theorem onOidcTimeout_going (h : s.Going) : s.onOidcTimeout.Going := by
  unfold onOidcTimeout
  split
  · exact h
  · dsimp only
    split
    · next ho =>
      have ho : ¬s.oidcInProgress = true := by simpa using ho
      exact fun hb => (h hb).mono (fun x hx _ _ => .inl hx) (fun _ hw => hw) rfl (fun ho' => absurd ho' ho) rfl
    · exact going_of_idle (needsLogin_idle _)

theorem cancelAuth_idle (s : AuthManager) : ¬s.cancelAuth.Busy := by
  unfold cancelAuth
  dsimp only
  split
  · exact needsLogin_idle _
  · next h => exact fun hb => h hb.symm

theorem logout_idle (s : AuthManager) : ¬s.logout.Busy := by
  have hstate : s.logout.state = .needsLogin := by
    unfold logout
    exact setState_state _
  exact not_busy_of hstate (by decide) (by decide)

theorem restoreSession_going (hc : Current s.tokens) (P : Platform) (url : QUrl) (key : String) :
    if (s.restoreSession P url key).2 then (s.restoreSession P url key).1.Going
    else ¬s.Busy → ¬(s.restoreSession P url key).1.Busy :=
  attemptRestore_going (s := {s.stopWaitingForKeyring with restoreUrl := url, restoreKey := key}) hc P

/-! ### Runs -/

/-- What is called and happens. A saved server is restored, or else checked. -/
inductive Call where
  | event (e : Event)
  | restoreElseCheck (baseUrl : QUrl) (serverKey : String) (checked : QUrl)

def handleCall (P : Platform) (s : AuthManager) : Call → AuthManager
  | .event e => s.handle P e
  | .restoreElseCheck baseUrl serverKey checked =>
    let (s, restoring) := s.restoreSession P baseUrl serverKey
    if restoring then s else s.checkServer P checked

def calls (P : Platform) : Machine AuthManager Call := ⟨fun s c => s.fresh.handleCall P c⟩

/-- A restore that comes to nothing is made from `disconnected`, or a check follows at once. -/
def Followed (P : Platform) (s : AuthManager) : Call → Prop
  | .event (.restoreSession baseUrl serverKey) =>
    s.state = .disconnected ∨ (s.fresh.restoreSession P baseUrl serverKey).2 = true
  | _ => True

instance (P : Platform) (s : AuthManager) : (c : Call) → Decidable (Followed P s c)
  | .event (.restoreSession _ _) => inferInstanceAs (Decidable (_ ∨ _))
  | .event (.checkServer _) | .event (.loginLocal _ _) | .event (.beginOidc _) | .event .cancelAuth
  | .event .logout | .event .keyringTimeout | .event .oidcTimeout | .event (.oauthCallback _ _ _)
  | .event (.reply _ _ _) | .event (.external _ _ _ _ _) | .event (.secrets _) | .event (.clock _)
  | .restoreElseCheck _ _ _ => .isTrue trivial

theorem handle_going (h : s.Going) (hc : Current s.tokens) (P : Platform) {e : Event}
    (he : ∀ url key, e = .restoreSession url key → s.state = .disconnected ∨ (s.restoreSession P url key).2 = true) :
    (s.handle P e).Going := by
  cases e with
  | checkServer url => exact checkServer_going P s url
  | loginLocal username password => exact fun _ => send_owed _ _ .login trivial _
  | beginOidc pkce => exact beginOidc_going h pkce
  | cancelAuth => exact going_of_idle (cancelAuth_idle s)
  | logout => exact going_of_idle (logout_idle s)
  | restoreSession url key =>
    have hgoing := restoreSession_going hc P url key
    by_cases hok : (s.restoreSession P url key).2 = true
    · rwa [if_pos hok] at hgoing
    · rw [if_neg hok] at hgoing
      have hstart : s.state = .disconnected := (he url key rfl).resolve_right hok
      exact going_of_idle (hgoing (not_busy_of hstart (by decide) (by decide)))
  | keyringTimeout => exact onKeyringTimeout_going h hc P
  | oidcTimeout => exact onOidcTimeout_going h
  | oauthCallback code state error => exact onOauthCallback_going h code state error
  | reply id raw browser => exact finished_going h hc P id raw browser
  | external n verb path query body =>
    exact fun hb => (h hb).mono (fun x hx _ _ => .inl (List.mem_cons_of_mem _ hx)) (fun _ hw => hw) rfl
      (fun _ => rfl) rfl
  | secrets store => exact fun hb => (h hb).mono (fun x hx _ _ => .inl hx) (fun _ hw => hw) rfl (fun _ => rfl) rfl
  | clock now => exact fun hb => (h hb).mono (fun x hx _ _ => .inl hx) (fun _ hw => hw) rfl (fun _ => rfl) rfl

/-- Both invariants of a run. -/
structure Alive (s : AuthManager) : Prop where
  current : Current s.tokens
  going : s.Going

theorem alive_launch (secrets : SecureStore) (servers : List ServerRow) (now : Int) :
    Alive (launch secrets servers now) where
  current := launch_current secrets servers now
  going := by
    have hstart : (launch secrets servers now).state = .disconnected := rfl
    exact going_of_idle (not_busy_of hstart (by decide) (by decide))

theorem alive_call (hP : ∀ ids, (P.abortOrder ids).Perm ids) (h : s.Alive) {c : Call} (hc : Followed P s c) :
    ((calls P).step s c).Alive := by
  have hgoing : s.fresh.Going := fun hb =>
    (h.going hb).mono (fun x hx _ _ => .inl hx) (fun _ hw => hw) rfl (fun _ => rfl) rfl
  cases c with
  | event e =>
    refine ⟨step_current hP h.current e, handle_going hgoing h.current P ?_⟩
    rintro url key rfl
    exact hc
  | restoreElseCheck url key checked =>
    have hcurrent : Current (s.fresh.restoreSession P url key).1.tokens :=
      step_current hP h.current (.restoreSession url key)
    have hrestored := restoreSession_going (s := s.fresh) h.current P url key
    show ((s.fresh.handleCall P (.restoreElseCheck url key checked))).Alive
    unfold handleCall
    dsimp only
    split
    · next hok =>
      rw [if_pos hok] at hrestored
      exact ⟨hcurrent, hrestored⟩
    · exact ⟨checkServer_current hP hcurrent checked, checkServer_going P _ checked⟩

theorem keeps_alive (hP : ∀ ids, (P.abortOrder ids).Perm ids) :
    (calls P).Keeps (fun s c => Followed P s c) Alive := ⟨fun _ _ h hc => alive_call hP h hc⟩

/-! ### What is pending -/

/-- The busy state is over, or another request has been sent. -/
def Onward (s s' : AuthManager) : Prop := ¬s'.Busy ∨ s.api.created < s'.api.created

/-- The browser has the page, and the timer of the attempt runs. -/
def HandedOver (s : AuthManager) : Prop := s.oidcTimeout.isSome = true ∧ s.oidcInProgress = true

/-- Something is pending: a reply of this origin whose handler moves on, whatever the reply
says unless it asks for a refresh, or the timer of the keyring, or that of a handoff in
progress. -/
inductive Pending (P : Platform) (Moves : AuthManager → AuthManager → Prop) (s : AuthManager) : Prop
  | reply (x : Exchange (Handler Callback)) (hx : x ∈ s.api.inFlight) (fresh : x.epoch = s.api.epoch)
      (moves : ∀ raw browser, s.api.asksRefresh x raw = false → Moves s (s.finished P x.id raw browser))
  | keyring (hk : s.keyringRetry.isSome = true)
  | handoff (h : s.HandedOver)

/-- The attempt moves on, or waits for the browser. -/
def Moves (s s' : AuthManager) : Prop := Onward s s' ∨ HandedOver s'

theorem Moves.of_idle (h : ¬s'.Busy) : Moves s s' := .inl (.inl h)

theorem Moves.of_sent (h : s.api.created < s'.api.created) : Moves s s' := .inl (.inr h)

/-- What was sent before does not count. -/
theorem Moves.since {s₀ : AuthManager} (h : Moves s s') (hle : s₀.api.created ≤ s.api.created) : Moves s₀ s' := by
  obtain (hidle | hsent) | hover := h
  · exact .of_idle hidle
  · exact .of_sent (hle.trans_lt hsent)
  · exact .inr hover

theorem authorizeAndFinish_moves {s₁ : AuthManager} (h : s₁.api.created = s.api.created) :
    Moves s s₁.authorizeAndFinish := by
  refine .of_sent ?_
  show s.api.created < s₁.api.created + 1
  omega

theorem call_moves {cb : Callback} (hd : Drives s.oidcInProgress cb) (P : Platform) {res : ApiResponse}
    (hres : res.stale = false) (browser : Bool) : Moves s (s.call P cb res browser) := by
  obtain hidle | ⟨s₁, hs₁, he⟩ | ⟨opened, attempt, rfl, he⟩ | ⟨hnone, -⟩ := call_outcome P s cb hres browser
  · exact .of_idle hidle
  · rw [he]
    exact authorizeAndFinish_moves hs₁
  · rw [he]
    exact .inr ⟨rfl, hd⟩
  · exact absurd hd (hnone _)

/-- A waiter moves the attempt on, or at most starts the timer of a handoff. -/
theorem tell_outcome {w : Waiter} (hw : ∀ p, w = .retry p → p.epoch = s.api.epoch ∧ p.res.stale = false)
    (P : Platform) (ok browser : Bool) :
    (WaiterDrives s.oidcInProgress w → Moves s (s.tell P ok browser w)) ∧
      (Moves s (s.tell P ok browser w) ∨ ∃ opened oidcTimeout,
        s.tell P ok browser w = {s with opened, oidcTimeout} ∧
          (s.oidcTimeout.isSome = true → oidcTimeout.isSome = true)) := by
  cases w with
  | restore =>
    have hmoves : Moves s (s.tell P ok browser .restore) := by
      simp only [tell]
      split
      · exact authorizeAndFinish_moves rfl
      · exact .of_idle (needsLogin_idle s)
    exact ⟨fun _ => hmoves, .inl hmoves⟩
  | retry p =>
    obtain ⟨hepoch, hstale⟩ := hw p rfl
    cases ok with
    | true =>
      have hmoves : Moves s (s.tell P true browser (.retry p)) := by
        rw [tell_retry, if_neg (by simp [hepoch])]
        exact .of_sent (Nat.lt_succ_self _)
      exact ⟨fun _ => hmoves, .inl hmoves⟩
    | false =>
      rw [tell_retry, if_pos (by simp)]
      have hres : ({p.res with stale := p.res.stale || p.epoch != s.api.epoch} : ApiResponse).stale = false := by
        simp [hstale, hepoch]
      refine ⟨fun hd => call_moves hd P hres browser, ?_⟩
      obtain hidle | ⟨s₁, hs₁, he⟩ | ⟨opened, attempt, -, he⟩ | ⟨-, opened, he⟩ :=
        call_outcome P s p.cb hres browser
      · exact .inl (.of_idle hidle)
      · rw [he]
        exact .inl (authorizeAndFinish_moves hs₁)
      · exact .inr ⟨opened, some attempt, he, fun _ => rfl⟩
      · exact .inr ⟨opened, s.oidcTimeout, he, id⟩

/-- What has moved on stays so when a waiter is told. -/
theorem Moves.tell {s₀ : AuthManager} (h : Moves s₀ s) (hle : s₀.api.created ≤ s.api.created) {w : Waiter}
    (hw : ∀ p, w = .retry p → p.epoch = s.api.epoch ∧ p.res.stale = false) (P : Platform) (ok browser : Bool) :
    Moves s₀ (s.tell P ok browser w) := by
  obtain hmoves | ⟨opened, oidcTimeout, he, htimer⟩ := (tell_outcome hw P ok browser).2
  · exact hmoves.since hle
  · rw [he]
    obtain (hidle | hsent) | hover := h
    · exact .of_idle hidle
    · exact .of_sent hsent
    · exact .inr ⟨htimer hover.1, hover.2⟩

/-- Among those who are told is one that moves the attempt on, or it has moved on before. -/
theorem tells_move {s₀ : AuthManager} (P : Platform) (ok browser : Bool) (ws : List Waiter) :
    ∀ s : AuthManager, s₀.api.created ≤ s.api.created →
      (∀ p, .retry p ∈ ws → p.epoch = s.api.epoch ∧ p.res.stale = false) →
      (Moves s₀ s ∨ ∃ w ∈ ws, WaiterDrives s.oidcInProgress w) → Moves s₀ (ws.foldl (tell P ok browser) s) := by
  induction ws with
  | nil =>
    rintro s - - (hmoves | ⟨w, hw, -⟩)
    · exact hmoves
    · cases hw
  | cons v ws ih =>
    intro s hle hws h
    have hv : ∀ p, v = .retry p → p.epoch = s.api.epoch ∧ p.res.stale = false :=
      fun p hp => hws p (hp ▸ List.mem_cons_self ..)
    have hworks := Works.tell P ok browser s v
    refine ih _ (hle.trans hworks.api.fresh.1) (fun p hp => ?_) ?_
    · rw [hworks.api.epoch]
      exact hws p (List.mem_cons_of_mem _ hp)
    · obtain hmoves | ⟨w, hw, hd⟩ := h
      · exact .inl (hmoves.tell hle hv P ok browser)
      · obtain ⟨hdrives, hmoves | ⟨opened, oidcTimeout, he, -⟩⟩ := tell_outcome hv P ok browser
        · exact .inl (hmoves.since hle)
        · obtain rfl | hw := List.mem_cons.mp hw
          · exact .inl ((hdrives hd).since hle)
          · rw [he]
            exact .inr ⟨w, hw, hd⟩

theorem settle_moves {s₀ : AuthManager} (hle : s₀.api.created ≤ s.api.created) {t : Settled Waiter}
    (ht : ∀ p, .retry p ∈ t.waiters → p.epoch = s.api.epoch ∧ p.res.stale = false) {w : Waiter}
    (hw : w ∈ t.waiters) (hd : WaiterDrives s.oidcInProgress w) (P : Platform) (browser : Bool) :
    Moves s₀ (s.settle P t browser) := by
  unfold settle
  dsimp only
  split
  · have hsame : (s.setState .needsLogin).api = s.api := by
      unfold api
      rw [setState_tokens]
    exact tells_move P t.ok browser t.waiters _ (hsame ▸ hle) (hsame ▸ ht) (.inl (.of_idle (needsLogin_idle s)))
  · exact tells_move P t.ok browser t.waiters s hle ht (.inr ⟨w, hw, hd⟩)

/-- The reply of a refresh moves on whoever waits for it, whatever it says. -/
theorem refreshReply_moves (hp : ∀ p, .retry p ∈ s.tokens.pending → p.epoch = s.api.epoch ∧ p.res.stale = false)
    {w : Waiter} (hw : w ∈ s.tokens.pending) (hd : WaiterDrives s.oidcInProgress w) (P : Platform) (key : String)
    (res : ApiResponse) (browser : Bool) : Moves s (s.refreshReply P key res browser) := by
  unfold refreshReply
  obtain ⟨-, he⟩ | ⟨-, failed, he⟩ := TokenStore.refreshReply_cases P s.tokens key res
  · rw [he]
    generalize TokenStore.replyToken res.body.toObject "accessToken" = access
    generalize s.tokens.rotated res = rotated
    have hapi : (s.tokens.setTokens P access rotated).api = s.tokens.api.setAccessToken access :=
      TokenStore.setTokens_api ..
    have hpending := TokenStore.setTokens_pending P s.tokens access rotated
    refine settle_moves
      (s := {s with tokens := {s.tokens.setTokens P access rotated with refreshing := false, pending := []}})
      (le_of_eq ?_) (fun p hpp => ?_) (hpending.symm ▸ hw) hd P browser
    · exact (congrArg ApiClient.created hapi).symm
    · obtain ⟨hepoch, hstale⟩ := hp p (hpending ▸ hpp)
      exact ⟨hepoch.trans (congrArg ApiClient.epoch hapi).symm, hstale⟩
  · rw [he]
    exact settle_moves (s := {s with tokens := {s.tokens with refreshing := false, pending := []}}) le_rfl hp hw hd
      P browser

/-- What is in flight is found by its number. -/
theorem pick_inFlight (h : Tracked s.api) {x : Exchange (Handler Callback)} (hx : x ∈ s.api.inFlight) :
    ∃ rest, pick (fun y => y.id == x.id) s.api.inFlight = some (x, rest) := by
  cases hpick : pick (fun y => y.id == x.id) s.api.inFlight with
  | none => exact absurd (pick_none hpick x hx) (by simp)
  | some picked =>
    obtain ⟨y, rest⟩ := picked
    have hid : y.id = x.id := by simpa using pick_accepts hpick
    have hsymm : Std.Symm fun x y : Exchange (Handler Callback) => x.id ≠ y.id := ⟨fun _ _ hab => hab.symm⟩
    have hsame : y = x := by
      by_contra hne
      exact h.distinct.forall (pick_mem hpick) hx hne hid
    exact ⟨rest, by rw [hsame]⟩

/-- A reply that asks for no refresh is handed to its closure. -/
theorem finished_call (h : Tracked s.api) {x : Exchange (Handler Callback)} (hx : x ∈ s.api.inFlight) {cb : Callback}
    (hcb : x.cb = .call cb) (P : Platform) {raw : RawReply} (hasks : s.api.asksRefresh x raw = false)
    (browser : Bool) :
    ∃ rest, s.finished P x.id raw browser = (s.without x rest).call P cb (s.api.response x raw) browser := by
  obtain ⟨rest, hpick⟩ := pick_inFlight h hx
  refine ⟨rest, ?_⟩
  unfold finished without
  simp only [hpick, hcb, hasks]
  rfl

/-- The reply of a refresh is settled. -/
theorem finished_refresh (h : Tracked s.api) {x : Exchange (Handler Callback)} (hx : x ∈ s.api.inFlight)
    (hr : x.cb.isRefresh = true) (P : Platform) (raw : RawReply) (browser : Bool) :
    ∃ key rest, s.finished P x.id raw browser =
      (s.without x rest).refreshReply P key (s.api.response x raw) browser := by
  obtain ⟨rest, hpick⟩ := pick_inFlight h hx
  cases hcb : x.cb with
  | call cb => rw [hcb] at hr; cases hr
  | refresh key =>
    refine ⟨key, rest, ?_⟩
    unfold finished without
    simp only [hpick, hcb]

theorem Alive.pending (h : s.Alive) (hb : s.Busy) (P : Platform) : Pending P Moves s := by
  cases h.going hb with
  | flying x cb hx hcb hd =>
    refine .reply x hx (h.current.epochs x hx) fun raw browser hasks => ?_
    obtain ⟨rest, he⟩ := finished_call h.current.toTracked hx hcb P hasks browser
    have hepoch : x.epoch = s.api.epoch := h.current.epochs x hx
    have hres : (s.api.response x raw).stale = false := by simp [ApiClient.response, hepoch]
    rw [he]
    exact (call_moves (s := s.without x rest) hd P hres browser).since le_rfl
  | waiting w hw hd =>
    obtain ⟨x, hx, hr⟩ := h.current.flying (h.current.waiting (List.ne_nil_of_mem hw))
    refine .reply x hx (h.current.epochs x hx) fun raw browser _ => ?_
    obtain ⟨key, rest, he⟩ := finished_refresh h.current.toTracked hx hr P raw browser
    rw [he]
    exact (refreshReply_moves (s := s.without x rest) h.current.parked hw hd P key _ browser).since le_rfl
  | keyring hk => exact .keyring hk
  | handoff ht ho => exact .handoff ⟨ht, ho⟩

/-- **Sign-in never gets stuck.** Whatever is called, answered and timed out in whatever
order, where a restore that comes to nothing is made from `disconnected` or followed by
a check: while the sign-in is under way, something is pending that ends it, sends
another request, or hands over to the browser with the timer running. -/
theorem never_stuck (P : Platform) (hP : ∀ ids, (P.abortOrder ids).Perm ids) (secrets : SecureStore)
    (servers : List ServerRow) (now : Int) (run : List Call)
    (h : (calls P).Along (Followed P) (launch secrets servers now) run) :
    let s := (calls P).run (launch secrets servers now) run
    s.Busy → Pending P Moves s := by
  intro s hb
  have halive : s.Alive := (keeps_alive hP).run (alive_launch secrets servers now) h
  exact halive.pending hb P

/-- The page of the identity provider has been asked for. -/
def handoffStart : List Call :=
  [.event (.checkServer {scheme := "https", host := "a"}), .event (.reply 0 {status := 200} true),
    .event (.beginOidc {state := "state"})]

/-- The reply, which leads to the identity provider. -/
def redirect : RawReply := {status := 302, location := some {scheme := "https", host := "idp"}}

/-- With the page asked for, all that is pending is its reply, and a redirect neither ends
the busy state nor sends a request: it hands over to the browser. -/
theorem handoff_start_hands_over :
    (calls default).Along (Followed default) (launch {} [] 0) handoffStart ∧
      let s := (calls default).run (launch {} [] 0) handoffStart
      s.Busy ∧ ¬Pending default Onward s := by
  refine ⟨by decide, by decide, ?_⟩
  intro hpending
  cases hpending with
  | reply x hx _ moves =>
    have hone : ∀ x ∈ ((calls default).run (launch {} [] 0) handoffStart).api.inFlight, x.id = 1 ∧
        ((calls default).run (launch {} [] 0) handoffStart).api.asksRefresh x redirect = false := by decide
    obtain ⟨hid, hasks⟩ := hone x hx
    have hmoved := moves redirect true hasks
    rw [hid] at hmoved
    obtain hidle | hsent := hmoved
    · exact hidle (by decide +kernel)
    · exact absurd hsent (by decide +kernel)
  | keyring hk => exact absurd hk (by decide)
  | handoff h => exact absurd h.1 (by decide)

/-- A saved session behind a locked keyring, and a server that has none. -/
def savedServers : List Call :=
  [.event (.secrets {rows := fun key => if key = "b/tokens" then some .foreign else none, available := false}),
    .restoreElseCheck {scheme := "https", host := "a"} "a" {scheme := "https", host := "a"},
    .event (.reply 0 {status := 200} true),
    .restoreElseCheck {scheme := "https", host := "b"} "b" {scheme := "https", host := "b"}]

theorem never_stuck_saved :
    Pending default Moves ((calls default).run (launch {} [] 0) savedServers) :=
  never_stuck default (fun ids => .refl ids) {} [] 0 savedServers (by decide) (by decide)

end AuthManager

end ShelfRemote.Auth
