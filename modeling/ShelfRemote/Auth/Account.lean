import ShelfRemote.Auth.Closed

/-! Whose tokens are saved.

When somebody is signed in (`authenticated`), the account that is announced is the one
the tokens' row is sealed for and the one saved with the server: the next launch opens
the row with it (`Bound`). The announcement is made by one closure alone
(`announced_cases`), and what it makes of the account depends on what the reply to
/api/authorize names, what the attempt before it left in memory, and what the row is
sealed for already (`Accounted`). -/
namespace ShelfRemote.Auth
open Qt Net Runs

/-- A reply that asks for a refresh is not a success. -/
def Denied (ts : TokenStore Callback Waiter) : Prop :=
  Wired ts ∧ ∀ p, .retry p ∈ ts.pending → p.res.ok = false

theorem asksRefresh_denied {c : ApiClient (Handler Callback)} {x : Exchange (Handler Callback)} {raw : RawReply}
    (h : c.asksRefresh x raw = true) : (c.response x raw).ok = false := by
  simp only [ApiClient.asksRefresh, Bool.and_eq_true, beq_iff_eq] at h
  have hstatus : raw.status = 401 := h.1.1.1.1
  simp [ApiClient.response, buildResponse, hstatus]

theorem denied_closed (P : Platform) : Closed P Denied := by
  have hwired : Closed P Wired := Wired.closed
  constructor
  case book => exact fun _ _ _ _ _ _ _ h => ⟨hwired.book _ _ _ _ _ _ _ h.1, h.2⟩
  case fewer => exact fun _ _ _ _ hf hp h => ⟨hwired.fewer _ _ _ _ hf hp h.1, fun p hpp => h.2 p (hp _ hpp)⟩
  case hold => exact fun _ _ _ ha h => ⟨hwired.hold _ _ _ ha h.1, h.2⟩
  case unbear => exact fun _ h => ⟨hwired.unbear _ h.1, h.2⟩
  case send => exact fun _ _ _ hr h => ⟨hwired.send _ _ _ hr h.1, h.2⟩
  case again => exact fun _ _ hp he ha h => ⟨hwired.again _ _ hp he ha h.1, h.2⟩
  case park =>
    intro ts x cb raw hx hcb ha h
    refine ⟨hwired.park ts x cb raw hx hcb ha h.1, fun p hp => ?_⟩
    obtain hp | hp := List.mem_append.mp hp
    · exact h.2 p hp
    · cases List.mem_singleton.mp hp
      exact asksRefresh_denied ha
  case join => exact fun _ h => ⟨hwired.join _ h.1, fun p hp => h.2 p (by simpa using hp)⟩

theorem denied_keeps (P : Platform) :
    Machine.Keeps (AuthManager.machine P) (fun _ _ => True) (fun s => Denied s.tokens) := by
  refine ⟨fun s e h _ => (denied_closed P).everyStep (fun s base h => ⟨h.1.setBaseUrl base, ?_⟩)
    (fun _ _ h => ⟨{ h.1 with }, h.2⟩) h e⟩
  obtain ⟨-, he⟩ | ⟨r, hr, he⟩ := AuthManager.setBaseUrl_tokens h.1.toEpochs P base
  · rw [he]
    exact h.2
  · rw [he]
    exact fun p hp => h.2 p (hr.pending _ hp)

namespace AuthManager
variable {P : Platform} {s s' s'' : AuthManager}

/-! ### Who announces -/

/-- From `s` to `s'` nobody is announced as signed in. -/
def Mute (s s' : AuthManager) : Prop := ∀ u, .authenticated u ∈ s'.signals → .authenticated u ∈ s.signals

namespace Mute

theorem refl (s : AuthManager) : Mute s s := fun _ h => h

theorem trans (h : Mute s s') (h' : Mute s' s'') : Mute s s'' := fun u hu => h u (h' u hu)

theorem of_eq (h : s'.signals = s.signals) : Mute s s' := fun _ hu => h ▸ hu

theorem setState (h : Mute s s') (state : State) : Mute s (s'.setState state) := by
  refine h.trans fun _ hu => ?_
  rw [setState_eq] at hu
  obtain hu | hu := List.mem_append.mp hu
  · exact hu
  · unfold changed at hu
    split at hu
    · cases hu
    · cases List.mem_singleton.mp hu

theorem emit (h : Mute s s') {signal : Signal} (hs : ∀ u, signal ≠ .authenticated u) : Mute s (s'.emit signal) := by
  refine h.trans fun u hu => ?_
  obtain hu | hu := List.mem_append.mp hu
  · exact hu
  · exact absurd (List.mem_singleton.mp hu).symm (hs u)

theorem setError (h : Mute s s') (msg : String) : Mute s (s'.setError msg) := by
  refine Mute.setState ?_ .error
  exact h.trans (of_eq rfl)

theorem applyLoginPayload (P : Platform) (s : AuthManager) (payload : Json) : Mute s (s.applyLoginPayload P payload) := by
  unfold AuthManager.applyLoginPayload
  dsimp only
  split
  · exact (refl s).setError _
  · exact of_eq rfl

/-- Only a success of /api/authorize that is not stale announces anybody. -/
theorem call (P : Platform) (s : AuthManager) {cb : Callback} {res : ApiResponse} (browser : Bool)
    (h : cb = .authorize → res.stale = true ∨ res.ok = false) : Mute s (s.call P cb res browser) := by
  cases cb with
  | status =>
    simp only [AuthManager.call, onStatus]
    split
    · exact refl s
    · split
      · exact (refl s).setError _
      · refine Mute.setState ?_ _
        exact of_eq rfl
  | login =>
    simp only [AuthManager.call, onLogin]
    split
    · exact refl s
    · split
      · refine Mute.setState (Mute.emit ?_ (by simp)) _
        exact of_eq rfl
      · exact applyLoginPayload P s _
  | openidStart attempt =>
    have habandon : ∀ msg, Mute s (({s with oidcInProgress := false}.setLastError msg).setState .needsLogin) := by
      intro msg
      refine Mute.setState ?_ _
      exact of_eq rfl
    simp only [AuthManager.call, onOpenidStart]
    split
    · exact of_eq rfl
    · split
      · exact habandon _
      · split_ifs
        · exact habandon _
        · exact habandon _
        · exact of_eq rfl
        · exact habandon _
  | openidCallback =>
    have hended : Mute s {s with oidcInProgress := false} := of_eq rfl
    simp only [AuthManager.call, onOpenidCallback]
    split
    · exact hended
    · split
      · exact hended.setError _
      · exact hended.trans (applyLoginPayload P _ _)
  | authorize =>
    simp only [AuthManager.call, onAuthorize]
    split
    · exact refl s
    · next hstale =>
      have hok : res.ok = false := (h rfl).resolve_left hstale
      simp only [hok, Bool.not_false, if_true]
      refine Mute.setState (Mute.emit ?_ (by simp)) _
      split
      · exact of_eq rfl
      · exact of_eq rfl
  | logout =>
    simp only [AuthManager.call, onLogout]
    split_ifs
    · exact refl s
    · exact refl s
    · exact of_eq rfl
  | other n => exact refl s

theorem tell (P : Platform) (ok browser : Bool) (s : AuthManager) {w : Waiter}
    (hw : ∀ p, w = .retry p → p.res.ok = false) : Mute s (s.tell P ok browser w) := by
  cases w with
  | restore =>
    simp only [AuthManager.tell]
    split
    · exact of_eq rfl
    · exact (refl s).setState _
  | retry p =>
    simp only [AuthManager.tell, ApiClient.resume, Parked.map]
    by_cases hret : (!ok || p.epoch != s.api.epoch) = true
    · simp only [hret, if_true]
      exact call P s browser fun _ => .inr (hw p rfl)
    · simp only [hret]
      exact of_eq rfl

theorem settle (P : Platform) (s : AuthManager) {t : Settled Waiter} (browser : Bool)
    (ht : ∀ p, .retry p ∈ t.waiters → p.res.ok = false) : Mute s (s.settle P t browser) :=
  settle_keeps (I := Mute s) (fun _ h => h.setState _)
    (fun s' h _ hw => h.trans (tell P t.ok browser s' fun p hp => ht p (hp ▸ hw))) (refl s)

theorem refreshReply (h : Denied s.tokens) (P : Platform) (key : String) (res : ApiResponse) (browser : Bool) :
    Mute s (s.refreshReply P key res browser) := by
  have hsettle : ∀ (ts : TokenStore Callback Waiter) (t : Settled Waiter), t.waiters = s.tokens.pending →
      Mute s ({s with tokens := ts}.settle P t browser) := by
    intro ts t ht
    refine Mute.trans (of_eq rfl) (settle P _ browser fun p hp => ?_)
    exact h.2 p (ht ▸ hp)
  unfold AuthManager.refreshReply
  obtain ⟨-, he⟩ | ⟨-, failed, he⟩ := TokenStore.refreshReply_cases P s.tokens key res
  · rw [he]
    exact hsettle _ _ (TokenStore.setTokens_pending _ _ _ _)
  · rw [he]
    exact hsettle _ _ rfl

theorem refresh (P : Platform) (s : AuthManager) {w : Waiter} (hw : ∀ p, w = .retry p → p.res.ok = false)
    (browser : Bool) : Mute s (s.refresh P w browser) := by
  obtain ⟨-, he⟩ | ⟨-, he⟩ | ⟨-, he⟩ := refresh_cases P s w browser
  · rw [he]
    exact settle P s browser fun p hp => hw p (List.mem_singleton.mp hp).symm
  · rw [he]
    exact of_eq rfl
  · rw [he]
    exact of_eq rfl

theorem setBaseUrl (h : Denied s.tokens) (P : Platform) (base : QUrl) : Mute s (s.setBaseUrl P base) := by
  obtain ⟨-, he⟩ | ⟨r, -, he⟩ := setBaseUrl_cases h.1.toEpochs P base
  · rw [he]
    exact refl s
  · rw [he]
    unfold leave
    split
    · refine Mute.trans (Mute.setState ?_ .needsLogin) (of_eq rfl)
      exact of_eq rfl
    · exact of_eq rfl

theorem onLoad (s : AuthManager) (status : RetrieveStatus) : Mute s (s.onLoad status) := by
  unfold AuthManager.onLoad
  split
  · refine Mute.setState ?_ _
    exact of_eq rfl
  · exact of_eq rfl
  · exact refl s

theorem waitForKeyring (s : AuthManager) : Mute s s.waitForKeyring := by
  unfold AuthManager.waitForKeyring
  split
  · refine Mute.setState ?_ _
    exact of_eq rfl
  · refine Mute.trans (Mute.setState ?_ .authenticating) (of_eq rfl)
    exact of_eq rfl

theorem attemptRestore (h : Denied s.tokens) (P : Platform) : Mute s (s.attemptRestore P).1 := by
  have hlooked : Mute s (s.looked P) := by
    have hmoved := setBaseUrl h P s.restoreUrl
    exact (hmoved.trans (of_eq rfl)).trans (onLoad _ _)
  have hbusy : Mute s ((s.looked P).stopWaitingForKeyring.setState .authenticating) := by
    refine Mute.setState ?_ _
    exact hlooked.trans (of_eq rfl)
  obtain ⟨-, he | he⟩ | ⟨-, he | he⟩ := attemptRestore_cases P s
  · rw [he]
    exact hlooked.trans (waitForKeyring _)
  · rw [he]
    exact hlooked
  · rw [he]
    exact hbusy.trans (refresh P _ (fun p hp => by cases hp) false)
  · rw [he]
    exact hbusy.trans (of_eq rfl)

end Mute

/-- A success of /api/authorize of this origin is handed to its closure, or nobody is
announced. -/
theorem finished_announces (h : Denied s.tokens) (P : Platform) (id : Nat) (raw : RawReply) (browser : Bool) :
    Mute s (s.finished P id raw browser) ∨
      ∃ x rest, pick (fun x => x.id == id) s.api.inFlight = some (x, rest) ∧ x.cb = .call .authorize ∧
        (s.api.response x raw).stale = false ∧ (s.api.response x raw).ok = true ∧
        s.finished P id raw browser = (s.without x rest).onAuthorize P (s.api.response x raw) := by
  obtain he | ⟨x, rest, hpick, hcase⟩ := finished_cases P s id raw browser
  · rw [he]
    exact .inl (Mute.refl s)
  · have hwithout : Mute s (s.without x rest) := Mute.of_eq rfl
    have hfewer : Denied (s.without x rest).tokens :=
      (denied_closed P).fewer s.tokens (s.api.active.erase x.id) rest s.tokens.pending
        (fun y hy => pick_rest hpick hy) (fun _ hw => hw) h
    obtain ⟨key, _, he⟩ | ⟨cb, _, hasks, he⟩ | ⟨cb, hcb, _, he⟩ := hcase
    · rw [he]
      exact .inl (hwithout.trans (Mute.refreshReply hfewer P key _ browser))
    · rw [he]
      refine .inl (hwithout.trans (Mute.refresh P _ (fun p hp => ?_) browser))
      cases hp
      exact asksRefresh_denied hasks
    · by_cases hauth : cb = .authorize ∧ (s.api.response x raw).stale = false ∧ (s.api.response x raw).ok = true
      · obtain ⟨rfl, hstale, hok⟩ := hauth
        exact .inr ⟨x, rest, hpick, hcb, hstale, hok, he⟩
      · rw [he]
        refine .inl (hwithout.trans (Mute.call P _ browser fun hcb => ?_))
        by_contra hno
        simp only [not_or, Bool.not_eq_true, Bool.not_eq_false] at hno
        exact hauth ⟨hcb, hno⟩

/-- Only a reply announces anybody. -/
theorem Mute.handle (h : Denied s.tokens) (P : Platform) {e : Event}
    (hother : ∀ id raw browser, e ≠ .reply id raw browser) : Mute s (s.handle P e) := by
  cases e with
  | reply id raw browser => exact absurd rfl (hother id raw browser)
  | checkServer url =>
    have hmoved := Mute.setBaseUrl (s := s.stopWaitingForKeyring) h P url
    show Mute s (s.checkServer P url)
    unfold checkServer
    refine Mute.trans (Mute.setState ?_ .checking) (Mute.of_eq rfl)
    exact Mute.trans (Mute.of_eq rfl) (hmoved.trans (Mute.of_eq rfl))
  | loginLocal username password =>
    show Mute s (s.loginLocal username password)
    unfold loginLocal
    refine Mute.trans (Mute.setState ?_ .authenticating) (Mute.of_eq rfl)
    exact Mute.of_eq rfl
  | beginOidc pkce =>
    show Mute s (s.beginOidc pkce)
    unfold beginOidc
    split
    · exact Mute.of_eq rfl
    · refine Mute.trans (Mute.setState ?_ .authenticating) (Mute.of_eq rfl)
      exact Mute.of_eq rfl
  | cancelAuth =>
    show Mute s s.cancelAuth
    unfold cancelAuth
    dsimp only
    split
    · refine Mute.setState ?_ _
      exact Mute.of_eq rfl
    · exact Mute.of_eq rfl
  | logout =>
    show Mute s s.logout
    unfold logout
    refine Mute.trans (Mute.setState ?_ .needsLogin) (Mute.of_eq rfl)
    exact ((Mute.refl s).emit (by simp)).trans (Mute.of_eq rfl)
  | restoreSession url key =>
    refine Mute.trans (Mute.of_eq rfl) ?_
    exact Mute.attemptRestore (s := {s.stopWaitingForKeyring with restoreUrl := url, restoreKey := key}) h P
  | keyringTimeout =>
    show Mute s (s.onKeyringTimeout P)
    unfold onKeyringTimeout
    split
    · exact Mute.refl s
    · have hrestored : Mute s ({s with keyringRetry := none}.attemptRestore P).1 :=
        Mute.trans (Mute.of_eq rfl) (Mute.attemptRestore (s := {s with keyringRetry := none}) h P)
      dsimp only
      split
      · exact hrestored
      · refine Mute.setState ?_ _
        exact hrestored.trans (Mute.of_eq rfl)
  | oidcTimeout =>
    show Mute s s.onOidcTimeout
    unfold onOidcTimeout
    split
    · exact Mute.refl s
    · dsimp only
      split
      · exact Mute.of_eq rfl
      · refine Mute.setState ?_ _
        exact Mute.of_eq rfl
  | oauthCallback code state error =>
    show Mute s (s.onOauthCallback code state error)
    unfold onOauthCallback
    split
    · exact Mute.refl s
    · dsimp only
      split_ifs
      · refine Mute.setError ?_ _
        exact Mute.of_eq rfl
      · refine Mute.setError ?_ _
        exact Mute.of_eq rfl
      · exact Mute.of_eq rfl
  | external n verb path query body => exact Mute.of_eq rfl
  | secrets store => exact Mute.of_eq rfl
  | clock now => exact Mute.of_eq rfl

theorem announced_cases (h : Denied s.tokens) (P : Platform) (e : Event) :
    Mute s (s.handle P e) ∨
      ∃ id raw browser x rest, e = .reply id raw browser ∧
        pick (fun x => x.id == id) s.api.inFlight = some (x, rest) ∧ x.cb = .call .authorize ∧
        (s.api.response x raw).stale = false ∧ (s.api.response x raw).ok = true ∧
        s.handle P e = (s.without x rest).onAuthorize P (s.api.response x raw) := by
  by_cases hreply : ∃ id raw browser, e = .reply id raw browser
  · obtain ⟨id, raw, browser, rfl⟩ := hreply
    refine (finished_announces h P id raw browser).imp_right ?_
    rintro ⟨x, rest, hpick, hcb, hstale, hok, he⟩
    exact ⟨id, raw, browser, x, rest, rfl, hpick, hcb, hstale, hok, he⟩
  · exact .inl (Mute.handle h P fun id raw browser he => hreply ⟨id, raw, browser, he⟩)

/-! ### The account -/

def userId (user : Json) : String := (user.value "id").toString ""

/-- What a blob is bound to. -/
def boundTo : Blob → Option String
  | .sealed aad _ => some aad
  | .foreign => none

/-- The row of the current server opens for this account. -/
def SealedFor (ts : TokenStore Callback Waiter) (account : String) : Prop :=
  (ts.secrets.rows ts.row).bind boundTo = some {ts.context with accountId := account}.aad

instance (ts : TokenStore Callback Waiter) (account : String) : Decidable (SealedFor ts account) :=
  inferInstanceAs (Decidable (_ = _))

/-- The user whom a success of /api/authorize announces. -/
def namedUser (s : AuthManager) (body : Json) : Json :=
  let user := (body.toObject.value "user").toObject
  if user.isEmpty then s.user else user

/-- The tokens and servers when a user is announced, and the announcement. -/
theorem onAuthorize_ok {res : ApiResponse} (hstale : res.stale = false) (hok : res.ok = true) (P : Platform)
    (s : AuthManager) :
    let user := s.namedUser res.body
    (s.onAuthorize P res).tokens =
        (if userId user = "" then s.tokens else (s.tokens.setAccount (userId user)).persist) ∧
      (s.onAuthorize P res).servers =
        (s.onAuthorize P res).serverRow P user :: s.servers.filter (·.id ≠ ((s.onAuthorize P res).serverRow P user).id) ∧
      (s.onAuthorize P res).signals = s.signals ++ s.changed .authenticated ++ [.authenticated user] := by
  unfold onAuthorize
  simp only [hstale, hok, Bool.false_eq_true, if_false, Bool.not_true]
  generalize hs₁ : (if (res.body.toObject.value "user").toObject.isEmpty = true then s
    else {s with user := (res.body.toObject.value "user").toObject}) = s₁
  have huser : s₁.user = s.namedUser res.body := by
    rw [← hs₁]
    unfold namedUser
    dsimp only
    split <;> rfl
  have hsame : s₁.tokens = s.tokens ∧ s₁.servers = s.servers ∧ s₁.signals = s.signals ∧ s₁.state = s.state := by
    rw [← hs₁]
    split <;> exact ⟨rfl, rfl, rfl, rfl⟩
  obtain ⟨htokens, hservers, hsignals, hstate⟩ := hsame
  rw [← huser]
  unfold userId
  by_cases hid : (s₁.user.value "id").toString "" = ""
  · simp only [hid, if_true, setState_eq, clearError, emit, saveServer, changed, htokens, hservers, hsignals, hstate,
      true_and]
    exact ⟨rfl, trivial⟩
  · simp only [hid, if_false, setState_eq, clearError, emit, saveServer, changed, htokens, hservers, hsignals, hstate,
      true_and]
    exact ⟨rfl, trivial⟩

/-- Writing the tokens once more binds their row, where there is one to write. -/
theorem sealedFor_rebound (ts : TokenStore Callback Waiter) (h : ts.secrets.available = true) (account : String) :
    SealedFor (if account = "" then ts else (ts.setAccount account).persist) account ↔
      (account = "" ∨ ts.serverKey = "" → SealedFor ts account) := by
  by_cases ha : account = ""
  · simp [ha]
  · rw [if_neg ha]
    by_cases hk : ts.serverKey = ""
    · have hsame : (ts.setAccount account).persist = ts.setAccount account := if_pos hk
      rw [hsame]
      simp only [hk, or_true, true_imp_iff]
      exact Iff.rfl
    · have hwritten : SealedFor (ts.setAccount account).persist account := by
        have hkey : (ts.setAccount account).serverKey ≠ "" := hk
        unfold TokenStore.persist
        rw [if_neg hkey]
        unfold SealedFor SecureStore.store
        simp [TokenStore.setAccount, TokenStore.row, TokenStore.context, h, boundTo]
      simp [hwritten, ha, hk]

/-- A restore finds the account of the row saved last. -/
theorem accountOf_saved (row : ServerRow) (rest : List ServerRow) : accountOf (row :: rest) row.id = row.lastUserId := by
  simp [accountOf]

/-! ### Who said what -/

/-- The user objects of replies, each with the server it came from, newest first. -/
abbrev Heard := List (Json × QUrl)

/-- The user in a success: /login and the code exchange may bring it at the root. -/
def said (cb : Callback) (body : Json) : List Json :=
  let payload := body.toObject
  let user := (payload.value "user").toObject
  match cb with
  | .login | .openidCallback => [if user.isEmpty then payload else user]
  | .authorize => [user]
  | .status | .openidStart _ | .logout | .other _ => []

def hear (heard : Heard) (s : AuthManager) : Event → Heard
  | .reply id raw _ =>
    match pick (fun x => x.id == id) s.api.inFlight with
    | none => heard
    | some (x, _) =>
      let res := s.api.response x raw
      match x.cb with
      | .refresh _ => heard
      | .call cb => if res.ok && !res.stale then (said cb raw.body).map (·, s.api.baseUrl) ++ heard else heard
  | _ => heard

def listening (P : Platform) : Machine (AuthManager × Heard) Event where
  step s e := ((machine P).step s.1 e, hear s.2 s.1 e)

/-- The user is announced in this step. -/
def Announces (P : Platform) (s : AuthManager) (e : Event) (user : Json) : Prop :=
  .authenticated user ∈ ((machine P).step s e).signals

/-- The account of the user announced: the tokens' row is bound to it, it is the one saved
for the server, with which a restore opens the row, and the user comes from a reply of
this server. -/
structure Bound (P : Platform) (s : AuthManager × Heard) (user : Json) : Prop where
  row : SealedFor s.1.tokens (userId user)
  saved : accountOf s.1.servers (s.1.serverRow P user).id = userId user
  said : (user, s.1.api.baseUrl) ∈ s.2

/-- What a success of /api/authorize with this body finds: it names a user, or the one in
memory came from this server, if there is one; and where no account is named, the row is
bound to none. -/
structure Accounted (s : AuthManager × Heard) (body : Json) : Prop where
  user : (body.toObject.value "user").toObject.isEmpty = true →
    s.1.user = .object [] ∨ (s.1.user, s.1.api.baseUrl) ∈ s.2
  row : userId (s.1.namedUser body) = "" ∨ s.1.tokens.serverKey = "" →
    SealedFor s.1.tokens (userId (s.1.namedUser body))

/-- The reply that comes is accounted for. -/
def AccountedIn (s : AuthManager × Heard) : Event → Prop
  | .reply _ raw _ => Accounted s raw.body
  | _ => True

/-- What an announcing step leaves: the tokens, the row of the server, what was heard. -/
structure Announced (P : Platform) (s : AuthManager × Heard) (raw : RawReply) (s' : AuthManager × Heard)
    (user : Json) : Prop where
  named : user = s.1.namedUser raw.body
  row : SealedFor s'.1.tokens (userId user) ↔
    (userId user = "" ∨ s.1.tokens.serverKey = "" → SealedFor s.1.tokens (userId user))
  saved : accountOf s'.1.servers (s'.1.serverRow P user).id = userId user
  base : s'.1.api.baseUrl = s.1.api.baseUrl
  heard : s'.2 = ((raw.body.toObject.value "user").toObject, s.1.api.baseUrl) :: s.2

theorem announced {s : AuthManager × Heard} (h : Denied s.1.tokens) (P : Platform) {e : Event} {user : Json}
    (hstore : s.1.tokens.secrets.available = true) (hu : Announces P s.1 e user) :
    ∃ id raw browser, e = .reply id raw browser ∧ Announced P s raw ((listening P).step s e) user := by
  obtain hmute | ⟨id, raw, browser, x, rest, rfl, hpick, hcb, hstale, hok, he⟩ :=
    announced_cases (s := s.1.fresh) h P e
  · exact absurd (hmute user hu) List.not_mem_nil
  · refine ⟨id, raw, browser, rfl, ?_⟩
    have hstep : (machine P).step s.1 (.reply id raw browser) =
        (s.1.fresh.without x rest).onAuthorize P (s.1.fresh.api.response x raw) := he
    obtain ⟨htokens, hservers, hsignals⟩ := onAuthorize_ok hstale hok P (s.1.fresh.without x rest)
    rw [← hstep] at htokens hservers hsignals
    have huser : user = s.1.namedUser raw.body := by
      unfold Announces at hu
      rw [hsignals] at hu
      obtain hu | hu := List.mem_append.mp hu
      · unfold changed at hu
        split at hu <;> simp [without, withApi, fresh] at hu
      · cases List.mem_singleton.mp hu
        rfl
    constructor
    case named => exact huser
    case row =>
      rw [huser]
      show SealedFor ((machine P).step s.1 (.reply id raw browser)).tokens _ ↔ _
      rw [htokens]
      exact sealedFor_rebound (s.1.fresh.without x rest).tokens hstore _
    case saved =>
      rw [huser]
      show accountOf ((machine P).step s.1 (.reply id raw browser)).servers _ = _
      rw [hservers]
      exact accountOf_saved (serverRow P ((machine P).step s.1 (.reply id raw browser)) (s.1.namedUser raw.body)) _
    case base =>
      show ((machine P).step s.1 (.reply id raw browser)).tokens.api.baseUrl = _
      rw [htokens]
      split
      · rfl
      · rw [TokenStore.persist_api]
        rfl
    case heard =>
      have hpick : pick (fun x => x.id == id) s.1.api.inFlight = some (x, rest) := hpick
      have hstale : (s.1.api.response x raw).stale = false := hstale
      have hok : (s.1.api.response x raw).ok = true := hok
      show hear s.2 s.1 (.reply id raw browser) = _
      simp [hear, hpick, hcb, hstale, hok, said]

/-- In the step that announces a user, the account is right just where the reply is
accounted for. -/
theorem bound_iff {s : AuthManager × Heard} (h : Denied s.1.tokens) (P : Platform) {e : Event} {user : Json}
    (hstore : s.1.tokens.secrets.available = true) (hu : Announces P s.1 e user) :
    Bound P ((listening P).step s e) user ↔ AccountedIn s e := by
  obtain ⟨id, raw, browser, rfl, ha⟩ := announced h P hstore hu
  have hsaid : (user, ((listening P).step s (.reply id raw browser)).1.api.baseUrl) ∈
      ((listening P).step s (.reply id raw browser)).2 ↔
      ((raw.body.toObject.value "user").toObject.isEmpty = true →
        s.1.user = .object [] ∨ (s.1.user, s.1.api.baseUrl) ∈ s.2) := by
    rw [ha.base, ha.heard, List.mem_cons, ha.named, namedUser]
    by_cases hempty : (raw.body.toObject.value "user").toObject.isEmpty = true
    · have hnil : (Json.object []).isEmpty = true := rfl
      simp only [Json.toObject_of_isEmpty hempty, hnil, if_true, true_imp_iff, Prod.mk.injEq, and_true]
    · simp [hempty]
  refine ⟨fun hb => ⟨hsaid.mp hb.said, ?_⟩, fun hacc => ⟨ha.row.mpr ?_, ha.saved, hsaid.mpr hacc.user⟩⟩
  · rw [← ha.named]
    exact ha.row.mp hb.row
  · rw [ha.named]
    exact hacc.row

theorem listening_keeps (P : Platform) :
    (listening P).Keeps (fun _ _ => True) (fun s => Denied s.1.tokens) :=
  ⟨fun s e h _ => (denied_keeps P).step s.1 e h trivial⟩

/-- **The account of the tokens is the account of the server.** In every run, with the secret
store at hand: in each step that announces a user, the tokens' row is bound to the account
of that user, a restore opens it with the account saved for the server, and the user comes
from a reply of this server, just where the reply is accounted for. So where every reply
that announces somebody is, the account is right all along. -/
theorem account_bound (P : Platform) (secrets : SecureStore) (servers : List ServerRow) (now : Int)
    (events : List Event) :
    (listening P).Along (fun s e => s.1.tokens.secrets.available = true → ∀ user, Announces P s.1 e user →
        (Bound P ((listening P).step s e) user ↔ AccountedIn s e)) (launch secrets servers now, []) events ∧
      ((listening P).Along (fun s e => ∀ user, Announces P s.1 e user → AccountedIn s e)
          (launch secrets servers now, []) events →
        (listening P).Along (fun s e => s.1.tokens.secrets.available = true → ∀ user, Announces P s.1 e user →
          Bound P ((listening P).step s e) user) (launch secrets servers now, []) events) := by
  have hstart : Denied (launch secrets servers now).tokens := ⟨Wired.launch secrets servers now, fun p hp => by cases hp⟩
  have hiff : (listening P).Along (fun s e => s.1.tokens.secrets.available = true → ∀ user, Announces P s.1 e user →
      (Bound P ((listening P).step s e) user ↔ AccountedIn s e)) (launch secrets servers now, []) events :=
    (listening_keeps P).always_along (fun s e h hstore user hu => bound_iff h P hstore hu) hstart events
  refine ⟨hiff, fun hacc => (hiff.and hacc).mono fun s e hboth hstore user hu => ?_⟩
  exact (hboth.1 hstore user hu).mpr (hboth.2 user hu)

/-- The saved session of "bob" on `b`. -/
def savedRow : ServerRow := ⟨"b", "b", "b", "bob"⟩

def savedTokens : SecureStore where
  rows := fun key =>
    if key = "b/tokens" then
      some (.sealed {serverId := "b", accountId := "bob", credType := "tokens" : SecretContext}.aad
        (.object [("access", .string "access"), ("refresh", .string "refresh")]))
    else none

/-- "alice" signs in at `a`. -/
def aliceSignsIn : List Event :=
  [.checkServer {scheme := "https", host := "a"}, .reply 0 {status := 200} true, .loginLocal "alice" "password",
    .reply 1
      { status := 200
        body := .object [("accessToken", .string "access"), ("refreshToken", .string "refresh"),
          ("user", .object [("id", .string "alice")])] } true,
    .reply 2 {status := 200, body := .object [("user", .object [("id", .string "alice")])]} true]

/-- A restore whose verification names no user announces nobody's account while the row is
bound to "bob"; and after "alice" signed in at `a`, it announces her at `b`. -/
theorem unnamed_restore :
    ¬(listening default).Along (fun s e => s.1.tokens.secrets.available = true → ∀ user, Announces default s.1 e user →
        Bound default ((listening default).step s e) user) (launch savedTokens [savedRow] 0, [])
      [.restoreSession {scheme := "https", host := "b"} "b", .reply 0 {status := 200} true] ∧
    ¬(listening default).Along (fun s e => s.1.tokens.secrets.available = true → ∀ user, Announces default s.1 e user →
        Bound default ((listening default).step s e) user) (launch savedTokens [savedRow] 0, [])
      (aliceSignsIn ++ [.restoreSession {scheme := "https", host := "b"} "b", .reply 3 {status := 200} true]) := by
  refine ⟨fun h => ?_, fun h => ?_⟩
  · have hnobody : Announces default
        ((listening default).step (launch savedTokens [savedRow] 0, [])
          (.restoreSession {scheme := "https", host := "b"} "b")).1
        (.reply 0 {status := 200} true) (.object []) := .tail _ (.head _)
    have hbound := h.2.1 (by decide +kernel) _ hnobody
    exact absurd hbound.row (by decide +kernel)
  · have hrun := (Machine.along_append _ (aliceSignsIn ++ [.restoreSession {scheme := "https", host := "b"} "b"])
      [.reply 3 {status := 200} true]).mp h
    have halice : Announces default
        ((listening default).run (launch savedTokens [savedRow] 0, [])
          (aliceSignsIn ++ [.restoreSession {scheme := "https", host := "b"} "b"])).1
        (.reply 3 {status := 200} true) (.object [("id", .string "alice")]) := .tail _ (.head _)
    have hbound := hrun.2.1 (by decide +kernel) _ halice
    -- All that was heard of her was heard from `a`.
    have hheard : ∀ heard ∈ ((listening default).run (launch savedTokens [savedRow] 0, [])
        (aliceSignsIn ++ [.restoreSession {scheme := "https", host := "b"} "b", .reply 3 {status := 200} true])).2,
        userId heard.1 = "alice" → heard.2.host = "a" := by decide +kernel
    exact absurd (hheard _ hbound.said (by decide +kernel)) (by decide +kernel)

end AuthManager

end ShelfRemote.Auth
