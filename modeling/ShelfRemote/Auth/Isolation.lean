import ShelfRemote.Auth.Closed

/-! Whose bearer goes where.

The owner of an access token is the server that was configured when the token got
into the store. A token is dropped from memory when the user picks a server
(`checkServer`), but a restore moves the client before it knows whether it will
find a token for the new server: where it finds none, the client keeps the old
one. `Handover` is the restore after which no foreign token is held, and under
it no request carries a foreign one (`bearer_isolation`). -/
namespace ShelfRemote.Auth
open Qt Net Runs

/-- The token was acquired for this server before `sent` requests had gone out. -/
def Owned (acquired : List Acquired) (token : String) (server : QUrl) (sent : Nat) : Prop :=
  ∃ a ∈ acquired, a.token = token ∧ a.owner = server ∧ a.sent ≤ sent

instance (acquired : List Acquired) (token : String) (server : QUrl) (sent : Nat) :
    Decidable (Owned acquired token server sent) :=
  inferInstanceAs (Decidable (∃ a ∈ acquired, _))

/-- The request has no `Authorization` header, or the token in it was owned by the
server it went to when it went out. -/
def Carried {κ : Type} (acquired : List Acquired) (x : Exchange κ) : Prop :=
  ∀ token ∈ x.request.bearer, Owned acquired token x.request.target.server.base x.id

instance {κ : Type} (acquired : List Acquired) (x : Exchange κ) : Decidable (Carried acquired x) :=
  inferInstanceAs (Decidable (∀ token ∈ x.request.bearer, _))

theorem Owned.later {acquired : List Acquired} {token : String} {server : QUrl} {n m : Nat}
    (h : Owned acquired token server n) (hn : n ≤ m) : Owned acquired token server m := by
  obtain ⟨a, ha, ht, ho, hs⟩ := h
  exact ⟨a, ha, ht, ho, hs.trans hn⟩

theorem Owned.cons {acquired : List Acquired} {token : String} {server : QUrl} {n : Nat}
    (h : Owned acquired token server n) (a : Acquired) : Owned (a :: acquired) token server n := by
  obtain ⟨b, hb, hrest⟩ := h
  exact ⟨b, List.mem_cons_of_mem _ hb, hrest⟩

theorem Carried.cons {κ : Type} {acquired : List Acquired} {x : Exchange κ}
    (h : Carried acquired x) (a : Acquired) : Carried (a :: acquired) x :=
  fun token ht => (h token ht).cons a

/-- Requests of the current origin go to the current server, and whatever was sent
carried a bearer of the server it went to. -/
structure Routed (ts : TokenStore Callback Waiter) : Prop extends AuthManager.Epochs ts where
  wire : ∀ x ∈ ts.api.wire, Carried ts.acquired x
  target : ∀ x ∈ ts.api.inFlight, x.epoch = ts.api.epoch → x.request.target.server = ts.api.endpoints
  parked : ∀ p, .retry p ∈ ts.pending → p.epoch = ts.api.epoch →
    p.request.target.server = ts.api.endpoints

/-- And the bearer held now is one of the server configured now. -/
structure Isolated (ts : TokenStore Callback Waiter) : Prop extends Routed ts where
  bearer : ts.api.accessToken ≠ "" →
    Owned ts.acquired ts.api.accessToken ts.api.baseUrl ts.api.created

variable {P : Platform}

theorem Routed.hold {ts : TokenStore Callback Waiter} (h : Routed ts) (P : Platform)
    (access refresh : String) : Isolated (ts.hold P access refresh) where
  wire x hx := (h.wire x hx).cons _
  inFlight := h.inFlight
  pending := h.pending
  target := h.target
  parked := h.parked
  bearer _ := ⟨_, List.mem_cons_self .., rfl, rfl, Nat.le_refl _⟩

/-- A request of now, carrying the bearer held now if any, is put on the wire. -/
theorem Isolated.sendImpl {ts : TokenStore Callback Waiter} (h : Isolated ts) {r : Request}
    (hs : r.target.server = ts.api.endpoints)
    (hb : r.bearer = none ∨ ts.api.accessToken ≠ "" ∧ r.bearer = some ts.api.accessToken)
    (cb : Handler Callback) (retry : Bool) : Isolated {ts with api := ts.api.sendImpl r cb retry} where
  wire x hx := by
    rcases List.mem_cons.mp hx with rfl | hx
    · intro token ht
      have ht : r.bearer = some token := ht
      show Owned ts.acquired token r.target.server.base ts.api.created
      rcases hb with hb | ⟨hne, hb⟩
      · rw [hb] at ht
        cases ht
      · rw [hb] at ht
        cases ht
        rw [hs]
        exact h.bearer hne
    · exact h.wire x hx
  inFlight x hx := by
    rcases List.mem_cons.mp hx with rfl | hx
    · exact Nat.le_refl _
    · exact h.inFlight x hx
  pending := h.pending
  target x hx he := by
    rcases List.mem_cons.mp hx with rfl | hx
    · exact hs
    · exact h.target x hx he
  parked := h.parked
  bearer hne := (h.bearer hne).later (Nat.le_succ _)

theorem isolated_closed : Closed P Isolated where
  book ts account secrets access refresh expiry refreshing h := { h with }
  fewer ts active inFlight pending hf hp h :=
    { h with
      inFlight := fun x hx => h.inFlight x (hf x hx)
      pending := fun p hp' => h.pending p (hp _ hp')
      target := fun x hx => h.target x (hf x hx)
      parked := fun p hp' => h.parked p (hp _ hp') }
  hold ts access refresh _ h := h.toRouted.hold P access refresh
  unbear ts h := { h with bearer := fun hne => absurd rfl hne }
  send ts request cb hr h := h.sendImpl hr.server hr.bearer cb true
  again ts p hp he hne h := h.sendImpl (r := {p.request with bearer := some ts.api.accessToken})
    (h.parked p hp he) (.inr ⟨hne, rfl⟩) (.call p.cb) false
  park ts x cb raw hx _ ha h := by
    refine { h with pending := ?_, parked := ?_ }
    · intro p hp
      rcases List.mem_append.mp hp with hp | hp
      · exact h.pending p hp
      · cases List.mem_singleton.mp hp
        exact h.inFlight x hx
    · intro p hp he
      rcases List.mem_append.mp hp with hp | hp
      · exact h.parked p hp he
      · cases List.mem_singleton.mp hp
        exact h.target x hx he
  join ts h := by
    refine { h with pending := ?_, parked := ?_ }
    · intro p hp
      exact h.pending p (by simpa using hp)
    · intro p hp
      exact h.parked p (by simpa using hp)

/-! ### Changes of origin -/

theorem Routed.moved {s : AuthManager} (h : Routed s.tokens) {r : AuthManager.Remains} (hr : r.Within s)
    (base : QUrl) : Routed (AuthManager.moved s.tokens base r) where
  toEpochs := h.toEpochs.moved hr base
  wire := h.wire
  target x hx he := by
    have := h.inFlight x (hr.inFlight x hx)
    have he : x.epoch = s.tokens.api.epoch + 1 := he
    omega
  parked p hp he := by
    have := h.pending p (hr.pending _ hp)
    have he : p.epoch = s.tokens.api.epoch + 1 := he
    omega

theorem setBaseUrl_routed {s : AuthManager} (h : Routed s.tokens) (base : QUrl) :
    Routed (s.setBaseUrl P base).tokens := by
  rcases AuthManager.setBaseUrl_tokens h.toEpochs P base with ⟨_, he⟩ | ⟨r, hr, he⟩
  · rw [he]
    exact h
  · rw [he]
    exact h.moved hr base

/-- A change of origin that changes no server, or finds no bearer to take along. -/
theorem setBaseUrl_isolated {s : AuthManager} (h : Isolated s.tokens) {base : QUrl}
    (hb : s.api.accessToken = "" ∨ normalise base = s.api.baseUrl) :
    Isolated (s.setBaseUrl P base).tokens := by
  rcases AuthManager.setBaseUrl_tokens h.toRouted.toEpochs P base with ⟨_, he⟩ | ⟨r, hr, he⟩
  · rw [he]
    exact h
  · rw [he]
    refine ⟨h.toRouted.moved hr base, fun hne => ?_⟩
    rcases hb with hb | hb
    · exact absurd hb hne
    · have hbase : (AuthManager.moved s.tokens base r).api.baseUrl = s.tokens.api.baseUrl := hb
      rw [hbase]
      exact h.bearer hne

/-- The access token `load` would find. -/
def TokenStore.savedAccess {κ ω : Type} (ts : TokenStore κ ω) : String :=
  if ts.serverKey = "" then ""
  else
    match ts.secrets.retrieve ts.row ts.context with
    | (.ok, tokens) => (tokens.value "access").toString ""
    | _ => ""

theorem load_isolated {ts : TokenStore Callback Waiter} (h : Routed ts)
    (hb : Isolated ts ∨ ts.savedAccess ≠ "") : Isolated (ts.load P).1 := by
  unfold TokenStore.load
  unfold TokenStore.savedAccess at hb
  by_cases hk : ts.serverKey = ""
  · rw [if_pos hk] at hb ⊢
    exact hb.resolve_right fun hn => hn rfl
  · rw [if_neg hk] at hb ⊢
    rcases hr : ts.secrets.retrieve ts.row ts.context with ⟨status, tokens⟩
    rw [hr] at hb
    cases status with
    | ok =>
      by_cases ha : (tokens.value "access").toString "" = ""
      · simp only [ha, if_true]
        exact { hb.resolve_right (fun hn => hn ha) with }
      · simp only [ha, if_false]
        exact h.hold P _ _
    | missing => exact hb.resolve_right fun hn => hn rfl
    | undecryptable => exact { hb.resolve_right (fun hn => hn rfl) with }
    | providerUnavailable => exact hb.resolve_right fun hn => hn rfl

namespace AuthManager

/-- The access token a restore of `key` would find. -/
def savedAccess (s : AuthManager) (key : String) : String :=
  ((s.tokens.setServerKey key).setAccount (accountOf s.servers key)).savedAccess

/-- A restore that leaves no foreign bearer: there is none to take along, or the
server is the one configured, or a token for it is found. -/
def Handover (s : AuthManager) (url : QUrl) (key : String) : Prop :=
  s.api.accessToken = "" ∨ normalise url = s.api.baseUrl ∨ s.savedAccess key ≠ ""

instance (s : AuthManager) (url : QUrl) (key : String) : Decidable (s.Handover url key) :=
  inferInstanceAs (Decidable (_ ∨ _ ∨ _))

/-- Whatever restores, also a retry while the keyring is locked, is a handover. -/
def HandsOver (s : AuthManager) : Event → Prop
  | .restoreSession url key => s.Handover url key
  | .keyringTimeout => s.keyringRetry ≠ none → s.Handover s.restoreUrl s.restoreKey
  | _ => True

instance (s : AuthManager) (e : Event) : Decidable (s.HandsOver e) :=
  match e with
  | .restoreSession url key => inferInstanceAs (Decidable (s.Handover url key))
  | .keyringTimeout =>
    inferInstanceAs (Decidable (s.keyringRetry ≠ none → s.Handover s.restoreUrl s.restoreKey))
  | .checkServer _ | .loginLocal _ _ | .beginOidc _ | .cancelAuth | .logout | .oidcTimeout
  | .oauthCallback _ _ _ | .reply _ _ _ | .external _ _ _ _ _ | .secrets _ | .clock _ => .isTrue trivial

theorem looked_isolated {s : AuthManager} (h : Isolated s.tokens)
    (hs : s.Handover s.restoreUrl s.restoreKey) : Isolated (s.looked P).tokens := by
  rw [looked_tokens]
  have hservers := setBaseUrl_servers h.toRouted.toEpochs P s.restoreUrl
  have hrouted : Routed (s.pointAt P).tokens := { setBaseUrl_routed h.toRouted s.restoreUrl with }
  apply load_isolated hrouted
  rcases hs with hs | hs | hs
  · exact .inl { setBaseUrl_isolated h (.inl hs) with }
  · exact .inl { setBaseUrl_isolated h (.inr hs) with }
  · right
    have htokens : (s.pointAt P).tokens.savedAccess = s.savedAccess s.restoreKey := by
      unfold pointAt savedAccess
      dsimp only
      rw [hservers]
      rcases setBaseUrl_tokens h.toRouted.toEpochs P s.restoreUrl with ⟨_, he⟩ | ⟨r, _, he⟩
      · rw [he]
      · rw [he]
        rfl
    rw [htokens]
    exact hs

theorem restore_isolated {s : AuthManager} (h : Isolated s.tokens)
    (hs : s.Handover s.restoreUrl s.restoreKey) : Isolated (s.attemptRestore P).1.tokens :=
  isolated_closed.attemptRestore (looked_isolated h hs)

theorem checkServer_isolated {s : AuthManager} (h : Isolated s.tokens) (url : QUrl) :
    Isolated (s.checkServer P url).tokens := by
  unfold checkServer
  refine (isolated_closed (P := P)).getHere ?_ ?_ _ _
  · rw [setState_tokens]
    have hmoved : Routed (s.stopWaitingForKeyring.setBaseUrl P url).tokens :=
      setBaseUrl_routed (s := s.stopWaitingForKeyring) h.toRouted url
    exact { hmoved with bearer := fun hne => absurd rfl hne }
  · rfl

theorem restoreSession_isolated {s : AuthManager} (h : Isolated s.tokens) {url : QUrl} {key : String}
    (hs : s.Handover url key) : Isolated (s.restoreSession P url key).1.tokens :=
  restore_isolated (s := {s.stopWaitingForKeyring with restoreUrl := url, restoreKey := key}) h hs

theorem onKeyringTimeout_isolated {s : AuthManager} (h : Isolated s.tokens)
    (hs : s.keyringRetry ≠ none → s.Handover s.restoreUrl s.restoreKey) :
    Isolated (s.onKeyringTimeout P).tokens := by
  unfold onKeyringTimeout
  split
  · exact h
  · next hd =>
    have hs := hs (by rw [hd]; exact Option.some_ne_none _)
    have hrestored := restore_isolated (P := P) (s := {s with keyringRetry := none}) h hs
    dsimp only
    split
    · exact hrestored
    · rw [setState_tokens]
      exact hrestored

/-- One event, the rule being about restores only. -/
theorem isolated_step {s : AuthManager} (h : Isolated s.tokens) (e : Event) (he : s.HandsOver e) :
    Isolated ((machine P).step s e).tokens := by
  by_cases hr : Closed.Repoints e
  · have h : Isolated s.fresh.tokens := h
    cases e with
    | checkServer url => exact checkServer_isolated h url
    | restoreSession url key => exact restoreSession_isolated h he
    | keyringTimeout => exact onKeyringTimeout_isolated h he
    | _ => exact absurd hr id
  · exact isolated_closed.step h e hr

theorem isolated_keeps : Machine.Keeps (machine P) HandsOver (fun s => Isolated s.tokens) :=
  ⟨fun _ e h he => isolated_step h e he⟩

theorem isolated_launch (secrets : SecureStore) (servers : List ServerRow) (now : Int) :
    Isolated (launch secrets servers now).tokens where
  wire x hx := by cases hx
  inFlight x hx := by cases hx
  pending p hp := by cases hp
  target x hx := by cases hx
  parked p hp := by cases hp
  bearer hne := absurd rfl hne

/-- Every request ever sent has no bearer, or one of the server it went to. -/
def BearersOwned (s : AuthManager) : Prop := ∀ x ∈ s.api.wire, Carried s.tokens.acquired x

instance (s : AuthManager) : Decidable (s.BearersOwned) :=
  inferInstanceAs (Decidable (∀ x ∈ s.api.wire, Carried s.tokens.acquired x))

/-- The server refuses to refresh the session on `a`, the user picks the saved
server `b` while the keyring is locked, and signs in there by hand. -/
def lockedKeyring (b : QUrl) : List Event :=
  signIn {scheme := "https", host := "a"} "access" "refresh" ++
    [.external 0 .get "/api/me" [] .null, .reply 3 {status := 401} true, .reply 4 {status := 401} true,
      .secrets {rows := fun key => if key = "b/tokens" then some .foreign else none, available := false},
      .restoreSession b "b", .loginLocal "user" "password"]

/-- Signed in at `b` and then at `a`, the user goes back to `b`, whose tokens were saved. -/
def thereAndBack : List Event :=
  signIn {scheme := "https", host := "b"} "access b" "refresh b" ++
    [.checkServer {scheme := "https", host := "a"}, .reply 3 {status := 200} true, .loginLocal "user" "password",
      .reply 4
        { status := 200
          body := .object [("accessToken", .string "access a"), ("refreshToken", .string "refresh a")] } true,
      .reply 5 {status := 200} true, .restoreSession {scheme := "https", host := "b"} "b",
      .external 0 .get "/api/me" [] .null]

end AuthManager

end ShelfRemote.Auth
