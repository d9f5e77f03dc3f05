import ShelfRemote.Auth.Account
import ShelfRemote.Auth.SavedSession
import ShelfRemote.Auth.ServerKey

/-! Being killed while signed in.

Whoever is signed in holds tokens in memory, and a refresh may rotate them at any time. The
next launch has only the servers table and the secrets to go by. From the step that announces
a user on, what is saved keeps up with what is held (`Durable`), until the user goes
elsewhere or the server ends the session; `crash_resumes` says that a launch takes up at any
moment in between, with the tokens held last. -/
namespace ShelfRemote.Auth
open Qt Net Runs

/-- What is held, and what is saved. -/
structure Position where
  secrets : SecureStore
  servers : List ServerRow
  baseUrl : QUrl
  serverKey : String
  accountId : String
  accessToken : String
  refreshToken : String

namespace AuthManager
variable {P : Platform} {s s' : AuthManager}

def position (s : AuthManager) : Position :=
  { secrets := s.tokens.secrets
    servers := s.servers
    baseUrl := s.api.baseUrl
    serverKey := s.tokens.serverKey
    accountId := s.tokens.accountId
    accessToken := s.tokens.accessToken
    refreshToken := s.tokens.refreshToken }

/-- The first server is the one configured, saved with the account, and its row of the
secrets has the tokens. -/
structure Durable (P : Platform) (s : AuthManager) : Prop where
  available : s.tokens.secrets.available = true
  key : s.tokens.serverKey ≠ ""
  matched : idForUrl P.text s.api.baseUrl = s.tokens.serverKey
  rows : s.tokens.secrets.rows s.tokens.row = some (.sealed s.tokens.context.aad s.tokens.tokensJson)
  servers : ∃ user rest, userId user = s.tokens.accountId ∧ s.servers = s.serverRow P user :: rest

theorem Durable.same (h : Durable P s) (hs : s'.position = s.position) : Durable P s' := by
  obtain ⟨hsecrets, hservers, hbase, hkey, haccount, haccess, hrefresh⟩ := Position.mk.inj hs
  have hrow : s'.tokens.row = s.tokens.row := congrArg tokensKey hkey
  have hcontext : s'.tokens.context = s.tokens.context := by
    unfold TokenStore.context
    rw [hkey, haccount]
  have hjson : s'.tokens.tokensJson = s.tokens.tokensJson := by
    unfold TokenStore.tokensJson
    rw [haccess, hrefresh]
  have hsaved (user : Json) : s'.serverRow P user = s.serverRow P user := by
    unfold serverRow
    rw [hbase]
  refine ⟨hsecrets ▸ h.available, hkey ▸ h.key, ?_, ?_, ?_⟩
  · rw [hbase, hkey]
    exact h.matched
  · rw [hsecrets, hrow, hcontext, hjson]
    exact h.rows
  · obtain ⟨user, rest, huser, hservers'⟩ := h.servers
    exact ⟨user, rest, haccount ▸ huser, by rw [hservers, hsaved, hservers']⟩

/-! ### What leaves the position alone -/

@[simp] theorem position_setState (s : AuthManager) (state : State) : (s.setState state).position = s.position := by
  rw [setState_eq]
  rfl

@[simp] theorem position_setError (s : AuthManager) (msg : String) : (s.setError msg).position = s.position :=
  position_setState _ _

@[simp] theorem position_emit (s : AuthManager) (signal : Signal) : (s.emit signal).position = s.position := rfl

@[simp] theorem position_setLastError (s : AuthManager) (msg : String) :
    (s.setLastError msg).position = s.position := rfl

@[simp] theorem position_send (s : AuthManager) (r : Request) (cb : Callback) :
    (s.send r cb).position = s.position := rfl

@[simp] theorem position_get (s : AuthManager) (target : Target) (cb : Callback) (follow : Bool) :
    (s.get target cb follow).position = s.position := rfl

/-! ### Replies -/

theorem persist_eq (ts : TokenStore Callback Waiter) : ts.persist = {ts with secrets := ts.persist.secrets} := by
  unfold TokenStore.persist
  split <;> rfl

/-- Writing the tokens down catches up with them. -/
theorem Durable.persisted {ts : TokenStore Callback Waiter} (htokens : s.tokens = ts.persist)
    (havailable : ts.secrets.available = true) (hkey : ts.serverKey ≠ "")
    (hmatched : idForUrl P.text ts.api.baseUrl = ts.serverKey)
    (hservers : ∃ user rest, userId user = ts.accountId ∧ s.servers = s.serverRow P user :: rest) :
    Durable P s := by
  have hsecrets : ts.persist.secrets = ts.secrets.store ts.row ts.tokensJson ts.context := by
    unfold TokenStore.persist
    rw [if_neg hkey]
  have htokens : s.tokens = {ts with secrets := ts.secrets.store ts.row ts.tokensJson ts.context} := by
    rw [htokens, persist_eq, hsecrets]
  have hstored : (ts.secrets.store ts.row ts.tokensJson ts.context).available = true ∧
      (ts.secrets.store ts.row ts.tokensJson ts.context).rows ts.row =
        some (.sealed ts.context.aad ts.tokensJson) := by
    simp [SecureStore.store, havailable]
  constructor
  case available => rw [htokens]; exact hstored.1
  case key => rw [htokens]; exact hkey
  case matched =>
    unfold api
    rw [htokens]
    exact hmatched
  case rows => rw [htokens]; exact hstored.2
  case servers => rw [htokens]; exact hservers

/-- A success that brings other tokens, or a verification that names nobody. -/
def Replaces (s : AuthManager) (res : ApiResponse) : Callback → Prop
  | .login | .openidCallback =>
    res.stale = false ∧ res.ok = true ∧ TokenStore.replyToken res.body.toObject "accessToken" ≠ ""
  | .authorize => res.stale = false ∧ res.ok = true ∧ userId (s.namedUser res.body) = ""
  | .status | .openidStart _ | .logout | .other _ => False

instance (s : AuthManager) (res : ApiResponse) : DecidablePred (s.Replaces res)
  | .login | .openidCallback => inferInstanceAs (Decidable (_ ∧ _ ∧ _))
  | .authorize => inferInstanceAs (Decidable (_ ∧ _ ∧ _))
  | .status | .openidStart _ | .logout | .other _ => .isFalse id

/-- No access token comes with the reply. -/
theorem applyLoginPayload_position (P : Platform) (s : AuthManager) {payload : Json}
    (h : TokenStore.replyToken payload "accessToken" = "") :
    (s.applyLoginPayload P payload).position = s.position := by
  unfold applyLoginPayload
  dsimp only
  rw [if_pos h]
  exact position_setError _ _

theorem onAuthorize_durable (h : Durable P s) {res : ApiResponse} (hreplaces : ¬s.Replaces res .authorize)
    (hrefused : res.stale = false → res.status ≠ 401 ∧ res.status ≠ 403) :
    Durable P (s.onAuthorize P res) := by
  cases hstale : res.stale with
  | true =>
    have hsame : s.onAuthorize P res = s := if_pos hstale
    rwa [hsame]
  | false =>
    cases hok : res.ok with
    | false =>
      have hverdict : ¬(res.status = 401 ∨ res.status = 403) := not_or.mpr (hrefused hstale)
      refine h.same ?_
      simp [onAuthorize, hstale, hok, hverdict]
    | true =>
      obtain ⟨htokens, hservers, _⟩ := onAuthorize_ok hstale hok P s
      have hnamed : userId (s.namedUser res.body) ≠ "" := fun hnone => hreplaces ⟨hstale, hok, hnone⟩
      rw [if_neg hnamed] at htokens
      exact .persisted htokens h.available h.key h.matched ⟨_, _, rfl, hservers⟩

theorem call_durable (h : Durable P s) {cb : Callback} {res : ApiResponse} (browser : Bool)
    (hreplaces : ¬s.Replaces res cb)
    (hrefused : cb = .authorize → res.stale = false → res.status ≠ 401 ∧ res.status ≠ 403) :
    Durable P (s.call P cb res browser) := by
  cases cb with
  | status =>
    refine h.same ?_
    simp only [call, onStatus]
    split
    · rfl
    · split
      · exact position_setError _ _
      · exact position_setState _ _
  | login =>
    refine h.same ?_
    simp only [call, onLogin]
    split_ifs with hstale hok
    · rfl
    · exact position_setState _ _
    · have hno : TokenStore.replyToken res.body.toObject "accessToken" = "" := by
        by_contra hne
        exact hreplaces ⟨by simpa using hstale, by simpa using hok, hne⟩
      exact applyLoginPayload_position P s hno
  | openidStart attempt =>
    refine h.same ?_
    simp only [call, onOpenidStart]
    split
    · rfl
    · split
      · exact position_setState _ _
      · split_ifs
        · exact position_setState _ _
        · exact position_setState _ _
        · rfl
        · exact position_setState _ _
  | openidCallback =>
    refine h.same ?_
    simp only [call, onOpenidCallback]
    split_ifs with hstale hok
    · rfl
    · exact position_setError _ _
    · have hno : TokenStore.replyToken res.body.toObject "accessToken" = "" := by
        by_contra hne
        exact hreplaces ⟨by simpa using hstale, by simpa using hok, hne⟩
      exact applyLoginPayload_position P {s with oidcInProgress := false} hno
  | authorize => exact onAuthorize_durable h hreplaces (hrefused rfl)
  | logout =>
    refine h.same ?_
    simp only [call, onLogout]
    split_ifs <;> rfl
  | other n => exact h

theorem tell_durable (h : Durable P s) {w : Waiter} {ok : Bool} (browser : Bool)
    (hdenied : ∀ p, w = .retry p → p.res.ok = false)
    (hverdict : ok = false → holdsVerdict s.api.epoch w = false) : Durable P (s.tell P ok browser w) := by
  cases w with
  | restore =>
    refine h.same ?_
    simp only [tell]
    split
    · rfl
    · exact position_setState _ _
  | retry p =>
    have hnotOk := hdenied p rfl
    rw [tell_retry]
    split
    · next hc =>
      refine call_durable h browser ?_ fun hcb hstale => ?_
      · cases hcb : p.cb <;> simp [Replaces, hnotOk]
      · -- The 401 held back is of this origin, so the refresh did not succeed.
        have he : p.epoch = s.api.epoch := by
          simp only [Bool.or_eq_false_iff, bne_eq_false_iff_eq] at hstale
          exact hstale.2
        have hok : ok = false := by simpa [he] using hc
        have hno := hverdict hok
        simp [holdsVerdict, hcb, he] at hno
    · exact h.same rfl

theorem settle_durable (h : Durable P s) {t : Settled Waiter} (browser : Bool)
    (hdenied : ∀ p, .retry p ∈ t.waiters → p.res.ok = false)
    (hverdict : t.ok = false → ∀ w ∈ t.waiters, holdsVerdict s.api.epoch w = false) :
    Durable P (s.settle P t browser) := by
  have hall : Durable P (s.settle P t browser) ∧ (s.settle P t browser).api.epoch = s.api.epoch := by
    apply settle_keeps (I := fun s' => Durable P s' ∧ s'.api.epoch = s.api.epoch) _ _ ⟨h, rfl⟩
    · intro s' hs
      exact ⟨hs.1.same (position_setState _ _), by simpa [api] using hs.2⟩
    · intro s' hs w hw
      refine ⟨tell_durable hs.1 browser (fun p hp => hdenied p (hp ▸ hw)) fun ho => ?_,
        (tell_epoch P s' w t.ok browser).trans hs.2⟩
      rw [hs.2]
      exact hverdict ho w hw
  exact hall.1

theorem refreshReply_durable (h : Durable P s) (hdenied : Denied s.tokens) {key : String} {res : ApiResponse}
    (browser : Bool) (hverdict : s.VerdictHeld → s.tokens.Adopts key res) :
    Durable P (s.refreshReply P key res browser) := by
  unfold refreshReply
  rcases s.tokens.refreshReply_cases P key res with ⟨_, he⟩ | ⟨hno, failed, he⟩
  · rw [he]
    dsimp only [TokenStore.settle]
    have hset : Durable P {s with
        tokens :=
          s.tokens.setTokens P (TokenStore.replyToken res.body.toObject "accessToken") (s.tokens.rotated res)} := by
      refine .persisted rfl h.available h.key h.matched ?_
      obtain ⟨user, rest, huser, hservers⟩ := h.servers
      refine ⟨user, rest, huser, hservers.trans (congrArg (· :: rest) ?_)⟩
      unfold serverRow api
      dsimp only
      rw [TokenStore.setTokens_api]
      rfl
    refine settle_durable ?_ browser ?_ ?_
    · exact hset.same rfl
    · rw [TokenStore.setTokens_pending]
      exact hdenied.2
    · exact fun ho => nomatch ho
  · rw [he]
    dsimp only [TokenStore.settle]
    refine settle_durable ?_ browser ?_ ?_
    · exact h.same rfl
    · exact hdenied.2
    · intro _ w hw
      by_contra hv
      exact hno (hverdict ⟨w, hw, eq_true_of_ne_false hv⟩)

theorem refresh_durable (h : Durable P s) {w : Waiter} (browser : Bool)
    (hdenied : ∀ p, w = .retry p → p.res.ok = false)
    (hverdict : s.tokens.refreshToken = "" → holdsVerdict s.api.epoch w = false) :
    Durable P (s.refresh P w browser) := by
  rcases refresh_cases P s w browser with ⟨hr, he⟩ | ⟨_, he⟩ | ⟨_, he⟩
  · rw [he]
    refine settle_durable h browser (fun p hp => hdenied p (List.mem_singleton.mp hp).symm) fun _ v hv => ?_
    rw [List.mem_singleton.mp hv]
    exact hverdict hr
  · rw [he]
    exact h.same rfl
  · rw [he]
    exact h.same rfl

/-! ### Events -/

/-- The reply to a request replaces the session. -/
def Replacing (s : AuthManager) (x : Exchange (Handler Callback)) (raw : RawReply) : Prop :=
  match x.cb with
  | .refresh _ => False
  | .call cb => s.Replaces (s.api.response x raw) cb

instance (s : AuthManager) (x : Exchange (Handler Callback)) (raw : RawReply) : Decidable (s.Replacing x raw) :=
  match hcb : x.cb with
  | .refresh _ => .isFalse (by simp [Replacing, hcb])
  | .call cb => decidable_of_iff (s.Replaces (s.api.response x raw) cb) (by simp only [Replacing, hcb])

def Replaced (s : AuthManager) : Event → Prop
  | .reply id raw _ => Picked (fun x => s.Replacing x raw) (pick (fun x => x.id == id) s.api.inFlight)
  | _ => False

instance (s : AuthManager) : DecidablePred s.Replaced
  | .reply id raw _ =>
    inferInstanceAs (Decidable (Picked (fun x => s.Replacing x raw) (pick (fun x => x.id == id) s.api.inFlight)))
  | .checkServer _ | .loginLocal _ _ | .beginOidc _ | .cancelAuth | .logout | .restoreSession _ _
  | .keyringTimeout | .oidcTimeout | .oauthCallback _ _ _ | .external _ _ _ _ _ | .secrets _ | .clock _ =>
    .isFalse id

instance : DecidablePred Closed.Repoints
  | .checkServer _ | .restoreSession _ _ | .keyringTimeout => .isTrue trivial
  | .reply _ _ _ | .loginLocal _ _ | .beginOidc _ | .cancelAuth | .logout | .oidcTimeout | .oauthCallback _ _ _
  | .external _ _ _ _ _ | .secrets _ | .clock _ => .isFalse id

/-- The user stays with the server and with the account, and the server with the session. -/
structure Stays (s : AuthManager) (e : Event) : Prop where
  here : ¬Closed.Repoints e
  costs : ¬s.Costs e
  undecided : ¬s.Undecided e
  replaced : ¬s.Replaced e

instance (s : AuthManager) (e : Event) : Decidable (s.Stays e) :=
  decidable_of_iff (¬Closed.Repoints e ∧ ¬s.Costs e ∧ ¬s.Undecided e ∧ ¬s.Replaced e)
    ⟨fun h => ⟨h.1, h.2.1, h.2.2.1, h.2.2.2⟩, fun h => ⟨h.here, h.costs, h.undecided, h.replaced⟩⟩

/-- What is not a cost is no refusal to a closure that runs at once. -/
theorem not_refused (hw : Wired s.tokens) {id : Nat} {raw : RawReply} {browser : Bool}
    (hno : ¬s.Costs (.reply id raw browser)) {x : Exchange (Handler Callback)}
    {rest : List (Exchange (Handler Callback))}
    (hpick : pick (fun x => x.id == id) s.api.inFlight = some (x, rest)) (hcb : x.cb = .call .authorize)
    (hasks : s.api.asksRefresh x raw = false) (hstale : (s.api.response x raw).stale = false) :
    raw.status ≠ 401 ∧ raw.status ≠ 403 := by
  simp only [Costs, hpick, Picked, Verdict, hcb, not_or, not_and] at hno
  refine ⟨fun h401 => ?_, hno.1⟩
  have hmark : x.request.noAuthRetry = false := by rw [hw.marked x (pick_mem hpick), hcb, Handler.isRefresh]
  have hhandler : s.api.onUnauthorized = true := hw.handler
  have hretry : x.allowRetry = false := by
    cases hr : x.allowRetry
    · rfl
    · have hstatus : (s.api.response x raw).status = 401 := h401
      simp [ApiClient.asksRefresh, hr, hmark, hhandler, hstale, hstatus] at hasks
  exact (hno.2 h401).1 hretry

theorem finished_durable (h : Durable P s) (hdenied : Denied s.tokens) {id : Nat} {raw : RawReply} {browser : Bool}
    (he : s.Stays (.reply id raw browser)) : Durable P (s.finished P id raw browser) := by
  rcases finished_cases P s id raw browser with hf | ⟨x, rest, hpick, hcase⟩
  · rwa [hf]
  · have hdrop : Durable P (s.without x rest) := h.same rfl
    have hrest : Denied (s.without x rest).tokens :=
      (denied_closed P).fewer _ _ _ _ (fun y hy => pick_rest hpick hy) (fun _ hw => hw) hdenied
    obtain ⟨-, hno, hun, hreplaced⟩ := he
    have hundecided := hun
    have hreplaces := hreplaced
    simp only [Undecided, hpick, Picked] at hundecided
    simp only [Replaced, hpick, Picked, Replacing] at hreplaces
    rcases hcase with ⟨key, hcb, hf⟩ | ⟨cb, hcb, ha, hf⟩ | ⟨cb, hcb, ha, hf⟩
    · rw [hf]
      refine refreshReply_durable hdrop hrest browser fun hv => ?_
      have hverdict : ¬TokenStore.Refused raw.status := by simpa [Costs, hpick, Picked, Verdict, hcb] using hno
      by_contra hn
      have hadopts : ¬s.tokens.Adopts key (s.api.response x raw) :=
        fun ha => hn ⟨ha.fresh, ha.key, ha.ok, ha.access⟩
      exact hundecided ⟨hv, hverdict, key, by simp [hcb, Handler.refreshKey], hadopts⟩
    · rw [hf]
      refine refresh_durable hdrop browser ?_ fun hr => ?_
      · rintro p ⟨⟩
        exact asksRefresh_denied ha
      · have h401 : raw.status = 401 := by
          simp [ApiClient.asksRefresh, ApiClient.response, buildResponse] at ha
          exact ha.1.1.1.1
        cases cb with
        | authorize =>
          simp only [Costs, hpick, Picked, Verdict, hcb] at hno
          exact absurd (.inr ⟨h401, .inr hr⟩) hno
        | _ => rfl
    · rw [hf]
      refine call_durable hdrop browser ?_ ?_
      · simp only [hcb] at hreplaces
        exact hreplaces
      · rintro rfl hstale
        exact not_refused hdenied.1 hno hpick hcb ha hstale

theorem step_durable (h : Durable P s) (hdenied : Denied s.tokens) {e : Event} (he : s.Stays e) :
    Durable P ((machine P).step s e) := by
  have hfresh : Durable P s.fresh := h.same rfl
  cases e with
  | checkServer | restoreSession | keyringTimeout => exact absurd trivial he.here
  | logout => exact absurd trivial he.costs
  | secrets store => exact absurd trivial he.costs
  | reply id raw browser =>
    exact finished_durable hfresh hdenied ⟨he.here, he.costs, he.undecided, he.replaced⟩
  | loginLocal username password => exact hfresh.same (position_setState s.fresh.clearError .authenticating)
  | beginOidc pkce =>
    refine hfresh.same ?_
    show (s.fresh.beginOidc pkce).position = _
    unfold beginOidc
    split
    · rfl
    · exact position_setState s.fresh.clearError .authenticating
  | cancelAuth =>
    refine hfresh.same ?_
    show s.fresh.cancelAuth.position = _
    unfold cancelAuth
    dsimp only
    split
    · exact position_setState _ _
    · rfl
  | oidcTimeout =>
    refine hfresh.same ?_
    show s.fresh.onOidcTimeout.position = _
    unfold onOidcTimeout
    split
    · rfl
    · dsimp only
      split
      · rfl
      · exact position_setState _ _
  | oauthCallback code state error =>
    refine hfresh.same ?_
    show (s.fresh.onOauthCallback code state error).position = _
    unfold onOauthCallback
    dsimp only
    split_ifs
    · rfl
    · exact position_setError _ _
    · exact position_setError _ _
    · rfl
  | external n verb path query body => exact h.same rfl
  | clock now => exact h.same rfl

theorem keeps_durable (P : Platform) :
    Machine.Keeps (machine P) Stays (fun s => Denied s.tokens ∧ Durable P s) :=
  ⟨fun s e h he => ⟨(denied_keeps P).step s e h.1 trivial, step_durable h.2 h.1 he⟩⟩

/-- The step that announces a user leaves them saved. -/
theorem announced_durable (hdenied : Denied s.tokens) {e : Event} {user : Json} (hu : Announces P s e user)
    (hnamed : userId user ≠ "") (havailable : s.tokens.secrets.available = true) (hkey : s.tokens.serverKey ≠ "")
    (hmatched : idForUrl P.text s.api.baseUrl = s.tokens.serverKey) : Durable P ((machine P).step s e) := by
  obtain ⟨_, raw', _, hraw, hannounced⟩ := announced (s := (s, [])) hdenied P havailable hu
  obtain hmute | ⟨id, raw, browser, x, rest, rfl, hpick, hcb, hstale, hok, he⟩ :=
    announced_cases (s := s.fresh) hdenied P e
  · exact absurd (hmute user hu) List.not_mem_nil
  · obtain ⟨-, rfl, -⟩ := Event.reply.inj hraw
    have hstep : (machine P).step s (.reply id raw browser) =
        (s.fresh.without x rest).onAuthorize P (s.fresh.api.response x raw) := he
    obtain ⟨htokens, hservers, -⟩ := onAuthorize_ok hstale hok P (s.fresh.without x rest)
    have huser : user = (s.fresh.without x rest).namedUser (s.fresh.api.response x raw).body := hannounced.named
    rw [← huser, if_neg hnamed] at htokens
    rw [← huser] at hservers
    rw [hstep]
    exact .persisted htokens havailable hkey hmatched ⟨user, _, rfl, hservers⟩

/-! ### The next launch -/

/-- A launch has nothing outstanding that a move could abort. -/
theorem setBaseUrl_idle (P : Platform) (s : AuthManager) (h : s.api.inFlight = []) (base : QUrl) :
    ∃ api : ApiClient (Handler Callback), api.inFlight = [] ∧ s.setBaseUrl P base = s.withApi api := by
  apply setBaseUrl_keeps
    (I := fun s' => ∃ api : ApiClient (Handler Callback), api.inFlight = [] ∧ s' = s.withApi api)
  · exact fun _ => ⟨s.api, h, rfl⟩
  · exact ⟨s.api.moveBase base, h, rfl⟩
  · rintro s' ⟨api, hapi, rfl⟩ id
    refine ⟨api, hapi, ?_⟩
    have hpick : pick (fun x => x.id == id) (s.withApi api).api.inFlight = none := by
      show pick _ api.inFlight = none
      rw [hapi]
      rfl
    unfold finished
    rw [hpick]
  · rintro s' ⟨api, hapi, rfl⟩
    exact ⟨{api with active := []}, hapi, rfl⟩

/-- The launch has the server, the account and the tokens of `s`. -/
structure Alike (s next : AuthManager) : Prop where
  endpoints : next.api.endpoints = s.api.endpoints
  serverKey : next.tokens.serverKey = s.tokens.serverKey
  accountId : next.tokens.accountId = s.tokens.accountId
  accessToken : next.tokens.accessToken = s.tokens.accessToken
  refreshToken : next.tokens.refreshToken = s.tokens.refreshToken

/-- And it asks the server with them: for other tokens, if these are about to expire, else
whether they are good. -/
structure Resumed (P : Platform) (restart : Int) (s next : AuthManager) : Prop extends Alike s next where
  state : next.state = .authenticating
  expiry : next.tokens.accessExpiry = TokenStore.expiryFromJwt P s.tokens.accessToken
  asks : ∃ x, next.api.inFlight = [x] ∧ x.request.target.server = s.api.endpoints ∧
    if next.tokens.needsRefresh restart then
      x.cb = .refresh s.tokens.serverKey ∧ x.request.refreshToken = some s.tokens.refreshToken
    else x.cb = .call .authorize ∧ x.request.bearer = some s.tokens.accessToken

/-- A row that opens is held, if it has an access token. -/
theorem load_sealed (P : Platform) {ts : TokenStore Callback Waiter} {access refresh : String}
    (havailable : ts.secrets.available = true) (hkey : ts.serverKey ≠ "")
    (hrow : ts.secrets.rows ts.row =
      some (.sealed ts.context.aad (.object [("access", .string access), ("refresh", .string refresh)])))
    (haccess : access ≠ "") (hrefresh : refresh ≠ "") :
    ts.load P = (ts.hold P access refresh, .ok, true) := by
  have hopened : ts.secrets.retrieve ts.row ts.context =
      (.ok, .object [("access", .string access), ("refresh", .string refresh)]) := by
    unfold SecureStore.retrieve
    simp [hrow, havailable]
  have hfirst :
      (Json.value (.object [("access", .string access), ("refresh", .string refresh)]) "access").toString "" =
        access := rfl
  have hsecond :
      (Json.value (.object [("access", .string access), ("refresh", .string refresh)]) "refresh").toString "" =
        refresh := rfl
  have hheld : (ts.hold P access refresh).hasTokens = true := by
    simp [TokenStore.hold, TokenStore.hasTokens, haccess, hrefresh]
  unfold TokenStore.load
  rw [if_neg hkey, hopened]
  dsimp only
  rw [hfirst, hsecond, if_neg haccess, hheld]

/-- The launch as it is before it asks. -/
structure Ready (P : Platform) (s next : AuthManager) : Prop extends Alike s next where
  state : next.state = .authenticating
  expiry : next.tokens.accessExpiry = TokenStore.expiryFromJwt P s.tokens.accessToken
  idle : next.api.inFlight = []
  quiet : next.tokens.refreshing = false
  bearer : next.api.accessToken = s.tokens.accessToken

theorem Ready.authorize {next : AuthManager} (h : Ready P s next) (haccess : s.tokens.accessToken ≠ "")
    {restart : Int} (hgood : ¬next.tokens.needsRefresh restart = true) :
    Resumed P restart s next.authorizeAndFinish where
  toAlike := ⟨h.endpoints, h.serverKey, h.accountId, h.accessToken, h.refreshToken⟩
  state := h.state
  expiry := h.expiry
  asks := by
    have hsent : next.authorizeAndFinish.api.inFlight = _ :: next.api.inFlight := rfl
    have hsame : next.authorizeAndFinish.tokens.needsRefresh restart = next.tokens.needsRefresh restart := rfl
    rw [h.idle] at hsent
    refine ⟨_, hsent, h.endpoints, ?_⟩
    rw [hsame, if_neg hgood]
    refine ⟨rfl, ?_⟩
    show (if next.api.accessToken = "" then none else some next.api.accessToken) = _
    rw [h.bearer, if_neg haccess]

theorem Ready.refresh {next : AuthManager} (h : Ready P s next) (hrefresh : s.tokens.refreshToken ≠ "")
    {restart : Int} (hexpiring : next.tokens.needsRefresh restart = true) :
    Resumed P restart s (next.refresh P .restore false) := by
  rcases refresh_cases P next .restore false with ⟨hr, _⟩ | ⟨hr, _⟩ | ⟨_, he⟩
  · exact absurd (h.refreshToken.symm.trans hr) hrefresh
  · cases h.quiet.symm.trans hr
  · rw [he]
    exact
      { endpoints := h.endpoints
        serverKey := h.serverKey
        accountId := h.accountId
        accessToken := h.accessToken
        refreshToken := h.refreshToken
        state := h.state
        expiry := h.expiry
        asks := by
          refine ⟨_, congrArg (_ :: ·) h.idle, h.endpoints, ?_⟩
          split
          · exact ⟨congrArg Handler.refresh h.serverKey, congrArg some h.refreshToken⟩
          · next hgood => exact absurd hexpiring hgood }

theorem Durable.resumes (h : Durable P s) (hround : P.text.parse (P.text.toString s.api.baseUrl) = s.api.baseUrl)
    (hheld : s.tokens.hasTokens = true) (now : Int) :
    ∃ row rest, s.servers = row :: rest ∧
      let next := (launch s.tokens.secrets s.servers now).restoreSession P (P.text.parse row.baseUrl) row.id
      next.2 = true ∧ Resumed P now s next.1 := by
  obtain ⟨user, rest, huser, hservers⟩ := h.servers
  refine ⟨s.serverRow P user, rest, hservers, ?_⟩
  intro next
  obtain ⟨haccess, hrefresh⟩ : s.tokens.accessToken ≠ "" ∧ s.tokens.refreshToken ≠ "" := by
    simpa [TokenStore.hasTokens] using hheld
  have hurl : P.text.parse (s.serverRow P user).baseUrl = s.api.baseUrl := hround
  have hid : (s.serverRow P user).id = s.tokens.serverKey := h.matched
  generalize hl : {(launch s.tokens.secrets s.servers now).stopWaitingForKeyring with
    restoreUrl := P.text.parse (s.serverRow P user).baseUrl, restoreKey := (s.serverRow P user).id} = l
  have hnext : next = l.attemptRestore P := by
    rw [← hl]
    rfl
  obtain ⟨api, hidle, hmoved⟩ := setBaseUrl_idle P l (by rw [← hl]; rfl) l.restoreUrl
  have hendpoints : api.endpoints = s.api.endpoints := by
    have hbase := setBaseUrl_base P l l.restoreUrl
    rw [hmoved] at hbase
    have hrestore : l.restoreUrl = s.api.baseUrl := by rw [← hl]; exact hurl
    rw [hrestore] at hbase
    exact hbase.trans (Endpoints.setBase_base s.api.endpoints)
  -- The store that looks for the tokens.
  generalize hts : ((l.withApi api).tokens.setServerKey l.restoreKey).setAccount
    (accountOf l.servers l.restoreKey) = ts
  have hpoint : l.pointAt P = {l.withApi api with tokens := ts, keyringUnavailable := false} := by
    unfold pointAt
    dsimp only
    rw [hmoved, ← hts]
    rfl
  have hkey : ts.serverKey = s.tokens.serverKey := by
    rw [← hts, ← hl]
    exact hid
  have haccount : ts.accountId = s.tokens.accountId := by
    rw [← hts, ← hl, ← huser]
    show accountOf s.servers (s.serverRow P user).id = userId user
    rw [hservers]
    exact accountOf_saved _ rest
  have hsecrets : ts.secrets = s.tokens.secrets := by
    rw [← hts, ← hl]
    rfl
  have hload : ts.load P = (ts.hold P s.tokens.accessToken s.tokens.refreshToken, .ok, true) := by
    refine load_sealed P (hsecrets ▸ h.available) (hkey ▸ h.key) ?_ haccess hrefresh
    have hrow : ts.row = s.tokens.row := congrArg tokensKey hkey
    have hcontext : ts.context = s.tokens.context := by
      unfold TokenStore.context
      rw [hkey, haccount]
    rw [hsecrets, hrow, hcontext]
    exact h.rows
  generalize hb : ({l.withApi api with
    tokens := ts.hold P s.tokens.accessToken s.tokens.refreshToken
    keyringUnavailable := false} : AuthManager).stopWaitingForKeyring.setState .authenticating = b
  have htokens : b.tokens = ts.hold P s.tokens.accessToken s.tokens.refreshToken := by
    rw [← hb, setState_tokens]
    rfl
  have hstate : b.state = .authenticating := by rw [← hb, setState_state]
  have hheld : b.api = api.setAccessToken s.tokens.accessToken := by
    unfold AuthManager.api
    rw [htokens, ← hts]
    rfl
  have hready : Ready P s b := by
    constructor
    case toAlike =>
      constructor
      case endpoints => rw [hheld]; exact hendpoints
      case serverKey => rw [htokens]; exact hkey
      case accountId => rw [htokens]; exact haccount
      case accessToken => rw [htokens]; rfl
      case refreshToken => rw [htokens]; rfl
    case state => exact hstate
    case expiry => rw [htokens]; rfl
    case idle => rw [hheld]; exact hidle
    case quiet =>
      rw [htokens, ← hts, ← hl]
      rfl
    case bearer => rw [hheld]; rfl
  have hclock : b.now = now := by
    rw [← hb, setState_eq, ← hl]
    rfl
  have hattempt : l.attemptRestore P =
      if b.tokens.needsRefresh now then (b.refresh P .restore false, true) else (b.authorizeAndFinish, true) := by
    rw [← hclock]
    unfold attemptRestore
    dsimp only
    rw [hpoint]
    dsimp only
    rw [hload]
    subst hb
    rfl
  rw [hnext, hattempt]
  split
  · next hexpiring => exact ⟨rfl, hready.refresh hrefresh hexpiring⟩
  · next hgood => exact ⟨rfl, hready.authorize haccess hgood⟩

/-- **Killed while signed in.** A user is announced who has a name, with the secrets at hand
and under the key of the configured server. From then on, while the user stays and the server does
not end the session or stop naming the user: whatever happens, and whenever the process is
killed with both tokens held and a URL that reads back, the next launch finds the server first
in the list, has the same account and the tokens held last, and asks the server with them. -/
theorem crash_resumes (P : Platform) (secrets : SecureStore) (servers : List ServerRow) (now : Int)
    (before : List Event) (e : Event) (user : Json) (later : List Event)
    (hu : Announces P ((machine P).run (launch secrets servers now) before) e user) (hnamed : userId user ≠ "")
    (hstore : ((machine P).run (launch secrets servers now) before).tokens.secrets.available = true)
    (hkey : ((machine P).run (launch secrets servers now) before).tokens.serverKey ≠ "")
    (hmatched : idForUrl P.text ((machine P).run (launch secrets servers now) before).api.baseUrl =
      ((machine P).run (launch secrets servers now) before).tokens.serverKey)
    (hstays : (machine P).Along Stays ((machine P).run (launch secrets servers now) (before ++ [e])) later) :
    let killed := (machine P).run (launch secrets servers now) (before ++ [e] ++ later)
    P.text.parse (P.text.toString killed.api.baseUrl) = killed.api.baseUrl → killed.tokens.hasTokens = true →
      ∀ restart, ∃ row rest, killed.servers = row :: rest ∧
        let next := (launch killed.tokens.secrets killed.servers restart).restoreSession P
          (P.text.parse row.baseUrl) row.id
        next.2 = true ∧ Resumed P restart killed next.1 := by
  intro killed hround hheld restart
  have hdenied : Denied ((machine P).run (launch secrets servers now) before).tokens :=
    (denied_keeps P).always ⟨Wired.launch secrets servers now, fun p hp => by cases hp⟩ before
  have hsaved : Durable P ((machine P).run (launch secrets servers now) (before ++ [e])) := by
    rw [Machine.run_append]
    exact announced_durable hdenied hu hnamed hstore hkey hmatched
  have hstill : Denied ((machine P).run (launch secrets servers now) (before ++ [e])).tokens := by
    rw [Machine.run_append]
    exact (denied_keeps P).step _ e hdenied trivial
  have hkilled : Durable P killed := by
    have hkept := ((keeps_durable P).run ⟨hstill, hsaved⟩ hstays).2
    rwa [← Machine.run_append] at hkept
  exact hkilled.resumes hround hheld restart

/-- A request of the session of "alice" is answered 401, and the refresh rotates the tokens. -/
def rotation : List Event :=
  [.external 0 .get "/api/libraries" [] .null, .reply 3 {status := 401} true,
    .reply 4
      { status := 200
        body := .object [("accessToken", .string "access2"), ("refreshToken", .string "refresh2")] } true]

theorem crash_resumes_rotated :
    let killed := (machine default).run (launch {} [] 0) (aliceSignsIn ++ rotation)
    killed.tokens.refreshToken = "refresh2" ∧ ∃ row rest, killed.servers = row :: rest ∧
      let next := (launch killed.tokens.secrets killed.servers 9).restoreSession default
        ((default : Platform).text.parse row.baseUrl) row.id
      next.2 = true ∧ Resumed default 9 killed next.1 :=
  ⟨by decide +kernel,
    crash_resumes default {} [] 0 aliceSignsIn.dropLast
      (.reply 2 {status := 200, body := .object [("user", .object [("id", .string "alice")])]} true)
      (.object [("id", .string "alice")]) rotation (.tail _ (.head _)) (by decide) (by decide +kernel)
      (by decide +kernel) (by decide +kernel) (by decide +kernel) rfl (by decide +kernel) 9⟩

end AuthManager

end ShelfRemote.Auth
