import ShelfRemote.Auth.Handoff
import ShelfRemote.Auth.Pkce

/-! Who redeems a code proves to have asked for it.

The request that starts an attempt publishes the hash of the verifier, and the exchange at
its end reveals the verifier. An exchange that is answered 401 goes out again after a
refresh, and a late callback may find another attempt in progress, so several exchanges may
go out; each of them redeems a start that went out before it and whose state it carries
(`Redeems`). -/
namespace ShelfRemote.Auth
open Qt Net Runs

/-- The request that starts an attempt publishes the hash in its record. -/
structure Publishes (pkce : Pkce) (x : Exchange (Handler Callback)) : Prop where
  path : x.request.target.path = "/auth/openid"
  query : x.request.target.query = AuthManager.openidQuery pkce

/-- The request with which the attempt with this record redeems a code. -/
structure Redeems (pkce : Pkce) (x : Exchange (Handler Callback)) : Prop where
  path : x.request.target.path = "/auth/openid/callback"
  query : ∃ code, x.request.target.query =
    [("state", pkce.state), ("code", code), ("code_verifier", pkce.codeVerifier)]

theorem Redeems.copy {pkce : Pkce} {x y : Exchange (Handler Callback)} (h : Redeems pkce y)
    (htarget : x.request.target = y.request.target) : Redeems pkce x where
  path := by rw [htarget]; exact h.path
  query := by rw [htarget]; exact h.query

/-! ### What went out is remembered -/

/-- These requests went out, the numbers are used up, and what is outstanding went out
too. -/
structure Remembers (sent : List (Exchange (Handler Callback))) (ts : TokenStore Callback Waiter) : Prop
    extends Wired ts where
  sent : ∀ x ∈ sent, x ∈ ts.api.wire
  past : ∀ x ∈ ts.api.wire, x.id < ts.api.created
  wire : ∀ x ∈ ts.api.inFlight, x ∈ ts.api.wire
  parked : ∀ p, .retry p ∈ ts.pending →
    ∃ x ∈ ts.api.wire, x.cb = .call p.cb ∧ x.request.target = p.request.target

namespace Remembers
variable {P : Platform} {sent : List (Exchange (Handler Callback))} {ts : TokenStore Callback Waiter}

theorem sendImpl (h : Remembers sent ts) {r : Request} {cb : Handler Callback} (hr : r.noAuthRetry = cb.isRefresh)
    (retry : Bool) : Remembers sent {ts with api := ts.api.sendImpl r cb retry} where
  toWired := h.toWired.sendImpl hr retry
  sent x hx := List.mem_cons_of_mem _ (h.sent x hx)
  past := List.forall_mem_cons.mpr ⟨Nat.lt_succ_self _, fun x hx => Nat.lt_succ_of_lt (h.past x hx)⟩
  wire x hx := by
    obtain rfl | hx := List.mem_cons.mp hx
    · exact List.mem_cons_self ..
    · exact List.mem_cons_of_mem _ (h.wire x hx)
  parked p hp := by
    obtain ⟨x, hx, hsame⟩ := h.parked p hp
    exact ⟨x, List.mem_cons_of_mem _ hx, hsame⟩

theorem closed : Closed P (Remembers sent) where
  book ts account secrets access refresh expiry refreshing h :=
    { h with toWired := Wired.closed.book (P := P) ts account secrets access refresh expiry refreshing h.toWired }
  fewer ts active inFlight pending hf hp h :=
    { h with
      toWired := Wired.closed.fewer (P := P) ts active inFlight pending hf hp h.toWired
      wire := fun x hx => h.wire x (hf x hx)
      parked := fun p hp' => h.parked p (hp _ hp') }
  hold ts access refresh ha h := { h with toWired := Wired.closed.hold ts access refresh ha h.toWired }
  unbear ts h := { h with toWired := Wired.closed.unbear (P := P) ts h.toWired }
  send ts request cb hr h := h.sendImpl hr.marked true
  again ts p hp _ _ h := h.sendImpl (h.unmarked p hp) false
  park ts x cb raw hx hcb hasks h :=
    { h with
      toWired := Wired.closed.park (P := P) ts x cb raw hx hcb hasks h.toWired
      parked := fun p hp => by
        obtain hp | hp := List.mem_append.mp hp
        · exact h.parked p hp
        · cases List.mem_singleton.mp hp
          exact ⟨x, h.wire x hx, hcb, rfl⟩ }
  join ts h :=
    { h with
      toWired := Wired.closed.join (P := P) ts h.toWired
      parked := fun p hp => h.parked p (by simpa using hp) }

open AuthManager

theorem setBaseUrl {s : AuthManager} (h : Remembers sent s.tokens) (base : QUrl) :
    Remembers sent (s.setBaseUrl P base).tokens := by
  have hwired := h.toWired.setBaseUrl (P := P) base
  obtain ⟨-, he⟩ | ⟨r, hr, he⟩ := setBaseUrl_tokens h.toEpochs P base
  · rw [he]
    exact h
  · rw [he] at hwired ⊢
    exact
      { hwired with
        sent := h.sent
        past := h.past
        wire := fun x hx => h.wire x (hr.inFlight x hx)
        parked := fun p hp => h.parked p (hr.pending _ hp) }

theorem step {s : AuthManager} (h : Remembers sent s.tokens) (e : Event) :
    Remembers sent ((machine P).step s e).tokens :=
  closed.everyStep (fun _ base h => h.setBaseUrl base) (fun _ _ h => { h with toWired := { h.toWired with } }) h e

theorem self {s : AuthManager} (h : Remembers sent s.tokens) : Remembers s.api.wire s.tokens :=
  { h with sent := fun _ hx => hx }

theorem forget (h : Remembers sent ts) : Remembers [] ts :=
  { h with sent := fun _ hx => absurd hx List.not_mem_nil }

theorem launch (secrets : SecureStore) (servers : List ServerRow) (now : Int) :
    Remembers [] (AuthManager.launch secrets servers now).tokens where
  toWired := Wired.launch secrets servers now
  sent _ hx := nomatch hx
  past _ hx := nomatch hx
  wire _ hx := nomatch hx
  parked _ hp := nomatch hp

end Remembers

namespace AuthManager
variable {P : Platform} {s s' s'' : AuthManager}

/-! ### Exchanges that go out again -/

/-- Every exchange went out before, or goes out again as it was. -/
structure Repeats (s s' : AuthManager) : Prop where
  oidc : s'.oidcInProgress = true → s.oidcInProgress = true
  pkce : s'.pkce = s.pkce
  created : s.api.created ≤ s'.api.created
  wire : ∀ x ∈ exchanges s'.api.wire, x ∈ exchanges s.api.wire ∨
    s.api.created ≤ x.id ∧ ∃ y ∈ exchanges s.api.wire, x.request.target = y.request.target
  rooted : s.Rooted → s'.Rooted

theorem Quiet.repeats (h : Quiet s s') (hr : s.Rooted → s'.Rooted) : Repeats s s' where
  oidc := h.oidc
  pkce := h.pkce
  created := h.created
  wire x hx := .inl (by rwa [h.wire] at hx)
  rooted := hr

theorem Calm.repeats (h : Calm s s') : Repeats s s' := h.toQuiet.repeats h.rooted

theorem Repeats.trans (h : Repeats s s') (h' : Repeats s' s'') : Repeats s s'' where
  oidc ho := h.oidc (h'.oidc ho)
  pkce := h'.pkce.trans h.pkce
  created := h.created.trans h'.created
  wire x hx := by
    obtain hx | ⟨hid, y, hy, htarget⟩ := h'.wire x hx
    · exact h.wire x hx
    · obtain hy | ⟨-, z, hz, hsame⟩ := h.wire y hy
      · exact .inr ⟨h.created.trans hid, y, hy, htarget⟩
      · exact .inr ⟨h.created.trans hid, z, hz, htarget.trans hsame⟩
  rooted hr := h'.rooted (h.rooted hr)

theorem mem_exchanges {l : List (Exchange (Handler Callback))} {x : Exchange (Handler Callback)} :
    x ∈ exchanges l ↔ x ∈ l ∧ x.cb = .call .openidCallback := by
  unfold exchanges
  rw [List.mem_filter]
  refine and_congr_right fun _ => ?_
  cases x.cb with
  | refresh key => simp [Handler.isFor]
  | call cb => simp [Handler.isFor]

/-- A request that went out goes out once more. -/
theorem resend_repeats {p : Parked Callback} {before : AuthManager} (hbefore : Repeats before s)
    (hp : ∃ x ∈ before.api.wire, x.cb = .call p.cb ∧ x.request.target = p.request.target) (token : String) :
    Repeats before (s.withApi (s.api.sendImpl {p.request with bearer := some token} (.call p.cb) false)) := by
  obtain ⟨y, hy, hcb, htarget⟩ := hp
  refine ⟨hbefore.oidc, hbefore.pkce, Nat.le_succ_of_le hbefore.created, fun x hx => ?_, hbefore.rooted⟩
  obtain ⟨hx, hxcb⟩ := mem_exchanges.mp hx
  obtain rfl | hx := List.mem_cons.mp hx
  · exact .inr ⟨hbefore.created, y, mem_exchanges.mpr ⟨hy, hcb.trans hxcb⟩, htarget.symm⟩
  · exact hbefore.wire x (mem_exchanges.mpr ⟨hx, hxcb⟩)

theorem settle_repeats {t : Settled Waiter} {before : AuthManager} (hbefore : Repeats before s)
    (ht : ∀ p, .retry p ∈ t.waiters →
      ∃ x ∈ before.api.wire, x.cb = .call p.cb ∧ x.request.target = p.request.target) (browser : Bool) :
    Repeats before (s.settle P t browser) := by
  apply settle_keeps (I := Repeats before) _ _ hbefore
  · exact fun s' h => h.trans (setState_calm s' .needsLogin).repeats
  · intro s' h w hw
    cases w with
    | restore => exact h.trans (tell_calm P s' browser fun _ => rfl).repeats
    | retry p =>
      rw [tell_retry]
      split
      · exact h.trans (call_calm ..).repeats
      · exact resend_repeats h (ht p hw) _

theorem refreshReply_repeats (h : Remembers sent s.tokens) (P : Platform) (key : String) (res : ApiResponse)
    (browser : Bool) : Repeats s (s.refreshReply P key res browser) := by
  unfold refreshReply
  obtain ⟨-, he⟩ | ⟨-, failed, he⟩ := s.tokens.refreshReply_cases P key res
  · rw [he]
    refine settle_repeats (Calm.repeats ?_) (fun p hp => ?_) browser
    · apply Calm.of_tokens <;> simp [api, ApiClient.setAccessToken]
    · exact h.parked p (by simpa [TokenStore.settle] using hp)
  · rw [he]
    refine settle_repeats (Calm.repeats ?_) (fun p hp => ?_) browser
    · exact Calm.of_tokens rfl rfl rfl
    · exact h.parked p hp

theorem finished_repeats (h : Remembers sent s.tokens) (P : Platform) (id : Nat) (raw : RawReply) (browser : Bool) :
    Repeats s (s.finished P id raw browser) := by
  obtain he | ⟨x, rest, hpick, hcase⟩ := finished_cases P s id raw browser
  · rw [he]
    exact (Calm.refl s).repeats
  · have hdrop : Calm s (s.without x rest) := Calm.of_tokens rfl rfl rfl
    obtain ⟨key, -, he⟩ | ⟨cb, -, -, he⟩ | ⟨cb, -, -, he⟩ := hcase
    · rw [he]
      have hleft : Remembers sent (s.without x rest).tokens :=
        { h with
          toWired := { h.toWired with
            inFlight := fun y hy => h.inFlight y (pick_rest hpick hy)
            marked := fun y hy => h.marked y (pick_rest hpick hy) }
          wire := fun y hy => h.wire y (pick_rest hpick hy) }
      exact hdrop.repeats.trans (refreshReply_repeats hleft P key _ browser)
    · rw [he]
      exact (hdrop.trans (refresh_calm ..)).repeats
    · rw [he]
      exact (hdrop.trans (call_calm ..)).repeats

/-! ### Attempts and their exchanges -/

/-- The attempt in progress was begun with a record of `A`, and every exchange redeems a start
with such a record that went out before it. -/
structure Possessed (A : Pkce → Prop) (s : AuthManager) : Prop extends Remembers [] s.tokens where
  rooted : s.Rooted
  current : s.oidcInProgress = true → A s.pkce ∧ ∃ y ∈ s.api.wire, Publishes s.pkce y
  redeemed : ∀ x ∈ exchanges s.api.wire,
    ∃ pkce, A pkce ∧ Redeems pkce x ∧ ∃ y ∈ s.api.wire, y.id < x.id ∧ Publishes pkce y

variable {A : Pkce → Prop}

theorem Possessed.repeats (h : Possessed A s) (hkept : Remembers s.api.wire s'.tokens) (hr : Repeats s s') :
    Possessed A s' where
  toRemembers := hkept.forget
  rooted := hr.rooted h.rooted
  current ho := by
    obtain ⟨hA, y, hy, hpublishes⟩ := h.current (hr.oidc ho)
    rw [hr.pkce]
    exact ⟨hA, y, hkept.sent y hy, hpublishes⟩
  redeemed x hx := by
    obtain hx | ⟨hid, z, hz, htarget⟩ := hr.wire x hx
    · obtain ⟨pkce, hA, hredeems, y, hy, hlt, hpublishes⟩ := h.redeemed x hx
      exact ⟨pkce, hA, hredeems, y, hkept.sent y hy, hlt, hpublishes⟩
    · obtain ⟨pkce, hA, hredeems, y, hy, -, hpublishes⟩ := h.redeemed z hz
      exact ⟨pkce, hA, hredeems.copy htarget, y, hkept.sent y hy, (h.past y hy).trans_le hid, hpublishes⟩

/-- The start of an attempt goes out with its record. -/
theorem Possessed.begin (h : Possessed A s) (hs : s.api.baseUrl.scheme = "https") {pkce : Pkce} (hA : A pkce)
    (hkept : Remembers s.api.wire (s.beginOidc pkce).tokens) : Possessed A (s.beginOidc pkce) := by
  unfold beginOidc at hkept ⊢
  rw [if_neg (not_not.mpr hs)] at hkept ⊢
  dsimp only at hkept ⊢
  rw [setState_eq] at hkept ⊢
  refine
    { toRemembers := hkept.forget, rooted := h.rooted, current := fun _ => ?_, redeemed := fun x hx => ?_ }
  · exact ⟨hA, _, List.mem_cons_self .., rfl, rfl⟩
  · obtain ⟨pkce, hA, hredeems, y, hy, hlt, hpublishes⟩ := h.redeemed x hx
    exact ⟨pkce, hA, hredeems, y, List.mem_cons_of_mem _ hy, hlt, hpublishes⟩

/-- The exchange of the attempt in progress redeems its start. -/
theorem Possessed.exchange (h : Possessed A s) (ho : s.oidcInProgress = true) (code : String)
    (hkept : Remembers s.api.wire (s.exchangeCode code s.pkce.state).tokens) :
    Possessed A (s.exchangeCode code s.pkce.state) := by
  obtain ⟨hA, y, hy, hpublishes⟩ := h.current ho
  refine
    { toRemembers := hkept.forget, rooted := h.rooted, current := fun _ => ?_, redeemed := fun x hx => ?_ }
  · exact ⟨hA, y, List.mem_cons_of_mem _ hy, hpublishes⟩
  · obtain rfl | hx := List.mem_cons.mp hx
    · exact ⟨s.pkce, hA, ⟨rfl, code, rfl⟩, y, List.mem_cons_of_mem _ hy, h.past y hy, hpublishes⟩
    · obtain ⟨pkce, hA, hredeems, z, hz, hlt, hpublishes⟩ := h.redeemed x hx
      exact ⟨pkce, hA, hredeems, z, List.mem_cons_of_mem _ hz, hlt, hpublishes⟩

theorem step_possessed (h : Possessed A s) {e : Event} (he : ∀ pkce, e = .beginOidc pkce → A pkce) :
    Possessed A ((machine P).step s e) := by
  have h : Possessed A s.fresh := { h with }
  have hkept : Remembers s.fresh.api.wire ((machine P).step s e).tokens :=
    Remembers.step (s := s.fresh) (Remembers.self h.toRemembers) e
  cases e with
  | checkServer url =>
    obtain ⟨hq, hr⟩ := checkServer_quiet h.toEpochs P url
    exact h.repeats hkept (hq.repeats fun _ => hr)
  | loginLocal username password => exact h.repeats hkept (loginLocal_calm _ username password).repeats
  | restoreSession url key =>
    obtain ⟨hq, hr⟩ := restoreSession_quiet h.toEpochs P url key
    exact h.repeats hkept (hq.repeats fun _ => hr)
  | beginOidc pkce =>
    by_cases hs : s.api.baseUrl.scheme = "https"
    · exact h.begin hs (he pkce rfl) hkept
    · refine h.repeats hkept (Calm.repeats ?_)
      show Calm s.fresh (s.fresh.beginOidc pkce)
      unfold beginOidc
      rw [if_pos (show s.fresh.api.baseUrl.scheme ≠ "https" from hs)]
      exact setLastError_calm _ _
  | cancelAuth => exact h.repeats hkept (cancelAuth_calm _).repeats
  | logout => exact h.repeats hkept (logout_calm _).repeats
  | keyringTimeout => exact h.repeats hkept (onKeyringTimeout_calm h.toEpochs h.rooted P).repeats
  | oidcTimeout => exact h.repeats hkept (onOidcTimeout_calm _).repeats
  | oauthCallback code state error =>
    have hkept : Remembers s.fresh.api.wire (s.fresh.onOauthCallback code state error).tokens := hkept
    show Possessed A (s.fresh.onOauthCallback code state error)
    obtain ⟨-, heq⟩ | ⟨ho, ⟨-, hcalm⟩ | ⟨-, hs, heq⟩⟩ := onOauthCallback_cases s.fresh code state error
    · rw [heq]
      exact h
    · exact h.repeats hkept hcalm.repeats
    · rw [heq, hs] at hkept ⊢
      have hstopped : Possessed A {s.fresh with oidcTimeout := none} := { h with }
      exact hstopped.exchange ho code hkept
  | reply id raw browser => exact h.repeats hkept (finished_repeats h.toRemembers P id raw browser)
  | external n verb path query body => exact h.repeats hkept (sendImpl_calm _ _ rfl true).repeats
  | secrets store =>
    refine h.repeats hkept (Calm.repeats ?_)
    exact Calm.of_tokens rfl rfl rfl
  | clock now => exact h.repeats hkept (Calm.repeats ⟨⟨id, rfl, rfl, Nat.le_refl _⟩, rfl, id⟩)

theorem launch_possessed (A : Pkce → Prop) (secrets : SecureStore) (servers : List ServerRow) (now : Int) :
    Possessed A (launch secrets servers now) where
  toRemembers := Remembers.launch secrets servers now
  rooted hk := absurd rfl hk
  current ho := absurd ho Bool.false_ne_true
  redeemed _ hx := nomatch hx

/-- **Possession.** In every run whose attempts are begun with generated records, whatever
else happens in it, each code exchange, first or repeated, redeems an attempt that was begun:
it carries the state and the verifier of that attempt, whose start went out before it with the
same state and with the hash of the verifier. State and verifier read back as the bytes drawn
for them, and every text goes into a URL as it is. -/
theorem code_redeemed (P : Platform) (sha256 : Bytes → Bytes) (hsha : ∀ bytes, (sha256 bytes).length = 32)
    (secrets : SecureStore) (servers : List ServerRow) (now : Int) (events : List Event)
    (h : ∀ pkce, .beginOidc pkce ∈ events → ∃ d d', pkce = Pkce.generate sha256 d d') :
    let s := (machine P).run (launch secrets servers now) events
    ∀ x ∈ exchanges s.api.wire, ∃ d d' pkce, .beginOidc pkce ∈ events ∧ Pkce.Drawn sha256 d d' pkce ∧
      Redeems pkce x ∧ ∃ y ∈ s.api.wire, y.id < x.id ∧ Publishes pkce y := by
  intro s x hx
  have hkeeps : Machine.Keeps (machine P) (fun _ e => e ∈ events) (Possessed fun pkce => .beginOidc pkce ∈ events) :=
    ⟨fun s e hs he => step_possessed hs fun pkce hbegin => hbegin ▸ he⟩
  have hrun : Possessed (fun pkce => .beginOidc pkce ∈ events) s :=
    hkeeps.run (launch_possessed _ secrets servers now) (Machine.along_of_mem (fun _ he => he) _)
  obtain ⟨pkce, hbegun, hredeems, hstart⟩ := hrun.redeemed x hx
  obtain ⟨d, d', rfl⟩ := h pkce hbegun
  exact ⟨d, d', _, hbegun, Pkce.generate_drawn hsha d d', hredeems, hstart⟩

/-- The generator counts, over memory that was zero. -/
def counting : Pkce.Draw := {random := UInt8.ofNat, memory := fun _ => 0}

/-- The hash of the verifier that reads back as the first 48 numbers. -/
def countingHash (bytes : Bytes) : Bytes :=
  if bytes = utf8 "AAECAwQFBgcICQoLDA0ODxAREhMUFRYXGBkaGxwdHh8gISIjJCUmJygpKissLS4v" then
    [144, 183, 241, 137, 52, 171, 163, 31, 228, 123, 188, 143, 202, 59, 208, 96, 22, 125, 237, 92, 109, 216, 167, 240,
      83, 215, 94, 202, 131, 206, 53, 194]
  else List.replicate 32 0

/-- A user who is signed in signs in through the browser as well, and the exchange finds the
access token expired. -/
def expiredMeanwhile : List Event :=
  let pkce := Pkce.generate countingHash counting counting
  signIn {scheme := "https", host := "a"} "access" "refresh" ++
    [.beginOidc pkce, .reply 3 {status := 302, location := some {scheme := "https", host := "idp"}} true,
      .oauthCallback "code" pkce.state "", .reply 4 {status := 401} true,
      .reply 5 {status := 200, body := .object [("accessToken", .string "renewed")]} true]

/-- The exchange went out twice. -/
theorem code_redeemed_again :
    let s := (machine default).run (launch {} [] 0) expiredMeanwhile
    (exchanges s.api.wire).length = 2 ∧
      ∀ x ∈ exchanges s.api.wire, ∃ d d' pkce, .beginOidc pkce ∈ expiredMeanwhile ∧
        Pkce.Drawn countingHash d d' pkce ∧ Redeems pkce x ∧ ∃ y ∈ s.api.wire, y.id < x.id ∧ Publishes pkce y := by
  refine ⟨by decide +kernel, code_redeemed default countingHash (fun bytes => ?_) {} [] 0 expiredMeanwhile ?_⟩
  · unfold countingHash
    split <;> rfl
  · intro pkce hbegin
    exact ⟨counting, counting, by simpa [expiredMeanwhile, signIn] using hbegin⟩

end AuthManager

end ShelfRemote.Auth
