import ShelfRemote.Auth.Closed

/-! The replies on their way.

A closure can do two things to the client: send another request, and change the
bearer (`Sends`). So the client knows every reply on its way (`Tracked`), somebody
waits for a refresh only while one is on its way (`Awaiting`), and a change of the
base URL leaves neither (`setBaseUrl_clears`), given that `setBaseUrl` aborts every
reply it holds. Between two events, then, everything outstanding is of the current
origin (`Current`). -/
namespace ShelfRemote.Auth
open Qt Net Runs

/-- What a closure may do to the client. -/
inductive Sends (c : ApiClient (Handler Callback)) : ApiClient (Handler Callback) → Prop
  | refl : Sends c c
  | send {c' : ApiClient (Handler Callback)} (h : Sends c c') (request : Request) (cb : Callback) (retry : Bool) :
      Sends c (c'.sendImpl request (.call cb) retry)
  | bearer {c' : ApiClient (Handler Callback)} (h : Sends c c') (token : String) : Sends c (c'.setAccessToken token)

/-- The client holds every reply on its way, and tells them apart. -/
structure Tracked (c : ApiClient (Handler Callback)) : Prop where
  active : ∀ x ∈ c.inFlight, x.id ∈ c.active
  created : ∀ x ∈ c.inFlight, x.id < c.created
  distinct : c.inFlight.Pairwise fun x y => x.id ≠ y.id

theorem Tracked.sendImpl {c : ApiClient (Handler Callback)} (h : Tracked c) (request : Request)
    (cb : Handler Callback) (retry : Bool) : Tracked (c.sendImpl request cb retry) where
  active x hx := by
    obtain rfl | hx := List.mem_cons.mp hx
    · exact List.mem_cons_self ..
    · exact List.mem_cons_of_mem _ (h.active x hx)
  created x hx := by
    obtain rfl | hx := List.mem_cons.mp hx
    · exact Nat.lt_succ_self _
    · exact (h.created x hx).trans (Nat.lt_succ_self _)
  distinct := List.pairwise_cons.mpr ⟨fun x hx => (h.created x hx).ne', h.distinct⟩

theorem Tracked.drop {c : ApiClient (Handler Callback)} (h : Tracked c) {p : Exchange (Handler Callback) → Bool}
    {x : Exchange (Handler Callback)} {rest : List (Exchange (Handler Callback))}
    (hpick : pick p c.inFlight = some (x, rest)) : Tracked (c.drop x rest) where
  active y hy := by
    have hne : x.id ≠ y.id := pick_pairwise (fun hab => hab.symm) hpick h.distinct y hy
    exact (List.mem_erase_of_ne hne.symm).mpr (h.active y (pick_rest hpick hy))
  created y hy := h.created y (pick_rest hpick hy)
  distinct := h.distinct.sublist (pick_sublist hpick)

namespace Sends
variable {c c' c'' : ApiClient (Handler Callback)}

theorem trans (h : Sends c c') (h' : Sends c' c'') : Sends c c'' := by
  induction h' with
  | refl => exact h
  | send _ request cb retry ih => exact ih.send request cb retry
  | bearer _ token ih => exact ih.bearer token

theorem tracked (h : Sends c c') (hc : Tracked c) : Tracked c' := by
  induction h with
  | refl => exact hc
  | send _ request cb retry ih => exact ih.sendImpl request _ retry
  | bearer _ token ih => exact ⟨ih.active, ih.created, ih.distinct⟩

theorem epoch (h : Sends c c') : c'.epoch = c.epoch := by
  induction h with
  | refl => rfl
  | send _ _ _ _ ih => exact ih
  | bearer _ _ ih => exact ih

/-- What is new on its way has a new number. -/
theorem fresh (h : Sends c c') : c.created ≤ c'.created ∧ ∀ x ∈ c'.inFlight, x ∈ c.inFlight ∨ c.created ≤ x.id := by
  induction h with
  | refl => exact ⟨le_rfl, fun x hx => .inl hx⟩
  | send _ _ _ _ ih =>
    refine ⟨ih.1.trans (Nat.le_succ _), fun x hx => ?_⟩
    obtain rfl | hx := List.mem_cons.mp hx
    · exact .inr ih.1
    · exact ih.2 x hx
  | bearer _ _ ih => exact ih

theorem epochs (h : Sends c c') (hc : ∀ x ∈ c.inFlight, x.epoch = c.epoch) :
    ∀ x ∈ c'.inFlight, x.epoch = c'.epoch := by
  induction h with
  | refl => exact hc
  | send _ _ _ _ ih =>
    intro x hx
    obtain rfl | hx := List.mem_cons.mp hx
    · rfl
    · exact ih x hx
  | bearer _ _ ih => exact ih

/-- Whatever was on its way still is. -/
theorem inFlight (h : Sends c c') : ∀ x ∈ c.inFlight, x ∈ c'.inFlight := by
  induction h with
  | refl => exact fun x hx => hx
  | send _ _ _ _ ih => exact fun x hx => List.mem_cons_of_mem _ (ih x hx)
  | bearer _ _ ih => exact ih

end Sends

namespace AuthManager
variable {P : Platform} {s s' s'' : AuthManager}

/-- A closure sends, and leaves those who wait for a refresh alone. -/
structure Works (s s' : AuthManager) : Prop where
  api : Sends s.api s'.api
  pending : s'.tokens.pending = s.tokens.pending
  refreshing : s'.tokens.refreshing = s.tokens.refreshing

namespace Works

theorem refl (s : AuthManager) : Works s s := ⟨.refl, rfl, rfl⟩

theorem trans (h : Works s s') (h' : Works s' s'') : Works s s'' :=
  ⟨h.api.trans h'.api, h'.pending.trans h.pending, h'.refreshing.trans h.refreshing⟩

/-- The tokens are not touched. -/
theorem quiet (ht : s'.tokens = s.tokens) : Works s s' := by
  refine ⟨?_, by rw [ht], by rw [ht]⟩
  show Sends s.tokens.api s'.tokens.api
  rw [ht]
  exact .refl

theorem setState (h : Works s s') (state : State) : Works s (s'.setState state) := by
  rw [setState_eq]
  exact h.trans (quiet rfl)

theorem setError (h : Works s s') (msg : String) : Works s (s'.setError msg) := by
  refine Works.setState ?_ .error
  exact h.trans (quiet rfl)

theorem send (h : Works s s') (request : Request) (cb : Callback) : Works s (s'.send request cb) :=
  h.trans ⟨Sends.refl.send request cb true, rfl, rfl⟩

/-- The tokens change, and with them the bearer. -/
theorem tokens {ts : TokenStore Callback Waiter} (ha : Sends s.api ts.api)
    (hp : ts.pending = s.tokens.pending) (hr : ts.refreshing = s.tokens.refreshing) :
    Works s {s with tokens := ts} := ⟨ha, hp, hr⟩

theorem clear (s : AuthManager) : Works s {s with tokens := s.tokens.clear} := by
  refine tokens ?_ (TokenStore.clear_pending _) ?_
  · rw [TokenStore.clear_api]
    exact Sends.refl.bearer ""
  · unfold TokenStore.clear
    dsimp only
    split <;> rfl

theorem persist (s : AuthManager) (account : String) :
    Works s {s with tokens := (s.tokens.setAccount account).persist} := by
  refine tokens ?_ (TokenStore.persist_pending _) ?_
  · rw [TokenStore.persist_api]
    exact .refl
  · unfold TokenStore.persist
    split <;> rfl

theorem setTokens (s : AuthManager) (P : Platform) (account access refresh : String) :
    Works s {s with tokens := (s.tokens.setAccount account).setTokens P access refresh} := by
  refine tokens ?_ (TokenStore.setTokens_pending _ _ _ _) ?_
  · rw [TokenStore.setTokens_api]
    exact Sends.refl.bearer access
  · unfold TokenStore.setTokens TokenStore.persist
    split <;> rfl

theorem applyLoginPayload (P : Platform) (s : AuthManager) (payload : Json) :
    Works s (s.applyLoginPayload P payload) := by
  unfold AuthManager.applyLoginPayload
  dsimp only
  split
  · exact (refl s).setError _
  · refine Works.send ?_ _ .authorize
    exact (setTokens s P _ _ _).trans (quiet rfl)

theorem onAuthorize (P : Platform) (s : AuthManager) (res : ApiResponse) : Works s (s.onAuthorize P res) := by
  unfold AuthManager.onAuthorize
  split
  · exact refl s
  · split
    · dsimp only
      refine Works.setState ?_ _
      split
      · exact (clear s).trans (quiet rfl)
      · exact quiet rfl
    · dsimp only
      generalize huser : (if (res.body.toObject.value "user").toObject.isEmpty = true then s
        else {s with user := (res.body.toObject.value "user").toObject}) = s₁
      have h₁ : Works s s₁ := by
        rw [← huser]
        split
        · exact refl s
        · exact quiet rfl
      have h₂ : Works s (if (s₁.user.value "id").toString "" = "" then s₁
          else {s₁ with tokens := (s₁.tokens.setAccount ((s₁.user.value "id").toString "")).persist}) := by
        split
        · exact h₁
        · exact h₁.trans (persist s₁ _)
      generalize (if (s₁.user.value "id").toString "" = "" then s₁
        else {s₁ with tokens := (s₁.tokens.setAccount ((s₁.user.value "id").toString "")).persist}) = s₂ at h₂ ⊢
      have hcleared : Works s s₂.clearError := h₂.trans (quiet rfl)
      exact (hcleared.setState .authenticated).trans (quiet rfl)

theorem call (P : Platform) (s : AuthManager) (cb : Callback) (res : ApiResponse) (browser : Bool) :
    Works s (s.call P cb res browser) := by
  cases cb with
  | status =>
    simp only [AuthManager.call, onStatus]
    split
    · exact refl s
    · split
      · exact (refl s).setError _
      · refine Works.setState ?_ _
        exact quiet rfl
  | login =>
    simp only [AuthManager.call, onLogin]
    split
    · exact refl s
    · split
      · refine Works.setState ?_ _
        exact quiet rfl
      · exact applyLoginPayload P s _
  | openidStart attempt =>
    have habandon : ∀ msg, Works s (({s with oidcInProgress := false}.setLastError msg).setState .needsLogin) := by
      intro msg
      refine Works.setState ?_ _
      exact quiet rfl
    simp only [AuthManager.call, onOpenidStart]
    split
    · exact quiet rfl
    · split
      · exact habandon _
      · split_ifs
        · exact habandon _
        · exact habandon _
        · exact quiet rfl
        · exact habandon _
  | openidCallback =>
    have hended : Works s {s with oidcInProgress := false} := quiet rfl
    simp only [AuthManager.call, onOpenidCallback]
    split
    · exact hended
    · split
      · exact hended.setError _
      · exact hended.trans (applyLoginPayload P _ _)
  | authorize => exact onAuthorize P s res
  | logout =>
    simp only [AuthManager.call, onLogout]
    split_ifs
    · exact refl s
    · exact refl s
    · exact quiet rfl
  | other n => exact refl s

theorem tell (P : Platform) (ok browser : Bool) (s : AuthManager) (w : Waiter) : Works s (s.tell P ok browser w) := by
  cases w with
  | restore =>
    simp only [AuthManager.tell]
    split
    · exact (refl s).send _ .authorize
    · exact (refl s).setState _
  | retry p =>
    simp only [AuthManager.tell, ApiClient.resume, Parked.map]
    by_cases hret : (!ok || p.epoch != s.api.epoch) = true
    · simp only [hret, if_true]
      exact call P s p.cb _ browser
    · simp only [hret]
      exact ⟨Sends.refl.send _ p.cb false, rfl, rfl⟩

theorem settle (P : Platform) (s : AuthManager) (t : Settled Waiter) (browser : Bool) :
    Works s (s.settle P t browser) :=
  settle_keeps (I := Works s) (fun _ h => h.setState _) (fun s' h w _ => h.trans (tell P t.ok browser s' w)) (refl s)

end Works

/-! ### Waiting for a refresh -/

/-- Somebody waits for a refresh only while one is on its way. -/
structure Held (ts : TokenStore Callback Waiter) : Prop extends Tracked ts.api where
  waiting : ts.pending ≠ [] → ts.refreshing = true
  flying : ts.refreshing = true → ∃ x ∈ ts.api.inFlight, x.cb.isRefresh = true

theorem Works.held (h : Works s s') (hs : Held s.tokens) : Held s'.tokens where
  toTracked := h.api.tracked hs.toTracked
  waiting hp := by
    rw [h.pending] at hp
    rw [h.refreshing]
    exact hs.waiting hp
  flying hr := by
    rw [h.refreshing] at hr
    obtain ⟨x, hx, hxr⟩ := hs.flying hr
    exact ⟨x, h.api.inFlight x hx, hxr⟩

/-- Nobody waits any more once a refresh is settled. -/
theorem held_settled {ts : TokenStore Callback Waiter} (h : Tracked ts.api) :
    Held {ts with refreshing := false, pending := []} :=
  { h with
    waiting := fun hp => absurd rfl hp
    flying := fun hr => absurd hr (by simp) }

/-- A refresh that is replied to is settled, and then its waiters run. -/
theorem refreshReply_works (P : Platform) (s : AuthManager) (key : String) (res : ApiResponse) (browser : Bool) :
    ∃ ts : TokenStore Callback Waiter, Sends s.api ts.api ∧
      Works {s with tokens := {ts with refreshing := false, pending := []}} (s.refreshReply P key res browser) := by
  unfold refreshReply
  obtain ⟨-, he⟩ | ⟨-, failed, he⟩ := TokenStore.refreshReply_cases P s.tokens key res
  · rw [he]
    refine ⟨s.tokens.setTokens P _ _, ?_, Works.settle P _ _ browser⟩
    rw [TokenStore.setTokens_api]
    exact Sends.refl.bearer _
  · rw [he]
    exact ⟨s.tokens, .refl, Works.settle P _ _ browser⟩

theorem refreshReply_held (h : Tracked s.api) (P : Platform) (key : String) (res : ApiResponse) (browser : Bool) :
    Held (s.refreshReply P key res browser).tokens := by
  obtain ⟨ts, hsends, hworks⟩ := refreshReply_works P s key res browser
  exact hworks.held (held_settled (hsends.tracked h))

theorem refresh_held (h : Held s.tokens) (P : Platform) (w : Waiter) (browser : Bool) :
    Held (s.refresh P w browser).tokens := by
  obtain ⟨-, he⟩ | ⟨hr, he⟩ | ⟨-, he⟩ := refresh_cases P s w browser
  · rw [he]
    exact (Works.settle P s _ browser).held h
  · rw [he]
    exact { h.toTracked with waiting := fun _ => hr, flying := fun _ => h.flying hr }
  · rw [he]
    exact
      { h.toTracked.sendImpl _ _ true with
        waiting := fun _ => rfl
        flying := fun _ => ⟨_, List.mem_cons_self .., rfl⟩ }

theorem held_without (h : Held s.tokens) {p : Exchange (Handler Callback) → Bool} {x : Exchange (Handler Callback)}
    {rest : List (Exchange (Handler Callback))} (hpick : pick p s.api.inFlight = some (x, rest))
    (hx : x.cb.isRefresh = false) : Held (s.without x rest).tokens :=
  { h.toTracked.drop hpick with
    waiting := h.waiting
    flying := fun hr => by
      obtain ⟨y, hy, hyr⟩ := h.flying hr
      obtain rfl | hy := List.mem_cons.mp ((pick_perm hpick).mem_iff.mp hy)
      · rw [hx] at hyr
        cases hyr
      · exact ⟨y, hy, hyr⟩ }

theorem finished_held (h : Held s.tokens) (P : Platform) (id : Nat) (raw : RawReply) (browser : Bool) :
    Held (s.finished P id raw browser).tokens := by
  obtain he | ⟨x, rest, hpick, ⟨key, _, he⟩ | ⟨cb, hcb, _, he⟩ | ⟨cb, hcb, _, he⟩⟩ :=
    finished_cases P s id raw browser
  · rw [he]
    exact h
  · rw [he]
    exact refreshReply_held (s := s.without x rest) (h.toTracked.drop hpick) P key _ browser
  · rw [he]
    exact refresh_held (held_without h hpick (by rw [hcb]; rfl)) P _ browser
  · rw [he]
    exact (Works.call P _ cb _ browser).held (held_without h hpick (by rw [hcb]; rfl))

/-! ### Aborting everything -/

theorem refresh_fresh (P : Platform) (s : AuthManager) (w : Waiter) (browser : Bool) :
    ∀ x ∈ (s.refresh P w browser).api.inFlight, x ∈ s.api.inFlight ∨ s.api.created ≤ x.id := by
  obtain ⟨-, he⟩ | ⟨-, he⟩ | ⟨-, he⟩ := refresh_cases P s w browser
  · rw [he]
    exact (Works.settle P s _ browser).api.fresh.2
  · rw [he]
    exact fun x hx => .inl hx
  · rw [he]
    intro x hx
    obtain rfl | hx := List.mem_cons.mp hx
    · exact .inr le_rfl
    · exact .inl hx

/-- A reply that has finished is no longer on its way. -/
theorem finished_gone (h : Tracked s.api) (P : Platform) (id : Nat) (raw : RawReply) (browser : Bool) :
    ∀ x ∈ (s.finished P id raw browser).api.inFlight, x.id ≠ id := by
  unfold finished
  split
  · next hpick =>
    intro x hx
    simpa using pick_none hpick x hx
  · next y rest hpick =>
    have hid : y.id = id := by simpa using pick_accepts hpick
    have hrest : ∀ x ∈ rest, x.id ≠ id := fun x hx hxid =>
      pick_pairwise (fun hab => hab.symm) hpick h.distinct x hx (hid.trans hxid.symm)
    have hfresh : ∀ c : ApiClient (Handler Callback),
        (∀ x ∈ c.inFlight, x ∈ rest ∨ s.api.created ≤ x.id) → ∀ x ∈ c.inFlight, x.id ≠ id := by
      intro c hc x hx
      obtain hx | hx := hc x hx
      · exact hrest x hx
      · have hlt := h.created y (pick_mem hpick)
        omega
    dsimp only
    split
    · next key _ =>
      obtain ⟨ts, hsends, hworks⟩ := refreshReply_works P (s.without y rest) key (s.api.response y raw) browser
      exact hfresh _ (hsends.trans hworks.api).fresh.2
    · next cb _ =>
      split
      · exact hfresh _ (refresh_fresh P (s.without y rest) _ browser)
      · exact hfresh _ (Works.call P (s.without y rest) cb _ browser).api.fresh.2

/-- Replies of an earlier origin that are aborted are gone. -/
theorem aborts_gone (P : Platform) (ids : List Nat) :
    ∀ s : AuthManager, s.Outdated → Held s.tokens →
      Held (ids.foldl (fun s id => s.finished P id P.aborted false) s).tokens ∧
      ∀ x ∈ (ids.foldl (fun s id => s.finished P id P.aborted false) s).api.inFlight,
        x ∈ s.api.inFlight ∧ x.id ∉ ids := by
  induction ids with
  | nil => exact fun s _ hh => ⟨hh, fun x hx => ⟨hx, List.not_mem_nil⟩⟩
  | cons id ids ih =>
    intro s h hh
    obtain ⟨r, hr, he⟩ := aborted_finished h P id P.aborted false
    have hnext : (s.finished P id P.aborted false).Outdated := he ▸ h.leave hr
    obtain ⟨hheld, hgone⟩ := ih _ hnext (finished_held hh P id P.aborted false)
    refine ⟨hheld, fun x hx => ?_⟩
    obtain ⟨hx, hxids⟩ := hgone x hx
    refine ⟨hr.inFlight x ?_, List.not_mem_cons_of_ne_of_not_mem (finished_gone hh.toTracked P id _ _ x hx) hxids⟩
    have hin : (s.leave r).api.inFlight = r.inFlight := by
      unfold api
      rw [leave_tokens]
    rwa [he, hin] at hx

/-- Nothing is outstanding. -/
structure Clear (ts : TokenStore Callback Waiter) : Prop where
  inFlight : ts.api.inFlight = []
  pending : ts.pending = []
  refreshing : ts.refreshing = false

/-- A change of the base URL aborts whatever is outstanding. -/
theorem setBaseUrl_clears (hP : ∀ ids, (P.abortOrder ids).Perm ids) (h : Held s.tokens)
    (hepoch : ∀ x ∈ s.api.inFlight, x.epoch = s.api.epoch)
    (hparked : ∀ p, .retry p ∈ s.tokens.pending → p.epoch = s.api.epoch) (base : QUrl) :
    s.setBaseUrl P base = s ∨ Clear (s.setBaseUrl P base).tokens := by
  unfold setBaseUrl
  split
  · exact .inl rfl
  · right
    have hold : (s.withApi (s.api.moveBase base)).Outdated := by
      refine ⟨fun x hx => ?_, fun p hp => ?_⟩
      · have := hepoch x hx
        show x.epoch ≠ s.api.epoch + 1
        omega
      · have := hparked p hp
        show p.epoch ≠ s.api.epoch + 1
        omega
    have hheld : Held (s.withApi (s.api.moveBase base)).tokens :=
      { active := h.active, created := h.created, distinct := h.distinct, waiting := h.waiting, flying := h.flying }
    obtain ⟨hheld, hgone⟩ := aborts_gone P (P.abortOrder s.api.active) _ hold hheld
    dsimp only
    generalize (P.abortOrder s.api.active).foldl (fun s id => s.finished P id P.aborted false)
      (s.withApi (s.api.moveBase base)) = s₁ at hheld hgone
    have hinFlight : s₁.api.inFlight = [] := by
      refine List.eq_nil_iff_forall_not_mem.mpr fun x hx => ?_
      obtain ⟨hxs, hxids⟩ := hgone x hx
      exact hxids ((hP _).mem_iff.mpr (h.active x hxs))
    have hrefreshing : s₁.tokens.refreshing = false := by
      by_contra hr
      obtain ⟨x, hx, -⟩ := hheld.flying (Bool.not_eq_false _ ▸ hr)
      rw [show s₁.tokens.api.inFlight = [] from hinFlight] at hx
      cases hx
    refine ⟨hinFlight, ?_, hrefreshing⟩
    by_contra hp
    have hr := hheld.waiting hp
    rw [hrefreshing] at hr
    cases hr

/-! ### Between two events -/

/-- Everything outstanding is of the current origin. -/
structure Current (ts : TokenStore Callback Waiter) : Prop extends Held ts where
  epochs : ∀ x ∈ ts.api.inFlight, x.epoch = ts.api.epoch
  parked : ∀ p, .retry p ∈ ts.pending → p.epoch = ts.api.epoch ∧ p.res.stale = false

theorem Works.current (h : Works s s') (hs : Current s.tokens) : Current s'.tokens :=
  { h.held hs.toHeld with
    epochs := h.api.epochs hs.epochs
    parked := fun p hp => by
      rw [h.pending] at hp
      exact (hs.parked p hp).imp_left (·.trans h.api.epoch.symm) }

theorem Clear.current {ts : TokenStore Callback Waiter} (h : Clear ts) : Current ts where
  active x hx := by rw [h.inFlight] at hx; cases hx
  created x hx := by rw [h.inFlight] at hx; cases hx
  distinct := by rw [h.inFlight]; exact .nil
  waiting hp := absurd h.pending hp
  flying hr := by rw [h.refreshing] at hr; cases hr
  epochs x hx := by rw [h.inFlight] at hx; cases hx
  parked p hp := by rw [h.pending] at hp; cases hp

theorem setBaseUrl_current (hP : ∀ ids, (P.abortOrder ids).Perm ids) (h : Current s.tokens) (base : QUrl) :
    Current (s.setBaseUrl P base).tokens := by
  obtain he | hc := setBaseUrl_clears hP h.toHeld h.epochs (fun p hp => (h.parked p hp).1) base
  · rw [he]
    exact h
  · exact hc.current

/-- A waiter of this origin may join. -/
theorem refresh_current (h : Current s.tokens) (P : Platform) {w : Waiter}
    (hw : ∀ p, w = .retry p → p.epoch = s.api.epoch ∧ p.res.stale = false) (browser : Bool) :
    Current (s.refresh P w browser).tokens := by
  have hheld := refresh_held h.toHeld P w browser
  have hparked : ∀ p, .retry p ∈ s.tokens.pending ++ [w] → p.epoch = s.tokens.api.epoch ∧ p.res.stale = false := by
    intro p hp
    obtain hp | hp := List.mem_append.mp hp
    · exact h.parked p hp
    · exact hw p (List.mem_singleton.mp hp).symm
  obtain ⟨-, he⟩ | ⟨-, he⟩ | ⟨-, he⟩ := refresh_cases P s w browser
  · rw [he]
    exact (Works.settle P s _ browser).current h
  · rw [he] at hheld ⊢
    exact { hheld with epochs := h.epochs, parked := hparked }
  · rw [he] at hheld ⊢
    refine { hheld with epochs := fun x hx => ?_, parked := hparked }
    obtain rfl | hx := List.mem_cons.mp hx
    · rfl
    · exact h.epochs x hx

theorem finished_current (h : Current s.tokens) (P : Platform) (id : Nat) (raw : RawReply) (browser : Bool) :
    Current (s.finished P id raw browser).tokens := by
  obtain he | ⟨x, rest, hpick, hcase⟩ := finished_cases P s id raw browser
  · rw [he]
    exact h
  · have hepochs : ∀ y ∈ rest, y.epoch = s.api.epoch := fun y hy => h.epochs y (pick_rest hpick hy)
    have hwithout : x.cb.isRefresh = false → Current (s.without x rest).tokens := fun hx =>
      { held_without h.toHeld hpick hx with epochs := hepochs, parked := h.parked }
    obtain ⟨key, _, he⟩ | ⟨cb, hcb, hasks, he⟩ | ⟨cb, hcb, _, he⟩ := hcase
    · rw [he]
      obtain ⟨ts, hsends, hworks⟩ := refreshReply_works P (s.without x rest) key (s.api.response x raw) browser
      refine hworks.current ?_
      exact
        { held_settled (hsends.tracked (h.toTracked.drop hpick)) with
          epochs := hsends.epochs hepochs
          parked := fun p hp => absurd hp List.not_mem_nil }
    · rw [he]
      refine refresh_current (hwithout (by rw [hcb]; rfl)) P (fun p hp => ?_) browser
      cases hp
      refine ⟨h.epochs x (pick_mem hpick), ?_⟩
      simp only [ApiClient.asksRefresh, Bool.and_eq_true, Bool.not_eq_true'] at hasks
      exact hasks.1.2
    · rw [he]
      exact (Works.call P _ cb _ browser).current (hwithout (by rw [hcb]; rfl))

theorem load_works (P : Platform) (s : AuthManager) : Works s {s with tokens := (s.tokens.load P).1} := by
  unfold TokenStore.load
  split
  · exact Works.refl s
  · split
    · dsimp only
      split
      · exact Works.tokens .refl rfl rfl
      · exact Works.tokens (Sends.refl.bearer _) rfl rfl
    · exact Works.tokens .refl rfl rfl
    · exact Works.refl s

theorem looked_current (hP : ∀ ids, (P.abortOrder ids).Perm ids) (h : Current s.tokens) :
    Current (s.looked P).tokens := by
  rw [looked_tokens]
  refine (load_works P (s.pointAt P)).current ?_
  have hmoved := setBaseUrl_current hP h s.restoreUrl
  exact { hmoved with }

theorem attemptRestore_current (hP : ∀ ids, (P.abortOrder ids).Perm ids) (h : Current s.tokens) :
    Current (s.attemptRestore P).1.tokens := by
  have hlooked := looked_current hP h
  have hbusy : Current ((s.looked P).stopWaitingForKeyring.setState .authenticating).tokens := by
    rw [setState_tokens]
    exact hlooked
  obtain ⟨-, he | he⟩ | ⟨-, he | he⟩ := attemptRestore_cases P s
  · rw [he, waitForKeyring_tokens]
    exact hlooked
  · rw [he]
    exact hlooked
  · rw [he]
    exact refresh_current hbusy P (fun p hp => by cases hp) false
  · rw [he]
    exact ((Works.refl _).send _ .authorize).current hbusy

theorem checkServer_current (hP : ∀ ids, (P.abortOrder ids).Perm ids) (h : Current s.tokens) (url : QUrl) :
    Current (s.checkServer P url).tokens := by
  have hmoved := setBaseUrl_current (s := s.stopWaitingForKeyring) hP h url
  unfold checkServer
  generalize s.stopWaitingForKeyring.setBaseUrl P url = s₁ at hmoved
  have hreset : Works s₁ {s₁ with
      tokens := (s₁.tokens.resetMemory.setServerKey (idForUrl P.text url)).setAccount "", lastError := ""} :=
    ⟨Sends.refl.bearer "", rfl, rfl⟩
  exact ((hreset.setState .checking).send _ .status).current hmoved

/-- A call of the user that keeps to the configured server. -/
theorem logout_works (s : AuthManager) : Works s s.logout := by
  unfold logout
  refine Works.send (Works.setState ?_ _) _ .logout
  exact (Works.clear s).trans (Works.quiet rfl)

theorem cancelAuth_works (s : AuthManager) : Works s s.cancelAuth := by
  unfold cancelAuth
  dsimp only
  split
  · refine Works.setState ?_ _
    exact Works.quiet rfl
  · exact Works.quiet rfl

theorem loginLocal_works (s : AuthManager) (username password : String) : Works s (s.loginLocal username password) := by
  unfold loginLocal
  refine Works.send (Works.setState ?_ _) _ .login
  exact Works.quiet rfl

theorem beginOidc_works (s : AuthManager) (pkce : Pkce) : Works s (s.beginOidc pkce) := by
  unfold beginOidc
  split
  · exact Works.quiet rfl
  · have hcleared : Works s s.clearError := Works.quiet rfl
    have hbegun : Works s {s.clearError.setState .authenticating with pkce, oidcInProgress := true} :=
      (hcleared.setState .authenticating).trans (Works.quiet rfl)
    exact hbegun.send _ _

theorem onOauthCallback_works (s : AuthManager) (code state error : String) :
    Works s (s.onOauthCallback code state error) := by
  unfold onOauthCallback
  split
  · exact Works.refl s
  · dsimp only
    split_ifs
    · refine Works.setError ?_ _
      exact Works.quiet rfl
    · refine Works.setError ?_ _
      exact Works.quiet rfl
    · refine Works.send ?_ _ .openidCallback
      exact Works.quiet rfl

theorem onOidcTimeout_works (s : AuthManager) : Works s s.onOidcTimeout := by
  unfold onOidcTimeout
  split
  · exact Works.refl s
  · dsimp only
    split
    · exact Works.quiet rfl
    · refine Works.setState ?_ _
      exact Works.quiet rfl

theorem onKeyringTimeout_current (hP : ∀ ids, (P.abortOrder ids).Perm ids) (h : Current s.tokens) :
    Current (s.onKeyringTimeout P).tokens := by
  unfold onKeyringTimeout
  split
  · exact h
  · have hrestored := attemptRestore_current (s := {s with keyringRetry := none}) hP h
    dsimp only
    split
    · exact hrestored
    · rw [setState_tokens]
      exact hrestored

theorem step_current (hP : ∀ ids, (P.abortOrder ids).Perm ids) (h : Current s.tokens) (e : Event) :
    Current ((machine P).step s e).tokens := by
  have h : Current s.fresh.tokens := h
  show Current (s.fresh.handle P e).tokens
  generalize s.fresh = s at h
  cases e with
  | checkServer url => exact checkServer_current hP h url
  | loginLocal username password => exact (loginLocal_works s username password).current h
  | beginOidc pkce => exact (beginOidc_works s pkce).current h
  | cancelAuth => exact (cancelAuth_works s).current h
  | logout => exact (logout_works s).current h
  | restoreSession url key =>
    exact attemptRestore_current (s := {s.stopWaitingForKeyring with restoreUrl := url, restoreKey := key}) hP h
  | keyringTimeout => exact onKeyringTimeout_current hP h
  | oidcTimeout => exact (onOidcTimeout_works s).current h
  | oauthCallback code state error => exact (onOauthCallback_works s code state error).current h
  | reply id raw browser => exact finished_current h P id raw browser
  | external n verb path query body => exact ((Works.refl s).send _ (.other n)).current h
  | secrets store => exact { h with }
  | clock now => exact h

theorem launch_current (secrets : SecureStore) (servers : List ServerRow) (now : Int) :
    Current (launch secrets servers now).tokens :=
  Clear.current ⟨rfl, rfl, rfl⟩

end AuthManager

end ShelfRemote.Auth
