import ShelfRemote.Auth.AuthManager

/-! Which tokens a refresh reply replaces.

A refresh rotates the token it was sent with, so its reply says nothing about any
other. The handler does not look at the token: it compares the server and the
key. `refresh_replies_rightful` says what that is worth after any run of the token
store, and `patient_bound` which runs are safe: those in which nobody touches the
refresh token while a refresh is unanswered. Signing out does. -/
namespace ShelfRemote.Auth
open Qt Net Runs

namespace TokenStore
variable {κ ω : Type} {P : Platform} {ts : TokenStore κ ω}

inductive Op (ω : Type) where
  | setTokens (access refresh : String)
  | clear
  | resetMemory
  | setServerKey (key : String)
  | setAccount (account : String)
  | refresh (waiter : ω)
  /-- The reply of a request has finished. -/
  | reply (id : Nat) (raw : RawReply)

/-- A reply, and the closure of the store if it answers a refresh. -/
def reply (P : Platform) (ts : TokenStore κ ω) (id : Nat) (raw : RawReply) : TokenStore κ ω :=
  match pick (fun x => x.id == id) ts.api.inFlight with
  | none => ts
  | some (x, rest) =>
    let dropped := {ts with api := ts.api.drop x rest}
    match x.cb with
    | .refresh key => (dropped.refreshReply P key (ts.api.response x raw)).1
    | .call _ => dropped

/-- The token store, its server configured once and for all. -/
def machine (P : Platform) : Machine (TokenStore κ ω) (Op ω) where
  step ts
    | .setTokens access refresh => ts.setTokens P access refresh
    | .clear => ts.clear
    | .resetMemory => ts.resetMemory
    | .setServerKey key => ts.setServerKey key
    | .setAccount account => ts.setAccount account
    | .refresh waiter => (ts.refresh waiter).1
    | .reply id raw => ts.reply P id raw

/-- A store that holds nothing yet. -/
def start (server : Endpoints) (secrets : SecureStore) : TokenStore κ ω :=
  {api := {endpoints := server}, secrets}

/-- The tokens, in memory, in the client and at rest, are what they were. -/
structure Undisturbed (ts ts' : TokenStore κ ω) : Prop where
  access : ts'.accessToken = ts.accessToken
  refresh : ts'.refreshToken = ts.refreshToken
  bearer : ts'.api.accessToken = ts.api.accessToken
  secrets : ts'.secrets = ts.secrets

/-- The refresh `id` was sent with the token that is held. -/
def SentWithHeld (ts : TokenStore κ ω) (id : Nat) : Prop :=
  ∃ x rest, pick (fun x => x.id == id) ts.api.inFlight = some (x, rest) ∧
    x.request.refreshToken = some ts.refreshToken

/-- A reply leaves the tokens alone, unless it answers for the token that is held. -/
def Rightful (P : Platform) (ts : TokenStore κ ω) (id : Nat) (raw : RawReply) : Prop :=
  ¬ts.Undisturbed (ts.reply P id raw) → ts.SentWithHeld id

/-- What `id` was sent with is held, if `id` is a refresh under the current key. -/
def Bound (ts : TokenStore κ ω) (id : Nat) : Prop :=
  match pick (fun x => x.id == id) ts.api.inFlight with
  | some (x, _) =>
    match x.cb with
    | .refresh key => key = ts.serverKey → x.request.refreshToken = some ts.refreshToken
    | .call _ => True
  | none => True

/-! ### One reply -/

theorem setTokens_accessToken (P : Platform) (ts : TokenStore κ ω) (access refresh : String) :
    (ts.setTokens P access refresh).accessToken = access := by
  unfold setTokens persist
  split <;> rfl

/-- Only an adopted reply touches the tokens. -/
theorem reply_cases (P : Platform) (ts : TokenStore κ ω) (id : Nat) (raw : RawReply) :
    ts.Undisturbed (ts.reply P id raw) ∨
      ∃ x rest key, pick (fun x => x.id == id) ts.api.inFlight = some (x, rest) ∧ x.cb = .refresh key ∧
        ts.Adopts key (ts.api.response x raw) := by
  unfold reply
  cases hpick : pick (fun x => x.id == id) ts.api.inFlight with
  | none => exact .inl ⟨rfl, rfl, rfl, rfl⟩
  | some found =>
    obtain ⟨x, rest⟩ := found
    dsimp only
    cases hcb : x.cb with
    | call cb => exact .inl ⟨rfl, rfl, rfl, rfl⟩
    | refresh key =>
      dsimp only
      rcases refreshReply_cases P {ts with api := ts.api.drop x rest} key (ts.api.response x raw) with
        ⟨ha, _⟩ | ⟨_, failed, he⟩
      · exact .inr ⟨x, rest, key, rfl, hcb, ha.fresh, ha.key, ha.ok, ha.access⟩
      · rw [he]
        exact .inl ⟨rfl, rfl, rfl, rfl⟩

theorem reply_adopted {id : Nat} {raw : RawReply} {x : Exchange (Handler κ)}
    {rest : List (Exchange (Handler κ))} {key : String}
    (hpick : pick (fun x => x.id == id) ts.api.inFlight = some (x, rest)) (hcb : x.cb = .refresh key)
    (ha : ts.Adopts key (ts.api.response x raw)) :
    (ts.reply P id raw).accessToken = replyToken raw.body.toObject "accessToken" := by
  unfold reply
  rw [hpick]
  dsimp only
  rw [hcb]
  dsimp only
  rcases refreshReply_cases P {ts with api := ts.api.drop x rest} key (ts.api.response x raw) with
    ⟨_, he⟩ | ⟨hn, _⟩
  · rw [he]
    exact setTokens_accessToken P _ _ _
  · exact absurd ⟨ha.fresh, ha.key, ha.ok, ha.access⟩ hn

theorem rightful_of_bound {id : Nat} (h : ts.Bound id) (raw : RawReply) : ts.Rightful P id raw := by
  intro hchanged
  rcases reply_cases P ts id raw with hsame | ⟨x, rest, key, hpick, hcb, ha⟩
  · exact absurd hsame hchanged
  · simp only [Bound, hpick, hcb] at h
    exact ⟨x, rest, hpick, h ha.key⟩

/-- A server that grants some other access token. -/
def grant (access : String) : RawReply := {status := 200, body := .object [("accessToken", .string access)]}

theorem adopts_grant {x : Exchange (Handler κ)} (hx : x.epoch = ts.api.epoch) {access : String}
    (ha : access ≠ "") : ts.Adopts ts.serverKey (ts.api.response x (grant access)) where
  fresh := by simp [ApiClient.response, hx]
  key := rfl
  ok := rfl
  access := ha

/-- If no reply is wrong, the refresh is bound: there is an access token that is not
the one held, and the server may send it. -/
theorem bound_of_rightful {id : Nat} (hepoch : ∀ x ∈ ts.api.inFlight, x.epoch = ts.api.epoch)
    (h : ∀ raw, ts.Rightful P id raw) : ts.Bound id := by
  unfold Bound
  split
  · next x rest hpick =>
    split
    · next key hcb =>
      rintro rfl
      obtain ⟨access, hne, hother⟩ : ∃ access, access ≠ "" ∧ access ≠ ts.accessToken := by
        by_cases ha : ts.accessToken = "a"
        · exact ⟨"b", by decide, by rw [ha]; decide⟩
        · exact ⟨"a", by decide, fun he => ha he.symm⟩
      have hadopts := adopts_grant (hepoch x (pick_mem hpick)) hne
      have hchanged : ¬ts.Undisturbed (ts.reply P id (grant access)) := by
        intro hsame
        have hheld := hsame.access
        rw [reply_adopted hpick hcb hadopts] at hheld
        exact hother hheld
      obtain ⟨y, rest', hpick', hsent⟩ := h (grant access) hchanged
      rw [hpick] at hpick'
      cases hpick'
      exact hsent
    · trivial
  · trivial

/-! ### Runs -/

/-- An unanswered refresh is joined; otherwise one is sent with the token held. -/
theorem refresh_cases (ts : TokenStore κ ω) (waiter : ω) :
    ((ts.refresh waiter).1.api = ts.api ∧ (ts.refresh waiter).1.refreshing = ts.refreshing ∧
        (ts.refresh waiter).1.refreshToken = ts.refreshToken) ∨
      (ts.refreshing = false ∧ (ts.refresh waiter).1.refreshing = true ∧
        (ts.refresh waiter).1.refreshToken = ts.refreshToken ∧ ∃ r, r.refreshToken = some ts.refreshToken ∧
          (ts.refresh waiter).1.api = ts.api.send r (.refresh ts.serverKey)) := by
  unfold refresh
  split
  · exact .inl ⟨rfl, rfl, rfl⟩
  · dsimp only
    cases hg : ts.refreshing
    · exact .inr ⟨rfl, rfl, rfl, _, rfl, rfl⟩
    · exact .inl ⟨rfl, rfl, rfl⟩

/-- A reply takes one request off the wire, and nothing is put on it. -/
theorem reply_inFlight (P : Platform) (ts : TokenStore κ ω) (id : Nat) (raw : RawReply) :
    (ts.reply P id raw).api.epoch = ts.api.epoch ∧
      ((pick (fun x => x.id == id) ts.api.inFlight = none ∧ ts.reply P id raw = ts) ∨
        ∃ x rest, pick (fun x => x.id == id) ts.api.inFlight = some (x, rest) ∧
          (ts.reply P id raw).api.inFlight = rest ∧
          (x.cb.isRefresh = true → (ts.reply P id raw).refreshing = false)) := by
  unfold reply
  cases hpick : pick (fun x => x.id == id) ts.api.inFlight with
  | none => exact ⟨rfl, .inl ⟨rfl, rfl⟩⟩
  | some found =>
    obtain ⟨x, rest⟩ := found
    dsimp only
    cases hcb : x.cb with
    | call cb => exact ⟨rfl, .inr ⟨x, rest, rfl, rfl, fun h => by rw [hcb] at h; cases h⟩⟩
    | refresh key =>
      dsimp only
      rcases refreshReply_cases P {ts with api := ts.api.drop x rest} key (ts.api.response x raw) with
        ⟨_, he⟩ | ⟨_, failed, he⟩
      · rw [he]
        dsimp only [settle]
        rw [setTokens_api]
        exact ⟨rfl, .inr ⟨x, rest, rfl, rfl, fun _ => rfl⟩⟩
      · rw [he]
        exact ⟨rfl, .inr ⟨x, rest, rfl, rfl, fun _ => rfl⟩⟩

/-- Nothing in flight is of another origin. -/
theorem sameOrigin (P : Platform) :
    Machine.Keeps (machine P : Machine (TokenStore κ ω) (Op ω)) (fun _ _ => True)
      (fun ts => ∀ x ∈ ts.api.inFlight, x.epoch = ts.api.epoch) := by
  refine ⟨fun ts op h _ => ?_⟩
  cases op with
  | setTokens access refresh =>
    show ∀ x ∈ (ts.setTokens P access refresh).api.inFlight,
      x.epoch = (ts.setTokens P access refresh).api.epoch
    rw [setTokens_api]
    exact h
  | clear =>
    show ∀ x ∈ ts.clear.api.inFlight, x.epoch = ts.clear.api.epoch
    rw [clear_api]
    exact h
  | resetMemory => exact h
  | setServerKey key => exact h
  | setAccount account => exact h
  | refresh waiter =>
    show ∀ x ∈ (ts.refresh waiter).1.api.inFlight, x.epoch = (ts.refresh waiter).1.api.epoch
    rcases refresh_cases ts waiter with ⟨ha, _⟩ | ⟨_, _, _, r, _, ha⟩
    · rw [ha]
      exact h
    · rw [ha]
      intro x hx
      rcases List.mem_cons.mp hx with rfl | hx
      · rfl
      · exact h x hx
  | reply id raw =>
    show ∀ x ∈ (ts.reply P id raw).api.inFlight, x.epoch = (ts.reply P id raw).api.epoch
    obtain ⟨hepoch, ⟨_, he⟩ | ⟨x, rest, hpick, hrest, _⟩⟩ := reply_inFlight P ts id raw
    · rw [he]
      exact h
    · rw [hepoch, hrest]
      exact fun y hy => h y (pick_rest hpick hy)

/-! ### Runs that leave a refresh alone -/

/-- The refresh token is not replaced or dropped while a refresh is unanswered. -/
def Patient (ts : TokenStore κ ω) : Op ω → Prop
  | .setTokens _ refresh => ts.refreshing = true → refresh = ts.refreshToken
  | .clear => ts.refreshing = true → ts.refreshToken = ""
  | .resetMemory => ts.refreshing = true → ts.refreshToken = ""
  | _ => True

/-- At most one refresh is in flight, sent with the token that is held. -/
structure OneFlight (ts : TokenStore κ ω) : Prop where
  idle : ts.refreshing = false → ts.api.inFlight = []
  busy : ts.refreshing = true → ∃ x, ts.api.inFlight = [x] ∧ x.cb.isRefresh = true ∧
    x.request.refreshToken = some ts.refreshToken

/-- A new refresh token while nothing is in flight, or the same one. -/
theorem OneFlight.of_token (h : OneFlight ts) {ts' : TokenStore κ ω}
    (hf : ts'.api.inFlight = ts.api.inFlight) (hg : ts'.refreshing = ts.refreshing)
    (ht : ts.refreshing = true → ts'.refreshToken = ts.refreshToken) : OneFlight ts' where
  idle hi := by
    rw [hf]
    exact h.idle (by rw [← hg, hi])
  busy hb := by
    rw [hg] at hb
    rw [hf, ht hb]
    exact h.busy hb

theorem setTokens_refresh (P : Platform) (ts : TokenStore κ ω) (access refresh : String) :
    (ts.setTokens P access refresh).refreshing = ts.refreshing ∧
      (ts.setTokens P access refresh).refreshToken = refresh := by
  unfold setTokens persist
  split <;> exact ⟨rfl, rfl⟩

theorem clear_refresh (ts : TokenStore κ ω) :
    ts.clear.refreshing = ts.refreshing ∧ ts.clear.refreshToken = "" := by
  unfold clear
  dsimp only
  split <;> exact ⟨rfl, rfl⟩

theorem oneFlight (P : Platform) :
    Machine.Keeps (machine P : Machine (TokenStore κ ω) (Op ω)) Patient OneFlight := by
  refine ⟨fun ts op h hp => ?_⟩
  cases op with
  | setTokens access refresh =>
    obtain ⟨hg, ht⟩ := setTokens_refresh P ts access refresh
    refine h.of_token ?_ hg fun hb => ht.trans (hp hb)
    show (ts.setTokens P access refresh).api.inFlight = _
    rw [setTokens_api]
    rfl
  | clear =>
    obtain ⟨hg, ht⟩ := clear_refresh ts
    refine h.of_token ?_ hg fun hb => ht.trans (hp hb).symm
    show ts.clear.api.inFlight = _
    rw [clear_api]
    rfl
  | resetMemory => exact h.of_token rfl rfl fun hb => (hp hb).symm
  | setServerKey key => exact h.of_token rfl rfl fun _ => rfl
  | setAccount account => exact h.of_token rfl rfl fun _ => rfl
  | refresh waiter =>
    show OneFlight (ts.refresh waiter).1
    rcases refresh_cases ts waiter with ⟨ha, hg, ht⟩ | ⟨hidle, hg, ht, r, hr, ha⟩
    · exact h.of_token (by rw [ha]) hg fun _ => ht
    · refine ⟨fun hi => absurd (hg.symm.trans hi) (by decide), fun _ => ?_⟩
      rw [ha, ht]
      refine ⟨⟨ts.api.created, r, true, ts.api.epoch, .refresh ts.serverKey⟩, ?_, rfl, hr⟩
      show _ :: ts.api.inFlight = _
      rw [h.idle hidle]
  | reply id raw =>
    show OneFlight (ts.reply P id raw)
    obtain ⟨_, ⟨_, he⟩ | ⟨x, rest, hpick, hrest, hg⟩⟩ := reply_inFlight P ts id raw
    · rw [he]
      exact h
    · cases hb : ts.refreshing
      · rw [h.idle hb] at hpick
        cases hpick
      · -- The refresh in flight is the one that is answered.
        obtain ⟨y, hone, hy, _⟩ := h.busy hb
        have hxy := pick_perm hpick
        rw [hone] at hxy
        have hsame := List.perm_singleton.mp hxy.symm
        simp only [List.cons.injEq] at hsame
        obtain ⟨rfl, rfl⟩ := hsame
        refine ⟨fun _ => hrest, fun hbusy => ?_⟩
        rw [hg hy] at hbusy
        cases hbusy

theorem start_oneFlight (server : Endpoints) (secrets : SecureStore) :
    OneFlight (start server secrets : TokenStore κ ω) :=
  ⟨fun _ => rfl, fun hb => by cases hb⟩

/-- While nobody touches the refresh token of an unanswered refresh, every refresh is
bound. -/
theorem patient_bound (P : Platform) (server : Endpoints) (secrets : SecureStore) (ops : List (Op ω))
    (h : (machine P).Along Patient (start server secrets : TokenStore κ ω) ops) (id : Nat) :
    ((machine P).run (start server secrets : TokenStore κ ω) ops).Bound id := by
  have hend := (oneFlight P).run (start_oneFlight server secrets) h
  unfold Bound
  split
  · next x rest hpick =>
    split
    · intro _
      have hx := pick_mem hpick
      cases hb : ((machine P).run (start server secrets : TokenStore κ ω) ops).refreshing
      · rw [hend.idle hb] at hx
        cases hx
      · obtain ⟨y, hone, _, hsent⟩ := hend.busy hb
        rw [hone] at hx
        rw [List.mem_singleton.mp hx]
        exact hsent
    · trivial
  · trivial

/-- **Replies and the token they answer for.** After any run of the token store, the
reply to `id` changes the tokens only on behalf of the token that is held, whatever
it says, if and only if the refresh is bound. So a run whose replies all find their
refresh bound has no reply that changes tokens it was not sent for. -/
theorem refresh_replies_rightful (P : Platform) (server : Endpoints) (secrets : SecureStore)
    (ops : List (Op ω)) :
    (∀ id, (∀ raw, Rightful P ((machine P).run (start server secrets : TokenStore κ ω) ops) id raw) ↔
        ((machine P).run (start server secrets : TokenStore κ ω) ops).Bound id) ∧
      ((machine P).Along (fun ts op => ∀ id raw, op = .reply id raw → ts.Bound id)
          (start server secrets : TokenStore κ ω) ops →
        (machine P).Along (fun ts op => ∀ id raw, op = .reply id raw → ts.Rightful P id raw)
          (start server secrets : TokenStore κ ω) ops) := by
  refine ⟨fun id => ⟨bound_of_rightful ?_, rightful_of_bound⟩, fun h => ?_⟩
  · exact (sameOrigin P).always (fun x hx => by cases hx) ops
  · exact h.mono fun ts op hbound id raw he => rightful_of_bound (hbound id raw he) raw

/-- A token is granted for a refresh after it was signed out. -/
def clearedMeanwhile : List (Op Unit) :=
  [.setServerKey "a", .setTokens "access" "refresh", .refresh (), .clear]

end TokenStore

namespace AuthManager

/-- A request of another component is answered 401, and the user signs out before
the refresh it started is answered. -/
def loggedOutMeanwhile : List Event :=
  signIn {scheme := "https", host := "a"} "access" "refresh" ++
    [.external 0 .get "/api/me" [] .null, .reply 3 {status := 401} true, .logout]

/-- The reply changes the tokens of a store that holds none, and signing out is
undone: the tokens are back, and so is the row. -/
theorem refresh_undoes_logout :
    ¬TokenStore.Rightful default
        ((TokenStore.machine default).run (TokenStore.start default {} : TokenStore Unit Unit)
          TokenStore.clearedMeanwhile) 0 (TokenStore.grant "again") ∧
      let s := (machine default).run (launch {} [] 0) loggedOutMeanwhile
      let s' := (machine default).step s (.reply 4 (TokenStore.grant "again") true)
      (s.tokens.accessToken = "" ∧ s.tokens.secrets.rows "a/tokens" = none) ∧
        s'.tokens.accessToken = "again" ∧ s'.tokens.secrets.rows "a/tokens" ≠ none := by
  refine ⟨fun h => ?_, by decide, by decide⟩
  obtain ⟨x, rest, hpick, hsent⟩ := h fun hsame => absurd hsame.access (by decide)
  have hx := List.mem_singleton.mp (pick_mem hpick)
  rw [hx] at hsent
  exact absurd hsent (by decide)

end AuthManager

end ShelfRemote.Auth
