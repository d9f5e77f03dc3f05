import ShelfRemote.Auth.Cancel
import ShelfRemote.Auth.Handoff

/-! One exchange an attempt.

A flag, a timer and one PKCE record are all the program keeps of an OIDC attempt.
Which attempt they speak of is history, and `Diary` is that history: every
beginning of an attempt, and every callback, with how many requests had gone out
before it. Along a run in which no callback and no timer of an earlier attempt
finds the flag up, no attempt is called back twice while its code is exchanged,
and no exchange is sent again after a refresh (`Careful`), an attempt sends at
most one exchange, to the server it was begun on and after its own callback. -/
namespace ShelfRemote.Auth
open Qt Net Runs

/-- A `beginOidc`: which of the starts it was, its state, its server, and how many
requests had gone out before. -/
structure Begun where
  start : Nat
  state : String
  server : Endpoints
  sent : Nat
  deriving DecidableEq

structure Diary where
  /-- How many attempts of any kind have been started. -/
  starts : Nat := 0
  /-- Newest first. -/
  begun : List Begun := []
  /-- The callbacks, each with how many requests had gone out before. -/
  called : List (String × Nat) := []

namespace Diary

/-- The attempt a request was sent in: the last one begun before it. -/
def attempt (d : Diary) (x : Exchange (Handler Callback)) : Option Begun :=
  d.begun.find? fun b => b.sent ≤ x.id

/-- The state is that of the attempt started last. -/
def Newest (d : Diary) (state : String) : Prop := ∃ b ∈ d.begun, b.start = d.starts ∧ b.state = state

/-- The state is that of an attempt after which another one was started. -/
def Earlier (d : Diary) (state : String) : Prop := (∃ b ∈ d.begun, b.state = state) ∧ ¬d.Newest state

instance (d : Diary) (state : String) : Decidable (d.Newest state) :=
  inferInstanceAs (Decidable (∃ b ∈ d.begun, _))

instance (d : Diary) (state : String) : Decidable (d.Earlier state) :=
  inferInstanceAs (Decidable (_ ∧ _))

/-- The exchange goes to the server its attempt was begun on, with the state of
that attempt, and a callback with this state came in between. -/
def Allows (d : Diary) (x : Exchange (Handler Callback)) : Prop :=
  ∃ b, d.attempt x = some b ∧ x.request.target.server = b.server ∧
    ("state", b.state) ∈ x.request.target.query ∧ ∃ n, (b.state, n) ∈ d.called ∧ b.sent < n ∧ n ≤ x.id

def note (d : Diary) (s : AuthManager) (e : AuthManager.Event) : Diary :=
  let d := if s.Starts e then {d with starts := d.starts + 1} else d
  match e with
  | .beginOidc pkce =>
    if s.Starts e then {d with begun := ⟨d.starts, pkce.state, s.api.endpoints, s.api.created⟩ :: d.begun}
    else d
  | .oauthCallback _ state _ => {d with called := (state, s.api.created) :: d.called}
  | _ => d

end Diary

namespace AuthManager
variable {P : Platform} {s s' : AuthManager} {d : Diary}

/-- The attempt begun last has sent its exchange. -/
def Spent (s : AuthManager) (d : Diary) : Prop :=
  ∃ b ∈ d.begun.head?, ∃ x ∈ exchanges s.api.wire, b.sent ≤ x.id

instance (s : AuthManager) (d : Diary) : Decidable (s.Spent d) :=
  inferInstanceAs (Decidable (∃ b ∈ d.begun.head?, _))

/-- No branch is taken in which one attempt is mistaken for another, or sends its
code twice. -/
def Careful (s : AuthManager) (d : Diary) : Event → Prop
  | .oauthCallback _ state error =>
    s.oidcInProgress = true → ¬d.Earlier state ∧ (error = "" → state = s.pkce.state → ¬s.Spent d)
  | .oidcTimeout => s.oidcInProgress = true → ∀ attempt ∈ s.oidcTimeout, ¬d.Earlier attempt
  | .reply id raw _ => ¬s.Resends id raw
  | _ => True

/-- A callback or the timer of an earlier attempt. -/
def Late (s : AuthManager) (d : Diary) : Event → Prop
  | .oauthCallback _ state _ => d.Earlier state
  | .oidcTimeout => ∃ attempt ∈ s.oidcTimeout, d.Earlier attempt
  | _ => False

/-- Every exchange is one the diary allows, and no two are of one attempt. -/
structure Single (s : AuthManager) (d : Diary) : Prop where
  own : ∀ x ∈ exchanges s.api.wire, d.Allows x
  once : (exchanges s.api.wire).Pairwise fun y x => d.attempt y ≠ d.attempt x

/-- The system, and the diary of its attempts. -/
def diarised (P : Platform) : Machine (AuthManager × Diary) Event where
  step := fun (s, d) e => ((machine P).step s e, d.note s e)

/-! ### What the diary says -/

/-- The diary is in order and speaks of the attempt in progress. -/
structure Accords (s : AuthManager) (d : Diary) : Prop extends Single s d where
  starts : ∀ b ∈ d.begun, b.start ≤ d.starts
  order : d.begun.Pairwise fun b older => older.start < b.start
  sent : ∀ b ∈ d.begun, b.sent < s.api.created
  base : ∀ b ∈ d.begun, b.start = d.starts → s.api.endpoints = b.server
  rooted : s.Rooted
  current : s.oidcInProgress = true → ∃ b ∈ d.begun.head?, b.state = s.pkce.state
  ids : ∀ x ∈ exchanges s.api.wire, x.id < s.api.created

/-- The newest start, if it is an OIDC attempt, is the one begun last. -/
theorem Accords.newest (h : Accords s d) {state : String} (hn : d.Newest state) :
    ∃ b ∈ d.begun.head?, b.start = d.starts ∧ b.state = state := by
  obtain ⟨b, hb, hstart, hstate⟩ := hn
  have hstarts := h.starts
  have horder := h.order
  cases hbegun : d.begun with
  | nil =>
    rw [hbegun] at hb
    cases hb
  | cons last older =>
    rw [hbegun] at hb hstarts horder
    rcases List.mem_cons.mp hb with rfl | hb
    · exact ⟨b, rfl, hstart, hstate⟩
    · have hlast := hstarts last (List.mem_cons_self ..)
      have hlater := (List.pairwise_cons.mp horder).1 b hb
      omega

theorem Accords.quiet (h : Accords s d) (hq : Quiet s s')
    (hb : ∀ b ∈ d.begun, b.start = d.starts → s'.api.endpoints = b.server) (hr : s'.Rooted) :
    Accords s' d where
  starts := h.starts
  order := h.order
  sent b hb := Nat.lt_of_lt_of_le (h.sent b hb) hq.created
  base := hb
  rooted := hr
  current ho := by
    rw [hq.pkce]
    exact h.current (hq.oidc ho)
  ids x hx := by
    rw [hq.wire] at hx
    exact Nat.lt_of_lt_of_le (h.ids x hx) hq.created
  own x hx := by
    rw [hq.wire] at hx
    exact h.own x hx
  once := by
    rw [hq.wire]
    exact h.once

theorem Accords.calm (h : Accords s d) (hc : Calm s s') : Accords s' d :=
  h.quiet hc.toQuiet (fun b hb he => by rw [hc.base]; exact h.base b hb he) (hc.rooted h.rooted)

/-- Another attempt starts, on whatever server. -/
theorem Accords.start (h : Accords s d) (hq : Quiet s s') (hr : s'.Rooted) :
    Accords s' {d with starts := d.starts + 1} := by
  have h' : Accords s {d with starts := d.starts + 1} :=
    { h with
      starts := fun b hb => Nat.le_succ_of_le (h.starts b hb)
      base := fun b hb he => by
        have := h.starts b hb
        dsimp only at he
        omega }
  refine h'.quiet hq (fun b hb he => ?_) hr
  have := h.starts b hb
  dsimp only at he
  omega

/-- One more callback is noted. -/
theorem Accords.call (h : Accords s d) (call : String × Nat) : Accords s {d with called := call :: d.called} where
  starts := h.starts
  order := h.order
  sent := h.sent
  base := h.base
  rooted := h.rooted
  current := h.current
  ids := h.ids
  own x hx := by
    obtain ⟨b, hb, hserver, hquery, n, hn, hlo, hhi⟩ := h.own x hx
    exact ⟨b, hb, hserver, hquery, n, List.mem_cons_of_mem _ hn, hlo, hhi⟩
  once := h.once

/-! ### An attempt begins -/

theorem attempt_begun {d d' : Diary} {b : Begun} (hd : d'.begun = b :: d.begun)
    {x : Exchange (Handler Callback)} (hx : x.id < b.sent) : d'.attempt x = d.attempt x := by
  unfold Diary.attempt
  rw [hd, List.find?_cons_of_neg (by simpa using hx)]

theorem Accords.begin (h : Accords s d) (hs : s.api.baseUrl.scheme = "https") (pkce : Pkce) :
    Accords (s.beginOidc pkce)
      { d with
        starts := d.starts + 1
        begun := ⟨d.starts + 1, pkce.state, s.api.endpoints, s.api.created⟩ :: d.begun } := by
  unfold beginOidc
  rw [if_neg (not_not.mpr hs)]
  dsimp only
  rw [setState_eq]
  have hold : ∀ x ∈ exchanges s.api.wire,
      ({ d with
        starts := d.starts + 1
        begun := ⟨d.starts + 1, pkce.state, s.api.endpoints, s.api.created⟩ :: d.begun } :
          Diary).attempt x = d.attempt x :=
    fun x hx => attempt_begun rfl (h.ids x hx)
  refine
    { own := ?_, once := ?_, starts := ?_, order := ?_, sent := ?_, base := ?_
      rooted := h.rooted, current := ?_, ids := ?_ }
  · intro x hx
    obtain ⟨b, hb, hrest⟩ := h.own x hx
    exact ⟨b, (hold x hx).trans hb, hrest⟩
  · refine List.Pairwise.imp_of_mem (fun {y x} hy hx hne => ?_) h.once
    rw [hold y hy, hold x hx]
    exact hne
  · intro b hb
    rcases List.mem_cons.mp hb with rfl | hb
    · exact Nat.le_refl _
    · exact Nat.le_succ_of_le (h.starts b hb)
  · refine List.pairwise_cons.mpr ⟨fun b hb => ?_, h.order⟩
    exact Nat.lt_succ_of_le (h.starts b hb)
  · intro b hb
    rcases List.mem_cons.mp hb with rfl | hb
    · exact Nat.lt_succ_self _
    · exact Nat.lt_succ_of_lt (h.sent b hb)
  · intro b hb he
    rcases List.mem_cons.mp hb with rfl | hb
    · rfl
    · have := h.starts b hb
      dsimp only at he
      omega
  · exact fun _ => ⟨_, rfl, rfl⟩
  · exact fun x hx => Nat.lt_succ_of_lt (h.ids x hx)

/-! ### A code is exchanged -/

theorem Accords.exchange (h : Accords s d) (ho : s.oidcInProgress = true) (code : String)
    (hl : ¬d.Earlier s.pkce.state) (hs : ¬s.Spent d) :
    Accords (s.exchangeCode code s.pkce.state)
      {d with called := (s.pkce.state, s.api.created) :: d.called} := by
  -- The attempt in progress is the one begun last, and nothing was started since.
  obtain ⟨b, hlast, hstate⟩ := h.current ho
  have hb : b ∈ d.begun := List.mem_of_mem_head? hlast
  have hnew : b.start = d.starts := by
    have hn : d.Newest s.pkce.state := by
      by_contra hn
      exact hl ⟨⟨b, hb, hstate⟩, hn⟩
    obtain ⟨b', hlast', hstart, _⟩ := h.newest hn
    rw [Option.mem_unique hlast hlast']
    exact hstart
  have hattempt : ∀ x : Exchange (Handler Callback), b.sent ≤ x.id → d.attempt x = some b := by
    intro x hx
    obtain ⟨older, hbegun⟩ := List.head?_eq_some_iff.mp hlast
    unfold Diary.attempt
    rw [hbegun, List.find?_cons_of_pos (by simpa using hx)]
  have hfirst : ∀ x ∈ exchanges s.api.wire, d.attempt x ≠ some b := by
    intro x hx he
    exact hs ⟨b, hlast, x, hx, by simpa using List.find?_some he⟩
  have hsent := h.sent b hb
  have h' := h.call (s.pkce.state, s.api.created)
  refine { h' with own := ?_, once := ?_, sent := ?_, ids := ?_ }
  · intro x hx
    rcases List.mem_cons.mp hx with rfl | hx
    · refine ⟨b, hattempt _ (Nat.le_of_lt hsent), h.base b hb hnew, ?_, s.api.created, ?_, hsent,
        Nat.le_refl _⟩
      · rw [hstate]
        exact List.mem_cons_self ..
      · rw [hstate]
        exact List.mem_cons_self ..
    · exact h'.own x hx
  · refine List.pairwise_cons.mpr ⟨fun x hx he => ?_, h.once⟩
    refine hfirst x hx (he.symm.trans (hattempt _ (Nat.le_of_lt hsent)))
  · exact fun b hb => Nat.lt_succ_of_lt (h.sent b hb)
  · intro x hx
    rcases List.mem_cons.mp hx with rfl | hx
    · exact Nat.lt_succ_self _
    · exact Nat.lt_succ_of_lt (h.ids x hx)

/-! ### Events -/

theorem step_diary (hw : Wired s.tokens) (h : Accords s d) {e : Event} (hc : s.Careful d e) :
    Accords ((machine P).step s e) (d.note s e) := by
  have hw : Wired s.fresh.tokens := hw
  have h : Accords s.fresh d := h.calm ⟨⟨id, rfl, rfl, Nat.le_refl _⟩, rfl, id⟩
  cases e with
  | checkServer url =>
    obtain ⟨hq, hr⟩ := checkServer_quiet hw.toEpochs P url
    exact h.start hq hr
  | loginLocal username password =>
    have hcalm := loginLocal_calm s.fresh username password
    exact h.start hcalm.toQuiet (hcalm.rooted h.rooted)
  | restoreSession url key =>
    obtain ⟨hq, hr⟩ := restoreSession_quiet hw.toEpochs P url key
    exact h.start hq hr
  | beginOidc pkce =>
    show Accords (s.fresh.beginOidc pkce) _
    by_cases hs : s.api.baseUrl.scheme = "https"
    · have hn : d.note s (.beginOidc pkce) =
          { d with
            starts := d.starts + 1
            begun := ⟨d.starts + 1, pkce.state, s.api.endpoints, s.api.created⟩ :: d.begun } := by
        simp [Diary.note, Starts, hs]
      rw [hn]
      exact h.begin hs pkce
    · have hn : d.note s (.beginOidc pkce) = d := by simp [Diary.note, Starts, hs]
      rw [hn]
      unfold beginOidc
      rw [if_pos (show s.fresh.api.baseUrl.scheme ≠ "https" from hs)]
      exact h.calm (setLastError_calm _ _)
  | cancelAuth => exact h.calm (cancelAuth_calm _)
  | logout => exact h.calm (logout_calm _)
  | keyringTimeout => exact h.calm (onKeyringTimeout_calm hw.toEpochs h.rooted P)
  | oidcTimeout => exact h.calm (onOidcTimeout_calm _)
  | oauthCallback code state error =>
    show Accords (s.fresh.onOauthCallback code state error) {d with called := (state, s.api.created) :: d.called}
    rcases onOauthCallback_cases s.fresh code state error with ⟨_, he⟩ | ⟨ho, ⟨_, hcalm⟩ | ⟨he, hs, heq⟩⟩
    · rw [he]
      exact h.call _
    · exact (h.calm hcalm).call _
    · rw [heq, hs]
      obtain ⟨hl, hspent⟩ := hc ho
      rw [hs] at hl
      exact (h.calm (stopTimer_calm _)).exchange ho code hl (hspent he hs)
  | reply id raw browser => exact h.calm (finished_calm P _ browser hc)
  | external n verb path query body => exact h.calm (sendImpl_calm _ _ rfl true)
  | secrets store => exact h.calm (Calm.of_tokens rfl rfl rfl)
  | clock now => exact h.calm ⟨⟨id, rfl, rfl, Nat.le_refl _⟩, rfl, id⟩

/-- A late callback, or a late timer, finds the flag down. -/
theorem step_late (P : Platform) {e : Event} (hc : s.Careful d e) (hl : s.Late d e) :
    Untouched s.fresh ((machine P).step s e) := by
  cases e with
  | oauthCallback code state error =>
    show Untouched s.fresh (s.fresh.onOauthCallback code state error)
    cases ho : s.oidcInProgress
    · unfold onOauthCallback
      rw [show s.fresh.oidcInProgress = false from ho]
      exact ⟨rfl, rfl, rfl, rfl, rfl, rfl, rfl, rfl, rfl⟩
    · exact absurd hl (hc ho).1
  | oidcTimeout =>
    show Untouched s.fresh s.fresh.onOidcTimeout
    cases ho : s.oidcInProgress
    · rw [onOidcTimeout_eq (show s.fresh.oidcInProgress = false from ho)]
      exact ⟨rfl, rfl, rfl, rfl, rfl, rfl, rfl, rfl, rfl⟩
    · obtain ⟨attempt, hrunning, hl⟩ := hl
      exact absurd hl (hc ho attempt hrunning)
  | _ => exact absurd hl id

theorem launch_accords (secrets : SecureStore) (servers : List ServerRow) (now : Int) :
    Accords (launch secrets servers now) {} where
  starts b hb := by cases hb
  order := List.Pairwise.nil
  sent b hb := by cases hb
  base b hb := by cases hb
  rooted hk := absurd rfl hk
  current ho := absurd ho Bool.false_ne_true
  ids x hx := by cases hx
  own x hx := by cases hx
  once := List.Pairwise.nil

/-- **One exchange an attempt.** In a run of careful steps every code exchange goes
to the server its attempt was begun on, after a callback with the state of that
attempt; no two exchanges are of one attempt; and a callback or a timer of an
earlier attempt changes nothing. -/
theorem oidc_once (P : Platform) (secrets : SecureStore) (servers : List ServerRow) (now : Int)
    (events : List Event)
    (h : (diarised P).Along (fun s e => s.1.Careful s.2 e) (launch secrets servers now, {}) events) :
    (let s := (diarised P).run (launch secrets servers now, {}) events
     Single s.1 s.2) ∧
      (diarised P).Along (fun s e => s.1.Late s.2 e → Untouched s.1.fresh ((machine P).step s.1 e))
        (launch secrets servers now, {}) events := by
  have hkeeps : Machine.Keeps (diarised P) (fun s e => s.1.Careful s.2 e)
      (fun s => Wired s.1.tokens ∧ Accords s.1 s.2) :=
    ⟨fun s e hs hc => ⟨Wired.keeps.step s.1 e hs.1 trivial, step_diary hs.1 hs.2 hc⟩⟩
  have hstart : Wired (launch secrets servers now).tokens ∧ Accords (launch secrets servers now) {} :=
    ⟨Wired.launch secrets servers now, launch_accords secrets servers now⟩
  refine ⟨?_, hkeeps.along (fun s e _ hc hl => step_late P hc hl) hstart h⟩
  exact (hkeeps.run hstart h).2.toSingle

instance (s : AuthManager) (d : Diary) (e : Event) : Decidable (s.Careful d e) :=
  match e with
  | .oauthCallback _ state error =>
    inferInstanceAs (Decidable (s.oidcInProgress = true →
      ¬d.Earlier state ∧ (error = "" → state = s.pkce.state → ¬s.Spent d)))
  | .oidcTimeout =>
    inferInstanceAs (Decidable (s.oidcInProgress = true →
      ∀ attempt ∈ s.oidcTimeout, ¬d.Earlier attempt))
  | .reply id raw _ => inferInstanceAs (Decidable ¬s.Resends id raw)
  | .checkServer _ | .loginLocal _ _ | .beginOidc _ | .cancelAuth | .logout | .restoreSession _ _
  | .keyringTimeout | .external _ _ _ _ _ | .secrets _ | .clock _ => .isTrue trivial

instance (s : AuthManager) (d : Diary) (e : Event) : Decidable (s.Late d e) :=
  match e with
  | .oauthCallback _ state _ => inferInstanceAs (Decidable (d.Earlier state))
  | .oidcTimeout => inferInstanceAs (Decidable (∃ attempt ∈ s.oidcTimeout, d.Earlier attempt))
  | .checkServer _ | .loginLocal _ _ | .beginOidc _ | .cancelAuth | .logout | .restoreSession _ _
  | .keyringTimeout | .reply _ _ _ | .external _ _ _ _ _ | .secrets _ | .clock _ => .isFalse id

/-- The page is open in the browser, and the timer runs. -/
def handoff : List Event :=
  [.checkServer {scheme := "https", host := "a"}, .reply 0 {status := 200} true,
    .beginOidc {state := "state"},
    .reply 1 {status := 302, location := some {scheme := "https", host := "idp"}} true]

/-- The user signs in with a password while the page is open. -/
def passwordMeanwhile : List Event :=
  handoff ++ [.loginLocal "user" "password", .reply 2 loginReply true, .reply 3 {status := 200} true]

/-- The callback comes twice, and its code is exchanged twice; and after a sign-in
with a password, the timer of the page signs the user out. -/
theorem oidc_used_again :
    ¬(let s := (diarised default).run (launch {} [] 0, {})
        (handoff ++ [.oauthCallback "code" "state" "", .oauthCallback "code" "state" ""])
      Single s.1 s.2) ∧
    ¬(diarised default).Along
      (fun s e => s.1.Late s.2 e → Untouched s.1.fresh ((machine default).step s.1 e)) (launch {} [] 0, {})
      (passwordMeanwhile ++ [.oidcTimeout]) := by
  refine ⟨fun h => absurd h.once (by decide), fun h => ?_⟩
  have huntouched := ((Machine.along_append _ passwordMeanwhile _).mp h).2.1 (by decide)
  exact absurd huntouched.state (by decide)

/-- A handoff, its callback, and the sign-in it ends in. -/
theorem oidc_once_handoff :
    (let s := (diarised default).run (launch {} [] 0, {})
        (handoff ++ [.oauthCallback "code" "state" "", .reply 2 loginReply true, .reply 3 {status := 200} true])
     Single s.1 s.2) ∧
    (diarised default).Along
      (fun s e => s.1.Late s.2 e → Untouched s.1.fresh ((machine default).step s.1 e)) (launch {} [] 0, {})
      (handoff ++ [.oauthCallback "code" "state" "", .reply 2 loginReply true, .reply 3 {status := 200} true]) :=
  oidc_once default {} [] 0 _ (by decide)

end AuthManager

end ShelfRemote.Auth
