import ShelfRemote.Auth.Narration
import ShelfRemote.Player.Books

/-! The sign-in and the player, wired together.

`main` connects two signals of the sign-in to the player: the end of a session
stops it, and so does every state that is not signed in, while a book is open. The
player itself is asked to stop by the user. What `stopAndClose` does not do is to
take back a play request that is on its way: its reply opens a session all the
same. `signed_out_is_silent` says that this is all that can go wrong.

The replies to the player's requests are events like any other here, so that what
is proved holds whatever the client hands it, and when. -/
namespace ShelfRemote
open Qt Net Runs Auth Player

namespace Player.Books
variable {b b' : Books} {plays : Prop}

/-- The newest play request has been answered. -/
def Settled (b : Books) : Prop := ∀ p ∈ b.inFlight, p.closure ≠ .play b.asked

instance (b : Books) : Decidable b.Settled := inferInstanceAs (Decidable (∀ p ∈ b.inFlight, _))

/-- The newest play request, while it is on its way, was made after the last stop. -/
structure Unstopped (b : Books) : Prop where
  past : b.stopped ≤ b.created
  newest : ∀ p ∈ b.inFlight, p.closure = .play b.asked → b.stopped ≤ p.id

theorem Settled.unstopped (h : b.Settled) (hpast : b.stopped ≤ b.created) : b.Unstopped :=
  ⟨hpast, fun p hp hc => absurd hc (h p hp)⟩

/-! ### One step -/

theorem Settled.report (h : b.Settled) {target : Target} {currentTime duration : Rat}
    {closure : Nat → Closure} (hclosure : ∀ listened gen, closure listened ≠ .play gen) :
    (b.report target currentTime duration closure).Settled :=
  List.forall_mem_cons.mpr ⟨hclosure _ _, h⟩

theorem Unstopped.report (h : b.Unstopped) {target : Target} {currentTime duration : Rat}
    {closure : Nat → Closure} (hclosure : ∀ listened gen, closure listened ≠ .play gen) :
    (b.report target currentTime duration closure).Unstopped :=
  ⟨Nat.le_succ_of_le h.past,
    List.forall_mem_cons.mpr ⟨fun hc => absurd hc (hclosure _ _), h.newest⟩⟩

/-- Closing is not playing. -/
theorem closing {closure : Nat → Closure} {session : Nat}
    (h : ∀ listened, closure listened = .report listened session ∨ closure listened = .quit)
    (listened gen : Nat) : closure listened ≠ .play gen := by
  intro hc
  rcases h listened with h | h <;> cases h.symm.trans hc

theorem Closes.settled (hcloses : Closes b b') (h : b.Settled) : b'.Settled := by
  cases hcloses with
  | report server _ _ closure _ hclosure =>
    have hclosed : (b.setPlaying false).close.Settled := h
    exact hclosed.report (closing hclosure)
  | abandon => exact h

theorem Closes.unstopped (hcloses : Closes b b') (h : b.Unstopped) : b'.Unstopped := by
  cases hcloses with
  | report server _ _ closure _ hclosure =>
    have hclosed : (b.setPlaying false).close.Unstopped := ⟨h.past, h.newest⟩
    exact hclosed.report (closing hclosure)
  | abandon => exact ⟨h.past, h.newest⟩

theorem Closes.active (hcloses : Closes b b') : b.active = true := by
  cases hcloses with
  | report _ _ _ _ hactive => exact hactive
  | abandon hactive => exact hactive

/-- Without a play request the newest one stays answered. -/
theorem Move.settled (hmove : Move plays b b') (hplays : ¬plays) (h : b.Settled) : b'.Settled := by
  cases hmove with
  | setPlaying => exact h
  | report => exact h.report fun _ _ => Closure.noConfusion
  | close hcloses => exact hcloses.settled h
  | finish hcloses => exact hcloses.settled h
  | request _ _ hp => exact absurd hp hplays

theorem Moves.settled (hmoves : Moves plays b b') (hplays : ¬plays) (h : b.Settled) : b'.Settled := by
  induction hmoves with
  | refl => exact h
  | tail _ hmove ih => exact hmove.settled hplays ih

theorem Move.unstopped (hmove : Move plays b b') (hasked : b.Asked) (h : b.Unstopped) : b'.Unstopped := by
  cases hmove with
  | setPlaying => exact ⟨h.past, h.newest⟩
  | report => exact h.report fun _ _ => Closure.noConfusion
  | close hcloses => exact hcloses.unstopped h
  | finish hcloses =>
    -- A session was open, and so its request had been answered.
    have hsettled : Settled _ := hcloses.settled (hasked.answered hcloses.active)
    exact Settled.unstopped (b := Books.stop _) hsettled (Nat.le_refl _)
  | request target body _ _ =>
    refine ⟨Nat.le_succ_of_le h.past, List.forall_mem_cons.mpr ⟨fun _ => h.past, fun p hp hc => ?_⟩⟩
    exact absurd (hasked.older p hp _ hc) (Nat.not_succ_le_self _)

theorem Moves.unstopped (hmoves : Moves plays b b') (hasked : b.Asked) (h : b.Unstopped) :
    b'.Unstopped := by
  induction hmoves with
  | refl => exact h
  | tail hmoves hmove ih => exact hmove.unstopped (Moves.asked hmoves hasked) ih

theorem Move.active (hmove : Move plays b b') (hactive : b'.active = true) : b.active = true := by
  cases hmove with
  | setPlaying => exact hactive
  | report => exact hactive
  | close hcloses => exact hcloses.active
  | finish hcloses => exact hcloses.active
  | request _ _ _ hidle => exact absurd (hidle.symm.trans hactive) Bool.false_ne_true

theorem Moves.active (hmoves : Moves plays b b') (hactive : b'.active = true) : b.active = true := by
  induction hmoves with
  | refl => exact hactive
  | tail _ hmove ih => exact ih (hmove.active hactive)

/-- A session opens by the reply to the newest play request. -/
theorem Step.opens {e : PlaybackSession.Event} (hstep : Step b e b') (hactive : b'.active = true) :
    b.active = true ∨ ∃ id res p rest, e = .reply id res ∧
      pick (fun p => p.id == id) b.inFlight = some (p, rest) ∧ p.closure = .play b.asked := by
  cases hstep with
  | moves hmoves => exact .inl (hmoves.active hactive)
  | tick => exact .inl hactive
  | stop hidle => exact .inl hactive
  | unknown => exact .inl hactive
  | @answered _ id res p rest hpick hans =>
    cases hans with
    | kept => exact .inl hactive
    | unusable => exact .inl hactive
    | opened hc _ => exact .inr ⟨id, res, p, rest, rfl, hpick, hc⟩
    | reported =>
      left
      split at hactive <;> exact hactive

/-- Fewer requests are in flight, and none is made or stopped. -/
theorem settle_settled {rest : List Post} (hsub : rest.Sublist b.inFlight) (hasked : b'.asked = b.asked)
    (hrest : b'.inFlight = rest) (h : b.Settled) : b'.Settled := by
  intro p hp
  rw [hasked]
  exact h p (hsub.mem (hrest ▸ hp))

theorem settle_unstopped {rest : List Post} (hsub : rest.Sublist b.inFlight) (hasked : b'.asked = b.asked)
    (hrest : b'.inFlight = rest) (hstopped : b'.stopped = b.stopped) (hcreated : b'.created = b.created)
    (h : b.Unstopped) : b'.Unstopped := by
  refine ⟨by rw [hstopped, hcreated]; exact h.past, fun p hp hc => ?_⟩
  rw [hasked] at hc
  rw [hstopped]
  exact h.newest p (hsub.mem (hrest ▸ hp)) hc

theorem Step.settled {e : PlaybackSession.Event} (hstep : Step b e b') (he : e.plays = false)
    (h : b.Settled) : b'.Settled := by
  cases hstep with
  | moves hmoves => exact hmoves.settled (by simp [he]) h
  | tick => exact h
  | stop => exact h
  | unknown => exact h
  | answered hpick hans =>
    have hsub := pick_sublist hpick
    cases hans with
    | kept => exact settle_settled hsub rfl rfl h
    | unusable => exact settle_settled hsub rfl rfl h
    | opened => exact settle_settled hsub rfl rfl h
    | reported => split <;> exact settle_settled hsub rfl rfl h

theorem Step.unstopped {e : PlaybackSession.Event} (hstep : Step b e b') (hasked : b.Asked)
    (hstop : e = .stopAndClose → b.Settled) (h : b.Unstopped) : b'.Unstopped := by
  cases hstep with
  | moves hmoves => exact hmoves.unstopped hasked h
  | tick => exact ⟨h.past, h.newest⟩
  | stop => exact Settled.unstopped (b := b.stop) (hstop rfl) (Nat.le_refl _)
  | unknown => exact h
  | answered hpick hans =>
    have hsub := pick_sublist hpick
    cases hans with
    | kept => exact settle_unstopped hsub rfl rfl rfl rfl h
    | unusable => exact settle_unstopped hsub rfl rfl rfl rfl h
    | opened => exact settle_unstopped hsub rfl rfl rfl rfl h
    | reported => split <;> exact settle_unstopped hsub rfl rfl rfl rfl h

end Player.Books

namespace App

/-! ### The wiring -/

/-- The handlers of `sessionEnding` and `stateChanged`. -/
def hear (player : PlaybackSession) : Auth.Signal → PlaybackSession
  | .sessionEnding => player.stopAndClose
  | .stateChanged state =>
    if state ≠ .authenticated ∧ player.active = true then player.stopAndClose else player
  | .authenticated _ | .loginFailed _ => player

/-- The end of a session. -/
def Ends : Auth.Signal → Prop
  | .sessionEnding => True
  | .stateChanged _ | .authenticated _ | .loginFailed _ => False

instance : DecidablePred Ends
  | .sessionEnding => .isTrue trivial
  | .stateChanged _ | .authenticated _ | .loginFailed _ => .isFalse id

/-- A state that is not signed in. -/
def Leaves : Auth.Signal → Prop
  | .stateChanged state => state ≠ .authenticated
  | .sessionEnding | .authenticated _ | .loginFailed _ => False

instance : DecidablePred Leaves
  | .stateChanged state => inferInstanceAs (Decidable (state ≠ .authenticated))
  | .sessionEnding | .authenticated _ | .loginFailed _ => .isFalse id

/-- The two components. -/
structure Parts where
  auth : AuthManager
  player : PlaybackSession

inductive Event where
  | auth (e : AuthManager.Event)
  | player (e : PlaybackSession.Event)

def machine (P : Platform) : Machine Parts Event where
  step a
    | .auth e =>
      let auth := (AuthManager.machine P).step a.auth e
      {auth, player := auth.signals.foldl hear a.player.fresh}
    | .player e => {a with player := PlaybackSession.machine.step a.player e}

/-- What hearing a signal comes to. -/
theorem hear_cases (player : PlaybackSession) (signal : Auth.Signal) :
    hear player signal = player ∨
      (Ends signal ∨ player.active = true) ∧ hear player signal = player.stopAndClose := by
  cases signal with
  | sessionEnding => exact .inr ⟨.inl trivial, rfl⟩
  | stateChanged state =>
    unfold hear
    dsimp only
    split
    · next h => exact .inr ⟨.inr h.2, rfl⟩
    · exact .inl rfl
  | authenticated | loginFailed => exact .inl rfl

/-- What the books owe the wiring. -/
structure Ready (b : Books) : Prop where
  asked : b.Asked
  unstopped : b.Unstopped

/-- A session is open, or may be opened yet. -/
def Lively (b : Books) : Prop := b.active = true ∨ ¬b.Settled

theorem Ready.step {b b' : Books} {e : PlaybackSession.Event} (h : Ready b) (hstep : Books.Step b e b')
    (hstop : e = .stopAndClose → b.Settled) : Ready b' :=
  ⟨hstep.asked h.asked, hstep.unstopped h.asked hstop h.unstopped⟩

theorem step_lively {b b' : Books} {e : PlaybackSession.Event} (hstep : Books.Step b e b')
    (he : e.plays = false) (h : Lively b') : Lively b := by
  rcases h with hactive | hsettled
  · rcases hstep.opens hactive with h | ⟨id, res, p, rest, _, hpick, hc⟩
    · exact .inl h
    · exact .inr fun hsettled => hsettled p (pick_mem hpick) hc
  · exact .inr fun h => hsettled (hstep.settled he h)

/-- The end of a session is heard while no play request is on its way. -/
theorem hears_ready (signals : List Auth.Signal) :
    ∀ player : PlaybackSession, Ready player.books →
      ((∃ signal ∈ signals, Ends signal) → player.books.Settled) →
      Ready (signals.foldl hear player).books := by
  induction signals with
  | nil => exact fun player h _ => h
  | cons signal signals ih =>
    intro player h hends
    rw [List.foldl_cons]
    rcases hear_cases player signal with he | ⟨hstops, he⟩
    · rw [he]
      exact ih player h fun ⟨other, hmem, ho⟩ => hends ⟨other, List.mem_cons_of_mem _ hmem, ho⟩
    · have hsettled : player.books.Settled := by
        rcases hstops with hend | hactive
        · exact hends ⟨signal, List.mem_cons_self .., hend⟩
        · exact h.asked.answered hactive
      have hstep := player.stopAndClose_step
      rw [he]
      exact ih player.stopAndClose (h.step hstep fun _ => hsettled) fun _ => hstep.settled rfl hsettled

/-- Signals make no play request, and open nothing. -/
theorem hears_lively (signals : List Auth.Signal) :
    ∀ player : PlaybackSession, (Lively (signals.foldl hear player).books → Lively player.books) ∧
      (player.books.Settled → (signals.foldl hear player).books.Settled) := by
  induction signals with
  | nil => exact fun player => ⟨id, id⟩
  | cons signal signals ih =>
    intro player
    rw [List.foldl_cons]
    rcases hear_cases player signal with he | ⟨_, he⟩
    · rw [he]
      exact ih player
    · obtain ⟨hlively, hsettled⟩ := ih player.stopAndClose
      have hstep := player.stopAndClose_step
      rw [he]
      exact ⟨fun h => step_lively hstep rfl (hlively h), fun h => hsettled (hstep.settled rfl h)⟩

theorem stopAndClose_idle (player : PlaybackSession) : player.stopAndClose.active = false :=
  player.flushAndClose_idle false

theorem hears_idle (signals : List Auth.Signal) (player : PlaybackSession) (h : player.active = false) :
    (signals.foldl hear player).active = false := by
  refine List.foldlRecOn (motive := fun player => player.active = false) signals hear h fun player h signal _ => ?_
  rcases hear_cases player signal with he | ⟨_, he⟩
  · rwa [he]
  · rw [he]
    exact stopAndClose_idle player

/-- Who hears that the user is no longer signed in has stopped afterwards. -/
theorem hears_left {signals : List Auth.Signal} {state : State} (hmem : .stateChanged state ∈ signals)
    (hstate : state ≠ .authenticated) (player : PlaybackSession) :
    (signals.foldl hear player).active = false := by
  induction signals generalizing player with
  | nil => cases hmem
  | cons signal signals ih =>
    rcases List.mem_cons.mp hmem with rfl | hmem
    · refine hears_idle signals _ ?_
      unfold hear
      dsimp only
      split
      · exact stopAndClose_idle player
      · next h => exact Bool.eq_false_of_not_eq_true fun hactive => h ⟨hstate, hactive⟩
    · exact ih hmem _

/-! ### Every run -/

/-- Whenever the player is stopped, the newest play request has been answered. -/
def Rule (P : Platform) (a : Parts) : Event → Prop
  | .auth e =>
    (∃ signal ∈ ((AuthManager.machine P).step a.auth e).signals, Ends signal) → a.player.books.Settled
  | .player e => e matches .stopAndClose → a.player.books.Settled

instance (P : Platform) (a : Parts) : DecidablePred (Rule P a)
  | .auth _ => inferInstanceAs (Decidable (_ → _))
  | .player _ => inferInstanceAs (Decidable (_ → _))

/-- Whenever a state that is not signed in is announced, it has been answered too. -/
def Calm (P : Platform) (a : Parts) : Event → Prop
  | .auth e =>
    (∃ signal ∈ ((AuthManager.machine P).step a.auth e).signals, Leaves signal) → a.player.books.Settled
  | .player _ => True

instance (P : Platform) (a : Parts) : DecidablePred (Calm P a)
  | .auth _ => inferInstanceAs (Decidable (_ → _))
  | .player _ => .isTrue trivial

/-- Books are asked for only while signed in. -/
def Asks (a : Parts) : Event → Prop
  | .auth _ => True
  | .player e => e.plays = true → a.auth.state = .authenticated

instance (a : Parts) : DecidablePred (Asks a)
  | .auth _ => .isTrue trivial
  | .player _ => inferInstanceAs (Decidable (_ → _))

/-- A session that opens is the answer to a play request made after the last stop. -/
def Opens (P : Platform) (a : Parts) (e : Event) : Prop :=
  a.player.active = false → ((machine P).step a e).player.active = true →
    ∃ id res, e = .player (.reply id res) ∧ a.player.stopped ≤ id ∧
      Picked (fun p => ∃ gen, p.closure = .play gen) (pick (fun p => p.id == id) a.player.inFlight)

/-- No book is open while the user is not signed in. -/
def SignedIn (a : Parts) : Prop := a.player.active = true → a.auth.state = .authenticated

theorem player_step (a : Parts) (e : PlaybackSession.Event) :
    Books.Step a.player.books e (PlaybackSession.machine.step a.player e).books :=
  PlaybackSession.handle_step a.player.fresh e

theorem keeps_ready (P : Platform) : Machine.Keeps (machine P) (Rule P) fun a => Ready a.player.books where
  step a e ha he := by
    cases e with
    | auth e => exact hears_ready ((AuthManager.machine P).step a.auth e).signals a.player.fresh ha he
    | player e => exact ha.step (player_step a e) fun h => he (by rw [h])

theorem Ready.opens {a : Parts} (h : Ready a.player.books) (P : Platform) (e : Event) : Opens P a e := by
  intro hidle hactive
  cases e with
  | auth e =>
    have hstill := hears_idle ((AuthManager.machine P).step a.auth e).signals a.player.fresh hidle
    exact absurd (hstill.symm.trans hactive) Bool.false_ne_true
  | player e =>
    rcases (player_step a e).opens hactive with h | ⟨id, res, p, rest, rfl, hpick, hc⟩
    · exact absurd (hidle.symm.trans h) Bool.false_ne_true
    · have hid : p.id = id := by simpa using pick_accepts hpick
      refine ⟨id, res, rfl, ?_, ?_⟩
      · exact hid ▸ h.unstopped.newest p (pick_mem hpick) hc
      · have hpick' : pick (fun p => p.id == id) a.player.inFlight = some (p, rest) := hpick
        rw [hpick']
        exact ⟨_, hc⟩

/-- What goes on playing, or may start to, is a book of a signed-in user. -/
structure Kept (a : Parts) : Prop where
  ready : Ready a.player.books
  signedIn : Lively a.player.books → a.auth.state = .authenticated

theorem keeps (P : Platform) :
    Machine.Keeps (machine P) (fun a e => Rule P a e ∧ Calm P a e ∧ Asks a e) Kept where
  step a e ha he := by
    refine ⟨(keeps_ready P).step a e ha.ready he.1, fun hl => ?_⟩
    cases e with
    | auth e =>
      obtain ⟨hlively, hsettled⟩ :=
        hears_lively ((AuthManager.machine P).step a.auth e).signals a.player.fresh
      by_contra hstate
      rcases AuthManager.step_told P a.auth e with hsame | htold
      · exact hstate (hsame.trans (ha.signedIn (hlively hl)))
      · -- The player has heard of it, and nothing was on its way.
        have hidle := hears_left htold hstate a.player.fresh
        rcases hl with hactive | hunsettled
        · exact absurd (hidle.symm.trans hactive) Bool.false_ne_true
        · exact hunsettled (hsettled (he.2.1 ⟨_, htold, hstate⟩))
    | player e =>
      cases hplays : e.plays
      · exact ha.signedIn (step_lively (player_step a e) hplays hl)
      · exact he.2.2 hplays

/-- The program before its first event. -/
def start (secrets : SecureStore) (servers : List ServerRow) (now : Int) (env : Env) (server : Endpoints) :
    Parts :=
  {auth := AuthManager.launch secrets servers now, player := {env, server}}

theorem kept_start (secrets : SecureStore) (servers : List ServerRow) (now : Int) (env : Env)
    (server : Endpoints) : Kept (start secrets servers now env server) := by
  have hnone : (start secrets servers now env server).player.books.Settled := fun _ hp => nomatch hp
  refine ⟨⟨Books.asked_start env server, hnone.unstopped (Nat.le_refl _)⟩, fun hl => ?_⟩
  rcases hl with hactive | hunsettled
  · cases hactive
  · exact absurd hnone hunsettled

/-- **Playback stays within the sign-in.** In every run in which the player is stopped
only when the newest play request has been answered, a session opens only by the reply
to a play request made after the last stop; and if the sign-in is lost only then, and
books are asked for only while signed in, no state has a book open while the user is
not. -/
theorem signed_out_is_silent (P : Platform) (secrets : SecureStore) (servers : List ServerRow) (now : Int)
    (env : Env) (server : Endpoints) (es : List Event)
    (h : (machine P).Along (Rule P) (start secrets servers now env server) es) :
    (machine P).Along (Opens P) (start secrets servers now env server) es ∧
      ((machine P).Along (Calm P) (start secrets servers now env server) es →
        (machine P).Along Asks (start secrets servers now env server) es →
        SignedIn ((machine P).run (start secrets servers now env server) es)) := by
  have hstart := kept_start secrets servers now env server
  refine ⟨(keeps_ready P).along (fun _ e ha _ => ha.opens P e) hstart.ready h, fun hcalm hasks hactive => ?_⟩
  exact ((keeps P).run hstart (h.and (hcalm.and hasks))).signedIn (.inl hactive)

/-! ### Two runs -/

def sampleStart : Parts := start {} [] 0 samplePlayer.env sampleServer

def opening : Event := .player (.reply 0 ⟨200, true, false, sampleBook, "", none⟩)

/-- The user signs in and asks for a book. -/
def asking : List Event :=
  (AuthManager.signIn {scheme := "https", host := "abs"} "access" "refresh").map .auth ++
    [.player (.playItem "book")]

/-- He signs out before the server has answered. -/
def hasty : List Event := (asking ++ [.auth .logout]) ++ [opening]

theorem signed_out_plays :
    ¬(machine default).Along (Opens default) sampleStart hasty ∧
      (machine default).Along Asks sampleStart hasty ∧
      ¬SignedIn ((machine default).run sampleStart hasty) := by
  refine ⟨fun h => ?_, by decide +kernel, fun h => ?_⟩
  · have hlast := ((Machine.along_append _ (asking ++ [.auth .logout]) [opening]).mp h).2.1
    obtain ⟨id, res, he, hstopped, _⟩ := hlast (by decide +kernel) (by decide +kernel)
    cases he
    exact absurd hstopped (by decide +kernel)
  · exact absurd (h (by decide +kernel)) (by decide +kernel)

/-- He waits for the answer, stops the book, and asks for it again. -/
def patient : List Event :=
  asking ++ [opening, .player .stopAndClose, .player (.playItem "book"),
    .player (.reply 2 ⟨200, true, false, sampleBook, "", none⟩)]

theorem signed_out_is_silent_patient :
    (machine default).Along (Opens default) sampleStart patient ∧
      SignedIn ((machine default).run sampleStart patient) ∧
      ((machine default).run sampleStart patient).player.active = true :=
  have h := signed_out_is_silent default {} [] 0 samplePlayer.env sampleServer patient (by decide +kernel)
  ⟨h.1, h.2 (by decide +kernel) (by decide +kernel), by decide +kernel⟩

end App

end ShelfRemote
