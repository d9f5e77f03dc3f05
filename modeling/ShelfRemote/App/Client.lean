import ShelfRemote.App.NextUp
import ShelfRemote.App.Reset
import ShelfRemote.App.Wiring
import ShelfRemote.Auth.Account
import ShelfRemote.Model.BookmarkStore

/-! The client, as `main` wires it.

Who signs in or out, what is played, what is shown of the server and the bookmarks are four
components, and `main` connects them by their signals: a sign-in empties the screens and loads
what the user object says, the end of a session stops the player first, and a book that is
closed leaves its position in the progress store. Where the client of the network points is
read by each of them when they ask, and is an event of its own for each, so that the runs here
allow more than the program does.

`sign_in_isolates` says what a sign-in leaves of the one before. -/
namespace ShelfRemote.App
open Qt Net Runs Model Player Auth

structure Client where
  auth : AuthManager
  player : PlaybackSession
  backend : Backend
  bookmarks : BookmarkStore

namespace Client

/-- The handler of `activeChanged`. Progress in an episode is not progress in its item. -/
def credit (b : Backend) : Player.Signal → Backend
  | .activeChanged active itemId episodeId position duration completed =>
    if active = true ∨ episodeId ≠ "" then b
    else b.progressChanged (b.progress.update b.now itemId position duration completed)
  | .positionChanged _ | .seeked _ | .chapterChanged _ _ | .playbackError _ => b

/-- The player has come to this, and is heard. -/
def plays (c : Client) (player : PlaybackSession) : Client :=
  {c with player, backend := player.signals.foldl credit c.backend}

/-- The handlers of `authenticated`, `sessionEnding` and `stateChanged`. -/
def hear (c : Client) : Auth.Signal → Client
  | .authenticated user =>
    let backend := c.backend.reset
    let backend := backend.progressChanged (some (backend.progress.loadFromUser user))
    {c with backend := backend.loadLibraries, bookmarks := c.bookmarks.loadFromUser user}
  | .sessionEnding =>
    let c := c.plays c.player.fresh.stopAndClose
    let backend := c.backend.reset
    {c with backend := backend.progressChanged backend.progress.clear, bookmarks := c.bookmarks.clear}
  | .stateChanged state =>
    if state ≠ .authenticated ∧ c.player.active = true then c.plays c.player.fresh.stopAndClose else c
  | .loginFailed _ => c

inductive Event where
  | auth (e : AuthManager.Event)
  | player (e : PlaybackSession.Event)
  | backend (e : Backend.Event)
  | bookmarks (e : BookmarkStore.Event)

def machine (P : Platform) : Machine Client Event where
  step c
    | .auth e =>
      let auth := (AuthManager.machine P).step c.auth e
      auth.signals.foldl hear {c with auth, backend := c.backend.fresh}
    | .player e => {c with backend := c.backend.fresh}.plays (PlaybackSession.machine.step c.player e)
    | .backend e => {c with backend := Backend.machine.step c.backend e}
    | .bookmarks e => {c with bookmarks := BookmarkStore.machine.step c.bookmarks e}

/-- The program before its first event. -/
def start (secrets : SecureStore) (servers : List ServerRow) (now : Int) (env : Env) (server : Endpoints)
    (backend : BackendEnv) (settings : String → String) (itemCache : String → Option Json) : Client where
  auth := AuthManager.launch secrets servers now
  player := {env, server}
  backend := Backend.start backend server settings itemCache
  bookmarks := {server}

/-- A sign-in or the end of a session. -/
def Renews : Auth.Signal → Prop
  | .authenticated _ | .sessionEnding => True
  | .stateChanged _ | .loginFailed _ => False

instance : DecidablePred Renews
  | .authenticated _ | .sessionEnding => .isTrue trivial
  | .stateChanged _ | .loginFailed _ => .isFalse id

section Isolation
variable {b b' : Backend}

/-- Nothing in flight was made later than what it is held against. -/
def Made (b : Backend) : Prop := ∀ p ∈ b.outbox.inFlight, p.closure.closure.made ≤ b.against p.closure.closure

/-- What was sent before the `n`th request is out of date. -/
def Outdated (n : Nat) (b : Backend) : Prop :=
  n ≤ b.outbox.created ∧
    ∀ p ∈ b.outbox.inFlight, p.id < n → p.closure.closure.made < b.against p.closure.closure

theorem Made.follows (h : Made b) (hb : b.Follows b') : Made b' := by
  intro p hp
  rcases hb.sent p hp with hold | ⟨-, hmade⟩
  · exact Nat.le_trans (h p hold) (hb.against _)
  · exact hmade

theorem Outdated.follows {n : Nat} (h : Outdated n b) (hb : b.Follows b') : Outdated n b' := by
  refine ⟨Nat.le_trans h.1 hb.created, fun p hp hid => ?_⟩
  rcases hb.sent p hp with hold | ⟨hlate, -⟩
  · exact Nat.lt_of_lt_of_le (h.2 p hold hid) (hb.against _)
  · exact absurd (Nat.lt_of_lt_of_le hid h.1) (Nat.not_lt.mpr hlate)

/-- A reset leaves behind all that is in flight. -/
theorem Made.reset (h : Made b) : Outdated b.outbox.created b.reset := by
  refine ⟨Nat.le_refl _, fun p hp _ => Nat.lt_of_le_of_lt (h p hp) ?_⟩
  cases p.closure.closure <;> exact Nat.lt_succ_self _

theorem credit_follows (b : Backend) (signal : Player.Signal) : b.Follows (credit b signal) := by
  cases signal with
  | activeChanged =>
    unfold credit
    dsimp only
    split
    · exact .refl b
    · exact Backend.progressChanged_follows b _
  | _ => exact .refl b

theorem plays_follows (c : Client) (player : PlaybackSession) : c.backend.Follows (c.plays player).backend := by
  show c.backend.Follows (player.signals.foldl credit c.backend)
  refine List.foldlRecOn (motive := fun b => c.backend.Follows b) player.signals credit (.refl _) ?_
  exact fun b hb signal _ => hb.trans (credit_follows b signal)

theorem hear_follows (c : Client) (signal : Auth.Signal) : c.backend.Follows (c.hear signal).backend := by
  cases signal with
  | authenticated user =>
    have hreset := Backend.reset_follows c.backend
    exact (hreset.trans (Backend.progressChanged_follows _ _)).trans (Backend.loadLibraries_follows _)
  | sessionEnding =>
    have hstopped := plays_follows c c.player.fresh.stopAndClose
    exact (hstopped.trans (Backend.reset_follows _)).trans (Backend.progressChanged_follows _ _)
  | stateChanged state =>
    unfold hear
    dsimp only
    split
    · exact plays_follows c _
    · exact .refl _
  | loginFailed reason => exact .refl _

theorem hears_follows (signals : List Auth.Signal) (c : Client) :
    c.backend.Follows (signals.foldl hear c).backend := by
  refine List.foldlRecOn (motive := fun c' => c.backend.Follows c'.backend) signals hear (.refl _) ?_
  exact fun c' hc signal _ => hc.trans (hear_follows c' signal)

theorem fresh_follows (b : Backend) : b.Follows b.fresh := .still rfl rfl rfl

theorem step_follows (P : Platform) (c : Client) (e : Event) : c.backend.Follows ((machine P).step c e).backend := by
  cases e with
  | auth e =>
    have hheard := hears_follows ((AuthManager.machine P).step c.auth e).signals
      {c with auth := (AuthManager.machine P).step c.auth e, backend := c.backend.fresh}
    exact (fresh_follows c.backend).trans hheard
  | player e => exact (fresh_follows c.backend).trans (plays_follows {c with backend := c.backend.fresh} _)
  | backend e => exact Backend.step_follows c.backend e
  | bookmarks e => exact .refl _

theorem run_follows (P : Platform) (c : Client) (es : List Event) :
    c.backend.Follows ((machine P).run c es).backend := by
  have hkeeps : Machine.Keeps (machine P) (fun _ _ => True) fun c' => c.backend.Follows c'.backend :=
    ⟨fun c' e hc _ => hc.trans (step_follows P c' e)⟩
  exact hkeeps.always (.refl _) es

theorem Outdated.fewer {m n : Nat} (h : Outdated n b) (hm : m ≤ n) : Outdated m b :=
  ⟨Nat.le_trans hm h.1, fun p hp hid => h.2 p hp (Nat.lt_of_lt_of_le hid hm)⟩

/-- A renewal leaves behind all that is in flight. -/
theorem hear_outdated {signal : Auth.Signal} (hrenews : Renews signal) (c : Client) (hmade : Made c.backend) :
    Outdated c.backend.outbox.created (c.hear signal).backend := by
  cases signal with
  | authenticated user =>
    have hloaded : Outdated c.backend.outbox.created
        (c.backend.reset.progressChanged (some (c.backend.reset.progress.loadFromUser user))) :=
      hmade.reset.follows (Backend.progressChanged_follows _ _)
    exact hloaded.follows (Backend.loadLibraries_follows _)
  | sessionEnding =>
    have hstopped := plays_follows c c.player.fresh.stopAndClose
    have hreset := (hmade.follows hstopped).reset
    have hcleared : Outdated _ (c.hear .sessionEnding).backend := hreset.follows (Backend.progressChanged_follows _ _)
    exact hcleared.fewer hstopped.created
  | stateChanged state => exact absurd hrenews id
  | loginFailed reason => exact absurd hrenews id

theorem hears_outdated {signals : List Auth.Signal} {signal : Auth.Signal} (hmem : signal ∈ signals)
    (hrenews : Renews signal) (c : Client) (hmade : Made c.backend) :
    Outdated c.backend.outbox.created (signals.foldl hear c).backend := by
  induction signals generalizing c with
  | nil => cases hmem
  | cons first rest ih =>
    have hstep := hear_follows c first
    rcases List.mem_cons.mp hmem with rfl | hmem
    · exact (hear_outdated hrenews c hmade).follows (hears_follows rest _)
    · exact (ih hmem (c.hear first) (hmade.follows hstep)).fewer hstep.created

/-- Nothing is shown of a server. -/
structure Blank (b : Backend) : Prop where
  libraries : b.libraries = []
  current : b.currentLibraryId = ""
  shelves : b.homeShelves = {}
  playlists : b.playlists.playlists = []
  grid : b.libraryItems.items = []
  results : b.searchResults.items = []

theorem cards_blank (h : b.playlists.playlists = []) :
    b.updatePlaylistNextUp = {b with homeShelves := b.homeShelves.setPlaylistNextUp []} := by
  unfold Backend.updatePlaylistNextUp
  simp [h]

theorem reset_blank (b : Backend) : Blank b.reset := by
  have hshelves (m : ShelfModel) : (m.setShelves []).setPlaylistNextUp [] = {} := by
    unfold ShelfModel.setPlaylistNextUp ShelfModel.setShelves
    split
    · next hsame =>
      dsimp only at hsame ⊢
      rw [← hsame]
    · rfl
  constructor
  case shelves =>
    unfold Backend.reset Backend.setPlaylists
    dsimp only
    rw [cards_blank rfl]
    exact hshelves b.homeShelves
  all_goals rfl

/-- There is nothing to bring up to date. -/
theorem Blank.still (h : Blank b) : b.updatePlaylistNextUp = b := by
  rw [cards_blank h.playlists, h.shelves]
  show {b with homeShelves := {}} = b
  rw [← h.shelves]

theorem Blank.loadLibraries (h : Blank b) : ∃ nextUpPlaylistIds outbox,
    b.loadLibraries = {b with nextUpPlaylistIds, outbox} := by
  unfold Backend.loadLibraries
  dsimp only
  split
  · exact ⟨_, _, rfl⟩
  · have hpicked (nextUpPlaylistIds : List String) : Blank {b with nextUpPlaylistIds} := {h with}
    rw [(hpicked _).still]
    exact ⟨_, _, rfl⟩

/-- Whoever is announced finds empty screens, and what the user object says. -/
theorem hear_authenticated (c : Client) (user : Json) :
    Blank (c.hear (.authenticated user)).backend ∧
      (c.hear (.authenticated user)).backend.progress = ProgressStore.loadFromUser {} user ∧
      (c.hear (.authenticated user)).bookmarks.byItem = (c.bookmarks.loadFromUser user).byItem := by
  have hreset := reset_blank c.backend
  generalize hb : ({c.backend.reset with progress := ProgressStore.loadFromUser {} user} : Backend) = loaded
  have hloaded : Blank loaded := by
    rw [← hb]
    exact {hreset with}
  have hbackend : (c.hear (.authenticated user)).backend = loaded.loadLibraries := by
    rw [← hloaded.still, ← hb]
    rfl
  obtain ⟨ids, outbox, hlibraries⟩ := hloaded.loadLibraries
  rw [hbackend, hlibraries]
  refine ⟨{hloaded with}, ?_, rfl⟩
  rw [← hb]

end Isolation

/-- **Sign-ins are kept apart.** In every run of the client, a step in which somebody signs in
or a session ends leaves behind all requests of the backend: whatever happens later, a reply
to one of them changes nothing the user sees of a server and nothing that is kept of it, and
emits nothing. Where the step ends with a sign-in, the screens are empty and the progress and
the bookmarks are what the user object says. -/
theorem sign_in_isolates (P : Platform) (secrets : SecureStore) (servers : List ServerRow) (now : Int) (env : Env)
    (server : Endpoints) (backend : BackendEnv) (settings : String → String) (itemCache : String → Option Json)
    (before : List Event) (e : AuthManager.Event) :
    let c := (machine P).run (start secrets servers now env server backend settings itemCache) before
    let signals := ((AuthManager.machine P).step c.auth e).signals
    let renewed := (machine P).step c (.auth e)
    (∀ signal ∈ signals, Renews signal → ∀ later id res, id < c.backend.outbox.created →
      let b := ((machine P).run renewed later).backend
      (Backend.machine.step b (.reply id res)).content = b.content ∧
        (Backend.machine.step b (.reply id res)).signals = []) ∧
    ∀ told user, signals = told ++ [.authenticated user] →
      Blank renewed.backend ∧ renewed.backend.progress = ProgressStore.loadFromUser {} user ∧
        renewed.bookmarks.byItem = (BookmarkStore.loadFromUser {server} user).byItem := by
  intro c signals renewed
  have hmade : Made c.backend := by
    have hstart : Made (start secrets servers now env server backend settings itemCache).backend :=
      fun p hp => nomatch hp
    exact hstart.follows (run_follows P _ before)
  constructor
  · intro signal hmem hrenews later id res hid b
    have hrenewed : Outdated c.backend.outbox.created renewed.backend :=
      hears_outdated hmem hrenews
        {c with auth := (AuthManager.machine P).step c.auth e, backend := c.backend.fresh} hmade
    have hlater : Outdated c.backend.outbox.created b := hrenewed.follows (run_follows P renewed later)
    show (b.fresh.finished id res).content = _ ∧ (b.fresh.finished id res).signals = []
    unfold Backend.finished
    split
    · exact ⟨rfl, rfl⟩
    · next p outbox htake =>
      have hbehind : p.closure.closure.made < b.against p.closure.closure := by
        refine hlater.2 p (Outbox.take_mem htake) ?_
        rw [(Outbox.take_some htake).1]
        exact hid
      have hdropped : ({b.fresh with outbox} : Backend).call p.closure.closure res = {b.fresh with outbox} :=
        Backend.call_outdated (b := {b.fresh with outbox}) hbehind res
      exact ⟨(congrArg Backend.content hdropped).trans rfl, (congrArg Backend.signals hdropped).trans rfl⟩
  · intro told user hsignals
    have hrenewed : renewed = (told.foldl hear
        {c with auth := (AuthManager.machine P).step c.auth e, backend := c.backend.fresh}).hear
        (.authenticated user) := by
      show signals.foldl hear _ = _
      rw [hsignals, List.foldl_append]
      rfl
    rw [hrenewed]
    exact hear_authenticated _ user

/-- A library is looked at, and "alice" is about to be announced. -/
def arrival : List Event :=
  AuthManager.aliceSignsIn.dropLast.map .auth ++ [.backend (.selectLibrary "books")]

def announcement : AuthManager.Event :=
  .reply 2 {status := 200, body := .object [("user", .object [("id", .string "alice")])]} true

theorem sign_in_isolates_home :
    let c := (machine default).run
      (start {} [] 0 samplePlayer.env sampleServer default (fun _ => "") fun _ => none) arrival
    let renewed := (machine default).step c (.auth announcement)
    let home : ApiResponse :=
      ⟨200, true, false, .array [.object [("id", .string "continue-listening")]], "", none⟩
    Blank renewed.backend ∧
      (Backend.machine.step renewed.backend (.reply 0 home)).content = renewed.backend.content := by
  have hisolates := sign_in_isolates default {} [] 0 samplePlayer.env sampleServer default (fun _ => "")
    (fun _ => none) arrival announcement
  exact ⟨(hisolates.2 [.stateChanged .authenticated] (.object [("id", .string "alice")]) rfl).1,
    (hisolates.1 (.authenticated (.object [("id", .string "alice")])) (.tail _ (.head _)) trivial [] 0 _
      (by decide +kernel)).1⟩

end Client

end ShelfRemote.App
