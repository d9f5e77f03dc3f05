import ShelfRemote.App.Client
import ShelfRemote.Player.Credit

/-! A book that has been heard to its end, in the whole client.

The player announces the end, `main` hands it to the progress store, and the store tells the
backend, which makes the next-up shelf again. Others speak of the same book later: the server,
when its details are asked for, the user, who marks it as unread, and the player, when it is
opened once more and left. `finished_leaves_shelf` says that nobody else brings it back. -/
namespace ShelfRemote
open Qt Net Runs Model Player Auth

namespace Model.ProgressStore
variable {p : ProgressStore} {item : String}

theorem isFinished_insert (p : ProgressStore) (itemId : String) (r : ProgressRec) (item : String) :
    (p.insert itemId r).isFinished item = if itemId = item then r.finished else p.isFinished item := by
  unfold isFinished
  rw [record_insert]
  split <;> rfl

/-- What is reported of another item leaves this one as it is. -/
theorem isFinished_set {now : Rat} {itemId : String} (hother : itemId ≠ item) {fraction currentTime : Rat}
    {finished : Bool} :
    ((p.set now itemId fraction currentTime finished).getD p).isFinished item = p.isFinished item := by
  unfold set
  split
  · rfl
  · exact (isFinished_insert p itemId _ item).trans (if_neg hother)

theorem isFinished_setFinished {itemId : String} {finished : Bool} (h : p.isFinished item = true)
    (htold : itemId = item → finished = true) :
    ((p.setFinished itemId finished).getD p).isFinished item = true := by
  have hinsert (r : ProgressRec) (hr : r.finished = finished) : (p.insert itemId r).isFinished item = true := by
    rw [isFinished_insert]
    split
    · next hsame => exact hr.trans (htold hsame)
    · exact h
  unfold setFinished
  split
  · exact h
  · split
    · exact hinsert _ rfl
    · split
      · exact h
      · exact hinsert _ rfl

/-- A session that has ended leaves its item as finished as it was heard. -/
theorem isFinished_update {now : Rat} {itemId : String} (hnamed : itemId ≠ "") (currentTime duration : Rat)
    (finished : Bool) : ((p.update now itemId currentTime duration finished).getD p).isFinished item =
      if itemId = item then finished else p.isFinished item := by
  unfold update
  rw [if_neg hnamed]
  dsimp only
  show (p.insert itemId _).isFinished item = _
  rw [isFinished_insert]
  split_ifs <;> rfl

end Model.ProgressStore

namespace App

namespace Backend
variable {b : Backend} {item : String}

/-! ### Who writes the progress store -/

@[simp] theorem get_progress (target : Target) (closure : Closure) (library : Option String) :
    (b.get target closure library).progress = b.progress := rfl

@[simp] theorem fetch_progress (asked : LibraryItemsModel × Option PageRequest) :
    (b.fetch asked).progress = b.progress := by
  unfold fetch
  dsimp only
  split <;> rfl

@[simp] theorem refreshHome_progress : b.refreshHome.progress = b.progress := by
  unfold refreshHome
  split <;> rfl

@[simp] theorem refreshPlaylists_progress : b.refreshPlaylists.progress = b.progress := by
  unfold refreshPlaylists
  split <;> rfl

@[simp] theorem browse_progress (sort : String) (desc : Bool) (filter : String) :
    (b.browse sort desc filter).progress = b.progress := by
  unfold browse
  split
  · rfl
  · exact fetch_progress _

@[simp] theorem browseBy_progress (group id : String) : (b.browseBy group id).progress = b.progress := by
  unfold browseBy
  split
  · rfl
  · exact fetch_progress _

@[simp] theorem selectLibrary_progress (libraryId : String) : (b.selectLibrary libraryId).progress = b.progress := by
  unfold selectLibrary
  split
  · rfl
  · simp only [browse_progress, refreshPlaylists_progress, refreshHome_progress, putSetting]
    split <;> rfl

@[simp] theorem loadLibraries_progress : b.loadLibraries.progress = b.progress := by
  unfold loadLibraries
  dsimp only
  split <;> rfl

@[simp] theorem search_progress (query : String) : (b.search query).progress = b.progress := by
  unfold search
  split_ifs <;> rfl

@[simp] theorem setPlaylistNextUpEnabled_progress (enabled : Bool) :
    (b.setPlaylistNextUpEnabled enabled).progress = b.progress := by
  unfold setPlaylistNextUpEnabled
  split <;> rfl

@[simp] theorem setNextUpPlaylist_progress (playlistId : String) (enabled : Bool) :
    (b.setNextUpPlaylist playlistId enabled).progress = b.progress := by
  unfold setNextUpPlaylist
  split <;> rfl

@[simp] theorem progressChanged_progress (progress : Option ProgressStore) :
    (b.progressChanged progress).progress = progress.getD b.progress := by
  cases progress <;> rfl

/-- A reply that says how far the user is in the item, or that it is not finished. -/
def Closure.Tells (item : String) : Closure → Prop
  | .item itemId _ _ => itemId = item
  | .markFinished itemId finished _ => itemId = item ∧ finished = false
  | .libraries _ | .home _ | .playlists _ _ | .page _ _ | .search _ _ _ => False

instance (item : String) : DecidablePred (Closure.Tells item)
  | .item itemId _ _ => inferInstanceAs (Decidable (itemId = item))
  | .markFinished itemId finished _ => inferInstanceAs (Decidable (itemId = item ∧ finished = false))
  | .libraries _ | .home _ | .playlists _ _ | .page _ _ | .search _ _ _ => .isFalse id

/-! ### What is finished stays finished -/

theorem call_finished (h : b.progress.isFinished item = true) {closure : Closure} (htells : ¬closure.Tells item)
    (res : ApiResponse) : (b.call closure res).progress.isFinished item = true := by
  cases closure with
  | libraries gen =>
    show (b.onLibraries gen res).progress.isFinished item = true
    unfold onLibraries
    split
    · exact h
    · split
      · exact h
      · dsimp only
        split
        · exact h
        · split
          · rw [selectLibrary_progress]
            exact h
          · exact h
  | home gen =>
    show (b.onHome gen res).progress.isFinished item = true
    unfold onHome
    split_ifs <;> exact h
  | playlists libraryId gen =>
    show (b.onPlaylists libraryId gen res).progress.isFinished item = true
    unfold onPlaylists
    split_ifs <;> exact h
  | page page gen => exact h
  | search gen serverGen query =>
    show (b.onSearch gen serverGen query res).progress.isFinished item = true
    unfold onSearch
    split_ifs <;> exact h
  | item itemId gen base =>
    show (b.onItem itemId gen base res).progress.isFinished item = true
    unfold onItem applyItemProgress
    split_ifs with hstale hfailed
    · exact h
    · dsimp only
      split <;> exact h
    · extract_lets obj key cached told
      split
      · exact h
      · show (cached.progressChanged _).progress.isFinished item = true
        rw [progressChanged_progress, ProgressStore.isFinished_set htells]
        exact h
  | markFinished itemId finished gen =>
    show (b.onMarkFinished itemId finished gen res).progress.isFinished item = true
    unfold onMarkFinished
    split_ifs
    · exact h
    · exact h
    · show (b.progressChanged _).progress.isFinished item = true
      rw [progressChanged_progress]
      refine ProgressStore.isFinished_setFinished h fun hsame => ?_
      simpa [Closure.Tells, hsame] using htells

/-- Nothing is told of the item. -/
def Spares (item : String) (b : Backend) : Event → Prop
  | .reply id _ => ∀ p ∈ b.outbox.inFlight, p.id = id → ¬p.closure.closure.Tells item
  | .progress _ => False
  | .loadLibraries | .selectLibrary _ | .refreshHome | .refreshPlaylists | .browse _ _ _ | .loadMore | .search _
  | .clearSearch | .browseSeries _ | .browseAuthor _ | .loadItem _ | .markFinished _ _
  | .setPlaylistNextUpEnabled _ | .setNextUpPlaylist _ _ | .reset | .baseUrl _ | .clock _ => True

theorem step_finished (h : b.progress.isFinished item = true) {e : Event} (hspares : b.Spares item e) :
    (machine.step b e).progress.isFinished item = true := by
  cases e with
  | reply id res =>
    show (b.fresh.finished id res).progress.isFinished item = true
    unfold finished
    split
    · exact h
    · next p outbox htake =>
      have htells := hspares p (Outbox.take_mem htake) (Outbox.take_some htake).1
      exact call_finished (b := {b.fresh with outbox}) h htells res
  | progress => exact absurd hspares id
  | clearSearch | loadItem | markFinished | reset | baseUrl | clock => exact h
  | loadLibraries | selectLibrary | refreshHome | refreshPlaylists | browse | loadMore | search | browseSeries
  | browseAuthor | setPlaylistNextUpEnabled | setNextUpPlaylist =>
    simpa [machine, handle, fresh, loadMore, browseSeries, browseAuthor] using h

theorem toGoOnWith_unfinished {progress : ProgressStore} {entries : List Card} {entry : Card}
    (h : toGoOnWith progress entries = some entry) : Unfinished progress entry := by
  have hmem : entry ∈ entries.filter fun entry => decide (Unfinished progress entry) := by
    unfold toGoOnWith at h
    dsimp only at h
    cases hbegun : (entries.filter fun entry => decide (Unfinished progress entry)).find?
        fun entry => decide (Begun progress entry) with
    | none =>
      rw [hbegun] at h
      exact List.mem_of_mem_head? h
    | some begun =>
      rw [hbegun] at h
      cases h
      exact List.mem_of_find?_eq_some hbegun
  exact of_decide_eq_true (List.mem_filter.mp hmem).2

/-- No finished book is on the shelf. -/
theorem Current.unfinished (h : b.Current) {card : Card} (hcard : card ∈ b.homeShelves.nextUp) :
    b.progress.isFinished card.itemId = false := by
  unfold Current wanted at h
  rw [h] at hcard
  split at hcard
  · obtain ⟨playlist, -, hmap⟩ := List.mem_filterMap.mp hcard
    obtain ⟨entry, hentry, rfl⟩ := Option.map_eq_some_iff.mp hmap
    exact (toGoOnWith_unfinished hentry).2
  · cases hcard

end Backend

namespace Client
variable {c : Client} {item : String}

/-! ### The shelf in the client -/

theorem credit_current {b : Backend} (h : b.Current) (signal : Player.Signal) : (credit b signal).Current := by
  cases signal with
  | activeChanged =>
    unfold credit
    dsimp only
    split
    · exact h
    · exact h.progressChanged _
  | _ => exact h

theorem plays_current (h : c.backend.Current) (player : PlaybackSession) : (c.plays player).backend.Current :=
  List.foldlRecOn (motive := Backend.Current) player.signals credit h fun _ hb signal _ => credit_current hb signal

theorem hear_current (h : c.backend.Current) (signal : Auth.Signal) : (c.hear signal).backend.Current := by
  cases signal with
  | authenticated user => exact ((Backend.reset_current c.backend).progressChanged _).loadLibraries
  | sessionEnding => exact (Backend.reset_current _).progressChanged _
  | stateChanged state =>
    unfold hear
    dsimp only
    split
    · exact plays_current h _
    · exact h
  | loginFailed reason => exact h

theorem fresh_current {b : Backend} (h : b.Current) : b.fresh.Current :=
  Backend.Aside.current ⟨rfl, rfl, rfl, rfl, rfl⟩ h

theorem keeps_current (P : Platform) : Machine.Keeps (machine P) (fun _ _ => True) fun c => c.backend.Current where
  step c e h _ := by
    cases e with
    | auth e =>
      let auth := (AuthManager.machine P).step c.auth e
      have hfresh : ({c with auth, backend := c.backend.fresh} : Client).backend.Current := fresh_current h
      exact List.foldlRecOn (motive := fun c' => c'.backend.Current) auth.signals hear hfresh
        fun c' hc signal _ => hear_current hc signal
    | player e => exact plays_current (c := {c with backend := c.backend.fresh}) (fresh_current h) _
    | backend e => exact (fresh_current h).handle e
    | bookmarks e => exact h

/-! ### The player -/

/-- The book is open. -/
def Opened (item : String) (s : PlaybackSession) : Prop := s.active = true ∧ s.itemId = item ∧ s.episodeId = ""

instance (item : String) (s : PlaybackSession) : Decidable (Opened item s) :=
  inferInstanceAs (Decidable (_ ∧ _ ∧ _))

/-- `credit` is `main`'s handler. -/
theorem plays_progress (c : Client) (player : PlaybackSession) :
    (c.plays player).backend.progress =
      player.signals.foldl (onActiveChanged c.backend.now) c.backend.progress := by
  have hfold (signals : List Player.Signal) : ∀ b : Backend, (signals.foldl credit b).progress =
      signals.foldl (onActiveChanged b.now) b.progress := by
    induction signals with
    | nil => exact fun _ => rfl
    | cons signal rest ih =>
      intro b
      have hnow : (credit b signal).now = b.now := by
        cases signal with
        | activeChanged =>
          unfold credit Backend.progressChanged
          dsimp only
          split
          · rfl
          · split <;> rfl
        | _ => rfl
      have hprogress : (credit b signal).progress = onActiveChanged b.now b.progress signal := by
        cases signal with
        | activeChanged =>
          unfold credit onActiveChanged
          dsimp only
          split
          · rfl
          · exact Backend.progressChanged_progress _
        | _ => rfl
      rw [List.foldl_cons, List.foldl_cons, ih, hnow, hprogress]
  exact hfold player.signals c.backend

/-- What the player comes to leaves a finished item finished, unless the book was open and
is closed before its end. -/
theorem plays_finished (hsteady : c.player.Steady) {e : PlaybackSession.Event} (hnamed : item ≠ "")
    (h : c.backend.progress.isFinished item = true)
    (hspares : Opened item c.player → (PlaybackSession.machine.step c.player e).active = true ∨ e.ends = true) :
    (c.plays (PlaybackSession.machine.step c.player e)).backend.progress.isFinished item = true := by
  rw [plays_progress]
  rcases Credit.credits ⟨c.player, c.backend.progress, [], none⟩ (e, c.backend.now) hsteady with
    ⟨-, hsame⟩ | ⟨hactive, hidle, -, hcredit⟩
  · exact (congrArg (·.isFinished item) hsame).trans h
  · refine (congrArg (·.isFinished item) hcredit).trans ?_
    dsimp only
    split
    · next hbook =>
      by_cases hitem : c.player.itemId = item
      · rcases hspares ⟨hactive, hitem, hbook⟩ with hopen | hends
        · exact nomatch hopen.symm.trans hidle
        · rw [ProgressStore.isFinished_update (hitem ▸ hnamed), if_pos hitem, hends]
      · by_cases hempty : c.player.itemId = ""
        · rw [hempty]
          exact h
        · rw [ProgressStore.isFinished_update hempty, if_neg hitem]
          exact h
    · exact h

/-- Nobody signs in or out, or is thrown out while the book is open; the book is not closed
before its end; and nothing is told of it. -/
def Spares (P : Platform) (item : String) (c : Client) : Event → Prop
  | .auth e => ∀ signal ∈ ((AuthManager.machine P).step c.auth e).signals, ¬Renews signal ∧
      (Opened item c.player → ∀ state, signal = .stateChanged state → state = .authenticated)
  | .player e => Opened item c.player → (PlaybackSession.machine.step c.player e).active = true ∨ e.ends = true
  | .backend e => c.backend.Spares item e
  | .bookmarks _ => True

/-- The player is as it was reached, and the item is finished. -/
structure Done (item : String) (c : Client) : Prop where
  steady : c.player.Steady
  finished : c.backend.progress.isFinished item = true

theorem Done.plays (h : Done item c) {e : PlaybackSession.Event} (hnamed : item ≠ "")
    (hspares : Opened item c.player → (PlaybackSession.machine.step c.player e).active = true ∨ e.ends = true) :
    Done item (c.plays (PlaybackSession.machine.step c.player e)) :=
  ⟨h.steady.next e, plays_finished h.steady hnamed h.finished hspares⟩

/-- Somebody is thrown out only while the book is not open. -/
theorem Done.hears (hnamed : item ≠ "") (signals : List Auth.Signal) : ∀ c : Client, Done item c →
    (∀ signal ∈ signals, ¬Renews signal ∧
      (Opened item c.player → ∀ state, signal = .stateChanged state → state = .authenticated)) →
    Done item (signals.foldl hear c) := by
  induction signals with
  | nil => exact fun c h _ => h
  | cons signal rest ih =>
    intro c h hspares
    obtain ⟨hfirst, hrest⟩ := List.forall_mem_cons.mp hspares
    rw [List.foldl_cons]
    cases signal with
    | authenticated | sessionEnding => exact absurd trivial hfirst.1
    | loginFailed reason => exact ih c h hrest
    | stateChanged state =>
      by_cases hout : state ≠ .authenticated ∧ c.player.active = true
      · have hheard : c.hear (.stateChanged state) =
            c.plays (PlaybackSession.machine.step c.player .stopAndClose) := if_pos hout
        rw [hheard]
        have hclosed : ¬Opened item c.player := fun hopen => hout.1 (hfirst.2 hopen state rfl)
        have hstopped : (PlaybackSession.machine.step c.player .stopAndClose).active = false :=
          PlaybackSession.flushAndClose_idle c.player.fresh false
        refine ih _ (h.plays hnamed fun hopen => absurd hopen hclosed)
          fun signal hmem => ⟨(hrest signal hmem).1, ?_⟩
        exact fun hopen => nomatch hopen.1.symm.trans hstopped
      · have hheard : c.hear (.stateChanged state) = c := if_neg hout
        rw [hheard]
        exact ih c h hrest

theorem keeps_done (P : Platform) (hnamed : item ≠ "") :
    Machine.Keeps (machine P) (Spares P item) (Done item) where
  step c e h hspares := by
    have hfresh : Done item {c with backend := c.backend.fresh} := ⟨h.steady, h.finished⟩
    cases e with
    | auth e =>
      let auth := (AuthManager.machine P).step c.auth e
      exact Done.hears hnamed auth.signals {c with auth, backend := c.backend.fresh}
        ⟨h.steady, h.finished⟩ hspares
    | player e => exact hfresh.plays hnamed hspares
    | backend e => exact ⟨h.steady, Backend.step_finished h.finished hspares⟩
    | bookmarks e => exact ⟨h.steady, h.finished⟩

theorem plays_steady (h : c.player.Steady) (e : PlaybackSession.Event) :
    (c.plays (PlaybackSession.machine.step c.player e)).player.Steady := h.next e

theorem keeps_steady (P : Platform) : Machine.Keeps (machine P) (fun _ _ => True) fun c => c.player.Steady where
  step c e h _ := by
    cases e with
    | auth e =>
      let auth := (AuthManager.machine P).step c.auth e
      refine List.foldlRecOn (motive := fun c' => c'.player.Steady) auth.signals hear
        (b := {c with auth, backend := c.backend.fresh}) h fun c' hc signal _ => ?_
      cases signal with
      | authenticated | loginFailed => exact hc
      | sessionEnding => exact plays_steady hc .stopAndClose
      | stateChanged state =>
        unfold hear
        dsimp only
        split
        · exact plays_steady hc .stopAndClose
        · exact hc
    | player e => exact plays_steady (c := {c with backend := c.backend.fresh}) h e
    | backend e | bookmarks e => exact h

/-- The end of the last file is announced as the end of the book. -/
theorem last_ends {s : PlaybackSession} (hactive : s.active = true)
    (hlast : s.isHls = true ∨ (s.tracks.length : Int) ≤ s.currentTrack + 1) :
    (PlaybackSession.machine.step s (.mpv (.endFile .eof))).signals.filter Signal.ended ≠ [] := by
  let heard : PlaybackSession := {s.fresh with mpv := s.mpv.handleEvent (.endFile .eof)}
  have hopen : ¬(!heard.active) = true := by
    rw [show heard.active = true from hactive]
    exact Bool.false_ne_true
  have hdone : heard.onEndOfFile = {heard with completed := true}.stopAndClose := by
    unfold PlaybackSession.onEndOfFile
    rw [if_neg hopen]
    rcases hlast with hhls | hlast
    · exact if_pos hhls
    · split
      · rfl
      · exact if_neg (Int.not_lt.mpr hlast)
  have hidle : heard.onEndOfFile.active = false := by
    rw [hdone]
    exact PlaybackSession.flushAndClose_idle {heard with completed := true} false
  have hstep : PlaybackSession.machine.step s (.mpv (.endFile .eof)) = heard.onEndOfFile.updatePlaying := rfl
  have hsilent : heard.onEndOfFile.updatePlaying.signals = heard.onEndOfFile.signals := by
    unfold PlaybackSession.updatePlaying
    split
    · rfl
    · unfold PlaybackSession.onPlayingChanged
      dsimp only
      rw [hidle]
      rfl
  have hannounced : heard.onEndOfFile.signals =
      [.activeChanged false s.itemId s.episodeId s.globalPosition s.duration true] := by
    rw [hdone]
    unfold PlaybackSession.stopAndClose PlaybackSession.flushAndClose
    rw [if_neg hopen]
    dsimp only
    split <;> rfl
  rw [hstep, hsilent, hannounced]
  exact List.cons_ne_nil _ _

/-- **A finished book leaves the shelf.** In every run of the client, once the last file of a
book has been heard to its end, the book is finished and is on no card of the next-up shelf,
whatever happens afterwards, until somebody signs in or out, the book is opened again and
closed before its end, or the server or the user says something else of it. -/
theorem finished_leaves_shelf (P : Platform) (secrets : SecureStore) (servers : List ServerRow) (now : Int)
    (env : Env) (server : Endpoints) (backend : BackendEnv) (settings : String → String)
    (itemCache : String → Option Json) (before later : List Event) (item : String) :
    let c := (machine P).run (start secrets servers now env server backend settings itemCache) before
    let heard := (machine P).step c (.player (.mpv (.endFile .eof)))
    let b := ((machine P).run heard later).backend
    Opened item c.player → item ≠ "" →
    (c.player.isHls = true ∨ (c.player.tracks.length : Int) ≤ c.player.currentTrack + 1) →
    (machine P).Along (Spares P item) heard later →
      b.progress.isFinished item = true ∧ ∀ card ∈ b.homeShelves.nextUp, card.itemId ≠ item := by
  intro c heard b hopened hnamed hlast hlater
  have hsteady : c.player.Steady :=
    (keeps_steady P).always (s := start secrets servers now env server backend settings itemCache)
      (PlaybackSession.steady_start env server) before
  have hheard : Done item heard := by
    refine ⟨hsteady.next (.mpv (.endFile .eof)), ?_⟩
    have hends := last_ends hopened.1 hlast
    show (Client.plays {c with backend := c.backend.fresh} _).backend.progress.isFinished item = true
    rw [plays_progress]
    rcases Credit.credits ⟨c.player, c.backend.progress, [], none⟩ (.mpv (.endFile .eof), c.backend.now)
      hsteady with ⟨hnone, -⟩ | ⟨-, -, -, hcredit⟩
    · exact absurd hnone hends
    · refine (congrArg (·.isFinished item) hcredit).trans ?_
      dsimp only
      rw [if_pos hopened.2.2, ProgressStore.isFinished_update (hopened.2.1 ▸ hnamed), if_pos hopened.2.1]
      rfl
  have hdone : Done item ((machine P).run heard later) := (keeps_done P hnamed).run hheard hlater
  have hcurrent : b.Current := by
    have hstart : (start secrets servers now env server backend settings itemCache).backend.Current := rfl
    have hrun := (keeps_current P).always hstart (before ++ .player (.mpv (.endFile .eof)) :: later)
    rwa [Machine.run_append] at hrun
  refine ⟨hdone.finished, fun card hcard hitem => ?_⟩
  have hunfinished := hcurrent.unfinished hcard
  rw [hitem, hdone.finished] at hunfinished
  cases hunfinished

/-- The first book of a picked playlist is heard up to its last track. -/
def series : List Event :=
  let book (id : String) : Json := .object [("libraryItemId", .string id)]
  let trilogy : Json :=
    .object [("id", .string "p"), ("name", .string "Trilogy"), ("items", .array [book "first", book "second"])]
  let playlists : Json := .object [("results", .array [trilogy])]
  [.backend (.setPlaylistNextUpEnabled true), .backend (.setNextUpPlaylist "p" true),
    .backend (.selectLibrary "books"), .backend (.reply 1 ⟨200, true, false, playlists, "", none⟩),
    .player (.playItem "first"), .player (.reply 0 ⟨200, true, false, sampleBook, "", none⟩),
    .player (.mpv (.endFile .eof)), .player (.mpv (.endFile .eof))]

/-- The next one is looked at, and opened. -/
def sequel : List Event :=
  let details : Json := .object [("id", .string "second")]
  [.backend (.loadItem "second"), .backend (.reply 3 ⟨200, true, false, details, "", none⟩),
    .player (.playItem "second")]

theorem finished_leaves_shelf_series :
    let c := (machine default).run
      (start {} [] 0 samplePlayer.env sampleServer default (fun _ => "") fun _ => none) series
    let heard := (machine default).step c (.player (.mpv (.endFile .eof)))
    let b := ((machine default).run heard sequel).backend
    c.backend.homeShelves.nextUp.map (·.itemId) = ["first"] ∧ b.homeShelves.nextUp.map (·.itemId) = ["second"] ∧
      b.progress.isFinished "first" = true ∧ ∀ card ∈ b.homeShelves.nextUp, card.itemId ≠ "first" := by
  refine ⟨by decide +kernel, by decide +kernel, ?_⟩
  refine finished_leaves_shelf default {} [] 0 samplePlayer.env sampleServer default (fun _ => "") (fun _ => none)
    series sequel "first" (by decide +kernel) (by decide) (by decide +kernel) ?_
  refine ⟨trivial, ?_, fun hopened => absurd hopened.1 (by decide +kernel), trivial⟩
  show ∀ p : Sent Backend.Asked, p ∈ _ → p.id = 3 → ¬p.closure.closure.Tells "first"
  decide +kernel

end Client

end App

end ShelfRemote
