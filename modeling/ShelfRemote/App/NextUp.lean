import ShelfRemote.App.Backend

/-! The next-up shelf and what it is made from.

The shelf is kept, not computed when it is looked at: whoever changes the playlists, the
picks, the setting or the progress store has to see to it. `wanted` says what it is to
hold, in two passes over each playlist where the code makes one (`nextUp_eq`), and
`next_up_current` that it holds it after every operation. -/
namespace ShelfRemote.App
open Qt Net Runs Model

namespace Backend

/-! ### What the shelf is to hold -/

/-- A book that is not finished. Episodes have no progress of their own. -/
def Unfinished (progress : ProgressStore) (entry : Card) : Prop :=
  entry.kind = "book" ∧ progress.isFinished entry.itemId = false

instance (progress : ProgressStore) : DecidablePred (Unfinished progress) := fun _ =>
  inferInstanceAs (Decidable (_ ∧ _))

/-- The user is in it. -/
def Begun (progress : ProgressStore) (entry : Card) : Prop :=
  0 < progress.fraction entry.itemId ∨ 0 < progress.currentTime entry.itemId

instance (progress : ProgressStore) : DecidablePred (Begun progress) := fun _ =>
  inferInstanceAs (Decidable (_ ∨ _))

/-- The first unfinished book that is begun, else the first unfinished one. -/
def toGoOnWith (progress : ProgressStore) (entries : List Card) : Option Card :=
  let books := entries.filter fun entry => decide (Unfinished progress entry)
  books.find? (fun entry => decide (Begun progress entry)) <|> books.head?

/-- A card for each picked playlist with a book to go on with, under the playlist's name. -/
def wanted (b : Backend) : List Card :=
  if b.playlistNextUpEnabled = true ∧ b.nextUpPlaylistIds ≠ [] then
    (b.playlists.playlists.filter fun playlist =>
        b.nextUpPlaylistIds.contains (PlaylistModel.playlistId playlist)).filterMap fun playlist =>
      (toGoOnWith b.progress (PlaylistModel.entries playlist)).map fun card =>
        {card with author := PlaylistModel.name playlist}
  else []

/-- The shelf holds it. -/
def Current (b : Backend) : Prop := b.homeShelves.nextUp = b.wanted

instance (b : Backend) : Decidable b.Current := inferInstanceAs (Decidable (_ = _))

/-! ### One pass -/

/-- The code asks whether a book is begun by its numbers. -/
theorem ite_begun (progress : ProgressStore) (entry : Card) (begun unread : Option Card) :
    (if 0 < progress.fraction entry.itemId ∨ 0 < progress.currentTime entry.itemId then begun else unread) =
      if Begun progress entry then begun else unread := rfl

/-- The loop keeps the first unread book until a begun one turns up. -/
theorem nextUp_unread (progress : ProgressStore) (entries : List Card) (unread : Option Card) :
    nextUp progress entries unread =
      ((entries.filter fun entry => decide (Unfinished progress entry)).find?
          (fun entry => decide (Begun progress entry)) <|> unread <|>
        (entries.filter fun entry => decide (Unfinished progress entry)).head?) := by
  induction entries generalizing unread with
  | nil => simp [nextUp]
  | cons entry entries ih =>
    by_cases hskip : Unfinished progress entry
    · have hbook : ¬(entry.kind ≠ "book" ∨ progress.isFinished entry.itemId = true) := by
        simpa [Unfinished] using hskip
      rw [nextUp, if_neg hbook, List.filter_cons_of_pos (by simpa using hskip)]
      by_cases hbegun : Begun progress entry
      · rw [ite_begun, if_pos hbegun, List.find?_cons_of_pos (by simpa using hbegun)]
        rfl
      · rw [ite_begun, if_neg hbegun, ih, List.find?_cons_of_neg (by simpa using hbegun)]
        cases unread <;> simp
    · have hbook : entry.kind ≠ "book" ∨ progress.isFinished entry.itemId = true := by
        simpa [Unfinished, or_iff_not_imp_left] using hskip
      rw [nextUp, if_pos hbook, List.filter_cons_of_neg (by simpa using hskip), ih]

theorem nextUp_eq (progress : ProgressStore) (entries : List Card) :
    nextUp progress entries none = toGoOnWith progress entries := by
  rw [nextUp_unread]
  rfl

/-- What `updatePlaylistNextUp` puts on the shelf. -/
theorem cards_eq (b : Backend) :
    (if b.playlistNextUpEnabled && !b.nextUpPlaylistIds.isEmpty then
      b.playlists.playlists.filterMap b.nextUpCard else []) = b.wanted := by
  have hcards : b.playlists.playlists.filterMap b.nextUpCard =
      (b.playlists.playlists.filter fun playlist =>
        b.nextUpPlaylistIds.contains (PlaylistModel.playlistId playlist)).filterMap fun playlist =>
      (toGoOnWith b.progress (PlaylistModel.entries playlist)).map fun card =>
        {card with author := PlaylistModel.name playlist} := by
    rw [List.filterMap_filter]
    congr 1
    funext playlist
    simp only [nextUpCard, nextUp_eq]
  unfold wanted
  rw [hcards]
  simp

theorem updatePlaylistNextUp_current (b : Backend) : b.updatePlaylistNextUp.Current := by
  have hwanted : b.updatePlaylistNextUp.wanted = b.wanted := rfl
  unfold Current
  rw [hwanted, ← cards_eq]
  exact ShelfModel.setPlaylistNextUp_nextUp _ _

/-! ### Operations -/

variable {b b' : Backend}

/-- Neither the shelf nor what it is made from changes. -/
structure Aside (b b' : Backend) : Prop where
  shelf : b'.homeShelves.nextUp = b.homeShelves.nextUp
  playlists : b'.playlists = b.playlists
  progress : b'.progress = b.progress
  picks : b'.nextUpPlaylistIds = b.nextUpPlaylistIds
  setting : b'.playlistNextUpEnabled = b.playlistNextUpEnabled

theorem Aside.current (h : Aside b b') (hb : b.Current) : b'.Current := by
  unfold Current wanted
  rw [h.shelf, h.playlists, h.progress, h.picks, h.setting]
  exact hb

theorem aside_get (b : Backend) (target : Target) (closure : Closure) (library : Option String) :
    Aside b (b.get target closure library) := ⟨rfl, rfl, rfl, rfl, rfl⟩

theorem aside_fetch (b : Backend) (asked : LibraryItemsModel × Option PageRequest) : Aside b (b.fetch asked) := by
  unfold fetch
  dsimp only
  split <;> exact ⟨rfl, rfl, rfl, rfl, rfl⟩

theorem Current.refreshHome (h : b.Current) : b.refreshHome.Current := by
  unfold Backend.refreshHome
  split
  · exact h
  · exact (aside_get b _ _ _).current h

theorem Current.refreshPlaylists (h : b.Current) : b.refreshPlaylists.Current := by
  unfold Backend.refreshPlaylists
  split
  · exact h
  · exact (aside_get b _ _ _).current h

theorem Current.browse (h : b.Current) (sort : String) (desc : Bool) (filter : String) :
    (b.browse sort desc filter).Current := by
  unfold Backend.browse
  split
  · exact h
  · exact (aside_fetch b _).current h

theorem Current.browseBy (h : b.Current) (group id : String) : (b.browseBy group id).Current := by
  unfold Backend.browseBy
  split
  · exact h
  · have hfetched := (aside_fetch b (b.libraryItems.loadLibrary b.currentLibraryId "media.metadata.title" false
      (group ++ "." ++ b.env.base64 id))).current h
    exact Aside.current ⟨rfl, rfl, rfl, rfl, rfl⟩ hfetched

/-- Another library's playlists make way, and the shelf with them. -/
theorem Current.selectLibrary (h : b.Current) (libraryId : String) : (b.selectLibrary libraryId).Current := by
  unfold Backend.selectLibrary
  split
  · exact h
  · extract_lets cleared chosen noted
    have hcleared : cleared.Current := by
      unfold cleared
      split
      · exact updatePlaylistNextUp_current _
      · exact h
    have hnoted : noted.Current := Aside.current ⟨rfl, rfl, rfl, rfl, rfl⟩ hcleared
    exact hnoted.refreshHome.refreshPlaylists.browse _ _ _

theorem Current.search (h : b.Current) (query : String) : (b.search query).Current := by
  unfold Backend.search
  split_ifs <;> exact Aside.current ⟨rfl, rfl, rfl, rfl, rfl⟩ h

/-- The picks of the server that is signed in to are read, and the shelf follows them. -/
theorem Current.loadLibraries (h : b.Current) : b.loadLibraries.Current := by
  unfold Backend.loadLibraries
  extract_lets nextUp named
  have hnamed : named.Current := by
    unfold named
    split
    · exact h
    · exact updatePlaylistNextUp_current _
  exact (aside_get named _ _ _).current hnamed

theorem Current.setPlaylistNextUpEnabled (h : b.Current) (enabled : Bool) :
    (b.setPlaylistNextUpEnabled enabled).Current := by
  unfold Backend.setPlaylistNextUpEnabled
  split
  · exact h
  · exact updatePlaylistNextUp_current _

theorem Current.setNextUpPlaylist (h : b.Current) (playlistId : String) (enabled : Bool) :
    (b.setNextUpPlaylist playlistId enabled).Current := by
  unfold Backend.setNextUpPlaylist
  split
  · exact h
  · exact updatePlaylistNextUp_current _

/-- A store that says nothing has not changed. -/
theorem Current.progressChanged (h : b.Current) (progress : Option ProgressStore) :
    (b.progressChanged progress).Current := by
  cases progress with
  | none => exact h
  | some progress => exact updatePlaylistNextUp_current _

theorem reset_current (b : Backend) : b.reset.Current :=
  Aside.current ⟨rfl, rfl, rfl, rfl, rfl⟩ (updatePlaylistNextUp_current
    {b with
      serverGeneration := b.serverGeneration + 1
      searchGeneration := b.searchGeneration + 1
      currentLibraryId := ""
      libraries := []
      nextUpPlaylistIds := []
      homeShelves := b.homeShelves.setShelves []
      playlists := b.playlists.setPlaylists []})

/-! ### Replies -/

theorem Current.onLibraries (h : b.Current) (gen : Nat) (res : ApiResponse) : (b.onLibraries gen res).Current := by
  unfold Backend.onLibraries
  split
  · exact h
  · split
    · exact Aside.current ⟨rfl, rfl, rfl, rfl, rfl⟩ h
    · have hlisted (libraries : List Library) : ({b with libraries} : Backend).Current :=
        Aside.current ⟨rfl, rfl, rfl, rfl, rfl⟩ h
      dsimp only
      split
      · exact hlisted _
      · split
        · exact (hlisted _).selectLibrary _
        · exact hlisted _

theorem Current.onPlaylists (h : b.Current) (libraryId : String) (gen : Nat) (res : ApiResponse) :
    (b.onPlaylists libraryId gen res).Current := by
  unfold Backend.onPlaylists
  split
  · exact h
  · split
    · exact Aside.current ⟨rfl, rfl, rfl, rfl, rfl⟩ h
    · exact updatePlaylistNextUp_current _

theorem Current.onItem (h : b.Current) (itemId : String) (gen : Nat) (base : QUrl) (res : ApiResponse) :
    (b.onItem itemId gen base res).Current := by
  unfold Backend.onItem applyItemProgress
  split
  · exact h
  · split
    · dsimp only
      split <;> exact Aside.current ⟨rfl, rfl, rfl, rfl, rfl⟩ h
    · extract_lets obj key cached p
      have hcached : cached.Current := Aside.current ⟨rfl, rfl, rfl, rfl, rfl⟩ h
      split
      · exact Aside.current ⟨rfl, rfl, rfl, rfl, rfl⟩ hcached
      · exact Aside.current ⟨rfl, rfl, rfl, rfl, rfl⟩ (hcached.progressChanged _)

theorem Current.onMarkFinished (h : b.Current) (itemId : String) (finished : Bool) (gen : Nat)
    (res : ApiResponse) : (b.onMarkFinished itemId finished gen res).Current := by
  unfold Backend.onMarkFinished
  split
  · exact h
  · split
    · exact Aside.current ⟨rfl, rfl, rfl, rfl, rfl⟩ h
    · exact (aside_get _ _ _ _).current (h.progressChanged _)

theorem Current.call (h : b.Current) (closure : Closure) (res : ApiResponse) : (b.call closure res).Current := by
  cases closure with
  | libraries gen => exact h.onLibraries gen res
  | home gen =>
    show (b.onHome gen res).Current
    unfold onHome
    split_ifs <;> exact Aside.current ⟨rfl, rfl, rfl, rfl, rfl⟩ h
  | playlists libraryId gen => exact h.onPlaylists libraryId gen res
  | page page gen => exact Aside.current ⟨rfl, rfl, rfl, rfl, rfl⟩ h
  | search gen serverGen query =>
    show (b.onSearch gen serverGen query res).Current
    unfold onSearch
    split_ifs <;> exact Aside.current ⟨rfl, rfl, rfl, rfl, rfl⟩ h
  | item itemId gen base => exact h.onItem itemId gen base res
  | markFinished itemId finished gen => exact h.onMarkFinished itemId finished gen res

theorem Current.finished (h : b.Current) (id : Nat) (res : ApiResponse) : (b.finished id res).Current := by
  unfold Backend.finished
  split
  · exact h
  · next p outbox _ =>
    have htaken : ({b with outbox} : Backend).Current := Aside.current ⟨rfl, rfl, rfl, rfl, rfl⟩ h
    exact htaken.call _ res

theorem Current.handle (h : b.Current) (e : Event) : (b.handle e).Current := by
  cases e with
  | loadLibraries => exact h.loadLibraries
  | selectLibrary libraryId => exact h.selectLibrary libraryId
  | refreshHome => exact h.refreshHome
  | refreshPlaylists => exact h.refreshPlaylists
  | browse sort desc filter => exact h.browse sort desc filter
  | loadMore => exact (aside_fetch b _).current h
  | search query => exact h.search query
  | browseSeries seriesId => exact h.browseBy _ seriesId
  | browseAuthor authorId => exact h.browseBy _ authorId
  | loadItem itemId => exact (aside_get b _ _ _).current h
  | setPlaylistNextUpEnabled enabled => exact h.setPlaylistNextUpEnabled enabled
  | setNextUpPlaylist playlistId enabled => exact h.setNextUpPlaylist playlistId enabled
  | progress progress => exact h.progressChanged progress
  | reset => exact reset_current b
  | reply id res => exact h.finished id res
  | clearSearch | markFinished itemId finished | baseUrl server | clock now =>
    exact Aside.current ⟨rfl, rfl, rfl, rfl, rfl⟩ h

end Backend

/-! ### The backend among its models -/

namespace NextUp
open Backend

/-- An operation on the backend, or on one of the models it listens to. -/
inductive Event where
  | backend (e : Backend.Event)
  | setPlaylists (playlists : List Json)
  /-- The backend is given another store. -/
  | setProgressStore (progress : ProgressStore)
  | loadFromUser (user : Json)
  | clear
  | set (itemId : String) (fraction currentTime : Rat) (finished : Bool)
  | setFinished (itemId : String) (finished : Bool)
  | update (itemId : String) (currentTime duration : Rat) (finished : Bool)

def step (b : Backend) : Event → Backend
  | .backend e => Backend.machine.step b e
  | .setPlaylists playlists => b.fresh.setPlaylists playlists
  | .setProgressStore progress => {b.fresh with progress}.updatePlaylistNextUp
  | .loadFromUser user => b.fresh.progressChanged (some (b.progress.loadFromUser user))
  | .clear => b.fresh.progressChanged b.progress.clear
  | .set itemId fraction currentTime finished =>
    b.fresh.progressChanged (b.progress.set b.now itemId fraction currentTime finished)
  | .setFinished itemId finished => b.fresh.progressChanged (b.progress.setFinished itemId finished)
  | .update itemId currentTime duration finished =>
    b.fresh.progressChanged (b.progress.update b.now itemId currentTime duration finished)

def machine : Machine Backend Event := ⟨step⟩

theorem keeps : Machine.Keeps machine (fun _ _ => True) Current where
  step b e h _ := by
    have hfresh : b.fresh.Current := Aside.current ⟨rfl, rfl, rfl, rfl, rfl⟩ h
    cases e with
    | backend e => exact hfresh.handle e
    | setPlaylists playlists => exact updatePlaylistNextUp_current _
    | setProgressStore progress => exact updatePlaylistNextUp_current _
    | loadFromUser user => exact hfresh.progressChanged _
    | clear => exact hfresh.progressChanged _
    | set itemId fraction currentTime finished => exact hfresh.progressChanged _
    | setFinished itemId finished => exact hfresh.progressChanged _
    | update itemId currentTime duration finished => exact hfresh.progressChanged _

/-- **The next-up shelf is current.** After every operation on the backend, its playlists
and its progress store, the shelf holds the cards that are wanted of the state then. -/
theorem next_up_current (env : BackendEnv) (server : Endpoints) (settings : String → String)
    (itemCache : String → Option Json) (es : List Event) :
    (machine.run ({env, server, settings, itemCache} : Backend) es).homeShelves.nextUp =
      (machine.run ({env, server, settings, itemCache} : Backend) es).wanted :=
  keeps.always (s := {env, server, settings, itemCache}) rfl es

end NextUp

end ShelfRemote.App
