import ShelfRemote.App.Libraries

/-! Signing in again, and the replies from before.

`reset` empties the screens and moves the generations on. Every reply is held against
one of two of them: a page against the one of the grid, everything else against the one
of the server. They only grow (`Follows`), so what was asked before a reset is behind it
for good. -/
namespace ShelfRemote.App
open Qt Net Runs Model

namespace Backend

/-- The generation a request was made in. -/
def Closure.made : Closure → Nat
  | .libraries gen | .home gen | .playlists _ gen | .page _ gen | .search _ gen _ | .item _ gen _
  | .markFinished _ _ gen => gen

variable {b b' b'' : Backend}

/-- The generation its reply is held against. -/
def against (b : Backend) : Closure → Nat
  | .page _ _ => b.libraryItems.generation
  | .libraries _ | .home _ | .playlists _ _ | .search _ _ _ | .item _ _ _ | .markFinished _ _ _ =>
    b.serverGeneration

/-- From one state to a later one: the generations grow, and what has been sent since is
numbered on and made in the generations of its time. -/
structure Follows (b b' : Backend) : Prop where
  server : b.serverGeneration ≤ b'.serverGeneration
  grid : b.libraryItems.generation ≤ b'.libraryItems.generation
  created : b.outbox.created ≤ b'.outbox.created
  sent : ∀ p ∈ b'.outbox.inFlight, p ∈ b.outbox.inFlight ∨
    b.outbox.created ≤ p.id ∧ p.closure.closure.made ≤ b'.against p.closure.closure

theorem Follows.against (h : Follows b b') (closure : Closure) : b.against closure ≤ b'.against closure := by
  cases closure with
  | page page gen => exact h.grid
  | _ => exact h.server

theorem Follows.refl (b : Backend) : Follows b b :=
  ⟨Nat.le_refl _, Nat.le_refl _, Nat.le_refl _, fun _ hp => .inl hp⟩

theorem Follows.trans (h : Follows b b') (h' : Follows b' b'') : Follows b b'' where
  server := Nat.le_trans h.server h'.server
  grid := Nat.le_trans h.grid h'.grid
  created := Nat.le_trans h.created h'.created
  sent := fun p hp => by
    rcases h'.sent p hp with hold | ⟨hid, hmade⟩
    · rcases h.sent p hold with hold | ⟨hid, hmade⟩
      · exact .inl hold
      · exact .inr ⟨hid, Nat.le_trans hmade (h'.against _)⟩
    · exact .inr ⟨Nat.le_trans h.created hid, hmade⟩

/-- Nothing is sent. -/
theorem Follows.quiet (hserver : b.serverGeneration ≤ b'.serverGeneration)
    (hgrid : b.libraryItems.generation ≤ b'.libraryItems.generation) (hsent : b'.outbox = b.outbox) :
    Follows b b' :=
  ⟨hserver, hgrid, Nat.le_of_eq (congrArg Outbox.created hsent.symm), fun _ hp => .inl (hsent ▸ hp)⟩

/-- Nothing is sent and neither generation moves. -/
theorem Follows.still (hserver : b'.serverGeneration = b.serverGeneration)
    (hgrid : b'.libraryItems.generation = b.libraryItems.generation) (hsent : b'.outbox = b.outbox) :
    Follows b b' :=
  .quiet (Nat.le_of_eq hserver.symm) (Nat.le_of_eq hgrid.symm) hsent

theorem follows_send (b : Backend) (verb : Verb) (target : Target) (body : Json) {asked : Asked}
    (hmade : asked.closure.made ≤ b.against asked.closure) :
    Follows b {b with outbox := b.outbox.send verb target body asked} where
  server := Nat.le_refl _
  grid := Nat.le_refl _
  created := Nat.le_succ _
  sent := List.forall_mem_cons.mpr ⟨.inr ⟨Nat.le_refl _, hmade⟩, fun _ hp => .inl hp⟩

theorem follows_get (b : Backend) (target : Target) {closure : Closure} (library : Option String)
    (hmade : closure.made ≤ b.against closure) : Follows b (b.get target closure library) :=
  follows_send b .get target .null hmade

theorem follows_taken {id : Nat} {p : Sent Asked} {outbox : Outbox Asked}
    (htake : b.outbox.take id = some (p, outbox)) : Follows b {b with outbox} :=
  ⟨Nat.le_refl _, Nat.le_refl _, Nat.le_of_eq (Outbox.take_some htake).2.2.symm,
    fun _ hq => .inl (Outbox.take_rest htake hq)⟩

/-! ### One event -/

theorem loadLibraries_follows (b : Backend) : Follows b b.loadLibraries := by
  unfold loadLibraries
  extract_lets nextUp named
  have hnamed : Follows b named := by
    unfold named
    split
    · exact .refl b
    · exact .still rfl rfl rfl
  exact hnamed.trans (follows_get named _ none (Nat.le_refl _))

theorem refreshHome_follows (b : Backend) : Follows b b.refreshHome := by
  unfold refreshHome
  split
  · exact .refl b
  · exact follows_get b _ _ (Nat.le_refl _)

theorem refreshPlaylists_follows (b : Backend) : Follows b b.refreshPlaylists := by
  unfold refreshPlaylists
  split
  · exact .refl b
  · exact follows_get b _ _ (Nat.le_refl _)

/-- A page is asked for in the generation the grid is in by then. -/
theorem fetch_follows (b : Backend) {asked : LibraryItemsModel × Option PageRequest}
    (hgrid : b.libraryItems.generation ≤ asked.1.generation)
    (hpage : ∀ r, asked.2 = some r → r.generation = asked.1.generation) : Follows b (b.fetch asked) := by
  have hmoved : Follows b {b with libraryItems := asked.1} := .quiet (Nat.le_refl _) hgrid rfl
  unfold fetch
  dsimp only
  split
  · exact hmoved
  · next r hr => exact hmoved.trans (follows_get _ _ _ (Nat.le_of_eq (hpage r hr)))

theorem fetchPage_generation (m : LibraryItemsModel) (page : Nat) :
    (m.fetchPage page).1.generation = m.generation ∧
      ∀ r, (m.fetchPage page).2 = some r → r.generation = m.generation := by
  unfold LibraryItemsModel.fetchPage
  split
  · exact ⟨rfl, fun _ hr => nomatch hr⟩
  · exact ⟨rfl, fun r hr => by cases hr; rfl⟩

theorem loadLibrary_generation (m : LibraryItemsModel) (libraryId sort : String) (desc : Bool) (filter : String) :
    (m.loadLibrary libraryId sort desc filter).1.generation = m.generation + 1 ∧
      ∀ r, (m.loadLibrary libraryId sort desc filter).2 = some r → r.generation = m.generation + 1 :=
  fetchPage_generation _ 0

theorem loadLibrary_follows (b : Backend) (libraryId sort : String) (desc : Bool) (filter : String) :
    Follows b (b.fetch (b.libraryItems.loadLibrary libraryId sort desc filter)) := by
  obtain ⟨hnext, hpage⟩ := loadLibrary_generation b.libraryItems libraryId sort desc filter
  exact fetch_follows b (hnext ▸ Nat.le_succ _) fun r hr => (hpage r hr).trans hnext.symm

theorem loadMore_follows (b : Backend) : Follows b b.loadMore := by
  unfold loadMore LibraryItemsModel.loadMore
  split
  · obtain ⟨hsame, hpage⟩ := fetchPage_generation b.libraryItems (b.libraryItems.page + 1)
    exact fetch_follows b (Nat.le_of_eq hsame.symm) fun r hr => (hpage r hr).trans hsame.symm
  · exact fetch_follows b (Nat.le_refl _) fun _ hr => nomatch hr

theorem browse_follows (b : Backend) (sort : String) (desc : Bool) (filter : String) :
    Follows b (b.browse sort desc filter) := by
  unfold browse
  split
  · exact .refl b
  · exact loadLibrary_follows b _ sort desc filter

theorem browseBy_follows (b : Backend) (group id : String) : Follows b (b.browseBy group id) := by
  unfold browseBy
  split
  · exact .refl b
  · exact (loadLibrary_follows b _ _ _ _).trans (.still rfl rfl rfl)

theorem selectLibrary_follows (b : Backend) (libraryId : String) : Follows b (b.selectLibrary libraryId) := by
  unfold selectLibrary
  split
  · exact .refl b
  · extract_lets cleared chosen noted
    have hnoted : Follows b noted := by
      refine .still ?_ ?_ ?_ <;> (unfold noted chosen cleared; split <;> rfl)
    exact ((hnoted.trans (refreshHome_follows _)).trans (refreshPlaylists_follows _)).trans
      (browse_follows _ _ _ _)

theorem search_follows (b : Backend) (query : String) : Follows b (b.search query) := by
  unfold search
  split_ifs
  · exact .still rfl rfl rfl
  · exact .still rfl rfl rfl
  · have hnext : Follows b {b with searchGeneration := b.searchGeneration + 1} := .still rfl rfl rfl
    exact hnext.trans (follows_get _ _ _ (Nat.le_refl _))

theorem loadItem_follows (b : Backend) (itemId : String) : Follows b (b.loadItem itemId) :=
  follows_get b _ none (Nat.le_refl _)

theorem setPlaylistNextUpEnabled_follows (b : Backend) (enabled : Bool) :
    Follows b (b.setPlaylistNextUpEnabled enabled) := by
  unfold setPlaylistNextUpEnabled
  split
  · exact .refl b
  · exact .still rfl rfl rfl

theorem setNextUpPlaylist_follows (b : Backend) (playlistId : String) (enabled : Bool) :
    Follows b (b.setNextUpPlaylist playlistId enabled) := by
  unfold setNextUpPlaylist
  split
  · exact .refl b
  · exact .still rfl rfl rfl

theorem progressChanged_follows (b : Backend) (progress : Option ProgressStore) :
    Follows b (b.progressChanged progress) := by
  cases progress with
  | none => exact .refl b
  | some progress => exact .still rfl rfl rfl

theorem reset_follows (b : Backend) : Follows b b.reset := .quiet (Nat.le_succ _) (Nat.le_succ _) rfl

theorem onLibraries_follows (b : Backend) (gen : Nat) (res : ApiResponse) : Follows b (b.onLibraries gen res) := by
  unfold onLibraries
  split
  · exact .refl b
  · split
    · exact .still rfl rfl rfl
    · have hlisted (libraries : List Library) : Follows b {b with libraries} := .still rfl rfl rfl
      dsimp only
      split
      · exact hlisted _
      · split
        · exact (hlisted _).trans (selectLibrary_follows _ _)
        · exact hlisted _

theorem onItem_follows (b : Backend) (itemId : String) (gen : Nat) (base : QUrl) (res : ApiResponse) :
    Follows b (b.onItem itemId gen base res) := by
  unfold onItem applyItemProgress
  split
  · exact .refl b
  · split
    · dsimp only
      split
      · exact .still rfl rfl rfl
      · exact .still rfl rfl rfl
    · extract_lets obj key cached p
      have hcached : Follows b cached := .still rfl rfl rfl
      split
      · exact hcached.trans (.still rfl rfl rfl)
      · exact (hcached.trans (progressChanged_follows _ _)).trans (.still rfl rfl rfl)

theorem onMarkFinished_follows (b : Backend) (itemId : String) (finished : Bool) (gen : Nat)
    (res : ApiResponse) : Follows b (b.onMarkFinished itemId finished gen res) := by
  unfold onMarkFinished
  split
  · exact .refl b
  · split
    · exact .still rfl rfl rfl
    · exact (progressChanged_follows b _).trans (loadItem_follows _ itemId)

theorem onPage_generation (m : LibraryItemsModel) (page gen : Nat) (res : ApiResponse) :
    (m.onPage page gen res).generation = m.generation := by
  unfold LibraryItemsModel.onPage
  dsimp only
  split_ifs <;> rfl

theorem call_follows (b : Backend) (closure : Closure) (res : ApiResponse) : Follows b (b.call closure res) := by
  cases closure with
  | libraries gen => exact onLibraries_follows b gen res
  | home gen =>
    show Follows b (b.onHome gen res)
    unfold onHome
    split_ifs <;> exact .still rfl rfl rfl
  | playlists libraryId gen =>
    show Follows b (b.onPlaylists libraryId gen res)
    unfold onPlaylists
    split_ifs <;> exact .still rfl rfl rfl
  | page page gen => exact .still rfl (onPage_generation b.libraryItems page gen res) rfl
  | search gen serverGen query =>
    show Follows b (b.onSearch gen serverGen query res)
    unfold onSearch
    split_ifs <;> exact .still rfl rfl rfl
  | item itemId gen base => exact onItem_follows b itemId gen base res
  | markFinished itemId finished gen => exact onMarkFinished_follows b itemId finished gen res

theorem finished_follows (b : Backend) (id : Nat) (res : ApiResponse) : Follows b (b.finished id res) := by
  unfold finished
  split
  · exact .refl b
  · next p outbox htake => exact (follows_taken htake).trans (call_follows _ _ res)

theorem step_follows (b : Backend) (e : Event) : Follows b (machine.step b e) := by
  have hfresh : Follows b b.fresh := .still rfl rfl rfl
  refine hfresh.trans ?_
  cases e with
  | loadLibraries => exact loadLibraries_follows _
  | selectLibrary libraryId => exact selectLibrary_follows _ libraryId
  | refreshHome => exact refreshHome_follows _
  | refreshPlaylists => exact refreshPlaylists_follows _
  | browse sort desc filter => exact browse_follows _ sort desc filter
  | loadMore => exact loadMore_follows _
  | search query => exact search_follows _ query
  | browseSeries seriesId => exact browseBy_follows _ _ seriesId
  | browseAuthor authorId => exact browseBy_follows _ _ authorId
  | loadItem itemId => exact loadItem_follows _ itemId
  | markFinished itemId finished => exact follows_send _ _ _ _ (Nat.le_refl _)
  | setPlaylistNextUpEnabled enabled => exact setPlaylistNextUpEnabled_follows _ enabled
  | setNextUpPlaylist playlistId enabled => exact setNextUpPlaylist_follows _ playlistId enabled
  | progress progress => exact progressChanged_follows _ progress
  | reset => exact reset_follows _
  | reply id res => exact finished_follows _ id res
  | clearSearch | baseUrl server | clock now => exact .still rfl rfl rfl

/-! ### Every run -/

theorem run_follows (b : Backend) (es : List Event) : Follows b (machine.run b es) := by
  induction es generalizing b with
  | nil => exact .refl b
  | cons e es ih => exact (step_follows b e).trans (ih _)

/-- The reply to a request of an earlier generation is dropped. -/
theorem call_outdated {closure : Closure} (h : closure.made < b.against closure) (res : ApiResponse) :
    b.call closure res = b := by
  cases closure with
  | page page gen =>
    exact congrArg (fun grid => {b with libraryItems := grid}) (onPage_left (Nat.ne_of_lt h) page res)
  | libraries gen | home gen | playlists libraryId gen | search gen serverGen query | item itemId gen base
  | markFinished itemId finished gen =>
    have hlate : _ ≠ b.serverGeneration := Nat.ne_of_lt h
    simp only [Closure.made] at hlate
    exact if_pos (by simp [hlate])

/-- What the user sees of a server, and what is kept of it. -/
def content (b : Backend) : (List Library × String) × (ShelfModel × PlaylistModel) ×
    (LibraryItemsModel × LibraryItemsModel) × (String → Option Json) × ProgressStore :=
  ((b.libraries, b.currentLibraryId), (b.homeShelves, b.playlists), (b.libraryItems, b.searchResults),
    b.itemCache, b.progress)

/-- A reset leaves behind all that is in flight. -/
theorem behind_reset {env : BackendEnv} {server : Endpoints} {settings : String → String}
    {itemCache : String → Option Json} {es : List Event} {p : Sent Asked}
    (hp : p ∈ (machine.run (start env server settings itemCache) (es ++ [.reset])).outbox.inFlight) :
    p.closure.closure.made <
      (machine.run (start env server settings itemCache) (es ++ [.reset])).against p.closure.closure := by
  rw [Machine.run_append] at hp ⊢
  generalize hb : machine.run (start env server settings itemCache) es = b at hp ⊢
  have hmade : p.closure.closure.made ≤ b.against p.closure.closure := by
    rcases (hb ▸ run_follows _ es).sent p hp with hnone | ⟨-, hmade⟩
    · cases hnone
    · exact hmade
  refine Nat.lt_of_le_of_lt hmade ?_
  cases p.closure.closure <;> exact Nat.lt_succ_self _

/-- **A reset isolates.** In every run, a reply to a request that was made before a reset
changes nothing the user sees of a server and nothing that is kept of it, and emits
nothing, whatever has happened since. -/
theorem reset_isolates (env : BackendEnv) (server : Endpoints) (settings : String → String)
    (itemCache : String → Option Json) (es es' : List Event) (id : Nat) (res : ApiResponse) :
    let atReset := machine.run (start env server settings itemCache) (es ++ [.reset])
    let b := machine.run atReset es'
    id < atReset.outbox.created →
      (machine.step b (.reply id res)).content = b.content ∧ (machine.step b (.reply id res)).signals = [] := by
  intro atReset b hid
  have hstep : machine.step b (.reply id res) = b.fresh.finished id res := rfl
  rw [hstep]
  unfold finished
  split
  · exact ⟨rfl, rfl⟩
  · next p outbox htake =>
    have hold : p ∈ atReset.outbox.inFlight := by
      rcases (run_follows atReset es').sent p (Outbox.take_mem htake) with hold | ⟨hlate, -⟩
      · exact hold
      · rw [(Outbox.take_some htake).1] at hlate
        exact absurd hid (Nat.not_lt.mpr hlate)
    have hbehind : p.closure.closure.made < b.against p.closure.closure :=
      Nat.lt_of_lt_of_le (behind_reset hold) ((run_follows atReset es').against _)
    have hdropped : ({b.fresh with outbox} : Backend).call p.closure.closure res = {b.fresh with outbox} :=
      call_outdated (b := {b.fresh with outbox}) hbehind res
    exact ⟨(congrArg content hdropped).trans rfl, (congrArg Backend.signals hdropped).trans rfl⟩

/-- Home of the account that has signed out comes while the next one looks at a library. -/
theorem reset_isolates_home :
    let atReset := machine.run (start default default (fun _ => "") (fun _ => none)) (switch ++ [.reset])
    let b := machine.run atReset [.selectLibrary "podcasts"]
    let home : ApiResponse := ⟨200, true, false, .array [.object [("id", .string "continue-listening")]], "", none⟩
    (b.outbox.take 0).isSome = true ∧ (machine.step b (.reply 0 home)).content = b.content ∧
      (machine.step b (.reply 0 home)).signals = [] :=
  ⟨by decide +kernel,
    reset_isolates default default (fun _ => "") (fun _ => none) switch [.selectLibrary "podcasts"] 0 _
      (by decide +kernel)⟩

end Backend

end ShelfRemote.App
