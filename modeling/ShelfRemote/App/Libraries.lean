import ShelfRemote.App.Backend

/-! Libraries of one server, and the replies that outlive them.

Each screen drops late replies by a check of its own. The playlists compare the
library of the request, and the grid its load, which never outlives the library
(`Kept`). The Home shelves and the search compare neither; `left_libraries` says
when that shows. -/
namespace ShelfRemote.App
open Qt Net Runs Model

namespace Backend
variable {b b' : Backend}

/-- A backend at the start, signed out, over a database. -/
def start (env : BackendEnv) (server : Endpoints) (settings : String → String)
    (itemCache : String → Option Json) : Backend :=
  {env, server, settings, itemCache}

/-! ### What is in flight -/

/-- What a request remembers of its library, and of the load it belongs to. -/
def Asked.Tagged (generation : Nat) (a : Asked) : Prop :=
  match a.closure with
  | .playlists libraryId _ => a.library = some libraryId
  | .page _ gen => gen ≤ generation
  | .home _ | .search _ _ _ => True
  | .libraries _ | .item _ _ _ | .markFinished _ _ _ => a.library = none

def Past (b : Backend) : Prop := ∀ p ∈ b.outbox.inFlight, p.closure.Tagged b.libraryItems.generation

/-- The load of the grid is one of the current library. -/
structure Kept (b : Backend) : Prop where
  past : b.Past
  more : b.libraryItems.hasMore = true → b.libraryItems.libraryId = b.currentLibraryId
  load : ∀ p ∈ b.outbox.inFlight, ∀ page, p.closure.closure = .page page b.libraryItems.generation →
    p.closure.library = some b.currentLibraryId ∧ b.libraryItems.libraryId = b.currentLibraryId

theorem kept_start (env : BackendEnv) (server : Endpoints) (settings : String → String)
    (itemCache : String → Option Json) : (start env server settings itemCache).Kept where
  past := fun _ hp => nomatch hp
  more := fun h => nomatch h
  load := fun _ hp => nomatch hp

/-- Neither looks at anything but the grid, the current library and the requests. -/
theorem Past.frame (h : b.Past) (hgrid : b'.libraryItems = b.libraryItems) (hsent : b'.outbox = b.outbox) :
    b'.Past := by
  unfold Past
  rw [hgrid, hsent]
  exact h

theorem Kept.frame (h : b.Kept) (hgrid : b'.libraryItems = b.libraryItems) (hsent : b'.outbox = b.outbox)
    (hcurrent : b'.currentLibraryId = b.currentLibraryId) : b'.Kept where
  past := h.past.frame hgrid hsent
  more := by rw [hgrid, hcurrent]; exact h.more
  load := by rw [hgrid, hcurrent, hsent]; exact h.load

/-! ### Requests -/

theorem Past.get (h : b.Past) (target : Target) {closure : Closure} {library : Option String}
    (htagged : Asked.Tagged b.libraryItems.generation ⟨closure, library⟩) : (b.get target closure library).Past :=
  List.forall_mem_cons.mpr ⟨htagged, h⟩

/-- Requests of the other screens are no concern of the grid. -/
theorem Kept.get (h : b.Kept) (target : Target) {closure : Closure} {library : Option String}
    (htagged : Asked.Tagged b.libraryItems.generation ⟨closure, library⟩)
    (hother : ∀ page gen, closure ≠ .page page gen) : (b.get target closure library).Kept where
  past := h.past.get target htagged
  more := h.more
  load := List.forall_mem_cons.mpr ⟨fun page he => absurd he (hother page _), h.load⟩

/-- A page of the load that is current. -/
theorem Kept.getPage (h : b.Kept) (target : Target) (page : Nat)
    (hcurrent : b.libraryItems.libraryId = b.currentLibraryId) :
    (b.get target (.page page b.libraryItems.generation) b.currentLibraryId).Kept where
  past := h.past.get target (Nat.le_refl b.libraryItems.generation)
  more := h.more
  load := List.forall_mem_cons.mpr ⟨fun _ _ => ⟨rfl, hcurrent⟩, h.load⟩

/-- A new load leaves the pages of the last one behind. -/
theorem Past.loaded (h : b.Past) {grid : LibraryItemsModel}
    (hload : grid.generation = b.libraryItems.generation + 1) (hmore : grid.hasMore = false) :
    {b with libraryItems := grid}.Kept where
  past := fun p hp => by
    have htagged := h p hp
    show p.closure.Tagged grid.generation
    unfold Asked.Tagged at htagged ⊢
    split at htagged
    · exact htagged
    · exact hload ▸ Nat.le_succ_of_le htagged
    · trivial
    · trivial
    · exact htagged
    · exact htagged
    · exact htagged
  more := fun hm => absurd hm (by simp [hmore])
  load := fun p hp page he => by
    have htagged := h p hp
    simp only [Asked.Tagged, he] at htagged
    omega

theorem Past.loadLibrary (h : b.Past) (hsome : b.currentLibraryId ≠ "") (sort : String) (desc : Bool)
    (filter : String) : (b.fetch (b.libraryItems.loadLibrary b.currentLibraryId sort desc filter)).Kept := by
  simp only [LibraryItemsModel.loadLibrary, LibraryItemsModel.fetchPage, if_neg hsome, fetch]
  exact (h.loaded rfl rfl).getPage _ 0 rfl

theorem Past.refreshHome (h : b.Past) : b.refreshHome.Past := by
  unfold Backend.refreshHome
  split
  · exact h
  · exact h.get _ trivial

theorem Past.refreshPlaylists (h : b.Past) : b.refreshPlaylists.Past := by
  unfold Backend.refreshPlaylists
  split
  · exact h
  · exact h.get _ rfl

@[simp] theorem refreshHome_current (b : Backend) : b.refreshHome.currentLibraryId = b.currentLibraryId := by
  unfold Backend.refreshHome
  split <;> rfl

@[simp] theorem refreshPlaylists_current (b : Backend) :
    b.refreshPlaylists.currentLibraryId = b.currentLibraryId := by
  unfold Backend.refreshPlaylists
  split <;> rfl

theorem Kept.selectLibrary (h : b.Kept) (libraryId : String) : (b.selectLibrary libraryId).Kept := by
  unfold Backend.selectLibrary
  split
  · exact h
  · next hsome =>
    extract_lets cleared chosen noted
    have hcleared : cleared.Past := by
      unfold cleared
      split
      · exact h.past.frame rfl rfl
      · exact h.past
    have hpast : noted.refreshHome.refreshPlaylists.Past :=
      Past.refreshPlaylists (Past.refreshHome (hcleared.frame rfl rfl))
    have hcurrent : noted.refreshHome.refreshPlaylists.currentLibraryId = libraryId := by
      rw [refreshPlaylists_current, refreshHome_current]
      rfl
    have hnot : noted.refreshHome.refreshPlaylists.currentLibraryId ≠ "" := hcurrent ▸ hsome
    unfold Backend.browse
    rw [if_neg hnot]
    exact hpast.loadLibrary hnot _ _ _

theorem Kept.browse (h : b.Kept) (sort : String) (desc : Bool) (filter : String) :
    (b.browse sort desc filter).Kept := by
  unfold Backend.browse
  split
  · exact h
  · next hsome => exact h.past.loadLibrary hsome sort desc filter

theorem Kept.browseBy (h : b.Kept) (group id : String) : (b.browseBy group id).Kept := by
  unfold Backend.browseBy
  split
  · exact h
  · next hsome =>
    have hloaded := h.past.loadLibrary (not_or.mp hsome).1 "media.metadata.title" false
      (group ++ "." ++ b.env.base64 id)
    exact hloaded.frame rfl rfl rfl

theorem Kept.loadMore (h : b.Kept) : b.loadMore.Kept := by
  unfold Backend.loadMore LibraryItemsModel.loadMore
  split
  · next hmore =>
    have hcurrent := h.more (Bool.and_eq_true_iff.mp hmore).1
    unfold LibraryItemsModel.fetchPage
    split
    · exact h.frame rfl rfl rfl
    · have hloading : {b with libraryItems := {b.libraryItems with loading := true}}.Kept :=
        ⟨h.past, h.more, h.load⟩
      have hpage := hloading.getPage (b.server.libraryItems b.libraryItems.libraryId
        (b.libraryItems.baseQuery ++
          [("limit", toString b.libraryItems.limit), ("page", toString (b.libraryItems.page + 1))]))
        (b.libraryItems.page + 1) hcurrent
      simp only [fetch, hcurrent] at hpage ⊢
      exact hpage
  · exact h.frame rfl rfl rfl

theorem Kept.search (h : b.Kept) (query : String) : (b.search query).Kept := by
  unfold Backend.search
  split
  · exact h.frame rfl rfl rfl
  · split
    · exact h.frame rfl rfl rfl
    · have hnext : {b with searchGeneration := b.searchGeneration + 1}.Kept := h.frame rfl rfl rfl
      exact hnext.get _ trivial (fun _ _ he => nomatch he)

theorem Kept.loadLibraries (h : b.Kept) : b.loadLibraries.Kept := by
  unfold Backend.loadLibraries
  extract_lets nextUp named
  have hnamed : named.Kept := by
    unfold named
    split
    · exact h
    · exact h.frame rfl rfl rfl
  exact hnamed.get _ rfl (fun _ _ he => nomatch he)

theorem Kept.refreshHome (h : b.Kept) : b.refreshHome.Kept := by
  unfold Backend.refreshHome
  split
  · exact h
  · exact h.get _ trivial (fun _ _ he => nomatch he)

theorem Kept.refreshPlaylists (h : b.Kept) : b.refreshPlaylists.Kept := by
  unfold Backend.refreshPlaylists
  split
  · exact h
  · exact h.get _ rfl (fun _ _ he => nomatch he)

theorem Kept.loadItem (h : b.Kept) (itemId : String) : (b.loadItem itemId).Kept :=
  h.get _ rfl (fun _ _ he => nomatch he)

theorem Kept.markFinished (h : b.Kept) (itemId : String) (finished : Bool) :
    (b.markFinished itemId finished).Kept where
  past := List.forall_mem_cons.mpr ⟨rfl, h.past⟩
  more := h.more
  load := List.forall_mem_cons.mpr ⟨fun _ he => (nomatch he), h.load⟩

theorem Kept.progressChanged (h : b.Kept) (progress : Option ProgressStore) :
    (b.progressChanged progress).Kept := by
  cases progress with
  | none => exact h
  | some progress => exact h.frame rfl rfl rfl

theorem Kept.reset (h : b.Kept) : b.reset.Kept := by
  have hout : {b with currentLibraryId := ""}.Past := h.past
  have hloaded : {b with currentLibraryId := "", libraryItems := b.libraryItems.setItems []}.Kept :=
    hout.loaded rfl rfl
  exact hloaded.frame rfl rfl rfl

theorem Kept.setPlaylistNextUpEnabled (h : b.Kept) (enabled : Bool) :
    (b.setPlaylistNextUpEnabled enabled).Kept := by
  unfold Backend.setPlaylistNextUpEnabled
  split
  · exact h
  · exact h.frame rfl rfl rfl

theorem Kept.setNextUpPlaylist (h : b.Kept) (playlistId : String) (enabled : Bool) :
    (b.setNextUpPlaylist playlistId enabled).Kept := by
  unfold Backend.setNextUpPlaylist
  split
  · exact h
  · exact h.frame rfl rfl rfl

/-! ### Replies -/

theorem Kept.onLibraries (h : b.Kept) (gen : Nat) (res : ApiResponse) : (b.onLibraries gen res).Kept := by
  unfold Backend.onLibraries
  split
  · exact h
  · split
    · exact h.frame rfl rfl rfl
    · have hlisted (libraries : List Library) : {b with libraries}.Kept := h.frame rfl rfl rfl
      dsimp only
      split
      · exact hlisted _
      · split
        · exact (hlisted _).selectLibrary _
        · exact hlisted _

theorem Kept.onHome (h : b.Kept) (gen : Nat) (res : ApiResponse) : (b.onHome gen res).Kept := by
  unfold Backend.onHome
  split
  · exact h
  · split
    · exact h.frame rfl rfl rfl
    · exact h

theorem Kept.onPlaylists (h : b.Kept) (libraryId : String) (gen : Nat) (res : ApiResponse) :
    (b.onPlaylists libraryId gen res).Kept := by
  unfold Backend.onPlaylists
  split
  · exact h
  · split
    · exact h.frame rfl rfl rfl
    · exact h.frame rfl rfl rfl

theorem Kept.onSearch (h : b.Kept) (gen serverGen : Nat) (query : String) (res : ApiResponse) :
    (b.onSearch gen serverGen query res).Kept := by
  unfold Backend.onSearch
  split
  · exact h
  · split
    · exact h.frame rfl rfl rfl
    · exact h.frame rfl rfl rfl

theorem Kept.onItem (h : b.Kept) (itemId : String) (gen : Nat) (base : QUrl) (res : ApiResponse) :
    (b.onItem itemId gen base res).Kept := by
  unfold Backend.onItem
  split
  · exact h
  · split
    · dsimp only
      split
      · exact h.frame rfl rfl rfl
      · exact h.frame rfl rfl rfl
    · extract_lets obj key cached
      have hcached : cached.Kept := h.frame rfl rfl rfl
      unfold applyItemProgress
      dsimp only
      split
      · exact hcached.frame rfl rfl rfl
      · exact (hcached.progressChanged _).frame rfl rfl rfl

theorem Kept.onMarkFinished (h : b.Kept) (itemId : String) (finished : Bool) (gen : Nat) (res : ApiResponse) :
    (b.onMarkFinished itemId finished gen res).Kept := by
  unfold Backend.onMarkFinished
  split
  · exact h
  · split
    · exact h.frame rfl rfl rfl
    · exact (h.progressChanged _).loadItem itemId

/-- A page is taken in by the load it belongs to. -/
theorem Kept.onPage (h : b.Kept) {page gen : Nat} (res : ApiResponse)
    (hload : gen = b.libraryItems.generation → b.libraryItems.libraryId = b.currentLibraryId) :
    {b with libraryItems := b.libraryItems.onPage page gen res}.Kept := by
  unfold LibraryItemsModel.onPage
  split
  · exact h
  · next hheeded =>
    have hgen : gen = b.libraryItems.generation := by
      by_contra hne
      exact hheeded (by simp [hne])
    dsimp only
    split
    · exact ⟨h.past, h.more, h.load⟩
    · exact ⟨h.past, fun _ => hload hgen, h.load⟩

theorem Kept.taken (h : b.Kept) {id : Nat} {p : Sent Asked} {outbox : Outbox Asked}
    (htake : b.outbox.take id = some (p, outbox)) : {b with outbox}.Kept where
  past := fun q hq => h.past q (Outbox.take_rest htake hq)
  more := h.more
  load := fun q hq => h.load q (Outbox.take_rest htake hq)

theorem Kept.finished (h : b.Kept) (id : Nat) (res : ApiResponse) : (b.finished id res).Kept := by
  unfold Backend.finished
  cases htake : b.outbox.take id with
  | none => exact h
  | some taken =>
    obtain ⟨p, outbox⟩ := taken
    have htaken := h.taken htake
    dsimp only
    unfold call
    cases hclosure : p.closure.closure with
    | libraries gen => exact htaken.onLibraries gen res
    | home gen => exact htaken.onHome gen res
    | playlists libraryId gen => exact htaken.onPlaylists libraryId gen res
    | page page gen =>
      refine htaken.onPage res fun hgen => ?_
      exact (h.load p (Outbox.take_mem htake) page (hgen ▸ hclosure)).2
    | search gen serverGen query => exact htaken.onSearch gen serverGen query res
    | item itemId gen base => exact htaken.onItem itemId gen base res
    | markFinished itemId finished gen => exact htaken.onMarkFinished itemId finished gen res

theorem keeps_kept : Machine.Keeps machine (fun _ _ => True) Kept where
  step := fun b e h _ => by
    have hfresh : b.fresh.Kept := h.frame rfl rfl rfl
    cases e with
    | loadLibraries => exact hfresh.loadLibraries
    | selectLibrary libraryId => exact hfresh.selectLibrary libraryId
    | refreshHome => exact hfresh.refreshHome
    | refreshPlaylists => exact hfresh.refreshPlaylists
    | browse sort desc filter => exact hfresh.browse sort desc filter
    | loadMore => exact hfresh.loadMore
    | search query => exact hfresh.search query
    | clearSearch => exact hfresh.frame rfl rfl rfl
    | browseSeries seriesId => exact hfresh.browseBy _ seriesId
    | browseAuthor authorId => exact hfresh.browseBy _ authorId
    | loadItem itemId => exact hfresh.loadItem itemId
    | markFinished itemId finished => exact hfresh.markFinished itemId finished
    | setPlaylistNextUpEnabled enabled => exact hfresh.setPlaylistNextUpEnabled enabled
    | setNextUpPlaylist playlistId enabled => exact hfresh.setNextUpPlaylist playlistId enabled
    | progress progress => exact hfresh.progressChanged progress
    | reset => exact hfresh.reset
    | reply id res => exact hfresh.finished id res
    | baseUrl server => exact hfresh.frame rfl rfl rfl
    | clock now => exact hfresh.frame rfl rfl rfl

/-! ### Libraries that were left -/

/-- What the screens show. -/
def shown (b : Backend) : ShelfModel × PlaylistModel × List Json × List Json :=
  (b.homeShelves, b.playlists, b.libraryItems.items, b.searchResults.items)

/-- The reply to a request for a library that is not the current one any more. -/
def Left (b : Backend) (id : Nat) : Option Closure :=
  (b.outbox.take id).bind fun (p, _) =>
    p.closure.library.bind fun libraryId =>
      if libraryId = b.currentLibraryId then none else some p.closure.closure

/-- Such a reply changes nothing that is shown. -/
def Unmoved (b : Backend) : Event → Prop
  | .reply id res => b.Left id ≠ none → (machine.step b (.reply id res)).shown = b.shown
  | _ => True

/-- The reply has nothing to show: it is stale or failed, the screen has moved on, or
it brings what is shown already. -/
def Unheeded (b : Backend) (closure : Closure) (res : ApiResponse) : Prop :=
  match closure with
  | .home gen =>
    res.stale = true ∨ gen ≠ b.serverGeneration ∨ res.ok = false ∨ res.body.toArray = b.homeShelves.shelves
  | .search gen serverGen _ =>
    res.stale = true ∨ gen ≠ b.searchGeneration ∨ serverGen ≠ b.serverGeneration ∨ res.ok = false ∨
      (b.searchResults.setItems (hits res.body.toObject)).items = b.searchResults.items
  | _ => True

/-- Home and the search have nothing to show of a library that was left. -/
def Spared (b : Backend) : Event → Prop
  | .reply id res => ∀ closure, b.Left id = some closure → b.Unheeded closure res
  | _ => True

theorem onHome_shown (b : Backend) (gen : Nat) (res : ApiResponse) :
    (b.onHome gen res).shown = b.shown ↔ b.Unheeded (.home gen) res := by
  unfold onHome Unheeded
  split
  · next hlate =>
    simp only [Bool.or_eq_true, bne_iff_ne] at hlate
    exact iff_of_true rfl (hlate.imp_right .inl)
  · next hlate =>
    simp only [Bool.or_eq_true, bne_iff_ne, not_or, not_not] at hlate
    split
    · next hok =>
      have hshelves : {b.homeShelves with shelves := res.body.toArray} = b.homeShelves ↔
          res.body.toArray = b.homeShelves.shelves := by
        constructor
        · exact fun h => congrArg ShelfModel.shelves h
        · exact fun h => by rw [h]
      simpa [shown, ShelfModel.setShelves, hlate, hok] using hshelves
    · next hfailed => exact iff_of_true rfl (.inr (.inr (.inl (by simpa using hfailed))))

theorem onSearch_shown (b : Backend) (gen serverGen : Nat) (query : String) (res : ApiResponse) :
    (b.onSearch gen serverGen query res).shown = b.shown ↔ b.Unheeded (.search gen serverGen query) res := by
  unfold onSearch Unheeded
  split
  · next hlate =>
    simp only [Bool.or_eq_true, bne_iff_ne, or_assoc] at hlate
    exact iff_of_true rfl (hlate.imp_right (Or.imp_right .inl))
  · next hlate =>
    simp only [Bool.or_eq_true, bne_iff_ne, not_or, not_not] at hlate
    split
    · next hfailed => exact iff_of_true rfl (.inr (.inr (.inr (.inl (by simpa using hfailed)))))
    · next hok =>
      have hok : res.ok = true := by simpa using hok
      simp only [shown, emit, hlate, hok, Prod.mk.injEq, true_and, ne_eq, not_true_eq_false, Bool.true_eq_false,
        false_or]
      simp

theorem onPlaylists_left {libraryId : String} (h : libraryId ≠ b.currentLibraryId) (gen : Nat)
    (res : ApiResponse) : b.onPlaylists libraryId gen res = b := by
  unfold onPlaylists
  exact if_pos (by simp [h])

theorem onPage_left {m : LibraryItemsModel} {gen : Nat} (h : gen ≠ m.generation) (page : Nat)
    (res : ApiResponse) : m.onPage page gen res = m := by
  unfold LibraryItemsModel.onPage
  exact if_pos (by simp [h])

theorem call_shown {asked : Asked} {libraryId : String} (htagged : asked.Tagged b.libraryItems.generation)
    (hload : ∀ page, asked.closure = .page page b.libraryItems.generation → asked.library = some b.currentLibraryId)
    (hlibrary : asked.library = some libraryId) (hne : libraryId ≠ b.currentLibraryId) (res : ApiResponse) :
    (b.call asked.closure res).shown = b.shown ↔ b.Unheeded asked.closure res := by
  simp only [Asked.Tagged, hlibrary] at htagged
  cases hclosure : asked.closure with
  | home gen => exact onHome_shown b gen res
  | search gen serverGen query => exact onSearch_shown b gen serverGen query res
  | playlists listed gen =>
    rw [hclosure] at htagged
    have hlisted : listed ≠ b.currentLibraryId := Option.some.inj htagged ▸ hne
    exact iff_of_true (congrArg shown (onPlaylists_left hlisted gen res)) trivial
  | page page gen =>
    have hgen : gen ≠ b.libraryItems.generation := fun he =>
      hne (Option.some.inj (hlibrary.symm.trans (hload page (he ▸ hclosure))))
    have hsame := onPage_left hgen page res
    exact iff_of_true (by simp only [shown, call, hsame]) trivial
  | libraries | item | markFinished =>
    rw [hclosure] at htagged
    cases htagged

/-- The request of a reply for a library that was left. -/
theorem left_some {id : Nat} {closure : Closure} (h : b.Left id = some closure) :
    ∃ p outbox libraryId, b.outbox.take id = some (p, outbox) ∧ p.closure.closure = closure ∧
      p.closure.library = some libraryId ∧ libraryId ≠ b.currentLibraryId := by
  obtain ⟨⟨p, outbox⟩, htake, hasked⟩ := Option.bind_eq_some_iff.mp h
  obtain ⟨libraryId, hlibrary, hleft⟩ := Option.bind_eq_some_iff.mp hasked
  split at hleft
  · cases hleft
  · next hne => exact ⟨p, outbox, libraryId, htake, Option.some.inj hleft, hlibrary, hne⟩

theorem reply_shown (h : b.Kept) {id : Nat} {closure : Closure} (hleft : b.Left id = some closure)
    (res : ApiResponse) :
    (machine.step b (.reply id res)).shown = b.shown ↔ b.Unheeded closure res := by
  obtain ⟨p, outbox, libraryId, htake, rfl, hlibrary, hne⟩ := left_some hleft
  have hstep : machine.step b (.reply id res) = {b.fresh with outbox}.call p.closure.closure res := by
    simp only [machine, handle, finished, fresh, htake]
  have hmem := Outbox.take_mem htake
  rw [hstep]
  exact call_shown (b := {b.fresh with outbox}) (h.past p hmem) (fun page he => (h.load p hmem page he).1)
    hlibrary hne res

theorem unmoved_iff (h : b.Kept) (e : Event) : b.Unmoved e ↔ b.Spared e := by
  cases e with
  | reply id res =>
    cases hleft : b.Left id with
    | none => simp [Unmoved, Spared, hleft]
    | some closure =>
      simp only [Unmoved, Spared, hleft, ne_eq, reduceCtorEq, not_false_eq_true, forall_const, Option.some.injEq,
        forall_eq']
      exact reply_shown h hleft res
  | _ => exact Iff.rfl

/-- **Libraries that were left.** In every run, a reply to a request for a library that
is not current any more changes nothing that is shown exactly when Home and the search
have nothing to show of it; the playlists and the grid never do. -/
theorem left_libraries (env : BackendEnv) (server : Endpoints) (settings : String → String)
    (itemCache : String → Option Json) (es : List Event) :
    machine.Along (fun b e => b.Unmoved e ↔ b.Spared e) (start env server settings itemCache) es ∧
      (machine.Along (fun b e => b.Spared e) (start env server settings itemCache) es →
        machine.Along (fun b e => b.Unmoved e) (start env server settings itemCache) es) := by
  have halong := keeps_kept.always_along (R := fun b e => b.Unmoved e ↔ b.Spared e)
    (fun _ e h => unmoved_iff h e) (kept_start env server settings itemCache) es
  exact ⟨halong, fun hspared => (halong.and hspared).mono fun _ _ h => h.1.mpr h.2⟩

/-- A switch of libraries, with everything for the first one still to come. -/
def switch : List Event := [.selectLibrary "audiobooks", .selectLibrary "novels"]

/-- Then the first library's Home arrives, and is shown under the second. -/
theorem left_home_shown :
    ¬machine.Along (fun b e => b.Unmoved e) (start default default (fun _ => "") (fun _ => none))
      (switch ++ [.reply 0 ⟨200, true, false, .array [.object [("id", .string "continue-listening")]], "", none⟩]) := by
  intro h
  have hlast := ((Machine.along_append _ switch _).mp h).2.1
  have hsame := congrArg (fun shown => shown.1.shelves.length) (hlast (by decide +kernel))
  exact absurd hsame (by decide +kernel)

end Backend

end ShelfRemote.App
