import ShelfRemote.App.Installation
import ShelfRemote.App.Libraries
import ShelfRemote.Lib.Base64
import ShelfRemote.Model.Pages
import ShelfRemote.Qt.ByteArray

/-! What the grid shows of a series or an author.

The server is asked for the books of a series with a filter: the group, a dot, and the id in
base64, since ids are free text and a filter is not. The server reads back which series was
meant (`filterText_reads`); a plus sign, which it would take for a space, comes up for unusual
ids only. From there until the grid is aimed at something else, every page that comes in
answers a request with this filter, so that whatever the grid shows was asked for as part of
this series (`grid_filtered`). -/
namespace ShelfRemote.App
open Qt Net Runs Model

/-- The environment writes base64. -/
def BackendEnv.Writes (env : BackendEnv) : Prop :=
  ∀ text, env.base64 text = String.ofList (Base64.standard.padded (utf8 text))

/-! ### Filters -/

/-- What a server reads in a filter: the group before the first dot, and the bytes of the value
after it. -/
def readFilter (filter : String) : Option (String × Bytes) :=
  match filter.toList.dropWhile (· != '.') with
  | [] => none
  | _ :: value =>
    (Base64.standard.decode value).map fun bytes => (String.ofList (filter.toList.takeWhile (· != '.')), bytes)

/-- The filter that stands for this group and id. -/
def BackendEnv.filterText (env : BackendEnv) (group id : String) : String := group ++ "." ++ env.base64 id

/-- The filter reads back as this group and id. -/
structure Reads (filter group id : String) : Prop where
  read : readFilter filter = some (group, utf8 id)
  plus : (∀ a ∈ utf8 id, a.toNat < 128 ∧ a.toNat % 64 ≠ 62) → '+' ∉ filter.toList

/-- A group is a plain word. -/
def Word (group : String) : Prop := '.' ∉ group.toList ∧ '+' ∉ group.toList

theorem filterText_reads {env : BackendEnv} (henv : env.Writes) {group : String} (hgroup : Word group) (id : String) :
    Reads (env.filterText group id) group id := by
  have htext : (env.filterText group id).toList =
      group.toList ++ '.' :: Base64.standard.padded (utf8 id) := by
    unfold BackendEnv.filterText
    rw [henv id]
    simp
  refine ⟨?_, fun hid hplus => ?_⟩
  · have hbefore : ∀ c ∈ group.toList, (c != '.') = true := by
      intro c hc
      refine bne_iff_ne.mpr fun he => ?_
      rw [he] at hc
      exact hgroup.1 hc
    unfold readFilter
    rw [htext, List.dropWhile_append_of_pos hbefore, List.takeWhile_append_of_pos hbefore]
    simp [Base64.standard.decode_padded]
  · rw [htext] at hplus
    obtain hplus | hplus := List.mem_append.mp hplus
    · exact hgroup.2 hplus
    · obtain he | hplus := List.mem_cons.mp hplus
      · exact absurd he (by decide)
      · exact Base64.plus_not_mem hid hplus

/-- One filter is in the query, and it reads back as this group and id. -/
def Filtered (query : List (String × String)) (group id : String) : Prop :=
  ∃ text, query.filter (fun item => item.1 == "filter") = [("filter", text)] ∧ Reads text group id

namespace Backend
variable {b b' b'' : Backend} {group id : String}

/-! ### Elsewhere -/

/-- What the grid shows is left alone, and no page is asked for. -/
structure Apart (b b' : Backend) : Prop where
  env : b'.env = b.env
  library : b'.currentLibraryId = b.currentLibraryId
  grid : b'.libraryItems = b.libraryItems
  sent : ∀ p ∈ b'.outbox.inFlight, p ∈ b.outbox.inFlight ∨ ∀ page gen, p.closure.closure ≠ .page page gen

theorem Apart.refl (b : Backend) : Apart b b := ⟨rfl, rfl, rfl, fun _ hp => .inl hp⟩

theorem Apart.trans (h : Apart b b') (h' : Apart b' b'') : Apart b b'' where
  env := h'.env.trans h.env
  library := h'.library.trans h.library
  grid := h'.grid.trans h.grid
  sent p hp := by
    obtain hp | hother := h'.sent p hp
    · exact h.sent p hp
    · exact .inr hother

/-- Nothing is sent. -/
theorem Apart.still (henv : b'.env = b.env) (hlibrary : b'.currentLibraryId = b.currentLibraryId)
    (hgrid : b'.libraryItems = b.libraryItems) (hsent : b'.outbox = b.outbox) : Apart b b' :=
  ⟨henv, hlibrary, hgrid, fun _ hp => .inl (hsent ▸ hp)⟩

theorem apart_send (b : Backend) (verb : Verb) (target : Target) (body : Json) {asked : Asked}
    (hother : ∀ page gen, asked.closure ≠ .page page gen) :
    Apart b {b with outbox := b.outbox.send verb target body asked} :=
  ⟨rfl, rfl, rfl, List.forall_mem_cons.mpr ⟨.inr hother, fun _ hp => .inl hp⟩⟩

theorem apart_get (b : Backend) (target : Target) {closure : Closure} (library : Option String)
    (hother : ∀ page gen, closure ≠ .page page gen) : Apart b (b.get target closure library) :=
  apart_send b .get target .null hother

theorem loadLibraries_apart (b : Backend) : Apart b b.loadLibraries := by
  unfold loadLibraries
  extract_lets nextUp named
  have hnamed : Apart b named := by
    unfold named
    split
    · exact .refl b
    · exact .still rfl rfl rfl rfl
  exact hnamed.trans (apart_get named _ none fun _ _ he => nomatch he)

theorem refreshHome_apart (b : Backend) : Apart b b.refreshHome := by
  unfold refreshHome
  split
  · exact .refl b
  · exact apart_get b _ _ fun _ _ he => nomatch he

theorem refreshPlaylists_apart (b : Backend) : Apart b b.refreshPlaylists := by
  unfold refreshPlaylists
  split
  · exact .refl b
  · exact apart_get b _ _ fun _ _ he => nomatch he

theorem search_apart (b : Backend) (query : String) : Apart b (b.search query) := by
  unfold search
  split
  · exact .still rfl rfl rfl rfl
  · split
    · exact .still rfl rfl rfl rfl
    · have hnext : Apart b {b with searchGeneration := b.searchGeneration + 1} := .still rfl rfl rfl rfl
      exact hnext.trans (apart_get _ _ _ fun _ _ he => nomatch he)

theorem loadItem_apart (b : Backend) (itemId : String) : Apart b (b.loadItem itemId) :=
  apart_get b _ none fun _ _ he => nomatch he

theorem progressChanged_apart (b : Backend) (progress : Option ProgressStore) :
    Apart b (b.progressChanged progress) := by
  unfold progressChanged
  split <;> exact .still rfl rfl rfl rfl

theorem setPlaylistNextUpEnabled_apart (b : Backend) (enabled : Bool) :
    Apart b (b.setPlaylistNextUpEnabled enabled) := by
  unfold setPlaylistNextUpEnabled
  split <;> exact .still rfl rfl rfl rfl

theorem setNextUpPlaylist_apart (b : Backend) (playlistId : String) (enabled : Bool) :
    Apart b (b.setNextUpPlaylist playlistId enabled) := by
  unfold setNextUpPlaylist
  split <;> exact .still rfl rfl rfl rfl

/-- A library is selected only where none is. -/
theorem onLibraries_apart (hsome : b.currentLibraryId ≠ "") (gen : Nat) (res : ApiResponse) :
    Apart b (b.onLibraries gen res) := by
  unfold onLibraries
  split
  · exact .refl b
  · split
    · exact .still rfl rfl rfl rfl
    · have hlisted (libraries : List Library) : Apart b {b with libraries} := .still rfl rfl rfl rfl
      dsimp only
      split
      · exact hlisted _
      · split
        · next hnone => exact absurd hnone hsome
        · exact hlisted _

theorem onItem_apart (b : Backend) (itemId : String) (gen : Nat) (base : QUrl) (res : ApiResponse) :
    Apart b (b.onItem itemId gen base res) := by
  unfold onItem
  split
  · exact .refl b
  · split
    · dsimp only
      split <;> exact .still rfl rfl rfl rfl
    · extract_lets obj key cached
      have hcached : Apart b cached := .still rfl rfl rfl rfl
      unfold applyItemProgress
      dsimp only
      split
      · exact hcached.trans (.still rfl rfl rfl rfl)
      · exact (hcached.trans (progressChanged_apart cached _)).trans (.still rfl rfl rfl rfl)

theorem onMarkFinished_apart (b : Backend) (itemId : String) (finished : Bool) (gen : Nat) (res : ApiResponse) :
    Apart b (b.onMarkFinished itemId finished gen res) := by
  unfold onMarkFinished
  split
  · exact .refl b
  · split
    · exact .still rfl rfl rfl rfl
    · exact (progressChanged_apart b _).trans (loadItem_apart _ itemId)

/-- No reply but that of a page touches the grid. -/
theorem call_apart (hsome : b.currentLibraryId ≠ "") {closure : Closure}
    (hother : ∀ page gen, closure ≠ .page page gen) (res : ApiResponse) : Apart b (b.call closure res) := by
  cases closure with
  | libraries gen => exact onLibraries_apart hsome gen res
  | home gen =>
    show Apart b (b.onHome gen res)
    unfold onHome
    split_ifs <;> exact .still rfl rfl rfl rfl
  | playlists libraryId gen =>
    show Apart b (b.onPlaylists libraryId gen res)
    unfold onPlaylists
    split_ifs <;> exact .still rfl rfl rfl rfl
  | page page gen => exact absurd rfl (hother page gen)
  | search gen serverGen query =>
    show Apart b (b.onSearch gen serverGen query res)
    unfold onSearch
    split_ifs <;> exact .still rfl rfl rfl rfl
  | item itemId gen base => exact onItem_apart b itemId gen base res
  | markFinished itemId finished gen => exact onMarkFinished_apart b itemId finished gen res

/-! ### The grid, aimed -/

/-- The grid is aimed at something else. -/
def reaims : Event → Bool
  | .selectLibrary _ | .browse _ _ _ | .browseSeries _ | .browseAuthor _ | .reset => true
  | _ => false

/-- A request for a page of this library with this filter. -/
def Asks (library group id : String) (target : Target) : Prop :=
  ∃ server query, target = Endpoints.libraryItems server library query ∧ Filtered query group id

/-- The grid is aimed at the books with this group and id. -/
structure Aimed (group id : String) (b : Backend) : Prop where
  env : b.env.Writes
  word : Word group
  library : b.currentLibraryId ≠ ""
  same : b.libraryItems.libraryId = b.currentLibraryId
  query : b.libraryItems.baseQuery =
    [("minified", "1"), ("sort", "media.metadata.title"), ("desc", "0"), ("filter", b.env.filterText group id)]
  pages : ∀ p ∈ b.outbox.inFlight, ∀ page, p.closure.closure = .page page b.libraryItems.generation →
    Asks b.currentLibraryId group id p.target

theorem Aimed.apart (h : Aimed group id b) (hb : Apart b b') : Aimed group id b' where
  env := by rw [hb.env]; exact h.env
  word := h.word
  library := by rw [hb.library]; exact h.library
  same := by rw [hb.library, hb.grid]; exact h.same
  query := by rw [hb.grid, hb.env]; exact h.query
  pages p hp page he := by
    rw [hb.grid] at he
    rw [hb.library]
    obtain hp | hother := hb.sent p hp
    · exact h.pages p hp page he
    · exact absurd he (hother page _)

/-- Every page of the load is asked for with the filter. -/
theorem filtered_page {env : BackendEnv} (henv : env.Writes) (hgroup : Word group) (limit page : String) :
    Filtered ([("minified", "1"), ("sort", "media.metadata.title"), ("desc", "0"),
      ("filter", env.filterText group id)] ++ [("limit", limit), ("page", page)]) group id :=
  ⟨env.filterText group id, by simp, filterText_reads henv hgroup id⟩

theorem Aimed.asks (h : Aimed group id b) (page : Nat) :
    Asks b.currentLibraryId group id
      (b.server.libraryItems (b.libraryItems.request page).libraryId (b.libraryItems.request page).query) := by
  refine ⟨b.server, (b.libraryItems.request page).query, ?_, ?_⟩
  · rw [← h.same]
    rfl
  · show Filtered (b.libraryItems.baseQuery ++ _) group id
    rw [h.query]
    exact filtered_page h.env h.word _ _

/-- Aiming the grid empties it. -/
theorem browseBy_aimed (hkept : b.Kept) (henv : b.env.Writes) (hgroup : Word group) (hid : id ≠ "")
    (hsome : b.currentLibraryId ≠ "") :
    Aimed group id (b.browseBy group id) ∧ (b.browseBy group id).libraryItems.items = [] := by
  have hfilter : b.env.filterText group id ≠ "" := by
    intro hempty
    have hread := (filterText_reads henv hgroup id).read
    rw [hempty] at hread
    cases hread
  have hboth : ¬(b.currentLibraryId = "" ∨ id = "") := not_or.mpr ⟨hsome, hid⟩
  unfold BackendEnv.filterText at hfilter
  simp only [browseBy, if_neg hboth, LibraryItemsModel.loadLibrary, LibraryItemsModel.fetchPage, if_neg hsome, fetch,
    if_neg hfilter, if_neg (show "media.metadata.title" ≠ "" by decide), Bool.false_eq_true, if_false]
  refine ⟨⟨henv, hgroup, hsome, rfl, rfl, ?_⟩, rfl⟩
  refine List.forall_mem_cons.mpr ⟨fun page _ => ?_, fun p hp page he => ?_⟩
  · exact ⟨b.server, _, rfl, filtered_page henv hgroup _ _⟩
  · -- What is still on its way belongs to an earlier load.
    have htagged := hkept.past p hp
    have hclosure : p.closure.closure = .page page (b.libraryItems.generation + 1) := he
    simp only [Asked.Tagged, hclosure] at htagged
    omega

/-! ### What comes in -/

/-- What an event adds to the grid came as the answer to a request with the filter. -/
def Answered (library group id : String) (b : Backend) (e : Event) : Prop :=
  (machine.step b e).libraryItems.items = b.libraryItems.items ∨
    ∃ n res p outbox, e = .reply n res ∧ b.outbox.take n = some (p, outbox) ∧ res.stale = false ∧ res.ok = true ∧
      Asks library group id p.target ∧ (machine.step b e).libraryItems.items =
        b.libraryItems.items ++ (results res).map fun v => LibraryItemsModel.normalise v.toObject

theorem Apart.answered {e : Event} (h : Apart b (machine.step b e)) (library : String) :
    Answered library group id b e :=
  .inl (congrArg LibraryItemsModel.items h.grid)

theorem Aimed.loadMore (h : Aimed group id b) :
    Aimed group id b.loadMore ∧ b.loadMore.currentLibraryId = b.currentLibraryId ∧
      b.loadMore.libraryItems.items = b.libraryItems.items := by
  unfold Backend.loadMore
  obtain he | ⟨-, he⟩ := LibraryItemsModel.loadMore_sends b.libraryItems
  · rw [he]
    exact ⟨{ h with }, rfl, rfl⟩
  · rw [he]
    refine ⟨{ h with pages := List.forall_mem_cons.mpr ⟨fun page _ => ?_, h.pages⟩ }, rfl, rfl⟩
    exact h.asks _

theorem Aimed.reply (h : Aimed group id b) (n : Nat) (res : ApiResponse) :
    Aimed group id (b.finished n res) ∧ (b.finished n res).currentLibraryId = b.currentLibraryId ∧
      ((b.finished n res).libraryItems.items = b.libraryItems.items ∨
        ∃ p outbox, b.outbox.take n = some (p, outbox) ∧ res.stale = false ∧ res.ok = true ∧
          Asks b.currentLibraryId group id p.target ∧ (b.finished n res).libraryItems.items =
            b.libraryItems.items ++ (results res).map fun v => LibraryItemsModel.normalise v.toObject) := by
  cases htake : b.outbox.take n with
  | none =>
    have hfinished : b.finished n res = b := by
      unfold finished
      rw [htake]
    rw [hfinished]
    exact ⟨h, rfl, .inl rfl⟩
  | some taken =>
    obtain ⟨p, outbox⟩ := taken
    have hfinished : b.finished n res = {b with outbox}.call p.closure.closure res := by
      unfold finished
      rw [htake]
    have htaken : Apart b {b with outbox} := ⟨rfl, rfl, rfl, fun q hq => .inl (Outbox.take_rest htake hq)⟩
    have haimed := h.apart htaken
    rw [hfinished]
    by_cases hpage : ∃ page gen, p.closure.closure = .page page gen
    · obtain ⟨page, gen, hclosure⟩ := hpage
      have hlands : {b with outbox}.call (.page page gen) res =
          {b with outbox, libraryItems := b.libraryItems.onPage page gen res} := rfl
      rw [hclosure, hlands]
      obtain ⟨-, he⟩ | ⟨⟨hfresh, hgen⟩, ⟨-, he⟩ | ⟨hok, hasMore, he⟩⟩ :=
        LibraryItemsModel.onPage_cases b.libraryItems page gen res
      · rw [he]
        exact ⟨haimed, rfl, .inl rfl⟩
      · rw [he]
        exact ⟨{ haimed with }, rfl, .inl rfl⟩
      · rw [he]
        refine ⟨{ haimed with }, rfl, .inr ⟨p, outbox, rfl, hfresh, hok, ?_, rfl⟩⟩
        exact h.pages p (Outbox.take_mem htake) page (hgen ▸ hclosure)
    · have hcall : Apart {b with outbox} ({b with outbox}.call p.closure.closure res) :=
        call_apart (b := {b with outbox}) h.library (fun page gen he => hpage ⟨page, gen, he⟩) res
      exact ⟨haimed.apart hcall, hcall.library, .inl (congrArg LibraryItemsModel.items hcall.grid)⟩

theorem Aimed.step (h : Aimed group id b) {e : Event} (he : reaims e = false) :
    Aimed group id (machine.step b e) ∧ (machine.step b e).currentLibraryId = b.currentLibraryId ∧
      Answered b.currentLibraryId group id b e := by
  have hfresh : Apart b b.fresh := .still rfl rfl rfl rfl
  have hapart : Apart b (machine.step b e) → Aimed group id (machine.step b e) ∧
      (machine.step b e).currentLibraryId = b.currentLibraryId ∧ Answered b.currentLibraryId group id b e :=
    fun hstep => ⟨h.apart hstep, hstep.library, hstep.answered _⟩
  cases e with
  | loadLibraries => exact hapart (hfresh.trans (loadLibraries_apart _))
  | refreshHome => exact hapart (hfresh.trans (refreshHome_apart _))
  | refreshPlaylists => exact hapart (hfresh.trans (refreshPlaylists_apart _))
  | loadMore =>
    obtain ⟨haimed, hlibrary, hitems⟩ := (h.apart hfresh).loadMore
    exact ⟨haimed, hlibrary, .inl hitems⟩
  | search query => exact hapart (hfresh.trans (search_apart _ query))
  | loadItem itemId => exact hapart (hfresh.trans (loadItem_apart _ itemId))
  | markFinished itemId finished =>
    exact hapart (hfresh.trans (apart_send _ _ _ _ fun _ _ he => nomatch he))
  | setPlaylistNextUpEnabled enabled => exact hapart (hfresh.trans (setPlaylistNextUpEnabled_apart _ enabled))
  | setNextUpPlaylist playlistId enabled => exact hapart (hfresh.trans (setNextUpPlaylist_apart _ playlistId enabled))
  | progress progress => exact hapart (hfresh.trans (progressChanged_apart _ progress))
  | reply n res =>
    obtain ⟨haimed, hlibrary, hitems | ⟨p, outbox, hrest⟩⟩ := (h.apart hfresh).reply n res
    · exact ⟨haimed, hlibrary, .inl hitems⟩
    · exact ⟨haimed, hlibrary, .inr ⟨n, res, p, outbox, rfl, hrest⟩⟩
  | clearSearch | baseUrl server | clock now => exact hapart (.still rfl rfl rfl rfl)
  | selectLibrary | browse | browseSeries | browseAuthor | reset => cases he

/-- The calls that aim the grid at a series or an author, with the group of their filter. -/
inductive Aims (id : String) : Event → String → Prop
  | series : Aims id (.browseSeries id) "series"
  | author : Aims id (.browseAuthor id) "authors"

theorem Aims.step {e : Event} (haims : Aims id e group) (hkept : b.Kept) (henv : b.env.Writes) (hid : id ≠ "")
    (hsome : b.currentLibraryId ≠ "") :
    Aimed group id (machine.step b e) ∧ (machine.step b e).libraryItems.items = [] := by
  have hfresh : b.fresh.Kept := hkept.frame rfl rfl rfl
  have hseries : Word "series" := ⟨by decide, by decide⟩
  have hauthors : Word "authors" := ⟨by decide, by decide⟩
  cases haims with
  | series => exact browseBy_aimed hfresh henv hseries hid hsome
  | author => exact browseBy_aimed hfresh henv hauthors hid hsome

theorem env_step (b : Backend) (e : Event) : (machine.step b e).env = b.env := by
  by_cases htouches : Installation.Touches e
  · cases e with
    | loadLibraries => exact (loadLibraries_apart b.fresh).env
    | setNextUpPlaylist playlistId enabled => exact (setNextUpPlaylist_apart b.fresh playlistId enabled).env
    | reply n res => exact (Installation.finished_alike b.fresh n res).env
    | reset | baseUrl server => rfl
    | _ => exact htouches.elim
  · exact (Installation.beside_step b e htouches).env

/-- **What the grid shows was asked for.** Whatever went on before, once a series or an author
that has an id is browsed in a library the grid is empty, and until it is aimed at something
else each event leaves its items alone or is the reply to a request for books of this library
with a filter that reads back as exactly this series or author, whose results it adds. -/
theorem grid_filtered (env : BackendEnv) (henv : env.Writes) (server : Endpoints) (settings : String → String)
    (itemCache : String → Option Json) (before after : List Event) (group id : String) (e : Event)
    (haims : Aims id e group) (hid : id ≠ "") (hafter : ∀ e ∈ after, reaims e = false)
    (hsome : (machine.run (start env server settings itemCache) before).currentLibraryId ≠ "") :
    let b := machine.run (start env server settings itemCache) before
    (machine.step b e).libraryItems.items = [] ∧
      machine.Along (Answered (machine.step b e).currentLibraryId group id) (machine.step b e) after := by
  intro b
  have hkept : b.Kept := keeps_kept.always (kept_start env server settings itemCache) before
  have henvs : Machine.Keeps machine (fun _ _ => True) fun b => b.env.Writes :=
    ⟨fun b e hb _ => by rw [env_step]; exact hb⟩
  have hwrites : b.env.Writes := henvs.always (s := start env server settings itemCache) henv before
  have hkeeps : Machine.Keeps machine (fun _ e => reaims e = false) fun b' =>
      Aimed group id b' ∧ b'.currentLibraryId = (machine.step b e).currentLibraryId :=
    ⟨fun b' e hb' he => ⟨(hb'.1.step he).1, (hb'.1.step he).2.1.trans hb'.2⟩⟩
  obtain ⟨haimed, hempty⟩ := haims.step hkept hwrites hid hsome
  refine ⟨hempty, hkeeps.along (fun b' e hb' he => ?_) ⟨haimed, rfl⟩ (Machine.along_of_mem hafter _)⟩
  rw [← hb'.2]
  exact (hb'.1.step he).2.2

/-- A backend that writes filters in base64. -/
def filteringEnv : BackendEnv :=
  {(default : BackendEnv) with base64 := fun text => String.ofList (Base64.standard.padded (utf8 text))}

/-- The page of the library comes late, and after it the first page of the series. -/
def seriesPages : List Event :=
  [.reply 2 ⟨200, true, false, .object [("results", .array [.object [("id", .string "other")]])], "", none⟩,
    .reply 3 ⟨200, true, false, .object [("results", .array [.object [("id", .string "book")]])], "", none⟩]

theorem grid_filtered_series :
    let b := machine.run (start filteringEnv default (fun _ => "") fun _ => none) [.selectLibrary "audiobooks"]
    (machine.run (machine.step b (.browseSeries "se_1")) seriesPages).libraryItems.items.length = 1 ∧
      (machine.step b (.browseSeries "se_1")).libraryItems.items = [] ∧
      machine.Along (Answered (machine.step b (.browseSeries "se_1")).currentLibraryId "series" "se_1")
        (machine.step b (.browseSeries "se_1")) seriesPages :=
  ⟨by decide +kernel, grid_filtered filteringEnv (fun _ => rfl) default (fun _ => "") (fun _ => none)
    [.selectLibrary "audiobooks"] seriesPages "series" "se_1" (.browseSeries "se_1") .series (by decide)
    (by decide) (by decide)⟩

end Backend

end ShelfRemote.App
