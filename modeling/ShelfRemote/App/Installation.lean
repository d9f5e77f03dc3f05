import ShelfRemote.App.Backend
import ShelfRemote.Lib.Separated
import ShelfRemote.Storage.Forgetting

/-! The backend from launch to launch.

The settings and the item cache outlive the program; servers come and go, and are forgotten.
The playlists picked for the next-up shelf are one text in the settings of each server, and a
list in memory for the one that is browsed. `picks_kept` says that together they are what the
user picked on each server, whatever happens in between. -/
namespace ShelfRemote.App
open Qt Net Runs Model

/-- The backend of a launch, and whether it has read what is saved for its server. -/
structure Installation where
  backend : Backend
  /-- `loadLibraries` has run since the sign-in, on the server that is configured now. -/
  settled : Bool := false

namespace Installation

inductive Event where
  | backend (e : Backend.Event)
  /-- The next launch, on the server it restores. -/
  | relaunch (server : Endpoints)
  /-- `ServerManager::removeServer`. -/
  | forget (serverId : String)
  /-- `pruneItemCache` leaves some of the rows. -/
  | prune (kept : String → Bool)

/-- The next launch has what is in the database, and nothing else. -/
def relaunch (b : Backend) (server : Endpoints) : Backend where
  env := b.env
  server := server
  settings := b.settings
  itemCache := b.itemCache
  now := b.now

def forget (b : Backend) (serverId : String) : Backend :=
  { b with
    settings := fun key => if key = serverId ++ "/lastLibraryId" then "" else b.settings key
    itemCache := fun key => if Storage.like (serverId ++ "/%").toList key.toList then none else b.itemCache key }

def prune (b : Backend) (kept : String → Bool) : Backend :=
  {b with itemCache := fun key => if kept key then b.itemCache key else none}

/-- Reading what is saved for a server settles; leaving the server does the opposite. -/
def settles (i : Installation) : Backend.Event → Bool
  | .loadLibraries => true
  | .reset => false
  | .baseUrl server => i.settled && idForUrl i.backend.env.text server.base == i.backend.serverId
  | _ => i.settled

def step (i : Installation) : Event → Installation
  | .backend e => {backend := Backend.machine.step i.backend e, settled := i.settles e}
  | .relaunch server => {backend := relaunch i.backend server}
  | .forget serverId => {i with backend := forget i.backend serverId}
  | .prune kept => {i with backend := prune i.backend kept}

def machine : Machine Installation Event := ⟨step⟩

/-! ### What the user picked -/

/-- The playlists of a server with one more or one less, in the order of picking. -/
def choose (picks : List String) (id : String) (enabled : Bool) : List String :=
  if id = "" then picks
  else if enabled then (if id ∈ picks then picks else picks ++ [id])
  else picks.filter (· ≠ id)

/-- The picks on every server, and the server that is configured. -/
structure Choices where
  server : String
  picks : String → List String

namespace Choices

def pick (c : Choices) (id : String) (enabled : Bool) : Choices :=
  {c with picks := fun server => if server = c.server then choose (c.picks server) id enabled else c.picks server}

def step (text : UrlText) (c : Choices) : Event → Choices
  | .backend (.setNextUpPlaylist id enabled) => c.pick id enabled
  | .backend (.baseUrl server) | .relaunch server => {c with server := idForUrl text server.base}
  | .backend _ | .forget _ | .prune _ => c

def machine (text : UrlText) : Machine Choices Event := ⟨step text⟩

end Choices

/-- The playlists saved for a server. -/
def saved (b : Backend) (server : String) : List String :=
  Separated.read ',' (b.settings (Storage.Database.playlistsKey server))

/-- Playlists are picked when what is saved has been read, by ids without a comma. -/
def Rule (i : Installation) : Event → Prop
  | .backend (.setNextUpPlaylist id enabled) => i.settled = true ∧ (enabled = true → ',' ∉ id.toList)
  | _ => True

instance (i : Installation) : (e : Event) → Decidable (Rule i e)
  | .backend (.setNextUpPlaylist _ _) => inferInstanceAs (Decidable (_ ∧ _))
  | .backend .loadLibraries | .backend (.selectLibrary _) | .backend .refreshHome | .backend .refreshPlaylists
  | .backend (.browse ..) | .backend .loadMore | .backend (.search _) | .backend .clearSearch
  | .backend (.browseSeries _) | .backend (.browseAuthor _) | .backend (.loadItem _) | .backend (.markFinished ..)
  | .backend (.setPlaylistNextUpEnabled _) | .backend (.progress _) | .backend .reset | .backend (.reply ..)
  | .backend (.baseUrl _) | .backend (.clock _) | .relaunch _ | .forget _ | .prune _ => .isTrue trivial

/-- The settings say what was picked, and so does the list in memory once it was read. -/
structure Says (text : UrlText) (i : Installation) (c : Choices) : Prop where
  env : i.backend.env.text = text
  server : c.server = i.backend.serverId
  saved : ∀ server, saved i.backend server = c.picks server
  memory : i.settled = true → i.backend.nextUpPlaylistIds = c.picks c.server
  plain : ∀ server, ∀ id ∈ c.picks server, Separated.Plain ',' id

/-! ### What leaves the picks alone -/

/-- Neither the server, nor its picks in memory, nor the picks saved for any server change. -/
structure Alike (b b' : Backend) : Prop where
  env : b'.env = b.env
  server : b'.server = b.server
  memory : b'.nextUpPlaylistIds = b.nextUpPlaylistIds
  saved : ∀ server, saved b' server = saved b server

/-- Nor do the items in the cache. -/
structure Beside (b b' : Backend) : Prop extends Alike b b' where
  itemCache : b'.itemCache = b.itemCache

section Beside
variable {b b' b'' : Backend}

theorem Alike.trans (h : Alike b b') (h' : Alike b' b'') : Alike b b'' :=
  ⟨h'.env.trans h.env, h'.server.trans h.server, h'.memory.trans h.memory,
    fun server => (h'.saved server).trans (h.saved server)⟩

theorem Alike.of_eq (henv : b'.env = b.env) (hserver : b'.server = b.server)
    (hmemory : b'.nextUpPlaylistIds = b.nextUpPlaylistIds) (hsettings : b'.settings = b.settings) : Alike b b' :=
  ⟨henv, hserver, hmemory, fun server => by rw [Installation.saved, hsettings, Installation.saved]⟩

theorem Beside.refl (b : Backend) : Beside b b := ⟨⟨rfl, rfl, rfl, fun _ => rfl⟩, rfl⟩

theorem Beside.trans (h : Beside b b') (h' : Beside b' b'') : Beside b b'' :=
  ⟨h.toAlike.trans h'.toAlike, h'.itemCache.trans h.itemCache⟩

/-- Most operations touch none of this. -/
theorem Beside.of_eq (henv : b'.env = b.env) (hserver : b'.server = b.server)
    (hmemory : b'.nextUpPlaylistIds = b.nextUpPlaylistIds) (hsettings : b'.settings = b.settings)
    (hitemCache : b'.itemCache = b.itemCache) : Beside b b' :=
  ⟨.of_eq henv hserver hmemory hsettings, hitemCache⟩

theorem beside_emit (b : Backend) (signal : BackendSignal) : Beside b (b.emit signal) := .of_eq rfl rfl rfl rfl rfl

theorem beside_get (b : Backend) (target : Target) (closure : Backend.Closure) (library : Option String) :
    Beside b (b.get target closure library) := .of_eq rfl rfl rfl rfl rfl

theorem beside_fetch (b : Backend) (asked : LibraryItemsModel × Option PageRequest) : Beside b (b.fetch asked) := by
  unfold Backend.fetch
  dsimp only
  split <;> exact .of_eq rfl rfl rfl rfl rfl

theorem beside_refreshHome (b : Backend) : Beside b b.refreshHome := by
  unfold Backend.refreshHome
  split
  · exact .refl b
  · exact beside_get ..

theorem beside_refreshPlaylists (b : Backend) : Beside b b.refreshPlaylists := by
  unfold Backend.refreshPlaylists
  split
  · exact .refl b
  · exact beside_get ..

theorem beside_browse (b : Backend) (sort : String) (desc : Bool) (filter : String) :
    Beside b (b.browse sort desc filter) := by
  unfold Backend.browse
  split
  · exact .refl b
  · exact beside_fetch ..

theorem beside_browseBy (b : Backend) (group id : String) : Beside b (b.browseBy group id) := by
  unfold Backend.browseBy
  split
  · exact .refl b
  · exact (beside_fetch b _).trans (.of_eq rfl rfl rfl rfl rfl)

/-- The library is remembered under a key of its own. -/
theorem beside_lastLibrary (b : Backend) (libraryId : String) :
    Beside b (b.putSetting b.lastLibraryKey libraryId) := by
  refine ⟨⟨rfl, rfl, rfl, fun server => congrArg (Separated.read ',') ?_⟩, rfl⟩
  exact if_neg (Storage.Database.playlistsKey_ne_lastLibrary server b.serverId)

theorem beside_selectLibrary (b : Backend) (libraryId : String) : Beside b (b.selectLibrary libraryId) := by
  unfold Backend.selectLibrary
  split
  · exact .refl b
  · refine Beside.trans ?_ (((beside_refreshHome _).trans (beside_refreshPlaylists _)).trans (beside_browse _ _ _ _))
    refine Beside.trans ?_ (beside_lastLibrary _ _)
    split <;> exact .of_eq rfl rfl rfl rfl rfl

theorem beside_progressChanged (b : Backend) (progress : Option ProgressStore) :
    Beside b (b.progressChanged progress) := by
  unfold Backend.progressChanged
  split <;> exact .of_eq rfl rfl rfl rfl rfl

theorem beside_search (b : Backend) (query : String) : Beside b (b.search query) := by
  unfold Backend.search
  split_ifs <;> exact .of_eq rfl rfl rfl rfl rfl

theorem beside_setPlaylistNextUpEnabled (b : Backend) (enabled : Bool) :
    Beside b (b.setPlaylistNextUpEnabled enabled) := by
  unfold Backend.setPlaylistNextUpEnabled
  split <;> exact .of_eq rfl rfl rfl rfl rfl

theorem beside_onLibraries (b : Backend) (gen : Nat) (res : ApiResponse) : Beside b (b.onLibraries gen res) := by
  unfold Backend.onLibraries
  split
  · exact .refl b
  · split
    · exact .of_eq rfl rfl rfl rfl rfl
    · dsimp only
      split
      · exact .of_eq rfl rfl rfl rfl rfl
      · split
        · refine .trans ?_ (beside_selectLibrary _ _)
          exact .of_eq rfl rfl rfl rfl rfl
        · exact .of_eq rfl rfl rfl rfl rfl

/-- What a reply leaves in the item cache. -/
def noted (b : Backend) (closure : Backend.Closure) (res : ApiResponse) : Backend :=
  match closure with
  | .item itemId gen base =>
    if res.stale || gen != b.serverGeneration || !res.ok then b
    else
      let key := b.itemCacheKey base itemId
      {b with itemCache := fun k => if k = key then some res.body.toObject else b.itemCache k}
  | _ => b

theorem noted_alike (b : Backend) (closure : Backend.Closure) (res : ApiResponse) : Alike b (noted b closure res) := by
  unfold noted
  split
  · split <;> exact .of_eq rfl rfl rfl rfl
  · exact .of_eq rfl rfl rfl rfl

theorem beside_onItem (b : Backend) (itemId : String) (gen : Nat) (base : QUrl) (res : ApiResponse) :
    Beside (noted b (.item itemId gen base) res) (b.onItem itemId gen base res) := by
  unfold Backend.onItem noted
  dsimp only
  cases hlate : res.stale || gen != b.serverGeneration with
  | true =>
    simp only [Bool.true_or, if_true]
    exact .refl b
  | false =>
    cases hok : res.ok with
    | false =>
      simp only [Bool.false_or, Bool.not_false, if_true, Bool.false_eq_true, if_false]
      split_ifs <;> exact .of_eq rfl rfl rfl rfl rfl
    | true =>
      simp only [Bool.false_or, Bool.not_true, Bool.false_eq_true, if_false]
      refine Beside.trans ?_ (beside_emit _ _)
      unfold Backend.applyItemProgress
      dsimp only
      split
      · exact .refl _
      · exact beside_progressChanged _ _

theorem beside_call (b : Backend) (closure : Backend.Closure) (res : ApiResponse) :
    Beside (noted b closure res) (b.call closure res) := by
  cases closure with
  | libraries gen => exact beside_onLibraries b gen res
  | home gen =>
    show Beside b (b.onHome gen res)
    unfold Backend.onHome
    split_ifs <;> exact .of_eq rfl rfl rfl rfl rfl
  | playlists libraryId gen =>
    show Beside b (b.onPlaylists libraryId gen res)
    unfold Backend.onPlaylists
    split_ifs <;> exact .of_eq rfl rfl rfl rfl rfl
  | page page gen => exact .of_eq rfl rfl rfl rfl rfl
  | search gen serverGen query =>
    show Beside b (b.onSearch gen serverGen query res)
    unfold Backend.onSearch
    split_ifs <;> exact .of_eq rfl rfl rfl rfl rfl
  | item itemId gen base => exact beside_onItem b itemId gen base res
  | markFinished itemId finished gen =>
    show Beside b (b.onMarkFinished itemId finished gen res)
    unfold Backend.onMarkFinished
    split_ifs
    · exact .refl b
    · exact .of_eq rfl rfl rfl rfl rfl
    · exact (beside_progressChanged b _).trans (.of_eq rfl rfl rfl rfl rfl)

theorem finished_alike (b : Backend) (id : Nat) (res : ApiResponse) : Alike b (b.finished id res) := by
  unfold Backend.finished
  split
  · exact (Beside.refl b).toAlike
  · next p outbox _ =>
    have htaken : Alike b {b with outbox} := .of_eq rfl rfl rfl rfl
    exact (htaken.trans (noted_alike _ _ res)).trans (beside_call _ _ res).toAlike

/-- What is done to the picks or to the cache is done by these. -/
def Touches : Backend.Event → Prop
  | .loadLibraries | .reset | .setNextUpPlaylist .. | .baseUrl _ | .reply .. => True
  | _ => False

theorem beside_step (b : Backend) (e : Backend.Event) (h : ¬Touches e) : Beside b (Backend.machine.step b e) := by
  have hfresh : Beside b b.fresh := .of_eq rfl rfl rfl rfl rfl
  refine hfresh.trans ?_
  show Beside b.fresh (b.fresh.handle e)
  cases e with
  | loadLibraries | reset | setNextUpPlaylist | baseUrl | reply => exact absurd trivial h
  | selectLibrary libraryId => exact beside_selectLibrary _ libraryId
  | refreshHome => exact beside_refreshHome _
  | refreshPlaylists => exact beside_refreshPlaylists _
  | browse sort desc filter => exact beside_browse _ sort desc filter
  | loadMore => exact beside_fetch _ _
  | search query => exact beside_search _ query
  | browseSeries seriesId => exact beside_browseBy _ _ seriesId
  | browseAuthor authorId => exact beside_browseBy _ _ authorId
  | setPlaylistNextUpEnabled enabled => exact beside_setPlaylistNextUpEnabled _ enabled
  | progress progress => exact beside_progressChanged _ progress
  | clearSearch | loadItem | markFinished | clock => exact .of_eq rfl rfl rfl rfl rfl

end Beside

/-! ### One step -/

section Says
variable {text : UrlText} {i : Installation} {c : Choices}

theorem Says.alike (h : Says text i c) {b' : Backend} (halike : Alike i.backend b') {settled : Bool}
    (hsettled : settled = true → i.settled = true) : Says text ⟨b', settled⟩ c where
  env := halike.env ▸ h.env
  server := by
    rw [h.server]
    show i.backend.serverId = idForUrl b'.env.text b'.server.base
    rw [halike.env, halike.server]
    rfl
  saved server := (halike.saved server).trans (h.saved server)
  memory hread := halike.memory.trans (h.memory (hsettled hread))
  plain := h.plain

theorem plain_choose {picks : List String} {id : String} {enabled : Bool}
    (h : ∀ pick ∈ picks, Separated.Plain ',' pick) (hid : enabled = true → ',' ∉ id.toList) :
    ∀ pick ∈ choose picks id enabled, Separated.Plain ',' pick := by
  unfold choose
  split_ifs with hnone henabled hmem
  · exact h
  · exact h
  · intro pick hpick
    rcases List.mem_append.mp hpick with hold | hnew
    · exact h pick hold
    · rw [List.mem_singleton.mp hnew]
      exact ⟨hnone, hid henabled⟩
  · exact fun pick hpick => h pick (List.mem_of_mem_filter hpick)

/-- The list in memory is changed as it was meant, and then saved if there was anything to change. -/
theorem setNextUpPlaylist_choose (b : Backend) (id : String) (enabled : Bool) :
    let picks := choose b.nextUpPlaylistIds id enabled
    let b' := b.setNextUpPlaylist id enabled
    b'.env = b.env ∧ b'.server = b.server ∧ b'.nextUpPlaylistIds = picks ∧
      (b'.settings = b.settings ∧ picks = b.nextUpPlaylistIds ∨
        b'.settings = (b.putSetting b.nextUpPlaylistsKey (Separated.write ',' picks)).settings) := by
  intro picks b'
  by_cases hsame : id = "" ∨ b.nextUpPlaylistIds.contains id = enabled
  · have hb' : b' = b := if_pos hsame
    have hpicks : picks = b.nextUpPlaylistIds := by
      unfold picks choose
      rcases hsame with hnone | hpicked
      · rw [if_pos hnone]
      · by_cases hnone : id = ""
        · rw [if_pos hnone]
        · cases enabled with
          | true => simp [hnone, List.contains_iff_mem.mp hpicked]
          | false =>
            have hnot : id ∉ b.nextUpPlaylistIds := by simpa using hpicked
            simpa [hnone] using fun pick hpick (h : pick = id) => hnot (h ▸ hpick)
    rw [hb', hpicks]
    exact ⟨rfl, rfl, rfl, .inl ⟨rfl, rfl⟩⟩
  · obtain ⟨hsome, hother⟩ := not_or.mp hsame
    have hids : (if enabled then b.nextUpPlaylistIds ++ [id] else b.nextUpPlaylistIds.filter (· ≠ id)) = picks := by
      unfold picks choose
      rw [if_neg hsome]
      cases enabled with
      | true =>
        have hnot : id ∉ b.nextUpPlaylistIds := by simpa using hother
        simp [hnot]
      | false => rfl
    have hb' : b' = ({b with nextUpPlaylistIds := picks}.putSetting b.nextUpPlaylistsKey
        (String.intercalate "," picks)).updatePlaylistNextUp := by
      unfold b' Backend.setNextUpPlaylist
      rw [if_neg hsame, hids]
      rfl
    rw [hb']
    exact ⟨rfl, rfl, rfl, .inr rfl⟩

/-- The list in memory is what is saved. -/
theorem loadLibraries_saved (b : Backend) :
    b.loadLibraries.env = b.env ∧ b.loadLibraries.server = b.server ∧
      b.loadLibraries.nextUpPlaylistIds = saved b b.serverId ∧ b.loadLibraries.settings = b.settings := by
  unfold Backend.loadLibraries
  dsimp only
  split
  · next hsame => exact ⟨rfl, rfl, hsame.symm, rfl⟩
  · exact ⟨rfl, rfl, rfl, rfl⟩

/-- What is saved for a server after its picks were written, and for the others. -/
theorem saved_write (b : Backend) {picks : List String} (hplain : ∀ pick ∈ picks, Separated.Plain ',' pick)
    (server : String) :
    saved (b.putSetting b.nextUpPlaylistsKey (Separated.write ',' picks)) server =
      if server = b.serverId then picks else saved b server := by
  unfold saved Backend.putSetting
  dsimp only
  by_cases hserver : server = b.serverId
  · have hkey : Storage.Database.playlistsKey server = b.nextUpPlaylistsKey := by rw [hserver]; rfl
    rw [if_pos hkey, if_pos hserver]
    exact Separated.read_write hplain
  · have hkey : Storage.Database.playlistsKey server ≠ b.nextUpPlaylistsKey := fun h =>
      hserver (Storage.Database.playlistsKey_inj.mp h).symm
    rw [if_neg hkey, if_neg hserver]

theorem Says.pick (h : Says text i c) {id : String} {enabled : Bool} (hsettled : i.settled = true)
    (hid : enabled = true → ',' ∉ id.toList) :
    Says text ⟨i.backend.fresh.setNextUpPlaylist id enabled, i.settled⟩ (c.pick id enabled) := by
  have hmemory : i.backend.nextUpPlaylistIds = c.picks c.server := h.memory hsettled
  have hplain := plain_choose (h.plain c.server) hid
  obtain ⟨henv, hserver, hids, hwritten⟩ := setNextUpPlaylist_choose i.backend.fresh id enabled
  change _ = choose i.backend.nextUpPlaylistIds id enabled at hids
  constructor
  case env => exact henv ▸ h.env
  case server =>
    show c.server = idForUrl _ _
    rw [henv, hserver]
    exact h.server
  case saved =>
    intro server
    have hpicks : (c.pick id enabled).picks server =
        if server = i.backend.serverId then choose i.backend.nextUpPlaylistIds id enabled else c.picks server := by
      rw [hmemory, ← h.server]
      show (if server = c.server then choose (c.picks server) id enabled else c.picks server) = _
      split
      · next hsame => rw [hsame]
      · rfl
    rw [hpicks]
    rcases hwritten with ⟨hsettings, hsame⟩ | hsettings
    · rw [Installation.saved, hsettings]
      refine (h.saved server).trans ?_
      split
      · next hthis =>
        refine Eq.trans ?_ hsame.symm
        show c.picks server = i.backend.nextUpPlaylistIds
        rw [hmemory, h.server, hthis]
      · rfl
    · rw [Installation.saved, hsettings]
      refine (saved_write i.backend.fresh (hmemory ▸ hplain) server).trans ?_
      rw [show Installation.saved i.backend.fresh server = c.picks server from h.saved server]
      rfl
  case memory =>
    intro _
    refine hids.trans ?_
    rw [hmemory]
    exact (if_pos rfl).symm
  case plain =>
    intro server pick hpick
    change pick ∈ (if server = c.server then choose (c.picks server) id enabled else c.picks server) at hpick
    split at hpick
    · next hsame => exact hplain pick (hsame ▸ hpick)
    · exact h.plain server pick hpick

theorem Says.step (h : Says text i c) (e : Event) (he : Rule i e) :
    Says text (Installation.step i e) (c.step text e) := by
  cases e with
  | forget serverId =>
    have halike : Alike i.backend (forget i.backend serverId) := by
      refine ⟨rfl, rfl, rfl, fun server => congrArg (Separated.read ',') ?_⟩
      exact if_neg (Storage.Database.playlistsKey_ne_lastLibrary server serverId)
    exact h.alike halike id
  | prune kept =>
    have halike : Alike i.backend (prune i.backend kept) := .of_eq rfl rfl rfl rfl
    exact h.alike halike id
  | relaunch server =>
    exact ⟨h.env, h.env ▸ rfl, h.saved, fun hread => (nomatch hread), h.plain⟩
  | backend e =>
    cases e with
    | setNextUpPlaylist id enabled => exact h.pick he.1 he.2
    | baseUrl server =>
      refine ⟨h.env, h.env ▸ rfl, h.saved, fun hread => ?_, h.plain⟩
      obtain ⟨hsettled, hsame⟩ := Bool.and_eq_true_iff.mp hread
      have hserver : idForUrl text server.base = c.server := by
        rw [h.server, ← h.env]
        exact beq_iff_eq.mp hsame
      show i.backend.nextUpPlaylistIds = c.picks (idForUrl text server.base)
      rw [hserver]
      exact h.memory hsettled
    | reset => exact ⟨h.env, h.server, h.saved, fun hread => (nomatch hread), h.plain⟩
    | loadLibraries =>
      obtain ⟨henv, hserver, hids, hsettings⟩ := loadLibraries_saved i.backend.fresh
      constructor
      case env => exact (congrArg BackendEnv.text henv).trans h.env
      case server =>
        show c.server = i.backend.fresh.loadLibraries.serverId
        unfold Backend.serverId
        rw [henv, hserver]
        exact h.server
      case saved =>
        intro server
        refine Eq.trans ?_ (h.saved server)
        show Installation.saved i.backend.fresh.loadLibraries server = Installation.saved i.backend.fresh server
        rw [Installation.saved, hsettings, Installation.saved]
      case memory => exact fun _ => hids.trans (h.server ▸ h.saved c.server)
      case plain => exact h.plain
    | reply id res =>
      have hfresh : Alike i.backend i.backend.fresh := .of_eq rfl rfl rfl rfl
      exact h.alike (hfresh.trans (finished_alike i.backend.fresh id res)) fun hread => hread
    | _ => exact h.alike (beside_step i.backend _ id).toAlike id

end Says

theorem keeps_says (text : UrlText) (es : List Event) {i : Installation} {c : Choices} (h : Says text i c)
    (hes : machine.Along Rule i es) : Says text (machine.run i es) ((Choices.machine text).run c es) := by
  induction es generalizing i c with
  | nil => exact h
  | cons e rest ih => exact ih (h.step e hes.1) hes.2

/-- A launch with whatever is saved, before anything is read. -/
def start (env : BackendEnv) (server : Endpoints) (settings : String → String) (itemCache : String → Option Json) :
    Installation where
  backend := {env := env, server := server, settings := settings, itemCache := itemCache}

/-- The picks that are saved to begin with. -/
def startChoices (env : BackendEnv) (server : Endpoints) (settings : String → String) : Choices where
  server := idForUrl env.text server.base
  picks := fun server => Separated.read ',' (settings (Storage.Database.playlistsKey server))

/-- **Picks are kept.** Playlists are picked for the next-up shelf while the libraries of the
configured server have been asked for, by ids without a comma. Whatever else happens, replies
in any order, other servers, sign-outs, launches, servers forgotten and the item cache pruned:
what is saved for each server reads as the picks the user made on it, in order, and once it
has been read the list in memory is the same. -/
theorem picks_kept (env : BackendEnv) (server : Endpoints) (settings : String → String)
    (itemCache : String → Option Json) (es : List Event)
    (hes : machine.Along Rule (start env server settings itemCache) es) :
    let i := machine.run (start env server settings itemCache) es
    let c := (Choices.machine env.text).run (startChoices env server settings) es
    c.server = i.backend.serverId ∧ (∀ server, saved i.backend server = c.picks server) ∧
      (i.settled = true → i.backend.nextUpPlaylistIds = c.picks c.server) := by
  intro i c
  have hstart : Says env.text (start env server settings itemCache) (startChoices env server settings) :=
    ⟨rfl, rfl, fun _ => rfl, fun hread => (nomatch hread), fun server => Separated.read_plain ',' _⟩
  have htells := keeps_says env.text es hstart hes
  exact ⟨htells.server, htells.saved, htells.memory⟩

def sampleHome : Endpoints := .setBase {scheme := "https", host := "home"}

def sampleAway : Endpoints := .setBase {scheme := "https", host := "away"}

/-- Picks at home, one of them taken back, a pick on another server, and the next launch. -/
def travels : List Event :=
  [.backend .loadLibraries, .backend (.setNextUpPlaylist "p1" true), .backend (.setNextUpPlaylist "p2" true),
    .backend (.setNextUpPlaylist "p1" false), .backend .reset, .backend (.baseUrl sampleAway),
    .backend .loadLibraries, .backend (.setNextUpPlaylist "q1" true), .relaunch sampleHome, .backend .loadLibraries]

theorem picks_kept_travels :
    let i := machine.run (start default sampleHome (fun _ => "") fun _ => none) travels
    saved i.backend "away" = ["q1"] ∧ i.backend.nextUpPlaylistIds = ["p2"] := by
  have hkept := picks_kept default sampleHome (fun _ => "") (fun _ => none) travels (by decide +kernel)
  have hnone : startChoices default sampleHome (fun _ => "") = ⟨"home", fun _ => []⟩ := by
    unfold startChoices
    simp only [Separated.read_empty]
    rfl
  rw [hnone] at hkept
  exact ⟨(hkept.2.1 "away").trans (by decide +kernel), (hkept.2.2 (by decide +kernel)).trans (by decide +kernel)⟩

end Installation

end ShelfRemote.App
