import ShelfRemote.Model.LibraryItemsModel
import ShelfRemote.Model.ProgressStore
import ShelfRemote.Model.Shelves
import ShelfRemote.Net.Outbox

/-! The controller of the browsing screens.

It fills the Home shelves, the playlists, the grid and the search results, each with
requests of its own, and what tells a reply that is wanted from one that came too
late is different for each of them (`Closure`). -/
namespace ShelfRemote.App
open Qt Net Runs Model

/-- What the backend takes from Qt. -/
structure BackendEnv where
  text : UrlText
  /-- Base64 of the UTF-8 of a text. -/
  base64 : String → String

/-- Enough for runs on `https` servers at the root of their host, without filters. -/
instance : Inhabited BackendEnv where
  default :=
    { text :=
        { toString := fun u => u.host
          parse := fun host => {scheme := "https", host}
          sha1 := fun text => text }
      base64 := fun text => text }

structure Library where
  id : String
  name : String
  mediaType : String
  deriving DecidableEq

inductive BackendSignal where
  | errorOccurred (message : String)
  | searchFinished (query : String) (ok : Bool)
  | itemLoaded (item : Json)
  | itemLoadFailed (itemId : String)
  | navigateToLibrary

namespace Backend

/-- The closures of the replies. -/
inductive Closure where
  | libraries (gen : Nat)
  | home (gen : Nat)
  | playlists (libraryId : String) (gen : Nat)
  /-- A page of the grid. -/
  | page (page gen : Nat)
  | search (gen serverGen : Nat) (query : String)
  | item (itemId : String) (gen : Nat) (base : QUrl)
  | markFinished (itemId : String) (finished : Bool) (gen : Nat)
  deriving DecidableEq

/-- A closure, with the library the request was made for as history. -/
structure Asked where
  closure : Closure
  library : Option String := none

end Backend

open Backend in
structure Backend where
  env : BackendEnv
  server : Endpoints
  homeShelves : ShelfModel := {}
  playlists : PlaylistModel := {}
  libraryItems : LibraryItemsModel := {}
  searchResults : LibraryItemsModel := {}
  progress : ProgressStore := {}
  libraries : List Library := []
  currentLibraryId : String := ""
  nextUpPlaylistIds : List String := []
  playlistNextUpEnabled : Bool := false
  serverGeneration : Nat := 0
  searchGeneration : Nat := 0
  /-- The settings and the item cache of the database. -/
  settings : String → String := fun _ => ""
  itemCache : String → Option Json := fun _ => none
  /-- The clock, in milliseconds. -/
  now : Rat := 0
  outbox : Outbox Asked := {}
  /-- What the event being handled has emitted, oldest first. -/
  signals : List BackendSignal := []

namespace Backend

def emit (b : Backend) (signal : BackendSignal) : Backend := {b with signals := b.signals ++ [signal]}

def putSetting (b : Backend) (key value : String) : Backend :=
  {b with settings := fun k => if k = key then value else b.settings k}

def get (b : Backend) (target : Target) (closure : Closure) (library : Option String := none) : Backend :=
  {b with outbox := b.outbox.send .get target .null ⟨closure, library⟩}

/-- The key of the configured server. -/
def serverId (b : Backend) : String := idForUrl b.env.text b.server.base

def itemCacheKey (b : Backend) (base : QUrl) (itemId : String) : String :=
  idForUrl b.env.text base ++ "/" ++ itemId

def lastLibraryKey (b : Backend) : String := b.serverId ++ "/lastLibraryId"

def nextUpPlaylistsKey (b : Backend) : String := b.serverId ++ "/nextUpPlaylists"

/-! ### The next-up shelf -/

/-- The book of a playlist to go on with: the first one begun, else the first one
unread. Episodes and finished books are passed over. -/
def nextUp (progress : ProgressStore) : List Card → Option Card → Option Card
  | [], unread => unread
  | entry :: rest, unread =>
    if entry.kind ≠ "book" ∨ progress.isFinished entry.itemId then nextUp progress rest unread
    else if 0 < progress.fraction entry.itemId ∨ 0 < progress.currentTime entry.itemId then some entry
    else nextUp progress rest (unread <|> some entry)

/-- The card of a playlist, under the name of the playlist. -/
def nextUpCard (b : Backend) (playlist : Json) : Option Card :=
  if b.nextUpPlaylistIds.contains (PlaylistModel.playlistId playlist) then
    (nextUp b.progress (PlaylistModel.entries playlist) none).map fun card =>
      {card with author := PlaylistModel.name playlist}
  else none

def updatePlaylistNextUp (b : Backend) : Backend :=
  let cards := if b.playlistNextUpEnabled && !b.nextUpPlaylistIds.isEmpty then
      b.playlists.playlists.filterMap b.nextUpCard else []
  {b with homeShelves := b.homeShelves.setPlaylistNextUp cards}

/-- `modelReset` of the playlists brings the shelf up to date. -/
def setPlaylists (b : Backend) (playlists : List Json) : Backend :=
  {b with playlists := b.playlists.setPlaylists playlists}.updatePlaylistNextUp

/-- So does `changed` of the progress store. -/
def progressChanged (b : Backend) (progress : Option ProgressStore) : Backend :=
  match progress with
  | none => b
  | some progress => {b with progress}.updatePlaylistNextUp

def setPlaylistNextUpEnabled (b : Backend) (enabled : Bool) : Backend :=
  if enabled = b.playlistNextUpEnabled then b
  else {b with playlistNextUpEnabled := enabled}.updatePlaylistNextUp

def setNextUpPlaylist (b : Backend) (playlistId : String) (enabled : Bool) : Backend :=
  if playlistId = "" ∨ b.nextUpPlaylistIds.contains playlistId = enabled then b
  else
    let ids := if enabled then b.nextUpPlaylistIds ++ [playlistId]
      else b.nextUpPlaylistIds.filter (· ≠ playlistId)
    let b := {b with nextUpPlaylistIds := ids}
    (b.putSetting b.nextUpPlaylistsKey (String.intercalate "," ids)).updatePlaylistNextUp

/-! ### Requests -/

def loadLibraries (b : Backend) : Backend :=
  let nextUp := ((b.settings b.nextUpPlaylistsKey).splitOn ",").filter (· ≠ "")
  let b := if nextUp = b.nextUpPlaylistIds then b else {b with nextUpPlaylistIds := nextUp}.updatePlaylistNextUp
  b.get b.server.libraries (.libraries b.serverGeneration)

def refreshHome (b : Backend) : Backend :=
  if b.currentLibraryId = "" then b
  else b.get (b.server.personalized b.currentLibraryId) (.home b.serverGeneration) b.currentLibraryId

def refreshPlaylists (b : Backend) : Backend :=
  if b.currentLibraryId = "" then b
  else
    b.get (b.server.libraryPlaylists b.currentLibraryId) (.playlists b.currentLibraryId b.serverGeneration)
      b.currentLibraryId

/-- The grid asks for a page. -/
def fetch (b : Backend) (asked : LibraryItemsModel × Option PageRequest) : Backend :=
  let b := {b with libraryItems := asked.1}
  match asked.2 with
  | none => b
  | some r => b.get (b.server.libraryItems r.libraryId r.query) (.page r.page r.generation) r.libraryId

def browse (b : Backend) (sort : String) (desc : Bool) (filter : String) : Backend :=
  if b.currentLibraryId = "" then b
  else b.fetch (b.libraryItems.loadLibrary b.currentLibraryId sort desc filter)

def loadMore (b : Backend) : Backend := b.fetch b.libraryItems.loadMore

def selectLibrary (b : Backend) (libraryId : String) : Backend :=
  if libraryId = "" then b
  else
    let b := if libraryId ≠ b.currentLibraryId then b.setPlaylists [] else b
    let b := {b with currentLibraryId := libraryId}
    let b := b.putSetting b.lastLibraryKey libraryId
    b.refreshHome.refreshPlaylists.browse "media.metadata.title" false ""

def clearSearch (b : Backend) : Backend :=
  {b with searchGeneration := b.searchGeneration + 1, searchResults := b.searchResults.setItems []}

def search (b : Backend) (query : String) : Backend :=
  if b.currentLibraryId = "" then b.emit (.searchFinished query false)
  else if trimmed query = "" then b.clearSearch
  else
    let b := {b with searchGeneration := b.searchGeneration + 1}
    b.get (b.server.search b.currentLibraryId [("q", trimmed query), ("limit", "50")])
      (.search b.searchGeneration b.serverGeneration query) b.currentLibraryId

/-- A filter of the server: a group and a value. -/
def browseBy (b : Backend) (group id : String) : Backend :=
  if b.currentLibraryId = "" ∨ id = "" then b
  else
    (b.fetch (b.libraryItems.loadLibrary b.currentLibraryId "media.metadata.title" false
      (group ++ "." ++ b.env.base64 id))).emit .navigateToLibrary

def browseSeries (b : Backend) (seriesId : String) : Backend := b.browseBy "series" seriesId

def browseAuthor (b : Backend) (authorId : String) : Backend := b.browseBy "authors" authorId

def loadItem (b : Backend) (itemId : String) : Backend :=
  b.get (b.server.item itemId [("expanded", "1"), ("include", "progress")])
    (.item itemId b.serverGeneration b.server.base)

def markFinished (b : Backend) (itemId : String) (finished : Bool) : Backend :=
  let body := .object [("isFinished", .bool finished)]
  let asked := ⟨.markFinished itemId finished b.serverGeneration, none⟩
  {b with outbox := b.outbox.send .patch (b.server.progress itemId) body asked}

def reset (b : Backend) : Backend :=
  let b := {b with
    serverGeneration := b.serverGeneration + 1
    searchGeneration := b.searchGeneration + 1
    currentLibraryId := ""
    libraries := []
    nextUpPlaylistIds := []
    homeShelves := b.homeShelves.setShelves []}
  let b := b.setPlaylists []
  {b with libraryItems := b.libraryItems.setItems [], searchResults := b.searchResults.setItems []}

/-! ### Replies -/

/-- The library the user last browsed on this server, while it is still there, else
the first one. -/
def toSelect (b : Backend) (first : Library) : String :=
  let last := b.settings b.lastLibraryKey
  if last ≠ "" ∧ b.libraries.any (·.id == last) then last else first.id

def onLibraries (b : Backend) (gen : Nat) (res : ApiResponse) : Backend :=
  if res.stale || gen != b.serverGeneration then b
  else if !res.ok then
    b.emit (.errorOccurred ("Failed to load libraries (HTTP " ++ toString res.status ++ ")"))
  else
    let libraries := (res.body.toObject.value "libraries").toArray.map fun v =>
      { id := (v.toObject.value "id").toString ""
        name := (v.toObject.value "name").toString ""
        mediaType := (v.toObject.value "mediaType").toString "" }
    let b := {b with libraries}
    match libraries with
    | [] => b
    | first :: _ => if b.currentLibraryId = "" then b.selectLibrary (b.toSelect first) else b

def onHome (b : Backend) (gen : Nat) (res : ApiResponse) : Backend :=
  if res.stale || gen != b.serverGeneration then b
  else if res.ok then {b with homeShelves := b.homeShelves.setShelves res.body.toArray}
  else b

def onPlaylists (b : Backend) (libraryId : String) (gen : Nat) (res : ApiResponse) : Backend :=
  if res.stale || gen != b.serverGeneration || libraryId != b.currentLibraryId then b
  else if !res.ok then
    b.emit (.errorOccurred ("Failed to load playlists (HTTP " ++ toString res.status ++ ")"))
  else b.setPlaylists (res.body.toObject.value "results").toArray

/-- The hits of a search, books before podcasts. -/
def hits (obj : Json) : List Json :=
  ["book", "podcast"].flatMap fun group =>
    (obj.value group).toArray.map fun v => (v.toObject.value "libraryItem").toObject

def onSearch (b : Backend) (gen serverGen : Nat) (query : String) (res : ApiResponse) : Backend :=
  if res.stale || gen != b.searchGeneration || serverGen != b.serverGeneration then b
  else if !res.ok then (b.emit (.errorOccurred "Search failed")).emit (.searchFinished query false)
  else
    {b with searchResults := b.searchResults.setItems (hits res.body.toObject)}.emit
      (.searchFinished query true)

/-- The server's own view of where the user is, if the item comes with it. -/
def applyItemProgress (b : Backend) (itemId : String) (item : Json) : Backend :=
  let p := (item.value "userMediaProgress").toObject
  if p.isEmpty then b
  else
    b.progressChanged (b.progress.set b.now itemId ((p.value "progress").toDouble 0)
      ((p.value "currentTime").toDouble 0) (p.value "isFinished").toBool)

def onItem (b : Backend) (itemId : String) (gen : Nat) (base : QUrl) (res : ApiResponse) : Backend :=
  if res.stale || gen != b.serverGeneration then b
  else if !res.ok then
    let cached := (b.itemCache (b.itemCacheKey base itemId)).getD (.object [])
    if cached.isEmpty then (b.emit (.errorOccurred "Failed to load item")).emit (.itemLoadFailed itemId)
    else
      (b.emit (.itemLoaded cached)).emit
        (.errorOccurred "Showing saved details; the server could not be reached")
  else
    let obj := res.body.toObject
    let key := b.itemCacheKey base itemId
    let b := {b with itemCache := fun k => if k = key then some obj else b.itemCache k}
    (b.applyItemProgress itemId obj).emit (.itemLoaded obj)

def onMarkFinished (b : Backend) (itemId : String) (finished : Bool) (gen : Nat) (res : ApiResponse) : Backend :=
  if res.stale || gen != b.serverGeneration then b
  else if !res.ok then b.emit (.errorOccurred "Failed to update progress")
  else (b.progressChanged (b.progress.setFinished itemId finished)).loadItem itemId

/-- The closure of a reply runs. -/
def call (b : Backend) (closure : Closure) (res : ApiResponse) : Backend :=
  match closure with
  | .libraries gen => b.onLibraries gen res
  | .home gen => b.onHome gen res
  | .playlists libraryId gen => b.onPlaylists libraryId gen res
  | .page page gen => {b with libraryItems := b.libraryItems.onPage page gen res}
  | .search gen serverGen query => b.onSearch gen serverGen query res
  | .item itemId gen base => b.onItem itemId gen base res
  | .markFinished itemId finished gen => b.onMarkFinished itemId finished gen res

def finished (b : Backend) (id : Nat) (res : ApiResponse) : Backend :=
  match b.outbox.take id with
  | none => b
  | some (p, outbox) => {b with outbox}.call p.closure.closure res

/-! ### Events -/

inductive Event where
  | loadLibraries
  | selectLibrary (libraryId : String)
  | refreshHome
  | refreshPlaylists
  | browse (sort : String) (desc : Bool) (filter : String)
  | loadMore
  | search (query : String)
  | clearSearch
  | browseSeries (seriesId : String)
  | browseAuthor (authorId : String)
  | loadItem (itemId : String)
  | markFinished (itemId : String) (finished : Bool)
  | setPlaylistNextUpEnabled (enabled : Bool)
  | setNextUpPlaylist (playlistId : String) (enabled : Bool)
  /-- Another component changes the progress store. -/
  | progress (progress : Option ProgressStore)
  | reset
  | reply (id : Nat) (res : ApiResponse)
  /-- The client is pointed at a server. -/
  | baseUrl (server : Endpoints)
  | clock (now : Rat)

def handle (b : Backend) : Event → Backend
  | .loadLibraries => b.loadLibraries
  | .selectLibrary libraryId => b.selectLibrary libraryId
  | .refreshHome => b.refreshHome
  | .refreshPlaylists => b.refreshPlaylists
  | .browse sort desc filter => b.browse sort desc filter
  | .loadMore => b.loadMore
  | .search query => b.search query
  | .clearSearch => b.clearSearch
  | .browseSeries seriesId => b.browseSeries seriesId
  | .browseAuthor authorId => b.browseAuthor authorId
  | .loadItem itemId => b.loadItem itemId
  | .markFinished itemId finished => b.markFinished itemId finished
  | .setPlaylistNextUpEnabled enabled => b.setPlaylistNextUpEnabled enabled
  | .setNextUpPlaylist playlistId enabled => b.setNextUpPlaylist playlistId enabled
  | .progress progress => b.progressChanged progress
  | .reset => b.reset
  | .reply id res => b.finished id res
  | .baseUrl server => {b with server}
  | .clock now => {b with now}

/-- The next event starts: nothing is emitted yet. -/
def fresh (b : Backend) : Backend := {b with signals := []}

def machine : Machine Backend Event := ⟨fun b e => b.fresh.handle e⟩

end Backend

end ShelfRemote.App
