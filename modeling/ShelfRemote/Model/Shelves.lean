import ShelfRemote.Qt.Json

/-! The playlists and the shelves of the Home screen.

Home shows the server's shelves and one of its own, the next unread book of each
playlist the user picked. -/
namespace ShelfRemote.Model
open Qt

/-- A card of a shelf or a row of a playlist. -/
structure Card where
  kind : String
  itemId : String
  episodeId : String
  coverId : String
  coverKind : String
  title : String
  author : String
  deriving DecidableEq

structure PlaylistModel where
  playlists : List Json := []

namespace PlaylistModel

/-- An item of a playlist; one without an id is left out. -/
def flattenItem (v : Json) : Option Card :=
  let item := v.toObject
  let libraryItem := (item.value "libraryItem").toObject
  let itemId := (item.value "libraryItemId").toString ((libraryItem.value "id").toString "")
  if itemId = "" then none
  else
    let metadata := ((libraryItem.value "media").toObject.value "metadata").toObject
    let episodeId := (item.value "episodeId").toString ""
    let episode := (item.value "episode").toObject
    some
      { kind := if episodeId ≠ "" then "episode" else "book"
        itemId
        episodeId
        coverId := itemId
        coverKind := "item"
        title := if episodeId ≠ "" then (episode.value "title").toString ((metadata.value "title").toString "")
          else (metadata.value "title").toString ((libraryItem.value "title").toString "")
        author := if episodeId ≠ "" then (metadata.value "title").toString ""
          else (metadata.value "authorName").toString ((metadata.value "author").toString "") }

def flattenItems (items : List Json) : List Card := items.filterMap flattenItem

def playlistId (playlist : Json) : String := (playlist.toObject.value "id").toString ""

def name (playlist : Json) : String := (playlist.toObject.value "name").toString ""

def entries (playlist : Json) : List Card := flattenItems (playlist.toObject.value "items").toArray

def setPlaylists (_ : PlaylistModel) (playlists : List Json) : PlaylistModel := {playlists}

end PlaylistModel

structure ShelfModel where
  shelves : List Json := []
  nextUp : List Card := []

namespace ShelfModel

def setShelves (m : ShelfModel) (shelves : List Json) : ShelfModel := {m with shelves}

def setPlaylistNextUp (m : ShelfModel) (items : List Card) : ShelfModel :=
  if items = m.nextUp then m else {m with nextUp := items}

theorem setPlaylistNextUp_nextUp (m : ShelfModel) (items : List Card) :
    (m.setPlaylistNextUp items).nextUp = items := by
  unfold setPlaylistNextUp
  split
  · next hsame => exact hsame.symm
  · rfl

end ShelfModel

end ShelfRemote.Model
