import ShelfRemote.Net.ApiClient

/-! The library grid, page by page.

A load asks for page 0 and each `loadMore` for the next one. A reply is taken in if
it was asked for by the load that is current (`generation`), whatever that load was
about. -/
namespace ShelfRemote.Model
open Qt Net

/-- A request for a page, with what the closure of its reply holds. -/
structure PageRequest where
  libraryId : String
  query : List (String × String)
  page : Nat
  generation : Nat

structure LibraryItemsModel where
  items : List Json := []
  libraryId : String := ""
  baseQuery : List (String × String) := []
  page : Nat := 0
  limit : Nat := 50
  hasMore : Bool := false
  loading : Bool := false
  generation : Nat := 0

namespace LibraryItemsModel

/-- The flat fields of a library item. -/
def normalise (raw : Json) : Json :=
  let media := (raw.value "media").toObject
  let metadata := (media.value "metadata").toObject
  let progress := (raw.value "userMediaProgress").toObject
  .object [
    ("author", .string ((metadata.value "authorName").toString ((metadata.value "author").toString ""))),
    ("duration", .number ((media.value "duration").toDouble 0)),
    ("finished", .bool (progress.value "isFinished").toBool),
    ("id", .string ((raw.value "id").toString "")),
    ("mediaType", .string ((raw.value "mediaType").toString "")),
    ("progress", .number ((progress.value "progress").toDouble 0)),
    ("subtitle", .string ((metadata.value "subtitle").toString "")),
    ("title", .string ((metadata.value "title").toString ((raw.value "title").toString "")))]

def fetchPage (m : LibraryItemsModel) (page : Nat) : LibraryItemsModel × Option PageRequest :=
  if m.libraryId = "" then (m, none)
  else
    ({m with loading := true},
      some
        { libraryId := m.libraryId
          query := m.baseQuery ++ [("limit", toString m.limit), ("page", toString page)]
          page
          generation := m.generation })

def loadLibrary (m : LibraryItemsModel) (libraryId sort : String) (desc : Bool) (filter : String) :
    LibraryItemsModel × Option PageRequest :=
  let baseQuery := [("minified", "1")] ++
    (if sort = "" then [] else [("sort", sort), ("desc", if desc then "1" else "0")]) ++
    (if filter = "" then [] else [("filter", filter)])
  {m with libraryId, baseQuery, generation := m.generation + 1, page := 0, hasMore := false, items := []}.fetchPage 0

def loadMore (m : LibraryItemsModel) : LibraryItemsModel × Option PageRequest :=
  if m.hasMore && !m.loading then m.fetchPage (m.page + 1) else (m, none)

/-- The reply to the request for a page. -/
def onPage (m : LibraryItemsModel) (page generation : Nat) (res : ApiResponse) : LibraryItemsModel :=
  if res.stale || generation != m.generation then m
  else
    let m := {m with loading := false}
    if !res.ok then m
    else
      let obj := res.body.toObject
      let items := m.items ++ (obj.value "results").toArray.map fun v => normalise v.toObject
      {m with items, page, hasMore := (items.length : Int) < (obj.value "total").toInt}

/-- Items that are flat already stay as they are. -/
def setItems (m : LibraryItemsModel) (items : List Json) : LibraryItemsModel :=
  {m with
    generation := m.generation + 1
    loading := false
    items := items.map fun v =>
      match v.toObject with
      | .object fields => if fields.any (·.1 == "media") then normalise (.object fields) else .object fields
      | o => o
    hasMore := false}

end LibraryItemsModel

end ShelfRemote.Model
