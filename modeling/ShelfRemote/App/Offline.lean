import ShelfRemote.App.Installation
import ShelfRemote.Storage.CoverCache

/-! The details of items that were seen before.

A reply with the details of an item leaves them in the item cache, under one text made of the
server's id and the item's, and a request that fails later shows what is there. The cache
outlives the launch, is pruned, and loses what belongs to a server that is forgotten.
`offline_details` says that what is shown is what the same server last said of the same item. -/
namespace ShelfRemote.App
open Qt Net Runs Model Storage CoverCache

namespace Installation

/-- What servers have said of their items. -/
abbrev Details := String → String → Option Json

/-- The server, the item and the details that the reply to a closure is about, if it is heeded. -/
def heeded (b : Backend) (res : ApiResponse) : Backend.Closure → Option (String × String × Json)
  | .item itemId gen base =>
    if res.stale = false ∧ gen = b.serverGeneration ∧ res.ok = true then
      some (idForUrl b.env.text base, itemId, res.body.toObject)
    else none
  | _ => none

def told (b : Backend) : Backend.Event → Option (String × String × Json)
  | .reply id res => (b.outbox.take id).bind fun taken => heeded b res taken.1.closure.closure
  | _ => none

namespace Details

def tell (known : Details) : Option (String × String × Json) → Details
  | none => known
  | some (server, item, details) => fun s i => if s = server ∧ i = item then some details else known s i

def step (known : Details) (b : Backend) : Event → Details
  | .backend e => known.tell (told b e)
  | .relaunch _ => known
  | .forget server => fun s i => if s = server then none else known s i
  | .prune kept => fun s i => if kept (s ++ "/" ++ i) then known s i else none

/-- What is known after a run. -/
def after (known : Details) (i : Installation) : List Event → Details
  | [] => known
  | e :: rest => after (known.step i.backend e) (Installation.step i e) rest

end Details

/-- What is shown when the server does not answer. -/
def shownOffline (itemId : String) (known : Option Json) : List BackendSignal :=
  let saved := known.getD (.object [])
  if saved.isEmpty then [.errorOccurred "Failed to load item", .itemLoadFailed itemId]
  else [.itemLoaded saved, .errorOccurred "Showing saved details; the server could not be reached"]

/-- Servers are forgotten by their ids. -/
def Ids (_ : Installation) : Event → Prop
  | .forget server => Hex server
  | _ => True

/-- The cache has what is known, and ids are hashes. -/
structure Caches (i : Installation) (known : Details) : Prop where
  hex : ∀ t, Hex (i.backend.env.text.sha1 t)
  cached : ∀ server item, Hex server → i.backend.itemCache (server ++ "/" ++ item) = known server item

section Caches
variable {i : Installation} {known : Details} {b : Backend}

/-- A key tells the server and the item. -/
theorem itemKey_inj {s s' item item' : String} (hs : Hex s) (hs' : Hex s') :
    s ++ "/" ++ item = s' ++ "/" ++ item' ↔ s = s' ∧ item = item' := by
  constructor
  · intro h
    have hlist := congrArg String.toList h
    simp only [String.toList_append, List.append_assoc] at hlist
    obtain ⟨hserver, hitem⟩ := front_inj hs.noSlash hs'.noSlash hlist
    exact ⟨String.toList_inj.mp hserver, String.toList_inj.mp hitem⟩
  · rintro ⟨rfl, rfl⟩
    rfl

/-- The pattern takes what is the server's, and nothing else. -/
theorem like_item {s server : String} (item : String) (hs : Hex s) (hserver : Hex server) :
    like (server ++ "/%").toList (s ++ "/" ++ item).toList = true ↔ s = server := by
  have hsuffix : "/".toList <+: ("/" ++ item).toList := String.toList_append ▸ List.prefix_append _ _
  rw [like_under hserver.noWildcard, String.append_assoc]
  exact (almostUnder_iff hserver hs hsuffix).trans eq_comm

theorem Caches.kept (h : Caches i known) {b' : Backend} (henv : b'.env = i.backend.env)
    (hcache : b'.itemCache = i.backend.itemCache) {settled : Bool} : Caches ⟨b', settled⟩ known :=
  ⟨fun t => by rw [henv]; exact h.hex t, fun server item hserver => by rw [hcache]; exact h.cached server item hserver⟩

theorem setNextUpPlaylist_cache (b : Backend) (id : String) (enabled : Bool) :
    (b.setNextUpPlaylist id enabled).env = b.env ∧ (b.setNextUpPlaylist id enabled).itemCache = b.itemCache := by
  unfold Backend.setNextUpPlaylist
  split <;> exact ⟨rfl, rfl⟩

theorem loadLibraries_cache (b : Backend) :
    b.loadLibraries.env = b.env ∧ b.loadLibraries.itemCache = b.itemCache := by
  unfold Backend.loadLibraries
  dsimp only
  split <;> exact ⟨rfl, rfl⟩

/-- What a reply leaves in the cache is what it tells. -/
theorem Caches.noted (h : Caches i known) (henv : b.env = i.backend.env) (hcache : b.itemCache = i.backend.itemCache)
    (hgen : b.serverGeneration = i.backend.serverGeneration) (closure : Backend.Closure) (res : ApiResponse)
    (settled : Bool) :
    Caches ⟨Installation.noted b closure res, settled⟩ (known.tell (heeded i.backend res closure)) := by
  have hsame : Caches ⟨b, settled⟩ known := h.kept henv hcache
  cases closure with
  | item itemId gen base =>
    unfold Installation.noted heeded
    dsimp only
    by_cases hheeded : res.stale = false ∧ gen = i.backend.serverGeneration ∧ res.ok = true
    · rw [if_pos hheeded, if_neg (by simp [hheeded, hgen])]
      refine ⟨fun t => henv ▸ h.hex t, fun server item hserver => ?_⟩
      have hkey : b.itemCacheKey base itemId = idForUrl i.backend.env.text base ++ "/" ++ itemId := by
        unfold Backend.itemCacheKey
        rw [henv]
      have hinj : server ++ "/" ++ item = idForUrl i.backend.env.text base ++ "/" ++ itemId ↔ _ :=
        itemKey_inj hserver (h.hex _)
      show (if server ++ "/" ++ item = b.itemCacheKey base itemId then _ else b.itemCache _) = _
      rw [hkey, hcache, h.cached server item hserver]
      exact if_congr hinj rfl rfl
    · have hunheeded : (res.stale || gen != b.serverGeneration || !res.ok) = true := by
        cases hstale : res.stale <;> cases hok : res.ok <;> simp_all
      rw [if_neg hheeded, if_pos hunheeded]
      exact hsame
  | _ => exact hsame

/-- So is what the whole reply leaves. -/
theorem Caches.reply (h : Caches i known) (id : Nat) (res : ApiResponse) {settled : Bool} :
    Caches ⟨Backend.machine.step i.backend (.reply id res), settled⟩ (known.tell (told i.backend (.reply id res))) := by
  show Caches ⟨i.backend.fresh.finished id res, settled⟩ _
  unfold Backend.finished
  cases htake : i.backend.outbox.take id with
  | none =>
    have htold : told i.backend (.reply id res) = none := by simp [told, htake]
    have hfresh : i.backend.fresh.outbox.take id = none := htake
    rw [htold, hfresh]
    show Caches ⟨i.backend.fresh, settled⟩ known
    apply h.kept <;> rfl
  | some taken =>
    obtain ⟨p, outbox⟩ := taken
    have htold : told i.backend (.reply id res) = heeded i.backend res p.closure.closure := by simp [told, htake]
    have hfresh : i.backend.fresh.outbox.take id = some (p, outbox) := htake
    rw [htold, hfresh]
    have hnoted := h.noted (b := {i.backend.fresh with outbox}) rfl rfl rfl p.closure.closure res settled
    have hcall := beside_call {i.backend.fresh with outbox} p.closure.closure res
    exact hnoted.kept hcall.env hcall.itemCache

theorem Caches.step (h : Caches i known) (e : Event) (he : Ids i e) :
    Caches (Installation.step i e) (known.step i.backend e) := by
  cases e with
  | forget server =>
    refine ⟨h.hex, fun s item hs => ?_⟩
    show (if like _ _ then none else i.backend.itemCache (s ++ "/" ++ item)) = if s = server then none else known s item
    rw [h.cached s item hs]
    simp only [like_item item hs he]
  | prune kept =>
    refine ⟨h.hex, fun s item hs => ?_⟩
    show (if kept (s ++ "/" ++ item) then i.backend.itemCache (s ++ "/" ++ item) else none) = _
    rw [h.cached s item hs]
    rfl
  | relaunch server => exact ⟨h.hex, h.cached⟩
  | backend e =>
    cases e with
    | reply id res => exact h.reply id res
    | setNextUpPlaylist id enabled =>
      obtain ⟨henv, hcache⟩ := setNextUpPlaylist_cache i.backend.fresh id enabled
      exact h.kept henv hcache
    | baseUrl server => exact ⟨h.hex, h.cached⟩
    | reset => exact ⟨h.hex, h.cached⟩
    | loadLibraries =>
      obtain ⟨henv, hcache⟩ := loadLibraries_cache i.backend.fresh
      exact h.kept henv hcache
    | selectLibrary | refreshHome | refreshPlaylists | browse | loadMore | search | clearSearch | browseSeries
    | browseAuthor | loadItem | markFinished | setPlaylistNextUpEnabled | progress | clock =>
      apply h.kept
      · exact (beside_step i.backend _ (by exact not_false)).env
      · exact (beside_step i.backend _ (by exact not_false)).itemCache

theorem caches_after (es : List Event) {i : Installation} {known : Details} (h : Caches i known)
    (hes : machine.Along Ids i es) : Caches (machine.run i es) (known.after i es) := by
  induction es generalizing i known with
  | nil => exact h
  | cons e rest ih => exact ih (h.step e hes.1) hes.2

/-- A request for details that failed shows what the cache has. -/
theorem onItem_failed (b : Backend) (itemId : String) (base : QUrl) {res : ApiResponse} (hcurrent : res.stale = false)
    (hfailed : res.ok = false) :
    (b.onItem itemId b.serverGeneration base res).signals =
      b.signals ++ shownOffline itemId (b.itemCache (b.itemCacheKey base itemId)) := by
  unfold Backend.onItem shownOffline
  simp only [hcurrent, hfailed, bne_self_eq_false, Bool.or_self, Bool.not_false, if_true, Bool.false_eq_true,
    if_false]
  split <;> simp [Backend.emit]

theorem offline_signals (b : Backend) {id : Nat} {res : ApiResponse} {p : Sent Backend.Asked}
    {outbox : Outbox Backend.Asked} {itemId : String} {base : QUrl} (htake : b.outbox.take id = some (p, outbox))
    (hclosure : p.closure.closure = .item itemId b.serverGeneration base) (hcurrent : res.stale = false)
    (hfailed : res.ok = false) :
    (Backend.machine.step b (.reply id res)).signals =
      shownOffline itemId (b.itemCache (idForUrl b.env.text base ++ "/" ++ itemId)) := by
  have htaken : b.fresh.outbox.take id = some (p, outbox) := htake
  show (b.fresh.finished id res).signals = _
  unfold Backend.finished
  rw [htaken]
  show ({b.fresh with outbox}.call p.closure.closure res).signals = _
  rw [hclosure]
  exact onItem_failed {b.fresh with outbox} itemId base hcurrent hfailed

end Caches

/-- **Saved details.** Whatever happens, replies in any order, other servers, sign-outs, launches,
servers forgotten and the cache pruned: the cache has for each item of each server what the last
heeded reply from that server said of it, unless it was pruned or the server forgotten since; and
a request for details that fails shows just that, or says that there is nothing. -/
theorem offline_details (env : BackendEnv) (hhex : ∀ t, Hex (env.text.sha1 t)) (server : Endpoints)
    (settings : String → String) (itemCache : String → Option Json) (es : List Event)
    (hes : machine.Along Ids (start env server settings itemCache) es) :
    let i := machine.run (start env server settings itemCache) es
    let known := Details.after (fun s item => itemCache (s ++ "/" ++ item)) (start env server settings itemCache) es
    (∀ s item, Hex s → i.backend.itemCache (s ++ "/" ++ item) = known s item) ∧
      ∀ id res p outbox itemId base, i.backend.outbox.take id = some (p, outbox) →
        p.closure.closure = .item itemId i.backend.serverGeneration base → res.stale = false → res.ok = false →
        (Backend.machine.step i.backend (.reply id res)).signals =
          shownOffline itemId (known (idForUrl i.backend.env.text base) itemId) := by
  intro i known
  have hcaches : Caches i known := caches_after es ⟨hhex, fun _ _ _ => rfl⟩ hes
  refine ⟨hcaches.cached, fun id res p outbox itemId base htake hclosure hcurrent hfailed => ?_⟩
  rw [offline_signals i.backend htake hclosure hcurrent hfailed]
  exact congrArg (shownOffline itemId) (hcaches.cached _ itemId (hcaches.hex _))

def hashedEnv : BackendEnv := {text := sampleUrls.toUrlText, base64 := fun text => text}

/-- The details of a book. -/
def bookDetails : Json := .object [("id", .string "i1"), ("updatedAt", .number 7)]

/-- A book is looked at, and again in the next launch. -/
def lookedAt : List Event :=
  [.backend (.loadItem "i1"), .backend (.reply 0 ⟨200, true, false, bookDetails, "", none⟩),
    .relaunch (.setBase homeBase), .backend (.loadItem "i1")]

theorem offline_details_again :
    (Backend.machine.step (machine.run (start hashedEnv (.setBase homeBase) (fun _ => "") fun _ => none) lookedAt).backend
      (.reply 0 ⟨0, false, false, .null, "", none⟩)).signals =
      [.itemLoaded bookDetails, .errorOccurred "Showing saved details; the server could not be reached"] := by
  have hshown := (offline_details hashedEnv sampleUrls.hex (.setBase homeBase) (fun _ => "") (fun _ => none) lookedAt
    (by simp [lookedAt, Machine.Along, Ids])).2 0 ⟨0, false, false, .null, "", none⟩ _ _ "i1" homeBase rfl rfl rfl rfl
  exact hshown.trans rfl

end Installation

end ShelfRemote.App
