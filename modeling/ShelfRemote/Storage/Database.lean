import Mathlib.Data.List.Infix
import ShelfRemote.Lib.Tables
import ShelfRemote.Net.Endpoints

/-! The database, and what forgetting a server takes from it.

Four tables share one file. What belongs to a server is kept under keys that start with the
server's id and a slash, which several classes put together with suffixes of their own;
`removeServer` lists those it knows. `forgotten_iff` says of which databases it takes all that
is the server's, and nothing else. -/
namespace ShelfRemote.Storage
open Qt Net Tables

/-! ### The tables -/

structure SecretRow where
  key : String
  blob : List UInt8

structure SettingRow where
  key : String
  value : String

/-- `Database::ServerRow`. -/
structure ServerRecord extends ServerRow where
  lastUsed : Int

/-- A cached item, with the `rowid` SQLite gives it. -/
structure ItemRow where
  rowid : Nat
  itemId : String
  json : String
  updated : Int

structure Database where
  secrets : Table SecretRow.key := {}
  settings : Table SettingRow.key := {}
  servers : Table (fun r : ServerRecord => r.id) := {}
  itemCache : Table ItemRow.itemId := {}

/-- `LIKE` of SQLite: a percent sign stands for any text and an underscore for any character;
of letters the case does not count. -/
def like : List Char → List Char → Bool
  | [], text => text.isEmpty
  | a :: pattern, text =>
    if a = '%' then text.tails.any (like pattern)
    else
      match text with
      | [] => false
      | c :: rest => (a == '_' || a.toLower == c.toLower) && like pattern rest

/-- None of the characters means anything to `LIKE`. -/
def NoWildcard (text : List Char) : Prop := text.all (fun c => c != '%' && c != '_') = true

instance (text : List Char) : Decidable (NoWildcard text) := inferInstanceAs (Decidable (_ = true))

/-- A pattern of plain characters and a percent sign is a prefix, up to case. -/
theorem like_prefix {plain : List Char} (hplain : NoWildcard plain) (text : List Char) :
    like (plain ++ ['%']) text = true ↔ plain.map Char.toLower <+: text.map Char.toLower := by
  induction plain generalizing text with
  | nil =>
    refine iff_of_true ?_ List.nil_prefix
    show text.tails.any (like []) = true
    exact List.any_eq_true.mpr ⟨[], (List.mem_tails _ _).mpr List.nil_suffix, rfl⟩
  | cons a rest ih =>
    simp only [NoWildcard, List.all_cons, Bool.and_eq_true, bne_iff_ne] at hplain
    obtain ⟨⟨hpercent, hunderscore⟩, hplain⟩ := hplain
    have hrest := ih hplain
    cases text with
    | nil => simp [like, hpercent]
    | cons c text =>
      rw [List.cons_append, like, if_neg hpercent]
      simp [hunderscore, hrest]

namespace Database

def putSecret (db : Database) (key : String) (blob : List UInt8) : Database :=
  {db with secrets := db.secrets.upsert ⟨key, blob⟩ (fun _ => ⟨key, blob⟩) fun _ _ => rfl}

/-- A setting is written over the old one. -/
def putSetting (db : Database) (key value : String) : Database :=
  {db with settings := db.settings.upsert ⟨key, value⟩ (fun _ => ⟨key, value⟩) fun _ _ => rfl}

def removeSecret (db : Database) (key : String) : Database :=
  {db with secrets := db.secrets.deleteWhere (·.key == key)}

def removeAllSecrets (db : Database) : Database := {db with secrets := db.secrets.deleteWhere fun _ => true}

def removeSetting (db : Database) (key : String) : Database :=
  {db with settings := db.settings.deleteWhere (·.key == key)}

def upsertServer (db : Database) (row : ServerRecord) : Database :=
  {db with servers := db.servers.upsert row (fun _ => row) fun _ _ => rfl}

def removeServer (db : Database) (id : String) : Database :=
  {db with servers := db.servers.deleteWhere (·.id == id)}

/-- The `rowid` SQLite gives the next item: one more than the largest one there is. -/
def nextRowid (db : Database) : Nat := (db.itemCache.rows.map (·.rowid)).foldl max 0 + 1

/-- An item that is cached again keeps its `rowid`. -/
def cacheItem (db : Database) (itemId json : String) (now : Int) : Database :=
  {db with
    itemCache := db.itemCache.upsert ⟨db.nextRowid, itemId, json, now⟩ (fun r => {r with json, updated := now})
      fun _ h => h}

/-- `ORDER BY updated DESC, rowid DESC`. -/
def newer (a b : ItemRow) : Bool := b.updated < a.updated || a.updated == b.updated && b.rowid ≤ a.rowid

def pruneItemCache (db : Database) (maxRows : Int) : Database :=
  if maxRows < 0 then db
  else
    let kept := ((db.itemCache.rows.mergeSort newer).take maxRows.toNat).map (·.itemId)
    {db with itemCache := db.itemCache.deleteWhere fun r => !kept.contains r.itemId}

def removeCachedItemsForServer (db : Database) (serverId : String) : Database :=
  {db with itemCache := db.itemCache.deleteWhere fun r => like (serverId ++ "/%").toList r.itemId.toList}

end Database

/-- `ServerManager::removeServer`, on the database. -/
def removeServer (db : Database) (id : String) : Database :=
  (((db.removeServer id).removeSecret (id ++ "/tokens")).removeSetting
    (id ++ "/lastLibraryId")).removeCachedItemsForServer id

/-! ### What belongs to a server -/

/-- The key starts with the id and a slash. -/
def Under (id key : String) : Prop := (id ++ "/").toList <+: key.toList

/-- It does so but for the case of letters. -/
def AlmostUnder (id key : String) : Prop :=
  (id ++ "/").toList.map Char.toLower <+: key.toList.map Char.toLower

instance (id key : String) : Decidable (Under id key) := inferInstanceAs (Decidable (_ <+: _))

instance (id key : String) : Decidable (AlmostUnder id key) := inferInstanceAs (Decidable (_ <+: _))

theorem Under.almost {id key : String} (h : Under id key) : AlmostUnder id key := h.map Char.toLower

theorem under_append (id : String) {suffix : String} (h : "/".toList <+: suffix.toList) :
    Under id (id ++ suffix) := by
  unfold Under
  rw [String.toList_append, String.toList_append]
  exact (List.prefix_append_right_inj _).mpr h

/-- Nothing of the server is left in any of the tables, and all else is as it was. -/
structure Forgotten (id : String) (db db' : Database) : Prop where
  servers : db.servers.Purged (·.id = id) db'.servers
  secrets : db.secrets.Purged (fun r => Under id r.key) db'.secrets
  settings : db.settings.Purged (fun r => Under id r.key) db'.settings
  itemCache : db.itemCache.Purged (fun r => Under id r.itemId) db'.itemCache

/-- Of the server there is no secret but its tokens and no setting but its last library, and no
item is cached for another one whose id differs in the case of letters only. -/
structure Listed (id : String) (db : Database) : Prop where
  secrets : ∀ r ∈ db.secrets.rows, Under id r.key → r.key = id ++ "/tokens"
  settings : ∀ r ∈ db.settings.rows, Under id r.key → r.key = id ++ "/lastLibraryId"
  itemCache : ∀ r ∈ db.itemCache.rows, AlmostUnder id r.itemId → Under id r.itemId

variable {db : Database} {id : String}

theorem servers_purged (db : Database) (id : String) :
    db.servers.Purged (·.id = id) (removeServer db id).servers :=
  (Table.purged_iff db.servers).mpr fun _ _ => beq_iff_eq

/-- A key that is listed is the server's, so it is the keys that are not that matter. -/
theorem key_purged {ρ : Type} {key : ρ → String} {t : Table key} {suffix : String}
    (h : "/".toList <+: suffix.toList) :
    t.Purged (fun r => Under id (key r)) (t.deleteWhere fun r => key r == id ++ suffix) ↔
      ∀ r ∈ t.rows, Under id (key r) → key r = id ++ suffix := by
  rw [Table.purged_iff]
  refine forall₂_congr fun r _ => ?_
  rw [beq_iff_eq]
  exact ⟨Iff.mpr, fun hunder => ⟨fun hkey => hkey ▸ under_append id h, hunder⟩⟩

/-- What the pattern of the item cache matches. -/
theorem like_under (hid : NoWildcard id.toList) (key : String) :
    like (id ++ "/%").toList key.toList = true ↔ AlmostUnder id key := by
  have hplain : NoWildcard (id ++ "/").toList := by
    unfold NoWildcard
    rw [String.toList_append, List.all_append, show id.toList.all _ = true from hid]
    rfl
  have hpattern : (id ++ "/%").toList = (id ++ "/").toList ++ ['%'] := by
    rw [String.toList_append, String.toList_append, List.append_assoc]
    rfl
  rw [hpattern]
  exact like_prefix hplain _

theorem items_purged (db : Database) (hid : NoWildcard id.toList) :
    db.itemCache.Purged (fun r => Under id r.itemId) (removeServer db id).itemCache ↔
      ∀ r ∈ db.itemCache.rows, AlmostUnder id r.itemId → Under id r.itemId := by
  refine (Table.purged_iff db.itemCache).trans (forall₂_congr fun r _ => ?_)
  rw [like_under hid]
  exact ⟨Iff.mp, fun hunder => ⟨hunder, Under.almost⟩⟩

theorem forgets_iff_listed (hid : NoWildcard id.toList) : Forgotten id db (removeServer db id) ↔ Listed id db := by
  constructor
  · intro h
    exact ⟨(key_purged (by decide)).mp h.secrets, (key_purged (by decide)).mp h.settings,
      (items_purged db hid).mp h.itemCache⟩
  · intro h
    exact ⟨servers_purged db id, (key_purged (by decide)).mpr h.secrets, (key_purged (by decide)).mpr h.settings,
      (items_purged db hid).mpr h.itemCache⟩

/-- **A server is forgotten, and nothing else,** if and only if all that belongs to it is
listed. -/
theorem forgotten_iff (db : Database) (id : String) (hid : NoWildcard id.toList) :
    Forgotten id db (removeServer db id) ↔ Listed id db := forgets_iff_listed hid

/-- The hash of a server's URL. -/
def sampleId : String := "356a192b7913b04c54574d18c28d46e6395428ab"

/-- The playlists picked for it. -/
def pickedPlaylists : Database := ({} : Database).putSetting (sampleId ++ "/nextUpPlaylists") "p1"

/-- They are still there when the server is forgotten. -/
theorem playlists_left :
    let db := removeServer pickedPlaylists sampleId
    db.settings.rows.map (fun r => (r.key, r.value)) = [(sampleId ++ "/nextUpPlaylists", "p1")] ∧
      ¬Forgotten sampleId pickedPlaylists db := by
  refine ⟨by decide +kernel, fun h => ?_⟩
  exact h.settings.gone ⟨sampleId ++ "/nextUpPlaylists", "p1"⟩ (List.mem_singleton_self _) (by decide +kernel)

/-- The library it was left at. -/
def leftLibrary : Database := ({} : Database).putSetting (sampleId ++ "/lastLibraryId") "audiobooks"

theorem forgotten_iff_left :
    Forgotten sampleId leftLibrary (removeServer leftLibrary sampleId) ∧
      ¬Forgotten sampleId pickedPlaylists (removeServer pickedPlaylists sampleId) :=
  ⟨(forgotten_iff leftLibrary sampleId (by decide +kernel)).mpr
      ⟨fun _ h => (nomatch h), fun _ h _ => by rw [List.mem_singleton.mp h], fun _ h => (nomatch h)⟩,
    fun h => absurd
      (((forgotten_iff pickedPlaylists sampleId (by decide +kernel)).mp h).settings
        ⟨sampleId ++ "/nextUpPlaylists", "p1"⟩ (List.mem_singleton_self _) (by decide +kernel))
      (by decide +kernel)⟩

end ShelfRemote.Storage
