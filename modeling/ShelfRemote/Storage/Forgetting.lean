import ShelfRemote.Lib.Runs
import ShelfRemote.Storage.Database

/-! What a server leaves in the database.

Several classes write rows under the id of a server, each with suffixes of its own. Every key
there is was put together by one of them (`Namespaced`), so of the rows `removeServer` is to
take there is one kind it does not list: `forgotten_run` says that a server is forgotten
exactly in the runs in which nobody picked playlists for it. -/
namespace ShelfRemote.Storage
open Qt Net Runs

/-! ### Ids -/

def hexDigits : List Char :=
  ['0', '1', '2', '3', '4', '5', '6', '7', '8', '9', 'a', 'b', 'c', 'd', 'e', 'f']

/-- `QByteArray::toHex` writes these. -/
def Hex (id : String) : Prop := ∀ c ∈ id.toList, c ∈ hexDigits

/-- How URLs are written, and their hashes. -/
structure HashedUrls extends UrlText where
  hex : ∀ t, Hex (sha1 t)

/-- A digit has one case and separates nothing. -/
theorem hexDigits_plain {c : Char} (h : c ∈ hexDigits) : c ≠ '%' ∧ c ≠ '_' ∧ c ≠ '/' ∧ c.toLower = c := by
  have hall : hexDigits.all (fun c => c != '%' && (c != '_' && (c != '/' && c.toLower == c))) = true := by decide
  simpa using List.all_eq_true.mp hall c h

theorem Hex.noWildcard {id : String} (h : Hex id) : NoWildcard id.toList := by
  refine List.all_eq_true.mpr fun c hc => ?_
  obtain ⟨hpercent, hunderscore, -⟩ := hexDigits_plain (h c hc)
  simp [hpercent, hunderscore]

theorem Hex.noSlash {id : String} (h : Hex id) : '/' ∉ id.toList := fun hc => (hexDigits_plain (h _ hc)).2.2.1 rfl

theorem Hex.toLower {id : String} (h : Hex id) : id.toList.map Char.toLower = id.toList :=
  (List.map_congr_left fun c hc => (hexDigits_plain (h c hc)).2.2.2).trans (List.map_id _)

/-- Two names are told apart by what ends them. -/
theorem sep_prefix_iff {α : Type} {a b rest : List α} {c : α} (ha : c ∉ a) (hb : c ∉ b) :
    a ++ [c] <+: b ++ c :: rest ↔ a = b := by
  induction a generalizing b with
  | nil =>
    cases b with
    | nil => simp
    | cons d b =>
      have hne : c ≠ d := fun he => hb (he ▸ List.mem_cons_self ..)
      simp [hne]
  | cons d a ih =>
    have ha' : c ∉ a := fun h => ha (List.mem_cons_of_mem _ h)
    cases b with
    | nil =>
      have hne : d ≠ c := fun he => ha (he ▸ List.mem_cons_self ..)
      simp [hne]
    | cons d' b => simp [ih ha' fun h => hb (List.mem_cons_of_mem _ h)]

section Keys
variable {id other suffix : String}

/-- A key under the id of a server is that server's. -/
theorem under_iff (hid : Hex id) (hother : Hex other) (hsuffix : "/".toList <+: suffix.toList) :
    Under id (other ++ suffix) ↔ id = other := by
  obtain ⟨rest, hrest⟩ := hsuffix
  unfold Under
  rw [String.toList_append, String.toList_append, ← hrest]
  exact (sep_prefix_iff hid.noSlash hother.noSlash).trans String.toList_inj

theorem almostUnder_iff (hid : Hex id) (hother : Hex other) (hsuffix : "/".toList <+: suffix.toList) :
    AlmostUnder id (other ++ suffix) ↔ id = other := by
  obtain ⟨rest, hrest⟩ := hsuffix
  unfold AlmostUnder
  rw [String.toList_append, String.toList_append, ← hrest, List.map_append, List.map_append, hid.toLower,
    hother.toLower]
  exact (sep_prefix_iff hid.noSlash hother.noSlash).trans String.toList_inj

end Keys

/-! ### Who writes what -/

namespace HashedUrls
variable (urls : HashedUrls)

def serverId (base : QUrl) : String := idForUrl urls.toUrlText base

def itemCacheKey (base : QUrl) (itemId : String) : String := urls.serverId base ++ "/" ++ itemId

def lastLibraryKey (base : QUrl) : String := urls.serverId base ++ "/lastLibraryId"

def nextUpPlaylistsKey (base : QUrl) : String := urls.serverId base ++ "/nextUpPlaylists"

theorem serverId_hex (base : QUrl) : Hex (urls.serverId base) := urls.hex _

end HashedUrls

/-- The settings that belong to no server. -/
inductive Preference where
  | skipSeconds | defaultRate | audioDevice | playlistNextUp | secretProvider | secretPortalToken
  deriving DecidableEq

def Preference.key : Preference → String
  | .skipSeconds => "skipSeconds"
  | .defaultRate => "defaultRate"
  | .audioDevice => "audioDevice"
  | .playlistNextUp => "playlistNextUp"
  | .secretProvider => "secretProvider"
  | .secretPortalToken => "secretPortalToken"

theorem Preference.key_noSlash (preference : Preference) : '/' ∉ preference.key.toList := by
  cases preference <;> decide +kernel

namespace Database

/-- The writes of the program, each with what its key is made of. -/
inductive Event where
  -- `ServerManager`
  | saveServer (baseUrl : QUrl) (name userId : String) (now : Int)
  | removeServer (id : String)
  -- the token store, through the secure store
  | storeTokens (base : QUrl) (blob : List UInt8)
  | removeTokens (base : QUrl)
  | removeAllSecrets
  | setPreference (preference : Preference) (value : String)
  -- `Backend`
  | selectLibrary (base : QUrl) (libraryId : String)
  | setNextUpPlaylists (base : QUrl) (playlistIds : List String)
  | cacheItem (base : QUrl) (itemId json : String) (now : Int)
  | pruneItemCache (maxRows : Int)

def step (urls : HashedUrls) (db : Database) : Event → Database
  | .saveServer baseUrl name userId now =>
    db.upsertServer {Net.saveServer urls.toUrlText baseUrl name userId with lastUsed := now}
  | .removeServer id => Storage.removeServer db id
  | .storeTokens base blob => db.putSecret (tokensKey (urls.serverId base)) blob
  | .removeTokens base => db.removeSecret (tokensKey (urls.serverId base))
  | .removeAllSecrets => db.removeAllSecrets
  | .setPreference preference value => db.putSetting preference.key value
  | .selectLibrary base libraryId => db.putSetting (urls.lastLibraryKey base) libraryId
  | .setNextUpPlaylists base playlistIds =>
    db.putSetting (urls.nextUpPlaylistsKey base) (String.intercalate "," playlistIds)
  | .cacheItem base itemId json now => db.cacheItem (urls.itemCacheKey base itemId) json now
  | .pruneItemCache maxRows => db.pruneItemCache maxRows

def machine (urls : HashedUrls) : Machine Database Event := ⟨step urls⟩

/-- Playlists are picked for the server. -/
def Event.Picks (urls : HashedUrls) (server : String) : Event → Prop
  | .setNextUpPlaylists base _ => urls.serverId base = server
  | .saveServer .. | .removeServer _ | .storeTokens .. | .removeTokens _ | .removeAllSecrets | .setPreference ..
  | .selectLibrary .. | .cacheItem .. | .pruneItemCache _ => False

instance (urls : HashedUrls) (server : String) : DecidablePred (Event.Picks urls server)
  | .setNextUpPlaylists _ _ => inferInstanceAs (Decidable (_ = _))
  | .saveServer .. | .removeServer _ | .storeTokens .. | .removeTokens _ | .removeAllSecrets | .setPreference ..
  | .selectLibrary .. | .cacheItem .. | .pruneItemCache _ => .isFalse id

/-- A setting of nobody's, or one the backend writes for a server. -/
def SettingKey (urls : HashedUrls) (key : String) : Prop :=
  (∃ preference : Preference, key = preference.key) ∨
    ∃ base, key = urls.lastLibraryKey base ∨ key = urls.nextUpPlaylistsKey base

/-- Every key was put together by one of the writers. -/
structure Namespaced (urls : HashedUrls) (db : Database) : Prop where
  secrets : ∀ key ∈ db.secrets.keys, ∃ base, key = tokensKey (urls.serverId base)
  settings : ∀ key ∈ db.settings.keys, SettingKey urls key
  itemCache : ∀ key ∈ db.itemCache.keys, ∃ base itemId, key = urls.itemCacheKey base itemId

variable {urls : HashedUrls} {db : Database} {server : String}

theorem namespaced_empty (urls : HashedUrls) : Namespaced urls {} where
  secrets _ h := nomatch h
  settings _ h := nomatch h
  itemCache _ h := nomatch h

/-! ### One step -/

theorem mem_putSecret (db : Database) (key : String) (blob : List UInt8) (k : String) :
    k ∈ (db.putSecret key blob).secrets.keys ↔ k = key ∨ k ∈ db.secrets.keys :=
  db.secrets.mem_keys_upsert (fun _ _ => rfl) k

theorem mem_putSetting (db : Database) (key value k : String) :
    k ∈ (db.putSetting key value).settings.keys ↔ k = key ∨ k ∈ db.settings.keys :=
  db.settings.mem_keys_upsert (fun _ _ => rfl) k

theorem mem_cacheItem (db : Database) (itemId json : String) (now : Int) (k : String) :
    k ∈ (db.cacheItem itemId json now).itemCache.keys ↔ k = itemId ∨ k ∈ db.itemCache.keys := by
  refine db.itemCache.mem_keys_upsert ?_ k
  exact fun _ h => h

theorem Namespaced.putSecret (h : db.Namespaced urls) (base : QUrl) (blob : List UInt8) :
    (db.putSecret (tokensKey (urls.serverId base)) blob).Namespaced urls where
  secrets key hkey := by
    obtain hnew | hold := (db.mem_putSecret _ blob key).mp hkey
    · exact ⟨base, hnew⟩
    · exact h.secrets key hold
  settings := h.settings
  itemCache := h.itemCache

theorem Namespaced.putSetting (h : db.Namespaced urls) {key : String} (value : String)
    (hkey : SettingKey urls key) : (db.putSetting key value).Namespaced urls where
  secrets := h.secrets
  settings key' hkey' := by
    obtain hnew | hold := (db.mem_putSetting key value key').mp hkey'
    · exact hnew ▸ hkey
    · exact h.settings key' hold
  itemCache := h.itemCache

theorem Namespaced.cacheItem (h : db.Namespaced urls) (base : QUrl) (itemId json : String) (now : Int) :
    (db.cacheItem (urls.itemCacheKey base itemId) json now).Namespaced urls where
  secrets := h.secrets
  settings := h.settings
  itemCache key hkey := by
    obtain hnew | hold := (db.mem_cacheItem _ json now key).mp hkey
    · exact ⟨base, itemId, hnew⟩
    · exact h.itemCache key hold

/-- Rows that go take no key of another along. -/
theorem Namespaced.fewer (h : db.Namespaced urls) {db' : Database}
    (hsecrets : ∀ key ∈ db'.secrets.keys, key ∈ db.secrets.keys)
    (hsettings : ∀ key ∈ db'.settings.keys, key ∈ db.settings.keys)
    (hitemCache : ∀ key ∈ db'.itemCache.keys, key ∈ db.itemCache.keys) : db'.Namespaced urls where
  secrets key hkey := h.secrets key (hsecrets key hkey)
  settings key hkey := h.settings key (hsettings key hkey)
  itemCache key hkey := h.itemCache key (hitemCache key hkey)

theorem Namespaced.step (h : db.Namespaced urls) (e : Event) : (step urls db e).Namespaced urls := by
  cases e with
  | saveServer => exact h.fewer (fun _ => id) (fun _ => id) fun _ => id
  | storeTokens base blob => exact h.putSecret base blob
  | removeTokens => exact h.fewer (fun _ => db.secrets.mem_keys_deleteWhere) (fun _ => id) fun _ => id
  | removeAllSecrets => exact h.fewer (fun _ => db.secrets.mem_keys_deleteWhere) (fun _ => id) fun _ => id
  | removeServer =>
    exact h.fewer (fun _ => db.secrets.mem_keys_deleteWhere) (fun _ => db.settings.mem_keys_deleteWhere)
      fun _ => db.itemCache.mem_keys_deleteWhere
  | setPreference preference value => exact h.putSetting value (.inl ⟨preference, rfl⟩)
  | selectLibrary base libraryId => exact h.putSetting libraryId (.inr ⟨base, .inl rfl⟩)
  | setNextUpPlaylists base playlistIds => exact h.putSetting _ (.inr ⟨base, .inr rfl⟩)
  | cacheItem base itemId json now => exact h.cacheItem base itemId json now
  | pruneItemCache maxRows =>
    show (db.pruneItemCache maxRows).Namespaced urls
    unfold pruneItemCache
    split
    · exact h
    · exact h.fewer (fun _ => id) (fun _ => id) fun _ => db.itemCache.mem_keys_deleteWhere

theorem namespaced_keeps (urls : HashedUrls) : (machine urls).Keeps (fun _ _ => True) (Namespaced urls) :=
  ⟨fun _ e h _ => h.step e⟩

/-! ### What is left -/

/-- The key `removeServer` does not list. -/
def playlistsKey (server : String) : String := server ++ "/nextUpPlaylists"

theorem playlistsKey_slash (server : String) : '/' ∈ (playlistsKey server).toList := by
  rw [playlistsKey, String.toList_append]
  exact List.mem_append_right _ (by decide +kernel)

theorem playlistsKey_ne_preference (server : String) (preference : Preference) :
    playlistsKey server ≠ preference.key := fun he => preference.key_noSlash (he ▸ playlistsKey_slash server)

theorem playlistsKey_ne_lastLibrary (server other : String) : playlistsKey server ≠ other ++ "/lastLibraryId" := by
  intro he
  have hlast := congrArg (fun key => key.toList.getLast?) he
  simp only [playlistsKey, String.toList_append] at hlast
  rw [List.getLast?_append_of_ne_nil _ (by decide +kernel), List.getLast?_append_of_ne_nil _ (by decide +kernel)] at hlast
  exact absurd hlast (by decide +kernel)

theorem playlistsKey_inj {server other : String} : playlistsKey server = playlistsKey other ↔ other = server := by
  unfold playlistsKey
  rw [String.append_left_inj]
  exact eq_comm

/-- Playlists that were picked stay. -/
theorem step_playlists (db : Database) (e : Event) :
    playlistsKey server ∈ (step urls db e).settings.keys ↔
      playlistsKey server ∈ db.settings.keys ∨ e.Picks urls server := by
  cases e with
  | saveServer | storeTokens | removeTokens | removeAllSecrets | cacheItem => exact (or_iff_left not_false).symm
  | removeServer other =>
    refine (db.settings.mem_keys_deleteKey _ _).trans ?_
    exact ⟨fun h => .inl h.1, fun h => ⟨h.resolve_right not_false, playlistsKey_ne_lastLibrary server other⟩⟩
  | setPreference preference value =>
    refine (db.mem_putSetting _ _ _).trans (or_comm.trans (or_congr_right ?_))
    exact iff_of_false (playlistsKey_ne_preference server preference) not_false
  | selectLibrary base libraryId =>
    refine (db.mem_putSetting _ _ _).trans (or_comm.trans (or_congr_right ?_))
    exact iff_of_false (playlistsKey_ne_lastLibrary server _) not_false
  | setNextUpPlaylists base playlistIds =>
    exact (db.mem_putSetting _ _ _).trans (or_comm.trans (or_congr_right playlistsKey_inj))
  | pruneItemCache maxRows =>
    show playlistsKey server ∈ (db.pruneItemCache maxRows).settings.keys ↔ _
    unfold pruneItemCache
    split <;> exact (or_iff_left not_false).symm

/-- In such a database the playlists are all that may not be listed. -/
theorem Namespaced.listed_iff (h : db.Namespaced urls) (hserver : Hex server) :
    Listed server db ↔ playlistsKey server ∉ db.settings.keys := by
  constructor
  · intro hlisted hmem
    obtain ⟨r, hr, hkey⟩ := List.mem_map.mp hmem
    have hunder : Under server r.key := hkey ▸ under_append server (by decide +kernel)
    exact playlistsKey_ne_lastLibrary server server (hkey ▸ hlisted.settings r hr hunder)
  · intro hnone
    constructor
    case secrets =>
      intro r hr hunder
      obtain ⟨base, hkey⟩ := h.secrets r.key (List.mem_map_of_mem hr)
      rw [hkey] at hunder ⊢
      rw [(under_iff hserver (urls.serverId_hex base) (by decide +kernel)).mp hunder]
      rfl
    case settings =>
      intro r hr hunder
      obtain ⟨preference, hkey⟩ | ⟨base, hkey | hkey⟩ := h.settings r.key (List.mem_map_of_mem hr)
      · have hslash : '/' ∈ r.key.toList := by
          refine hunder.subset ?_
          rw [String.toList_append]
          exact List.mem_append_right _ (by decide +kernel)
        exact absurd (hkey ▸ hslash) preference.key_noSlash
      · rw [hkey] at hunder ⊢
        rw [(under_iff hserver (urls.serverId_hex base) (by decide +kernel)).mp hunder]
        rfl
      · have hmem : r.key ∈ db.settings.keys := List.mem_map_of_mem hr
        rw [hkey] at hunder hmem
        rw [(under_iff hserver (urls.serverId_hex base) (by decide +kernel)).mp hunder] at hnone
        exact absurd hmem hnone
    case itemCache =>
      intro r hr halmost
      obtain ⟨base, itemId, hkey⟩ := h.itemCache r.itemId (List.mem_map_of_mem hr)
      rw [hkey, HashedUrls.itemCacheKey, String.append_assoc] at halmost ⊢
      have hsuffix : "/".toList <+: ("/" ++ itemId).toList := String.toList_append ▸ List.prefix_append _ _
      exact (under_iff hserver (urls.serverId_hex base) hsuffix).mpr
        ((almostUnder_iff hserver (urls.serverId_hex base) hsuffix).mp halmost)

end Database

/-- **A server is forgotten** after a run from an empty database, and nothing else, if and only
if no playlists were ever picked for it. -/
theorem forgotten_run (urls : HashedUrls) (es : List Database.Event) {server : String} (hserver : Hex server) :
    Forgotten server ((Database.machine urls).run {} es) (removeServer ((Database.machine urls).run {} es) server) ↔
      ∀ e ∈ es, ¬e.Picks urls server := by
  have hnamespaced := (Database.namespaced_keeps urls).always (Database.namespaced_empty urls) es
  have hpicked : Database.playlistsKey server ∈ ((Database.machine urls).run {} es).settings.keys ↔
      Database.playlistsKey server ∈ ({} : Database).settings.keys ∨ ∃ e ∈ es, e.Picks urls server :=
    Machine.run_iff_exists (P := fun db : Database => Database.playlistsKey server ∈ db.settings.keys)
      Database.step_playlists {} es
  rw [forgets_iff_listed hserver.noWildcard, hnamespaced.listed_iff hserver, hpicked]
  simp [Tables.Table.keys]

end ShelfRemote.Storage
