import ShelfRemote.Qt.Url

/-! The configured server and the URLs under it.

`Endpoints` holds the base URL of one server: no trailing slash, no query, no
fragment, which its field carries, so that a base that was not normalised cannot
be built. An endpoint is a path under that base (`Target`); its URL keeps the
base's own path in front.

A server is also known by a key, the hash of a URL written without its trailing
slash (`idForUrl`). The two normalisations are different code and do not always
agree: `stripped_eq_iff` says on which URLs they do. -/
namespace ShelfRemote.Net
open Qt

/-! ### The base URL -/

/-- What `Endpoints::setBase` makes of a URL. -/
def normalise (base : QUrl) : QUrl :=
  {base.setPath (base.pathText.rdropWhile (· == '/')) with query := none, fragment := none}

theorem encode_decoded_text (text : List Char) :
    (text.map PathChar.encode).map PathChar.decoded = text := by
  rw [List.map_map]
  exact (List.map_congr_left fun c _ => PathChar.encode_decoded c).trans (List.map_id text)

theorem normalise_idem (base : QUrl) : normalise (normalise base) = normalise base := by
  have h : (normalise base).pathText = base.pathText.rdropWhile (· == '/') :=
    encode_decoded_text _
  unfold normalise
  unfold normalise at h
  rw [h, List.rdropWhile_idempotent]
  rfl

/-- The base URL of the configured server. -/
structure Endpoints where
  base : QUrl
  normal : normalise base = base
  deriving DecidableEq

namespace Endpoints

def setBase (base : QUrl) : Endpoints := ⟨normalise base, normalise_idem base⟩

/-- Before any server is configured. -/
instance : Inhabited Endpoints := ⟨setBase {}⟩

theorem ext_base {e e' : Endpoints} (h : e.base = e'.base) : e = e' := by
  cases e
  cases e'
  simp only [mk.injEq]
  exact h

/-- Setting the base a server already has changes nothing. -/
theorem setBase_base (e : Endpoints) : setBase e.base = e := ext_base e.normal

def queryText (query : List (String × String)) : String :=
  String.intercalate "&" (query.map fun (k, v) => k ++ "=" ++ v)

/-- `path` is an absolute API path; the base's own path stays in front of it. -/
def build (e : Endpoints) (path : String) (query : List (String × String) := []) : QUrl :=
  let url := e.base.setPath (e.base.pathText ++ path.toList)
  if query.isEmpty then url else {url with query := some (queryText query)}

/-- A server-relative content URL under the base; an absolute one as it is. -/
def resolveContentUrl (text : UrlText) (e : Endpoints) (contentUrl : String) : QUrl :=
  let u := text.parse contentUrl
  if u.isRelative then
    e.build (if contentUrl.startsWith "/" then contentUrl else "/" ++ contentUrl)
  else u

end Endpoints

/-- An endpoint of a server. -/
structure Target where
  server : Endpoints
  path : String
  query : List (String × String) := []

namespace Target

def url (t : Target) : QUrl := t.server.build t.path t.query

end Target

namespace Endpoints

def status (e : Endpoints) : Target := ⟨e, "/status", []⟩
def login (e : Endpoints) : Target := ⟨e, "/login", []⟩
def logout (e : Endpoints) : Target := ⟨e, "/logout", []⟩
def authRefresh (e : Endpoints) : Target := ⟨e, "/auth/refresh", []⟩
def authorize (e : Endpoints) : Target := ⟨e, "/api/authorize", []⟩
def openidStart (e : Endpoints) (q : List (String × String)) : Target := ⟨e, "/auth/openid", q⟩
def openidCallback (e : Endpoints) (q : List (String × String)) : Target :=
  ⟨e, "/auth/openid/callback", q⟩
def play (e : Endpoints) (itemId : String) : Target := ⟨e, "/api/items/" ++ itemId ++ "/play", []⟩
def playEpisode (e : Endpoints) (itemId episodeId : String) : Target :=
  ⟨e, "/api/items/" ++ itemId ++ "/play/" ++ episodeId, []⟩
def sessionSync (e : Endpoints) (sessionId : String) : Target :=
  ⟨e, "/api/session/" ++ sessionId ++ "/sync", []⟩
def sessionClose (e : Endpoints) (sessionId : String) : Target :=
  ⟨e, "/api/session/" ++ sessionId ++ "/close", []⟩
def libraries (e : Endpoints) : Target := ⟨e, "/api/libraries", []⟩
def personalized (e : Endpoints) (id : String) : Target := ⟨e, "/api/libraries/" ++ id ++ "/personalized", []⟩
def libraryPlaylists (e : Endpoints) (id : String) : Target := ⟨e, "/api/libraries/" ++ id ++ "/playlists", []⟩
def libraryItems (e : Endpoints) (id : String) (q : List (String × String)) : Target :=
  ⟨e, "/api/libraries/" ++ id ++ "/items", q⟩
def search (e : Endpoints) (id : String) (q : List (String × String)) : Target :=
  ⟨e, "/api/libraries/" ++ id ++ "/search", q⟩
def item (e : Endpoints) (id : String) (q : List (String × String)) : Target := ⟨e, "/api/items/" ++ id, q⟩
def cover (e : Endpoints) (id : String) (q : List (String × String)) : Target := ⟨e, "/api/items/" ++ id ++ "/cover", q⟩
def authorImage (e : Endpoints) (id : String) (q : List (String × String)) : Target :=
  ⟨e, "/api/authors/" ++ id ++ "/image", q⟩
def progress (e : Endpoints) (itemId : String) : Target := ⟨e, "/api/me/progress/" ++ itemId, []⟩
def bookmark (e : Endpoints) (itemId : String) : Target := ⟨e, "/api/me/item/" ++ itemId ++ "/bookmark", []⟩
def bookmarkAt (e : Endpoints) (itemId : String) (time : Int) : Target :=
  ⟨e, "/api/me/item/" ++ itemId ++ "/bookmark/" ++ toString time, []⟩

end Endpoints

/-! ### The server key -/

/-- `ServerProfile::idForUrl`. -/
def idForUrl (text : UrlText) (url : QUrl) : String :=
  text.sha1 (text.toString url.stripTrailingSlash)

/-- Where a server's tokens are kept in the secrets table. -/
def tokensKey (serverKey : String) : String := serverKey ++ "/tokens"

/-- A row of the servers table. -/
structure ServerRow where
  id : String
  name : String
  baseUrl : String
  lastUserId : String
  deriving DecidableEq, Repr

/-- The row `ServerManager::saveServer` writes. -/
def saveServer (text : UrlText) (baseUrl : QUrl) (name userId : String) : ServerRow :=
  { id := idForUrl text baseUrl
    name := if name = "" then baseUrl.host else name
    baseUrl := text.toString baseUrl
    lastUserId := userId }

/-- The URLs both normalisations take to the same one: no query, no fragment, a
path that is empty or more than slashes, and no escape `setPath` would not write. -/
def KeyKept (u : QUrl) : Prop :=
  u.query = none ∧ u.fragment = none ∧ (u.path = [] ∨ ∃ c ∈ u.path, c ≠ slash) ∧
    QUrl.Canonical u.path

instance (u : QUrl) : Decidable (KeyKept u) := inferInstanceAs (Decidable (_ ∧ _ ∧ _ ∧ _))

/-- A canonical path decodes to a slash exactly where it has one. -/
theorem canonical_slash {path : List PathChar} (h : QUrl.Canonical path) {c : PathChar}
    (hc : c ∈ path) : (c.decoded == '/') = (c == slash) := by
  rw [h c hc]
  by_cases hs : c.decoded = '/'
  · rw [hs]
    decide
  · have hne : PathChar.encode c.decoded ≠ slash := by
      intro he
      apply hs
      rw [← PathChar.encode_decoded c.decoded, he]
      rfl
    rw [PathChar.encode_decoded, beq_eq_false_iff_ne.mpr hs, beq_eq_false_iff_ne.mpr hne]

/-- Chopping the decoded path and writing it back is dropping the slashes. -/
theorem normalise_path_canonical (u : QUrl) (h : QUrl.Canonical u.path) :
    (normalise u).path = withoutSlashes u.path := by
  have hdrop : ∀ path : List PathChar, QUrl.Canonical path →
      (path.map PathChar.decoded).rdropWhile (· == '/') =
        (withoutSlashes path).map PathChar.decoded := by
    intro path
    induction path using List.reverseRecOn with
    | nil => intro _; rfl
    | append_singleton path c ih =>
      intro hcan
      have hpath : QUrl.Canonical path := fun d hd => hcan d (List.mem_append_left _ hd)
      have hc := canonical_slash hcan (List.mem_append_right path (List.mem_singleton_self c))
      rw [List.map_append, List.map_singleton]
      by_cases hs : c = slash
      · rw [hs] at hc ⊢
        rw [List.rdropWhile_concat_pos (· == '/') _ _ (by rw [hc]; decide), ih hpath,
          withoutSlashes_concat_slash]
      · rw [List.rdropWhile_concat_neg (· == '/') _ _ (by simpa [hc] using hs),
          withoutSlashes_concat path hs, List.map_append, List.map_singleton]
  have hback : ∀ path : List PathChar, QUrl.Canonical path →
      (path.map PathChar.decoded).map PathChar.encode = path := by
    intro path hcan
    rw [List.map_map]
    exact (List.map_congr_left fun c hc => (hcan c hc).symm).trans (List.map_id path)
  show (u.pathText.rdropWhile (· == '/')).map PathChar.encode = _
  rw [QUrl.pathText, hdrop u.path h]
  exact hback _ fun c hc => h c (mem_withoutSlashes hc)

theorem normalise_canonical (u : QUrl) : QUrl.Canonical (normalise u).path := by
  intro c hc
  obtain ⟨d, _, rfl⟩ := List.mem_map.mp hc
  rw [PathChar.encode_decoded]

/-- A normalised path does not end in a slash. -/
theorem normalise_no_slash (u : QUrl) : withoutSlashes (normalise u).path = (normalise u).path := by
  rw [← normalise_path_canonical _ (normalise_canonical u), normalise_idem]

theorem more_than_slashes {path : List PathChar} (hne : path ≠ [])
    (h : withoutSlashes path = path) : ∃ c ∈ path, c ≠ slash := by
  refine ⟨path.getLast hne, List.getLast_mem hne, ?_⟩
  have := List.rdropWhile_eq_self_iff.mp h hne
  simpa using this

/-- Stripping a normalised URL leaves it as it is. -/
theorem strip_normalise (u : QUrl) : (normalise u).stripTrailingSlash = normalise u := by
  by_cases hne : (normalise u).path = []
  · unfold QUrl.stripTrailingSlash
    rw [hne]
    show {normalise u with path := []} = _
    rw [← hne]
  · have hpath := stripTrailingSlash_path _ (more_than_slashes hne (normalise_no_slash u))
    rw [normalise_no_slash] at hpath
    show {normalise u with path := (normalise u).stripTrailingSlash.path} = _
    rw [hpath]

/-- Canonical without its slashes is canonical with them. -/
theorem canonical_of_withoutSlashes {path : List PathChar}
    (h : QUrl.Canonical (withoutSlashes path)) : QUrl.Canonical path := by
  induction path using List.reverseRecOn with
  | nil => exact h
  | append_singleton path c ih =>
    by_cases hs : c = slash
    · rw [hs, withoutSlashes_concat_slash] at h
      intro d hd
      rcases List.mem_append.mp hd with hd | hd
      · exact ih h d hd
      · rw [List.mem_singleton.mp hd, hs]
        decide
    · rwa [withoutSlashes_concat path hs] at h

/-- The two normalisations agree on a URL exactly when its key is kept. -/
theorem stripped_eq_iff (u : QUrl) :
    u.stripTrailingSlash = (normalise u).stripTrailingSlash ↔ KeyKept u := by
  rw [strip_normalise]
  constructor
  · intro h
    have hquery : u.query = none := congrArg QUrl.query h
    have hfragment : u.fragment = none := congrArg QUrl.fragment h
    have hpath : u.stripTrailingSlash.path = (normalise u).path := congrArg QUrl.path h
    by_cases hne : u.path = []
    · refine ⟨hquery, hfragment, .inl hne, ?_⟩
      intro c hc
      rw [hne] at hc
      cases hc
    · by_cases hs : ∃ c ∈ u.path, c ≠ slash
      · refine ⟨hquery, hfragment, .inr hs, ?_⟩
        rw [stripTrailingSlash_path u hs] at hpath
        apply canonical_of_withoutSlashes
        rw [hpath]
        exact normalise_canonical u
      · have hall : ∀ c ∈ u.path, c = slash := fun c hc =>
          Decidable.byContradiction fun hc' => hs ⟨c, hc, hc'⟩
        rw [stripTrailingSlash_slashes u hne hall] at hpath
        have := normalise_no_slash u
        rw [← hpath] at this
        exact absurd this (by decide)
  · rintro ⟨hquery, hfragment, hpath, hcan⟩
    have hstrip : u.stripTrailingSlash.path = (normalise u).path := by
      rw [normalise_path_canonical u hcan]
      rcases hpath with hnil | hs
      · unfold QUrl.stripTrailingSlash
        rw [hnil]
        rfl
      · exact stripTrailingSlash_path u hs
    show {u with path := u.stripTrailingSlash.path} = normalise u
    rw [hstrip]
    cases u
    simp only at hquery hfragment
    rw [hquery, hfragment]
    rfl

end ShelfRemote.Net
