import ShelfRemote.Auth.Closed

/-! The key of a server, at sign-in and at the next launch.

`checkServer` keys the tokens by the URL the user gave. The row saved on sign-in
is keyed by the base URL the client made of it, and a launch looks under that
key. Both are the hash of a URL without its trailing slash, of two URLs. -/
namespace ShelfRemote.Auth
open Qt Net Runs

namespace AuthManager
variable {P : Platform} {s : AuthManager}

/-! ### The server and its key stay -/

/-- Only a change of origin moves the client or the key. -/
theorem origin_closed (P : Platform) (endpoints : Endpoints) (key : String) :
    Closed P (fun ts : TokenStore Callback Waiter => ts.api.endpoints = endpoints ∧ ts.serverKey = key) where
  book _ _ _ _ _ _ _ h := h
  fewer _ _ _ _ _ _ h := h
  hold _ _ _ _ h := h
  unbear _ h := h
  send _ _ _ _ h := h
  again _ _ _ _ _ h := h
  park _ _ _ _ _ _ _ h := h
  join _ h := h

theorem setBaseUrl_base (P : Platform) (s : AuthManager) (base : QUrl) :
    (s.setBaseUrl P base).api.endpoints = Endpoints.setBase base := by
  have hclosed := origin_closed P (Endpoints.setBase base) s.tokens.serverKey
  have hall : (s.setBaseUrl P base).api.endpoints = Endpoints.setBase base ∧
      (s.setBaseUrl P base).tokens.serverKey = s.tokens.serverKey := by
    apply setBaseUrl_keeps (I := fun s' => s'.tokens.api.endpoints = Endpoints.setBase base ∧
      s'.tokens.serverKey = s.tokens.serverKey) _ ⟨rfl, rfl⟩
    · exact fun s' h id => hclosed.finished h id P.aborted false
    · exact fun s' h => h
    · intro hb
      rw [← hb]
      exact ⟨(Endpoints.setBase_base s.api.endpoints).symm, rfl⟩
  exact hall.1

theorem checkServer_origin (P : Platform) (s : AuthManager) (u : QUrl) :
    (s.checkServer P u).api.endpoints = Endpoints.setBase u ∧
      (s.checkServer P u).tokens.serverKey = idForUrl P.text u := by
  have hmoved : ∀ s' : AuthManager, (s'.setState .checking).tokens = s'.tokens := fun s' => setState_tokens _
  refine ⟨?_, ?_⟩
  · show (TokenStore.api (AuthManager.tokens (setState _ _))).endpoints = _
    rw [hmoved]
    exact setBaseUrl_base P s.stopWaitingForKeyring u
  · show TokenStore.serverKey (AuthManager.tokens (setState _ _)) = _
    rw [hmoved]
    rfl

/-- After the user picked a server, until the client is pointed elsewhere. -/
theorem signed_in_origin (P : Platform) (s : AuthManager) (u : QUrl) {later : List Event}
    (h : ∀ e ∈ later, ¬Closed.Repoints e) :
    ((machine P).run ((machine P).step s (.checkServer u)) later).api.endpoints = Endpoints.setBase u ∧
      ((machine P).run ((machine P).step s (.checkServer u)) later).tokens.serverKey = idForUrl P.text u := by
  have hkeeps : Machine.Keeps (machine P) (fun _ e => ¬Closed.Repoints e) (fun s =>
      s.tokens.api.endpoints = Endpoints.setBase u ∧ s.tokens.serverKey = idForUrl P.text u) :=
    ⟨fun _ e hs he => (origin_closed P _ _).step hs e he⟩
  exact hkeeps.run (checkServer_origin P s.fresh u) (Machine.along_of_mem h _)

/-! ### Keys -/

/-- What Qt promises about the two URLs that are hashed: what is written out reads
back, and the hash tells them apart. -/
structure Faithful (text : UrlText) (u : QUrl) : Prop where
  parse : ∀ v ∈ [u.stripTrailingSlash, normalise u], text.parse (text.toString v) = v
  sha1 : text.sha1 (text.toString u.stripTrailingSlash) = text.sha1 (text.toString (normalise u)) →
    text.toString u.stripTrailingSlash = text.toString (normalise u)

theorem idForUrl_eq_iff {text : UrlText} {u : QUrl} (h : Faithful text u) :
    idForUrl text u = idForUrl text (normalise u) ↔ KeyKept u := by
  rw [← stripped_eq_iff, strip_normalise]
  unfold idForUrl
  rw [strip_normalise]
  constructor
  · intro he
    have htext := h.sha1 he
    rw [← h.parse u.stripTrailingSlash (by simp), htext]
    exact h.parse (normalise u) (by simp)
  · intro he
    rw [he]

/-- The next launch, when it has come to look for the tokens of a saved row. -/
def relaunched (P : Platform) (s : AuthManager) (row : ServerRow) (now : Int) : AuthManager :=
  {launch s.tokens.secrets s.servers now with
    restoreUrl := P.text.parse row.baseUrl, restoreKey := row.id}.pointAt P

/-- **The server key.** The user picks `u`, whatever follows on that server, and the
server row is saved. The key of the tokens is the id of the row, and the next
launch looks where they were saved, exactly for the URLs that `setBase` and the
hash normalise alike; the server it looks at is the same in any case. -/
theorem server_key_agrees_iff (P : Platform) (s : AuthManager) (u : QUrl) (later : List Event)
    (hlater : ∀ e ∈ later, ¬Closed.Repoints e) (hu : Faithful P.text u) (user : Json) (now : Int) :
    let signedIn := (machine P).run ((machine P).step s (.checkServer u)) later
    let row := signedIn.serverRow P user
    let next := relaunched P (signedIn.saveServer P user) row now
    next.api.baseUrl = signedIn.api.baseUrl ∧
      (signedIn.tokens.serverKey = row.id ∧ next.tokens.row = signedIn.tokens.row ↔ KeyKept u) := by
  intro signedIn row next
  obtain ⟨hbase, hkey⟩ := signed_in_origin P s u hlater
  have hurl : signedIn.api.baseUrl = normalise u := congrArg Endpoints.base hbase
  have hid : row.id = idForUrl P.text (normalise u) := by
    rw [← hurl]
    rfl
  have htext : P.text.parse row.baseUrl = normalise u := by
    show P.text.parse (P.text.toString signedIn.api.baseUrl) = _
    rw [hurl]
    exact hu.parse (normalise u) (by simp)
  refine ⟨?_, ?_⟩
  · have hmoved : next.api.endpoints = Endpoints.setBase (P.text.parse row.baseUrl) :=
      setBaseUrl_base P _ _
    show next.api.endpoints.base = _
    rw [hmoved, htext, hurl]
    exact normalise_idem u
  · have hrow : next.tokens.row = tokensKey row.id := rfl
    rw [hrow, hkey, hid, ← idForUrl_eq_iff hu]
    refine ⟨fun h => h.1, fun h => ⟨h, ?_⟩⟩
    unfold TokenStore.row
    rw [hkey, h]

/-- The bare root slash: the user types `https://a/`. -/
def rootSlash : QUrl := {scheme := "https", host := "a", path := [.plain '/']}

/-- URLs written with their path. -/
def withPaths : Platform :=
  { (default : Platform) with
    text :=
      { toString := fun u => if u.path = [] then "https://a" else "https://a/"
        parse := fun t => if t = "https://a" then {scheme := "https", host := "a"} else rootSlash
        sha1 := fun t => t } }

/-- Signed in at `https://a/`, the next launch finds no tokens for the saved row. -/
theorem server_key_differs :
    let s := (machine withPaths).run (launch {} [] 0) (signIn rootSlash "access" "refresh")
    s.state = .authenticated ∧
      ∃ row ∈ s.servers, s.tokens.serverKey ≠ row.id ∧
        ((launch s.tokens.secrets s.servers 0).restoreSession withPaths
          (withPaths.text.parse row.baseUrl) row.id).2 = false := by
  decide

theorem rootSlash_faithful : Faithful withPaths.text rootSlash := ⟨by decide, id⟩

/-- The same server, typed without the slash. -/
def atHost : QUrl := {scheme := "https", host := "a"}

theorem atHost_faithful : Faithful withPaths.text atHost := ⟨by decide, id⟩

/-- Signed in at `u`, the tokens are under the id of the row, and the next launch looks there. -/
def SameKey (u : QUrl) : Prop :=
  let signedIn := (machine withPaths).run ((machine withPaths).step (launch {} [] 0) (.checkServer u))
    [.reply 0 {status := 200} true]
  let row := signedIn.serverRow withPaths .null
  let next := relaunched withPaths (signedIn.saveServer withPaths .null) row 0
  signedIn.tokens.serverKey = row.id ∧ next.tokens.row = signedIn.tokens.row

/-- The key is kept for the one spelling and not for the other. -/
theorem server_key_agrees_spellings : SameKey atHost ∧ ¬SameKey rootSlash := by
  have hreplies : ∀ e ∈ [Event.reply 0 {status := 200} true], ¬Closed.Repoints e := by simp [Closed.Repoints]
  refine ⟨?_, fun hsame => ?_⟩
  · exact (server_key_agrees_iff withPaths (launch {} [] 0) atHost _ hreplies atHost_faithful .null 0).2.mpr (by decide)
  · have hkept : KeyKept rootSlash :=
      (server_key_agrees_iff withPaths (launch {} [] 0) rootSlash _ hreplies rootSlash_faithful .null 0).2.mp hsame
    exact absurd hkept (by decide)

end AuthManager

end ShelfRemote.Auth
