import ShelfRemote.Qt.ByteArray
import ShelfRemote.Storage.Forgetting

/-! Where a cover is kept on disk.

The name of the file is the hash of a text that has the server's id, the kind of the cover,
the id the server gave it and its size, with bars between them. Nothing is escaped, and the id
may be any text; but it is the only part that may have a bar in it, so the text is read from
both ends (`text_inj`). -/
namespace ShelfRemote.Storage
open Qt Net

/-- What the cover cache takes from Qt: URLs and hashes, and the directory of the cache. -/
structure CoverEnv where
  urls : HashedUrls
  sha256 : Bytes → Bytes
  dir : String

/-- Which cover, of which server. -/
structure CoverKey where
  server : Endpoints
  author : Bool
  id : String
  width : Int
  height : Int
  deriving DecidableEq

namespace CoverKey

/-- The text that is hashed. -/
def text (env : CoverEnv) (k : CoverKey) : String :=
  env.urls.serverId k.server.base ++ "|" ++ (if k.author then "a" else "i") ++ "|" ++ k.id ++
    ("|" ++ toString k.width ++ "x" ++ toString k.height)

def diskPath (env : CoverEnv) (k : CoverKey) : String :=
  env.dir ++ "/" ++ String.ofList (toHex (env.sha256 (utf8 (k.text env)))) ++ ".webp"

def kind (k : CoverKey) : Char := if k.author then 'a' else 'i'

variable {env : CoverEnv} {a b : CoverKey}

theorem text_toList (env : CoverEnv) (k : CoverKey) :
    (k.text env).toList =
      (env.urls.serverId k.server.base).toList ++ '|' :: k.kind :: '|' ::
        (k.id.toList ++ '|' :: ((toString k.width).toList ++ 'x' :: (toString k.height).toList)) := by
  have hkind : (if k.author then "a" else "i").toList = [k.kind] := by
    unfold kind
    split <;> rfl
  unfold text
  simp only [String.toList_append, hkind, List.append_assoc]
  rfl

theorem kind_inj (h : a.kind = b.kind) : a.author = b.author := by
  unfold kind at h
  revert h
  cases a.author <;> cases b.author <;> decide

/-- The first two fields are read from the front, the last one from the back. -/
theorem text_inj (h : a.text env = b.text env) :
    env.urls.serverId a.server.base = env.urls.serverId b.server.base ∧
      (a.author = b.author ∧ a.id = b.id ∧ a.width = b.width ∧ a.height = b.height) := by
  have hbar (k : CoverKey) : '|' ∉ (env.urls.serverId k.server.base).toList := fun hmem =>
    absurd (env.urls.serverId_hex k.server.base _ hmem) (by decide)
  have hsize (k : CoverKey) : '|' ∉ (toString k.width).toList ++ 'x' :: (toString k.height).toList := by
    simp only [List.mem_append, List.mem_cons, not_or]
    exact ⟨not_mem_toString (by decide) (by decide) _, by decide, not_mem_toString (by decide) (by decide) _⟩
  have hcross (n : Int) : 'x' ∉ (toString n).toList := not_mem_toString (by decide) (by decide) n
  have hlist := congrArg String.toList h
  rw [text_toList, text_toList] at hlist
  obtain ⟨hserver, hrest⟩ := front_inj (hbar a) (hbar b) hlist
  obtain ⟨hkind, hrest⟩ := List.cons.inj hrest
  obtain ⟨hid, hdims⟩ := back_inj (hsize a) (hsize b) (List.cons.inj hrest).2
  obtain ⟨hwidth, hheight⟩ := front_inj (hcross _) (hcross _) hdims
  exact ⟨String.toList_inj.mp hserver, kind_inj hkind, String.toList_inj.mp hid,
    toString_int_injective (String.toList_inj.mp hwidth), toString_int_injective (String.toList_inj.mp hheight)⟩

/-- What is promised of the texts that are hashed for two covers: the base URLs read back as
they were written, and the hashes tell apart what they are given. -/
structure Distinguished (env : CoverEnv) (a b : CoverKey) : Prop where
  reads : ∀ base ∈ [a.server.base, b.server.base], env.urls.parse (env.urls.toString base) = base
  sha1 : env.urls.sha1 (env.urls.toString a.server.base) = env.urls.sha1 (env.urls.toString b.server.base) →
    env.urls.toString a.server.base = env.urls.toString b.server.base
  sha256 : env.sha256 (utf8 (a.text env)) = env.sha256 (utf8 (b.text env)) →
    utf8 (a.text env) = utf8 (b.text env)

theorem serverId_inj (h : Distinguished env a b)
    (hid : env.urls.serverId a.server.base = env.urls.serverId b.server.base) : a.server = b.server := by
  have hstrip (e : Endpoints) : e.base.stripTrailingSlash = e.base := by
    rw [← e.normal]
    exact strip_normalise e.base
  unfold HashedUrls.serverId idForUrl at hid
  rw [hstrip, hstrip] at hid
  have htext := congrArg env.urls.parse (h.sha1 hid)
  rw [h.reads a.server.base (by simp), h.reads b.server.base (by simp)] at htext
  exact Endpoints.ext_base htext

/-- **One file for each cover**: two covers share a file if and only if they are the same
cover in the same size, of the same server. -/
theorem diskPath_inj (h : Distinguished env a b) : a.diskPath env = b.diskPath env ↔ a = b := by
  refine ⟨fun hpath => ?_, fun he => he ▸ rfl⟩
  have hlist := congrArg String.toList hpath
  unfold diskPath at hlist
  simp only [String.toList_append, String.toList_ofList] at hlist
  have hhash := toHex_injective (List.append_cancel_left (List.append_cancel_right hlist))
  obtain ⟨hid, hauthor, hcover, hwidth, hheight⟩ := text_inj (utf8_injective (h.sha256 hhash))
  have hserver := serverId_inj h hid
  cases a
  cases b
  simp only [CoverKey.mk.injEq]
  exact ⟨hserver, hauthor, hcover, hwidth, hheight⟩

end CoverKey

end ShelfRemote.Storage
