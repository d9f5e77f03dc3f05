import Mathlib.Data.List.DropRight
import ShelfRemote.Qt.Json

/-! URLs as `QUrl` keeps them.

The path of a `QUrl` is text in which a delimiter may be written as itself or as
a percent escape, and the two are different paths. `path()` decodes both forms to
the same character and `setPath` writes the decoded text back, escaping only what
would end the path, so a path read and written back is the same path exactly when
it was `Canonical`. Query and fragment are absent or present, and a present one may
be empty. -/
namespace ShelfRemote.Qt

inductive PathChar where
  | plain (c : Char)
  | escaped (c : Char)
  deriving DecidableEq, Repr

namespace PathChar

def decoded : PathChar → Char
  | plain c => c
  | escaped c => c

/-- How `setPath` writes a character of a decoded path. -/
def encode (c : Char) : PathChar :=
  if c = '%' ∨ c = '?' ∨ c = '#' then escaped c else plain c

theorem encode_decoded (c : Char) : (encode c).decoded = c := by
  unfold encode
  split <;> rfl

end PathChar

structure QUrl where
  scheme : String := ""
  userInfo : String := ""
  host : String := ""
  port : Option Nat := none
  path : List PathChar := []
  query : Option String := none
  fragment : Option String := none
  deriving DecidableEq, Repr

/-- What the program takes from Qt about URLs without reading it: how one is
written out and read back, and the hash of a text. -/
structure UrlText where
  toString : QUrl → String
  parse : String → QUrl
  sha1 : String → String

/-- `QString::toLower`, on a scheme. -/
def toLower (s : String) : String := String.ofList (s.toList.map Char.toLower)

/-- `QChar::isSpace`. -/
def isSpace (c : Char) : Bool :=
  let n := c.toNat
  (9 ≤ n && n ≤ 13) || n == 0x20 || n == 0x85 || n == 0xA0 || n == 0x1680 || (0x2000 ≤ n && n ≤ 0x200A) ||
    n == 0x2028 || n == 0x2029 || n == 0x202F || n == 0x205F || n == 0x3000

/-- `QString::trimmed`. -/
def trimmed (s : String) : String := String.ofList ((s.toList.dropWhile isSpace).rdropWhile isSpace)

/-- `QString::contains`. -/
def contains (s part : String) : Bool := s.toList.tails.any part.toList.isPrefixOf

namespace QUrl

/-- `QUrl::path()`: the decoded path. -/
def pathText (u : QUrl) : List Char := u.path.map PathChar.decoded

/-- `QUrl::setPath`: the text is the literal path. -/
def setPath (u : QUrl) (text : List Char) : QUrl := {u with path := text.map PathChar.encode}

/-- `QUrl::isEmpty`. -/
def isEmpty (u : QUrl) : Bool := u == {}

def isRelative (u : QUrl) : Bool := u.scheme == ""

/-- A path that reading it and writing it back does not change. -/
def Canonical (path : List PathChar) : Prop := ∀ c ∈ path, c = PathChar.encode c.decoded

instance (path : List PathChar) : Decidable (Canonical path) :=
  inferInstanceAs (Decidable (∀ c ∈ path, _))

/-- The trailing slashes `StripTrailingSlash` takes off a path: all of them, while
more than one character is left. On the reversed path. -/
def stripReversed : List PathChar → List PathChar
  | .plain '/' :: c :: rest => stripReversed (c :: rest)
  | path => path

/-- `QUrl::adjusted(StripTrailingSlash)`, which is what
`toString(StripTrailingSlash)` writes out. -/
def stripTrailingSlash (u : QUrl) : QUrl :=
  {u with path := (stripReversed u.path.reverse).reverse}

/-- The scheme's own port where the URL names none. -/
def effectivePort (u : QUrl) : Int :=
  match u.port with
  | some p => p
  | none => if toLower u.scheme = "https" then 443 else if toLower u.scheme = "http" then 80 else -1

end QUrl

/-! ### Paths without their trailing slashes -/

/-- A plain slash, the only character both ways of stripping look for. -/
def slash : PathChar := .plain '/'

/-- The path without any of its trailing slashes. -/
def withoutSlashes (path : List PathChar) : List PathChar := path.rdropWhile (· == slash)

theorem withoutSlashes_concat_slash (path : List PathChar) :
    withoutSlashes (path ++ [slash]) = withoutSlashes path :=
  List.rdropWhile_concat_pos (· == slash) path slash (by decide)

theorem withoutSlashes_concat (path : List PathChar) {c : PathChar} (h : c ≠ slash) :
    withoutSlashes (path ++ [c]) = path ++ [c] :=
  List.rdropWhile_concat_neg (· == slash) path c (by simpa using h)

theorem mem_withoutSlashes {path : List PathChar} {c : PathChar} (h : c ∈ withoutSlashes path) :
    c ∈ path :=
  (List.rdropWhile_prefix (p := (· == slash)) path).subset h

theorem stripReversed_cons_slash (path : List PathChar) (h : path ≠ []) :
    QUrl.stripReversed (slash :: path) = QUrl.stripReversed path := by
  cases path with
  | nil => exact absurd rfl h
  | cons c rest => rfl

theorem stripReversed_of_head (path : List PathChar) (h : path.head? ≠ some slash) :
    QUrl.stripReversed path = path := by
  cases path with
  | nil => rfl
  | cons c rest =>
    cases rest with
    | nil =>
      unfold QUrl.stripReversed
      split <;> simp_all
    | cons d rest =>
      have hc : c ≠ slash := fun hc => h (by rw [hc]; rfl)
      unfold QUrl.stripReversed
      split
      · next heq => exact absurd (List.cons.inj heq).1 hc
      · rfl

/-- Off a path that is more than slashes, every trailing slash goes. -/
theorem stripReversed_eq (path : List PathChar) (h : ∃ c ∈ path, c ≠ slash) :
    QUrl.stripReversed path = path.dropWhile (· == slash) := by
  induction path with
  | nil => obtain ⟨c, hc, _⟩ := h; cases hc
  | cons d rest ih =>
    by_cases hd : d = slash
    · have hrest : ∃ c ∈ rest, c ≠ slash := by
        obtain ⟨c, hc, hne⟩ := h
        rcases List.mem_cons.mp hc with rfl | hc
        · exact absurd hd hne
        · exact ⟨c, hc, hne⟩
      have hne : rest ≠ [] := by
        rintro rfl
        obtain ⟨c, hc, _⟩ := hrest
        cases hc
      rw [hd, stripReversed_cons_slash rest hne, ih hrest]
      simp
    · rw [stripReversed_of_head _ (by simpa using hd)]
      simp [hd]

/-- Of a path that is slashes and nothing else, one is kept. -/
theorem stripReversed_slashes (path : List PathChar) (hne : path ≠ []) (h : ∀ c ∈ path, c = slash) :
    QUrl.stripReversed path = [slash] := by
  induction path with
  | nil => exact absurd rfl hne
  | cons d rest ih =>
    have hd : d = slash := h d (List.mem_cons_self ..)
    cases rest with
    | nil => rw [hd]; rfl
    | cons e rest =>
      rw [hd, stripReversed_cons_slash _ (by simp)]
      exact ih (by simp) fun c hc => h c (List.mem_cons_of_mem _ hc)

/-- Stripping a URL whose path is more than slashes drops them all. -/
theorem stripTrailingSlash_path (u : QUrl) (h : ∃ c ∈ u.path, c ≠ slash) :
    u.stripTrailingSlash.path = withoutSlashes u.path := by
  have hrev : ∃ c ∈ u.path.reverse, c ≠ slash := by
    obtain ⟨c, hc, hne⟩ := h
    exact ⟨c, List.mem_reverse.mpr hc, hne⟩
  simp only [QUrl.stripTrailingSlash, stripReversed_eq _ hrev]
  rfl

theorem stripTrailingSlash_slashes (u : QUrl) (hne : u.path ≠ []) (h : ∀ c ∈ u.path, c = slash) :
    u.stripTrailingSlash.path = [slash] := by
  have hrev := stripReversed_slashes u.path.reverse (by simpa using hne)
    fun c hc => h c (List.mem_reverse.mp hc)
  simp only [QUrl.stripTrailingSlash, hrev]
  rfl

end ShelfRemote.Qt
