import ShelfRemote.Net.Endpoints

/-! What becomes of a relative content URL.

The server names a file by a reference: a path, in which a character may be written as a
percent escape, and perhaps a query. `resolveContentUrl` hands the text of the reference to
`build`, which takes it for the decoded path. `content_url_kept` says for which references
that comes to the same. -/
namespace ShelfRemote.Net
open Qt

/-- A hexadecimal digit, as an escape writes it. -/
def hexDigit (n : Nat) : Char := Char.ofNat (if n < 10 then '0'.toNat + n else 'A'.toNat + (n - 10))

/-- The escape of a character: its bytes, each as a percent sign and two digits. -/
def percentEncode (c : Char) : List Char :=
  (String.utf8EncodeChar c).flatMap fun b => ['%', hexDigit (b.toNat / 16), hexDigit (b.toNat % 16)]

/-- A character of a path, as a reference writes it. -/
inductive Written where
  | plain (c : Char)
  | escape (c : Char) (digits : List Char)
  deriving DecidableEq

namespace Written

def char : Written → PathChar
  | plain c => .plain c
  | escape c _ => .escaped c

def spelling : Written → List Char
  | plain c => [c]
  | escape _ digits => digits

def isEscape : Written → Bool
  | plain _ => false
  | escape .. => true

/-- Nothing plain ends the path or starts an escape, and an escape is one of its character,
its letters in either case. -/
def WellFormed : Written → Prop
  | plain c => c ≠ '%' ∧ c ≠ '?' ∧ c ≠ '#'
  | escape c digits => digits.map Char.toUpper = percentEncode c

instance (w : Written) : Decidable w.WellFormed := by
  cases w <;> unfold WellFormed <;> infer_instance

end Written

/-- A relative reference to a path, with an optional query. It names neither a host, which
two slashes in front would, nor a scheme, which a colon in the first segment would. -/
structure Reference where
  path : List Written
  query : Option String := none
  wellFormed : ∀ w ∈ path, w.WellFormed
  noHost : ¬[.plain '/', .plain '/'] <+: path
  noScheme : ∀ w ∈ path.takeWhile (· ≠ .plain '/'), w ≠ .plain ':'
  noFragment : ∀ q ∈ query, '#' ∉ q.toList

namespace Reference

def queryText (r : Reference) : List Char :=
  match r.query with
  | none => []
  | some q => '?' :: q.toList

/-- How the reference is written. -/
def text (r : Reference) : String := String.ofList (r.path.flatMap Written.spelling ++ r.queryText)

/-- What it is, read as a URL. -/
def url (r : Reference) : QUrl := {path := r.path.map Written.char, query := r.query}

/-- The path with a leading slash. -/
def absolute (r : Reference) : List Written :=
  if r.path.head? = some (.plain '/') then r.path else .plain '/' :: r.path

/-- The decoded path, with a leading slash. -/
def pathText (r : Reference) : List Char := r.absolute.map fun w => w.char.decoded

/-- The URL is what the reference means under the base. -/
structure KeptBy (r : Reference) (e : Endpoints) (u : QUrl) : Prop where
  scheme : u.scheme = e.base.scheme
  host : u.host = e.base.host
  port : u.port = e.base.port
  path : u.pathText = e.base.pathText ++ r.pathText
  query : u.query = r.query

/-- It has no query, and nothing in it is escaped. -/
def Literal (r : Reference) : Prop := r.query = none ∧ ∀ w ∈ r.path, w.isEscape = false

instance (r : Reference) : Decidable r.Literal := inferInstanceAs (Decidable (_ ∧ _))

/-! ### The text and the path -/

theorem percentEncode_cons (c : Char) : ∃ a b rest, percentEncode c = '%' :: a :: b :: rest := by
  have hne : String.utf8EncodeChar c ≠ [] := by
    intro hnil
    have hlength := String.length_utf8EncodeChar c
    rw [hnil] at hlength
    exact absurd hlength (Nat.ne_of_lt c.utf8Size_pos)
  obtain ⟨b, rest, he⟩ := List.exists_cons_of_ne_nil hne
  refine ⟨hexDigit (b.toNat / 16), hexDigit (b.toNat % 16), ?_, ?_⟩
  · exact rest.flatMap fun b => ['%', hexDigit (b.toNat / 16), hexDigit (b.toNat % 16)]
  · unfold percentEncode
    rw [he]
    rfl

/-- An escape starts with a percent sign and is longer than what it stands for. -/
theorem escape_spelling {c : Char} {digits : List Char} (h : (Written.escape c digits).WellFormed) :
    (∃ d rest, digits = d :: rest ∧ d.toUpper = '%') ∧ 3 ≤ digits.length := by
  obtain ⟨a, b, rest, he⟩ := percentEncode_cons c
  have hdigits : digits.map Char.toUpper = '%' :: a :: b :: rest := Eq.trans h he
  have hlength := congrArg List.length hdigits
  simp only [List.length_map, List.length_cons] at hlength
  obtain ⟨d, rest, hcons, hd, -⟩ := List.map_eq_cons_iff.mp hdigits
  exact ⟨⟨d, rest, hcons, hd⟩, by omega⟩

/-- Every character takes one at least, and an escape two more. -/
theorem spelling_length {path : List Written} (h : ∀ w ∈ path, w.WellFormed) :
    path.length + 2 * path.countP Written.isEscape ≤ (path.flatMap Written.spelling).length := by
  induction path with
  | nil => exact Nat.le_refl 0
  | cons w rest ih =>
    have hrest := ih fun w hw => h w (List.mem_cons_of_mem _ hw)
    have hw := h w (List.mem_cons_self ..)
    rw [List.length_cons, List.countP_cons, List.flatMap_cons, List.length_append]
    cases w with
    | plain c =>
      simp only [Written.isEscape, Written.spelling, List.length_singleton, Bool.false_eq_true, if_false]
      omega
    | escape c digits =>
      have hlength := (escape_spelling hw).2
      simp only [Written.isEscape, Written.spelling, if_true]
      omega

/-- With no escape the text is the path. -/
theorem spelling_plain {path : List Written} (h : ∀ w ∈ path, w.isEscape = false) :
    path.flatMap Written.spelling = path.map fun w => w.char.decoded := by
  induction path with
  | nil => rfl
  | cons w rest ih =>
    have hrest := ih fun w hw => h w (List.mem_cons_of_mem _ hw)
    have hw := h w (List.mem_cons_self ..)
    rw [List.flatMap_cons, List.map_cons, hrest]
    cases w with
    | plain c => rfl
    | escape c digits => cases hw

variable (r : Reference)

/-- The text starts with a slash if the path does. -/
theorem startsWith_slash : r.text.startsWith "/" = true ↔ r.path.head? = some (.plain '/') := by
  have htext : r.text.toList = r.path.flatMap Written.spelling ++ r.queryText := String.toList_ofList
  rw [String.startsWith_string_iff, htext]
  show ['/'] <+: _ ↔ _
  cases hpath : r.path with
  | nil =>
    unfold queryText
    cases r.query with
    | none => simp
    | some q => simp
  | cons w rest =>
    have hw : w.WellFormed := r.wellFormed w (hpath ▸ List.mem_cons_self ..)
    rw [List.flatMap_cons, List.head?_cons, Option.some.injEq]
    cases w with
    | plain c => simp [Written.spelling, eq_comm]
    | escape c digits =>
      obtain ⟨⟨d, tail, rfl, hd⟩, -⟩ := escape_spelling hw
      have hslash : '/' ≠ d := fun he => absurd (he ▸ hd : '/'.toUpper = '%') (by decide)
      simp [Written.spelling, hslash]

/-- What is handed to `build`. -/
theorem handed :
    (if r.text.startsWith "/" then r.text else "/" ++ r.text).toList =
      r.absolute.flatMap Written.spelling ++ r.queryText := by
  have htext : r.text.toList = r.path.flatMap Written.spelling ++ r.queryText := String.toList_ofList
  unfold absolute
  by_cases h : r.path.head? = some (.plain '/')
  · rw [if_pos (r.startsWith_slash.mpr h), if_pos h, htext]
  · rw [if_neg fun hstarts => h (r.startsWith_slash.mp hstarts), if_neg h, String.toList_append, htext]
    rfl

theorem absolute_wellFormed : ∀ w ∈ r.absolute, w.WellFormed := by
  unfold absolute
  split
  · exact r.wellFormed
  · exact List.forall_mem_cons.mpr ⟨by decide, r.wellFormed⟩

theorem absolute_escapes : r.absolute.countP Written.isEscape = r.path.countP Written.isEscape := by
  unfold absolute
  split
  · rfl
  · exact List.countP_cons_of_neg (by decide)

/-- Text and decoded path are the same just where nothing is escaped and nothing follows. -/
theorem handed_eq_iff : r.absolute.flatMap Written.spelling ++ r.queryText = r.pathText ↔ r.Literal := by
  have hplain : r.absolute.countP Written.isEscape = 0 ↔ ∀ w ∈ r.path, w.isEscape = false := by
    rw [absolute_escapes, List.countP_eq_zero]
    simp
  constructor
  · intro he
    have hlength := congrArg List.length he
    have hspelled := spelling_length r.absolute_wellFormed
    simp only [List.length_append, pathText, List.length_map] at hlength
    refine ⟨?_, hplain.mp (by omega)⟩
    have hquery : r.queryText = [] := List.length_eq_zero_iff.mp (by omega)
    unfold queryText at hquery
    split at hquery
    · assumption
    · cases hquery
  · rintro ⟨hquery, hnone⟩
    have hescapes := List.countP_eq_zero.mp (hplain.mpr hnone)
    rw [spelling_plain fun w hw => by simpa using hescapes w hw, queryText, hquery, List.append_nil]
    rfl

end Reference

/-! ### Resolving -/

/-- **A content URL keeps its meaning if and only if it is literal**: the server stays that of
the base for every reference, but the text becomes the path as it stands. -/
theorem content_url_kept (text : UrlText) (e : Endpoints) (r : Reference) (hparse : text.parse r.text = r.url) :
    let u := e.resolveContentUrl text r.text
    (u.scheme = e.base.scheme ∧ u.userInfo = e.base.userInfo ∧ u.host = e.base.host ∧ u.port = e.base.port) ∧
      (r.KeptBy e u ↔ r.Literal) := by
  have hu : e.resolveContentUrl text r.text =
      e.build (if r.text.startsWith "/" then r.text else "/" ++ r.text) := by
    unfold Endpoints.resolveContentUrl
    rw [hparse]
    exact if_pos rfl
  have hquery : e.base.query = none := by rw [← e.normal]; rfl
  dsimp only
  rw [hu]
  refine ⟨⟨rfl, rfl, rfl, rfl⟩, ?_⟩
  have hpath : (e.build (if r.text.startsWith "/" then r.text else "/" ++ r.text)).pathText =
      e.base.pathText ++ (r.absolute.flatMap Written.spelling ++ r.queryText) := by
    rw [← r.handed]
    exact encode_decoded_text _
  constructor
  · intro hkept
    have he := hkept.path
    rw [hpath] at he
    exact r.handed_eq_iff.mp (List.append_cancel_left he)
  · intro hliteral
    refine ⟨rfl, rfl, rfl, ?_, ?_⟩
    · rw [hpath, r.handed_eq_iff.mpr hliteral]
    · rw [hliteral.1]
      exact hquery

/-- A file with a blank in its name, `/a%20b`. -/
def escapedFile : Reference where
  path := [.plain '/', .plain 'a', .escape ' ' ['%', '2', '0'], .plain 'b']
  wellFormed := by decide
  noHost := by decide
  noScheme := by decide
  noFragment := by decide

/-- A file and a query, `/a?t=1`. -/
def queriedFile : Reference where
  path := [.plain '/', .plain 'a']
  query := some "t=1"
  wellFormed := by decide
  noHost := by decide
  noScheme := by decide
  noFragment := by decide

/-- A file at the base, `a`. -/
def literalFile : Reference where
  path := [.plain 'a']
  wellFormed := by decide
  noHost := by decide
  noScheme := by decide
  noFragment := by decide

/-- It reads the three files as what they are. -/
def fileText : UrlText where
  toString := fun _ => ""
  parse := fun s => ((([escapedFile, queriedFile, literalFile].find? fun r => r.text == s).map (·.url)).getD {})
  sha1 := id

def fileServer : Endpoints := .setBase {scheme := "https", host := "abs.example", path := [.plain '/', .plain 's']}

/-- The percent sign becomes part of the path, and so does the query. -/
theorem content_url_literal :
    let u := fileServer.resolveContentUrl fileText escapedFile.text
    let u' := fileServer.resolveContentUrl fileText queriedFile.text
    u.pathText = "/s/a%20b".toList ∧ ¬escapedFile.KeptBy fileServer u ∧
      u'.pathText = "/s/a?t=1".toList ∧ u'.query = none ∧ ¬queriedFile.KeptBy fileServer u' :=
  ⟨by decide +kernel, fun hkept => absurd hkept.path (by decide +kernel), by decide +kernel, by decide +kernel,
    fun hkept => absurd hkept.query (by decide +kernel)⟩

theorem content_url_kept_file :
    literalFile.KeptBy fileServer (fileServer.resolveContentUrl fileText literalFile.text) ∧
      ¬escapedFile.KeptBy fileServer (fileServer.resolveContentUrl fileText escapedFile.text) :=
  ⟨(content_url_kept fileText fileServer literalFile (by decide +kernel)).2.mpr (by decide),
    fun hkept => absurd ((content_url_kept fileText fileServer escapedFile (by decide +kernel)).2.mp hkept) (by decide)⟩

end ShelfRemote.Net
