import ShelfRemote.Lib.Runs
import ShelfRemote.Lib.Views
import ShelfRemote.Model.Shelves

/-! The rows of Home, and what is announced of them.

Home is the server's shelves with a row of its own among them, which comes, goes and
changes in place. `data` finds a shelf by counting around that row; `home` says what the
rows are, by putting them in a list. -/
namespace ShelfRemote.Model
open Qt Runs Views

/-- The roles of a row; `other` is any role the model does not know. -/
inductive Role where
  | label
  | shelfType
  | items
  | other
  deriving DecidableEq

/-- What a row has in a role. -/
inductive Value where
  | invalid
  | string (s : String)
  | list (cards : List Card)

namespace ShelfModel

/-- The card of one entity of a shelf. -/
def flattenEntity (shelfType : String) (v : Json) : Card :=
  let e := v.toObject
  let id := (e.value "id").toString ""
  if shelfType = "series" then
    let books := (e.value "books").toArray
    { kind := "series"
      itemId := id
      episodeId := ""
      coverId := match books with
        | [] => ""
        | book :: _ => (book.toObject.value "id").toString ""
      coverKind := "item"
      title := (e.value "name").toString ""
      author := if books.isEmpty then "" else toString books.length ++ " books" }
  else if shelfType = "authors" then
    { kind := "author"
      itemId := id
      episodeId := ""
      coverId := id
      coverKind := "author"
      title := (e.value "name").toString ""
      author := "" }
  else
    let metadata := ((e.value "media").toObject.value "metadata").toObject
    let recentEpisode := (e.value "recentEpisode").toObject
    if shelfType = "episode" ∨ recentEpisode.isEmpty = false then
      { kind := "episode"
        itemId := id
        episodeId := (recentEpisode.value "id").toString ""
        coverId := id
        coverKind := "item"
        title := (recentEpisode.value "title").toString ((metadata.value "title").toString "")
        author := (metadata.value "title").toString "" }
    else
      { kind := (e.value "mediaType").toString "book"
        itemId := id
        episodeId := ""
        coverId := id
        coverKind := "item"
        title := (metadata.value "title").toString ((e.value "name").toString "")
        author := (metadata.value "authorName").toString ((metadata.value "author").toString "") }

def flattenEntities (entities : List Json) (shelfType : String) : List Card := entities.map (flattenEntity shelfType)

def isContinueListening (shelf : Json) : Bool := (shelf.toObject.value "id").toString "" == "continue-listening"

end ShelfModel

/-! ### What Home shows -/

/-- A row of Home: a shelf of the server, or the next-up row. -/
inductive HomeRow where
  | shelf (shelf : Json)
  | nextUp (cards : List Card)

def HomeRow.data : HomeRow → Role → Value
  | .shelf _, .other | .nextUp _, .other => .invalid
  | .nextUp _, .label => .string "Playlist Next Up"
  | .nextUp _, .shelfType => .string "playlistNextUp"
  | .nextUp cards, .items => .list cards
  | .shelf v, .label => .string ((v.toObject.value "label").toString "")
  | .shelf v, .shelfType => .string ((v.toObject.value "type").toString "")
  | .shelf v, .items =>
    .list (ShelfModel.flattenEntities (v.toObject.value "entities").toArray ((v.toObject.value "type").toString ""))

/-- The row directly after the first shelf to continue listening, if there is one. -/
def underFirst (row : HomeRow) : List Json → Option (List HomeRow)
  | [] => none
  | shelf :: rest =>
    if ShelfModel.isContinueListening shelf then some (.shelf shelf :: row :: rest.map .shelf)
    else (underFirst row rest).map (.shelf shelf :: ·)

/-- What Home is to show. -/
def home (shelves : List Json) (cards : List Card) : List HomeRow :=
  if cards = [] then shelves.map .shelf
  else (underFirst (.nextUp cards) shelves).getD (.nextUp cards :: shelves.map .shelf)

/-! ### The model -/

namespace ShelfModel

def rowCount (m : ShelfModel) : Nat := m.shelves.length + if m.nextUp = [] then 0 else 1

def nextUpRow (m : ShelfModel) : Int :=
  if m.nextUp = [] then -1
  else
    match m.shelves.findIdx? isContinueListening with
    | some i => i + 1
    | none => 0

def data (m : ShelfModel) (row : Nat) (role : Role) : Value :=
  if m.rowCount ≤ row then .invalid
  else if row = m.nextUpRow then (HomeRow.nextUp m.nextUp).data role
  else
    let shelfRow := if 0 ≤ m.nextUpRow ∧ m.nextUpRow < row then row - 1 else row
    (HomeRow.shelf (m.shelves.getD shelfRow .null)).data role

def source (m : ShelfModel) : Source Role Value := ⟨m.rowCount, m.data⟩

/-- What `setPlaylistNextUp` announces. Where the row lands is found with the cards in
place. -/
def nextUpNotice (m : ShelfModel) (items : List Card) : Option (Notice Role) :=
  if items = m.nextUp then none
  else
    let oldRow := m.nextUpRow
    if items = [] then some (.removed oldRow oldRow)
    else if oldRow < 0 then
      let row := ({m with nextUp := items} : ShelfModel).nextUpRow
      some (.inserted row row)
    else some (.changed oldRow oldRow [.items])

variable {m : ShelfModel}

/-- Where the row is while there are cards. -/
def place (m : ShelfModel) : Nat := (m.shelves.findIdx? isContinueListening).elim 0 (· + 1)

theorem nextUpRow_eq (h : m.nextUp ≠ []) : m.nextUpRow = m.place := by
  unfold nextUpRow place
  rw [if_neg h]
  split
  · next i hi => simp [hi]
  · next hi => simp [hi]

theorem place_le (m : ShelfModel) : m.place ≤ m.shelves.length := by
  unfold place
  cases hi : m.shelves.findIdx? isContinueListening with
  | none => exact Nat.zero_le _
  | some i => exact (List.findIdx?_eq_some_iff_getElem.mp hi).1

theorem underFirst_eq (row : HomeRow) (shelves : List Json) :
    underFirst row shelves = (shelves.findIdx? isContinueListening).map fun i =>
      (shelves.take (i + 1)).map .shelf ++ row :: (shelves.drop (i + 1)).map .shelf := by
  induction shelves with
  | nil => rfl
  | cons shelf rest ih =>
    unfold underFirst
    rw [List.findIdx?_cons]
    split
    · rfl
    · rw [ih, Option.map_map, Option.map_map]
      rfl

/-- The rows above its place. -/
def above (m : ShelfModel) : List HomeRow := (m.shelves.take m.place).map .shelf

/-- The rows below it. -/
def below (m : ShelfModel) : List HomeRow := (m.shelves.drop m.place).map .shelf

@[simp] theorem above_length (m : ShelfModel) : m.above.length = m.place := by
  unfold above
  rw [List.length_map, List.length_take, Nat.min_eq_left m.place_le]

/-- Home with its own row, around which the shelves keep their order. -/
theorem home_shown (h : m.nextUp ≠ []) : home m.shelves m.nextUp = m.above ++ .nextUp m.nextUp :: m.below := by
  unfold home above below place
  rw [if_neg h, underFirst_eq]
  cases m.shelves.findIdx? isContinueListening with
  | none => rfl
  | some i => rfl

theorem home_hidden (h : m.nextUp = []) : home m.shelves m.nextUp = m.above ++ m.below := by
  unfold home above below
  rw [if_pos h, ← List.map_append, List.take_append_drop]

theorem home_length (m : ShelfModel) : (home m.shelves m.nextUp).length = m.rowCount := by
  have hplace := m.place_le
  unfold rowCount
  by_cases h : m.nextUp = []
  · simp [home, h]
  · rw [home_shown h, if_neg h, List.length_append, List.length_cons, above_length]
    simp only [below, List.length_map, List.length_drop]
    omega

/-- Counting around the own row finds the rows of Home, one by one. -/
theorem data_eq (m : ShelfModel) {i : Nat} (hi : i < (home m.shelves m.nextUp).length) :
    m.data i = (home m.shelves m.nextUp)[i].data := by
  have hrow : ¬m.rowCount ≤ i := by
    rw [← m.home_length]
    omega
  funext role
  unfold data
  rw [if_neg hrow]
  by_cases h : m.nextUp = []
  · have hnone : m.nextUpRow = -1 := if_pos h
    have hshelves : home m.shelves m.nextUp = m.shelves.map .shelf := if_pos h
    have hlt : i < m.shelves.length := by simpa [hshelves] using hi
    rw [hnone, if_neg (by omega), if_neg (by omega)]
    simp [hshelves, hlt]
  · have hplace := m.place_le
    have hlength := m.above_length
    have hbound : i < m.shelves.length + 1 := by
      rw [m.home_length] at hi
      simpa [rowCount, h] using hi
    rw [nextUpRow_eq h]
    simp only [home_shown h]
    rcases Nat.lt_trichotomy i m.place with hlt | rfl | hgt
    · rw [if_neg (by omega), if_neg (by omega), List.getElem_append_left (by omega)]
      simp [above, show i < m.shelves.length by omega]
    · rw [if_pos rfl, List.getElem_append_right (by omega)]
      simp only [hlength, Nat.sub_self, List.getElem_cons_zero]
    · obtain ⟨k, rfl⟩ : ∃ k, i = m.place + 1 + k := ⟨i - (m.place + 1), by omega⟩
      rw [if_neg (by omega), if_pos (by omega), List.getElem_append_right (by omega)]
      simp only [hlength, show m.place + 1 + k - m.place = k + 1 by omega, List.getElem_cons_succ]
      simp [below, show m.place + 1 + k - 1 = m.place + k by omega, show m.place + k < m.shelves.length by omega]

/-- **The rows are the server's shelves with the own row in its place.** -/
theorem rows_eq (m : ShelfModel) : m.source.rows = (home m.shelves m.nextUp).map HomeRow.data := by
  apply List.ext_getElem
  · rw [Source.rows_length, List.length_map, home_length]
    rfl
  · intro i hi hi'
    simp only [List.getElem_map, Source.rows, Source.read, List.getElem_range', Nat.zero_add, Nat.one_mul]
    exact m.data_eq (by simpa using hi')

theorem rows_shown (h : m.nextUp ≠ []) :
    m.source.rows = m.above.map HomeRow.data ++ [(HomeRow.nextUp m.nextUp).data] ++ m.below.map HomeRow.data := by
  rw [rows_eq, home_shown h, List.map_append, List.map_cons, List.append_assoc]
  rfl

theorem rows_hidden (h : m.nextUp = []) : m.source.rows = m.above.map HomeRow.data ++ m.below.map HomeRow.data := by
  rw [rows_eq, home_hidden h, List.map_append]

/-- The row comes, goes, or changes where it is, and what is announced is just that. -/
theorem nextUpNotice_tells (m : ShelfModel) {items : List Card} {notice : Notice Role}
    (h : m.nextUpNotice items = some notice) : Tells m.source (m.setPlaylistNextUp items).source notice := by
  let after : ShelfModel := {m with nextUp := items}
  unfold nextUpNotice at h
  unfold setPlaylistNextUp
  split at h
  · cases h
  · next hother =>
    rw [if_neg hother]
    dsimp only at h
    split at h
    · next hnone =>
      have hcards : m.nextUp ≠ [] := fun hempty => hother (hnone.trans hempty.symm)
      have htells := Tells.removed _ [_] _ (List.cons_ne_nil _ _) (rows_shown hcards)
        (rows_hidden (m := after) hnone)
      cases h
      rw [nextUpRow_eq hcards]
      simpa using htells
    · next hsome =>
      split at h
      · next hold =>
        have hempty : m.nextUp = [] := by
          by_contra hcards
          rw [nextUpRow_eq hcards] at hold
          omega
        have htells := Tells.inserted _ [_] _ (List.cons_ne_nil _ _) (rows_hidden hempty)
          (rows_shown (m := after) hsome)
        cases h
        rw [nextUpRow_eq (m := after) hsome, show after.place = m.place from rfl]
        simpa using htells
      · next hold =>
        have hcards : m.nextUp ≠ [] := fun hempty => hold (by rw [nextUpRow, if_pos hempty]; decide)
        -- Neither of the other roles depends on the cards.
        have hothers : List.Forall₂
            (fun o n : Role → Value => ∀ role, ¬([Role.items] = [] ∨ role ∈ [Role.items]) → o role = n role)
            [(HomeRow.nextUp m.nextUp).data] [(HomeRow.nextUp items).data] := by
          refine .cons (fun role hrole => ?_) .nil
          cases role <;> first | rfl | exact absurd (by simp) hrole
        have htells := Tells.changed _ [_] [_] _ [Role.items] (List.cons_ne_nil _ _) (rows_shown hcards)
          (rows_shown (m := after) hsome) hothers
        cases h
        rw [nextUpRow_eq hcards]
        simpa using htells

end ShelfModel

/-! ### Home and a view of it -/

/-- The model, a view that reads what is announced, and what was set last. -/
structure HomeView where
  model : ShelfModel := {}
  view : List (Role → Value) := []
  shelves : List Json := []
  cards : List Card := []

namespace HomeView

inductive Event where
  | setShelves (shelves : List Json)
  | setPlaylistNextUp (cards : List Card)

/-- What a call announces. -/
def notice (x : HomeView) : Event → Option (Notice Role)
  | .setShelves _ => some .reset
  | .setPlaylistNextUp cards => x.model.nextUpNotice cards

def called (x : HomeView) : Event → ShelfModel
  | .setShelves shelves => x.model.setShelves shelves
  | .setPlaylistNextUp cards => x.model.setPlaylistNextUp cards

def step (x : HomeView) (e : Event) : HomeView :=
  let model := x.called e
  { model
    view := match x.notice e with
      | none => x.view
      | some notice => follow model.source x.view notice
    shelves := match e with
      | .setShelves shelves => shelves
      | .setPlaylistNextUp _ => x.shelves
    cards := match e with
      | .setShelves _ => x.cards
      | .setPlaylistNextUp cards => cards }

def machine : Machine HomeView Event := ⟨step⟩

/-- The model holds what was set last, and the view its rows. -/
structure Kept (x : HomeView) : Prop where
  shelves : x.model.shelves = x.shelves
  cards : x.model.nextUp = x.cards
  view : x.view = x.model.source.rows

theorem kept_start : Kept {} := ⟨rfl, rfl, rfl⟩

variable {x : HomeView}

/-- Nothing is announced of a call that changes nothing. -/
theorem quiet {e : Event} (h : x.notice e = none) : x.called e = x.model := by
  cases e with
  | setShelves shelves => cases h
  | setPlaylistNextUp cards =>
    unfold notice ShelfModel.nextUpNotice at h
    dsimp only at h
    split at h
    · next hsame => exact if_pos hsame
    · split_ifs at h

theorem notice_tells {e : Event} {n : Notice Role} (h : x.notice e = some n) :
    Tells x.model.source (x.called e).source n := by
  cases e with
  | setShelves shelves =>
    cases h
    exact .reset
  | setPlaylistNextUp cards => exact x.model.nextUpNotice_tells h

theorem Kept.next (h : x.Kept) (e : Event) : (x.step e).Kept := by
  have hview : (x.step e).view = (x.called e).source.rows := by
    unfold step
    dsimp only
    cases hnotice : x.notice e with
    | none =>
      rw [quiet hnotice]
      exact h.view
    | some notice =>
      rw [h.view]
      exact (notice_tells hnotice).follow
  cases e with
  | setShelves shelves => exact ⟨rfl, h.cards, hview⟩
  | setPlaylistNextUp cards =>
    refine ⟨?_, x.model.setPlaylistNextUp_nextUp cards, hview⟩
    show (x.model.setPlaylistNextUp cards).shelves = x.shelves
    rw [← h.shelves]
    unfold ShelfModel.setPlaylistNextUp
    split <;> rfl

theorem keeps : Machine.Keeps machine (fun _ _ => True) Kept := ⟨fun _ e h _ => h.next e⟩

/-- **Home and its signals agree.** After every run of calls `data` shows the shelves set
last, with the row of the cards set last in its place, and a view that only follows the
notices holds just these rows; and each notice is about the very rows that changed. -/
theorem home_rows_agree (es : List Event) :
    let x := machine.run {} es
    x.model.source.rows = (home x.shelves x.cards).map HomeRow.data ∧ x.view = x.model.source.rows ∧
      ∀ e, ∀ n ∈ x.notice e, Tells x.model.source (machine.step x e).model.source n := by
  have h := keeps.always kept_start es
  refine ⟨?_, h.view, fun e n hn => notice_tells hn⟩
  rw [← h.shelves, ← h.cards]
  exact ShelfModel.rows_eq _

/-- Two shelves of the server, the first one to continue listening. -/
def sampleShelves : List Json :=
  [.object [("id", .string "continue-listening"), ("label", .string "Continue Listening")],
    .object [("id", .string "recently-added"), ("label", .string "Recently Added")]]

def sampleCard : Card := ⟨"book", "b1", "", "b1", "item", "One", "A"⟩

/-- The row lands between the two. -/
theorem home_rows_agree_listening :
    let x := machine.run {} [.setShelves sampleShelves]
    let x' := machine.step x (.setPlaylistNextUp [sampleCard])
    Tells x.model.source x'.model.source (.inserted 1 1) ∧
      x.model.source.rows = (home sampleShelves []).map HomeRow.data :=
  have h := home_rows_agree [.setShelves sampleShelves]
  ⟨h.2.2 (.setPlaylistNextUp [sampleCard]) _ (by decide +kernel), h.1⟩

end HomeView

end ShelfRemote.Model
