import Mathlib.Algebra.Order.Field.Rat
import Mathlib.Data.List.Sort
import ShelfRemote.Net.Outbox

/-! The bookmarks of the user, kept optimistically.

A bookmark is added or removed on the screen first and on the server afterwards,
and each request carries the change that takes it back should the server refuse
(`Closure`). Bookmarks are told apart by the whole second they stand at.

The closures know nothing of the user who made the request. A list that was
cleared or loaded since is changed by them like any other; `late_replies` says by
which of them. -/
namespace ShelfRemote.Model
open Qt Net Runs

structure Bookmark where
  time : Rat
  title : String
  deriving DecidableEq

/-- The order `forItem` sorts by. -/
def Bookmark.Before (a b : Bookmark) : Prop := a.time ≤ b.time

instance : DecidableRel Bookmark.Before := fun a b => inferInstanceAs (Decidable (a.time ≤ b.time))

/-- `std::sort` by time. Which of two bookmarks at one time comes first is left open. -/
structure BookmarkSort where
  sort : List Bookmark → List Bookmark
  perm : ∀ marks, (sort marks).Perm marks
  sorted : ∀ marks, (sort marks).Pairwise Bookmark.Before

instance : Std.Total Bookmark.Before := ⟨fun a b => le_total a.time b.time⟩

instance : IsTrans Bookmark Bookmark.Before := ⟨fun _ b _ hab hbc => le_trans (b := b.time) hab hbc⟩

instance : Inhabited BookmarkSort where
  default :=
    { sort := List.insertionSort Bookmark.Before
      perm := List.perm_insertionSort Bookmark.Before
      sorted := List.pairwise_insertionSort Bookmark.Before }

namespace BookmarkStore

/-- `keyOf`: the whole second of a time. There is no bound on it here; what C++ makes of a time
that does not fit a `qint64` is undefined. -/
def keyOf (time : Rat) : Int := time.num.tdiv time.den

@[simp] theorem keyOf_int (t : Int) : keyOf (t : Rat) = t := by simp [keyOf]

/-- What takes a change back. -/
inductive Closure where
  | add (itemId : String) (t : Int)
  | remove (itemId : String) (removed : Bookmark)
  deriving DecidableEq

def Closure.itemId : Closure → String
  | .add itemId _ => itemId
  | .remove itemId _ => itemId

def Closure.adds : Closure → Bool
  | .add _ _ => true
  | .remove _ _ => false

/-- The second the request is about. -/
def Closure.second : Closure → Int
  | .add _ t => t
  | .remove _ removed => keyOf removed.time

end BookmarkStore

/-- A request of the store, with the closure of its reply and, as history, how often
the list had been cleared or loaded before. -/
structure BookmarkPost where
  closure : BookmarkStore.Closure
  signIn : Nat

structure BookmarkStore where
  server : Endpoints
  byItem : String → List Bookmark := fun _ => []
  outbox : Outbox BookmarkPost := {}
  /-- History: how often the list was cleared or loaded. -/
  signIns : Nat := 0

namespace BookmarkStore

/-- The bookmarks of an item, written over. -/
def put (s : BookmarkStore) (itemId : String) (marks : List Bookmark) : BookmarkStore :=
  {s with byItem := fun item => if item = itemId then marks else s.byItem item}

def ofJson (b : Json) : Bookmark :=
  {time := keyOf ((b.value "time").toDouble 0), title := (b.value "title").toString ""}

def loadFromUser (s : BookmarkStore) (user : Json) : BookmarkStore :=
  let marks := (user.value "bookmarks").toArray.map Json.toObject
  {s with
    byItem := fun item =>
      if item = "" then []
      else (marks.filter fun b => (b.value "libraryItemId").toString "" = item).map ofJson
    signIns := s.signIns + 1}

def clear (s : BookmarkStore) : BookmarkStore := {s with byItem := fun _ => [], signIns := s.signIns + 1}

/-- What is shown for an item. -/
def forItem (S : BookmarkSort) (s : BookmarkStore) (itemId : String) : List Bookmark :=
  S.sort (s.byItem itemId)

/-- The seconds at which an item has bookmarks. -/
def seconds (s : BookmarkStore) (itemId : String) : List Int := (s.byItem itemId).map fun b => keyOf b.time

def has (s : BookmarkStore) (itemId : String) (time : Rat) : Bool :=
  (s.byItem itemId).any fun b => keyOf b.time == keyOf time

def send (s : BookmarkStore) (verb : Verb) (target : Target) (body : Json) (closure : Closure) :
    BookmarkStore :=
  {s with outbox := s.outbox.send verb target body ⟨closure, s.signIns⟩}

/-- The bookmarks of an item but those at a second. -/
def without (s : BookmarkStore) (itemId : String) (t : Int) : List Bookmark :=
  (s.byItem itemId).filter fun b => keyOf b.time ≠ t

def add (s : BookmarkStore) (itemId : String) (time : Rat) (title : String) : BookmarkStore :=
  if itemId = "" then s
  else
    let t := keyOf time
    if s.has itemId t then s
    else
      let s := s.put itemId (s.byItem itemId ++ [⟨t, title⟩])
      s.send .post (s.server.bookmark itemId)
        (.object [("time", .number t), ("title", .string title)]) (.add itemId t)

def remove (s : BookmarkStore) (itemId : String) (time : Rat) : BookmarkStore :=
  if itemId = "" then s
  else
    let t := keyOf time
    match (s.byItem itemId).find? fun b => keyOf b.time == t with
    | none => s
    | some removed =>
      let s := s.put itemId (s.without itemId t)
      s.send .delete (s.server.bookmarkAt itemId t) .null (.remove itemId removed)

/-- The closure of a reply runs. -/
def onReply (s : BookmarkStore) (closure : Closure) (res : ApiResponse) : BookmarkStore :=
  if res.stale || res.ok then s
  else
    match closure with
    | .add itemId t => s.put itemId (s.without itemId t)
    | .remove itemId removed => s.put itemId (s.byItem itemId ++ [removed])

def finished (s : BookmarkStore) (id : Nat) (res : ApiResponse) : BookmarkStore :=
  match s.outbox.take id with
  | none => s
  | some (p, outbox) => {s with outbox}.onReply p.closure.closure res

inductive Event where
  | add (itemId : String) (time : Rat) (title : String)
  | remove (itemId : String) (time : Rat)
  | clear
  | loadFromUser (user : Json)
  | reply (id : Nat) (res : ApiResponse)

def step (s : BookmarkStore) : Event → BookmarkStore
  | .add itemId time title => s.add itemId time title
  | .remove itemId time => s.remove itemId time
  | .clear => s.clear
  | .loadFromUser user => s.loadFromUser user
  | .reply id res => s.finished id res

def machine : Machine BookmarkStore Event := ⟨step⟩

/-! ### What a reply changes -/

variable {s : BookmarkStore}

@[simp] theorem put_same (s : BookmarkStore) (itemId : String) (marks : List Bookmark) :
    (s.put itemId marks).byItem itemId = marks := if_pos rfl

theorem put_other (s : BookmarkStore) (marks : List Bookmark) {itemId item : String} (h : item ≠ itemId) :
    (s.put itemId marks).byItem item = s.byItem item := if_neg h

theorem put_self (s : BookmarkStore) (itemId : String) : s.put itemId (s.byItem itemId) = s := by
  have h : (s.put itemId (s.byItem itemId)).byItem = s.byItem := by
    funext item
    by_cases hitem : item = itemId
    · rw [hitem, put_same]
    · exact put_other s _ hitem
  cases s
  simpa [put] using h

theorem has_iff {itemId : String} {t : Int} : s.has itemId t = true ↔ t ∈ s.seconds itemId := by
  simp [has, seconds]

/-- Dropping a second that has no bookmark drops nothing. -/
theorem without_absent {itemId : String} {t : Int} (h : t ∉ s.seconds itemId) :
    s.without itemId t = s.byItem itemId := by
  refine List.filter_eq_self.mpr fun b hb => decide_eq_true fun he => h ?_
  exact List.mem_map.mpr ⟨b, hb, he⟩

theorem without_length {itemId : String} {t : Int} (h : t ∈ s.seconds itemId) :
    (s.without itemId t).length < (s.byItem itemId).length := by
  obtain ⟨b, hb, he⟩ := List.mem_map.mp h
  exact List.length_filter_lt_length_iff_exists.mpr ⟨b, hb, by simpa using he⟩

/-- The reply leaves the list alone: it is stale, it reports success, or it takes back
an addition that is no longer there. -/
def Harmless (s : BookmarkStore) (closure : Closure) (res : ApiResponse) : Prop :=
  res.stale = true ∨ res.ok = true ∨
    match closure with
    | .add itemId t => t ∉ s.seconds itemId
    | .remove _ _ => False

instance (s : BookmarkStore) (closure : Closure) (res : ApiResponse) : Decidable (s.Harmless closure res) :=
  match closure with
  | .add _ _ => inferInstanceAs (Decidable (_ ∨ _ ∨ _))
  | .remove _ _ => inferInstanceAs (Decidable (_ ∨ _ ∨ _))

theorem onReply_harmless {closure : Closure} {res : ApiResponse} (h : s.Harmless closure res) :
    s.onReply closure res = s := by
  unfold onReply
  split
  · rfl
  · next hfails =>
    simp only [Bool.or_eq_true, not_or] at hfails
    rcases h with h | h | h
    · exact absurd h hfails.1
    · exact absurd h hfails.2
    · cases closure with
      | add itemId t =>
        show s.put itemId (s.without itemId t) = s
        rw [without_absent h, put_self]
      | remove itemId removed => exact h.elim

theorem onReply_outbox (s : BookmarkStore) (closure : Closure) (res : ApiResponse) :
    (s.onReply closure res).outbox = s.outbox := by
  unfold onReply
  split
  · rfl
  · cases closure <;> rfl

/-- Any other reply changes the number of bookmarks of its item. -/
theorem onReply_changes {closure : Closure} {res : ApiResponse} (h : ¬s.Harmless closure res) :
    ((s.onReply closure res).byItem closure.itemId).length ≠ (s.byItem closure.itemId).length := by
  simp only [Harmless, not_or] at h
  obtain ⟨hstale, hok, hpresent⟩ := h
  have hfails : ¬(res.stale || res.ok) = true := by simp [hstale, hok]
  unfold onReply
  rw [if_neg hfails]
  cases closure with
  | add itemId t =>
    have hlt := without_length (Decidable.not_not.mp hpresent)
    simp only [Closure.itemId, put_same]
    omega
  | remove itemId removed => simp [Closure.itemId]

/-! ### Replies that outlive the list -/

/-- The reply to a request made before the list was last cleared or loaded. -/
def Late (s : BookmarkStore) (id : Nat) : Option Closure :=
  (s.outbox.take id).bind fun (p, _) => if p.closure.signIn < s.signIns then some p.closure.closure else none

/-- Such a reply changes no bookmark that is shown. -/
def Unmoved (S : BookmarkSort) (s : BookmarkStore) : Event → Prop
  | .reply id res => s.Late id ≠ none → ∀ item, (s.finished id res).forItem S item = s.forItem S item
  | _ => True

/-- Such a reply leaves the list alone. -/
def Spared (s : BookmarkStore) : Event → Prop
  | .reply id res => ∀ closure, s.Late id = some closure → s.Harmless closure res
  | _ => True

theorem unmoved_iff (S : BookmarkSort) (s : BookmarkStore) (e : Event) : s.Unmoved S e ↔ s.Spared e := by
  cases e with
  | reply id res =>
    cases htake : s.outbox.take id with
    | none => simp [Unmoved, Spared, Late, htake]
    | some taken =>
      obtain ⟨p, outbox⟩ := taken
      have hfinished : s.finished id res = {s with outbox}.onReply p.closure.closure res := by
        simp only [finished, htake]
      have hbind : s.Late id = if p.closure.signIn < s.signIns then some p.closure.closure else none := by
        simp only [Late, htake, Option.bind_some]
      by_cases hlate : p.closure.signIn < s.signIns
      · rw [if_pos hlate] at hbind
        simp only [Unmoved, Spared, hbind, hfinished, Option.some.injEq, ne_eq, reduceCtorEq, not_false_eq_true,
          forall_const, forall_eq']
        constructor
        · intro h
          by_contra hharm
          have hchange := onReply_changes (s := {s with outbox}) hharm
          have hsame := congrArg List.length (h p.closure.closure.itemId)
          rw [forItem, forItem, (S.perm _).length_eq, (S.perm _).length_eq] at hsame
          exact hchange hsame
        · intro hharm item
          have hsame := onReply_harmless (s := {s with outbox}) hharm
          rw [hsame]
          rfl
      · rw [if_neg hlate] at hbind
        simp [Unmoved, Spared, hbind]
  | add | remove | clear | loadFromUser => exact Iff.rfl

/-- **Late replies.** In every run, a reply to a request made before the list was last
cleared or loaded changes nothing that is shown exactly when it leaves the list alone;
so in a run whose late replies all do, none of them changes anything. -/
theorem late_replies (S : BookmarkSort) (s : BookmarkStore) (es : List Event) :
    machine.Along (fun s e => s.Unmoved S e ↔ s.Spared e) s es ∧
      (machine.Along (fun s e => s.Spared e) s es → machine.Along (fun s e => s.Unmoved S e) s es) :=
  ⟨Machine.along_of_forall (unmoved_iff S) s es, fun h => h.mono fun s e he => (unmoved_iff S s e).mpr he⟩

/-- A user with one bookmark removes it and signs out, and another one signs in. -/
def handover : List Event :=
  [.loadFromUser (.object [("bookmarks", .array [.object
      [("libraryItemId", .string "book"), ("time", .number 10), ("title", .string "here")]])]),
    .remove "book" 10, .clear, .loadFromUser (.object [])]

/-- Then the server refuses the removal, and the other user has the bookmark. -/
theorem late_reply_shown : ¬machine.Along (fun s e => s.Unmoved default e) {server := default}
    (handover ++ [.reply 0 ⟨500, false, false, .null, "", none⟩]) := by
  intro h
  have hlast := ((Machine.along_append _ handover _).mp h).2.1
  have hsame := congrArg List.length (hlast (by decide +kernel) "book")
  exact absurd hsame (by decide +kernel)

end BookmarkStore

end ShelfRemote.Model
