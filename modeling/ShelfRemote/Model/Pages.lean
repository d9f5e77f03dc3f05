import ShelfRemote.Model.LibraryItemsModel
import ShelfRemote.Net.Outbox

/-! The grid and the pages that come in for it.

The machine here is the model with the client behind it: requests are answered in any
order, and when the client is pointed at another server it aborts them, but for those
that wait for a refresh and are answered late. Beside the rows there is a history of
where they ought to have come from, which nothing here reads (`Content`). Of the load that is current no more than one page is ever on its way
(`Kept.alone`), so what comes in is the next one. -/
namespace ShelfRemote.Model
open Qt Net Runs

namespace LibraryItemsModel
variable {m : LibraryItemsModel}

/-- The request that `fetchPage` sends. -/
def request (m : LibraryItemsModel) (page : Nat) : PageRequest :=
  { libraryId := m.libraryId
    query := m.baseQuery ++ [("limit", toString m.limit), ("page", toString page)]
    page
    generation := m.generation }

/-- No request is sent without a library. -/
theorem fetchPage_sends (m : LibraryItemsModel) (page : Nat) :
    m.fetchPage page = (m, none) ∨ m.fetchPage page = ({m with loading := true}, some (m.request page)) := by
  unfold fetchPage
  split
  · exact .inl rfl
  · exact .inr rfl

/-- What comes after the last page that came in, while nothing is on its way. -/
theorem loadMore_sends (m : LibraryItemsModel) :
    m.loadMore = (m, none) ∨ (m.hasMore = true ∧ m.loading = false) ∧
      m.loadMore = ({m with loading := true}, some (m.request (m.page + 1))) := by
  unfold loadMore
  split
  · next hmore =>
    simp only [Bool.and_eq_true, Bool.not_eq_true'] at hmore
    rcases fetchPage_sends m (m.page + 1) with h | h
    · exact .inl h
    · exact .inr ⟨hmore, h⟩
  · exact .inl rfl

end LibraryItemsModel

/-! ### Where the rows come from -/

/-- The results of a page. -/
def results (res : ApiResponse) : List Json := (res.body.toObject.value "results").toArray

namespace LibraryItemsModel

/-- A reply is dropped, or ends the wait, or brings a page. -/
theorem onPage_cases (m : LibraryItemsModel) (page generation : Nat) (res : ApiResponse) :
    ((res.stale = true ∨ generation ≠ m.generation) ∧ m.onPage page generation res = m) ∨
    (res.stale = false ∧ generation = m.generation) ∧
      (res.ok = false ∧ m.onPage page generation res = {m with loading := false} ∨
      res.ok = true ∧ ∃ hasMore, m.onPage page generation res =
        {m with
          loading := false
          items := m.items ++ (results res).map fun v => normalise v.toObject
          page
          hasMore}) := by
  unfold onPage
  split
  · next hlate =>
    simp only [Bool.or_eq_true, bne_iff_ne] at hlate
    exact .inl ⟨hlate, rfl⟩
  · next htaken =>
    simp only [Bool.or_eq_true, bne_iff_ne, not_or, Bool.not_eq_true, ne_eq, not_not] at htaken
    refine .inr ⟨htaken, ?_⟩
    dsimp only
    split
    · next hfailed => exact .inl ⟨by simpa using hfailed, rfl⟩
    · next hok => exact .inr ⟨by simpa using hok, _, rfl⟩

end LibraryItemsModel

/-- An item of `setItems`, flat or not. -/
def flat (v : Json) : Json :=
  match v.toObject with
  | .object fields =>
    if fields.any (·.1 == "media") then LibraryItemsModel.normalise (.object fields) else .object fields
  | o => o

/-- A call of `loadLibrary`. -/
structure Query where
  libraryId : String
  sort : String
  desc : Bool
  filter : String
  deriving DecidableEq

/-- What it says to the server, but for the page. -/
def Query.base (q : Query) : List (String × String) :=
  [("minified", "1")] ++ (if q.sort = "" then [] else [("sort", q.sort), ("desc", if q.desc then "1" else "0")]) ++
    (if q.filter = "" then [] else [("filter", q.filter)])

/-- A request for a page of the query. -/
def Query.Asks (q : Query) (r : PageRequest) : Prop :=
  r.libraryId = q.libraryId ∧ r.query = q.base ++ [("limit", "50"), ("page", toString r.page)]

/-- A page that was taken in. -/
structure Answer where
  request : PageRequest
  results : List Json

/-- What the rows are to show: the items set last, or the answers to the query asked
last, oldest first. -/
inductive Content where
  | given (items : List Json)
  | query (q : Query) (answers : List Answer)

def Content.rows : Content → List Json
  | .given items => items.map flat
  | .query _ answers => answers.flatMap fun a => a.results.map fun v => LibraryItemsModel.normalise v.toObject

/-! ### The model and the client -/

/-- A request, with the load it was made for and the epoch of the client then. -/
structure Asked where
  request : PageRequest
  load : Nat
  epoch : Nat

structure Pages where
  model : LibraryItemsModel := {}
  server : Endpoints
  epoch : Nat := 0
  outbox : Outbox Asked := {}
  /-- History: how many loads there were. -/
  loads : Nat := 0
  content : Content := .given []
  /-- The `loadMore` that failed, while none has been sent since. -/
  failed : Option PageRequest := none

namespace Pages

inductive Event where
  | loadLibrary (q : Query)
  | loadMore
  | setItems (items : List Json)
  /-- The requests in `waiting` were answered 401 and wait for a refresh: there is no reply
  of theirs to abort. -/
  | setBaseUrl (base : QUrl) (waiting : List Nat)
  | reply (id : Nat) (res : ApiResponse)

/-- The model asks for a page, or does not. -/
def send (x : Pages) (asked : LibraryItemsModel × Option PageRequest) : Pages :=
  match asked.2 with
  | none => {x with model := asked.1}
  | some r =>
    {x with
      model := asked.1
      outbox := x.outbox.send .get (x.server.libraryItems r.libraryId r.query) .null ⟨r, x.loads, x.epoch⟩}

/-- The client says of a reply whether it is one of an earlier server. -/
def delivered (x : Pages) (asked : Asked) (res : ApiResponse) : ApiResponse :=
  {res with stale := asked.epoch != x.epoch}

/-- The current load's page has come, from the server that is current. -/
def Lands (x : Pages) (asked : Asked) (res : ApiResponse) : Prop :=
  asked.load = x.loads ∧ asked.epoch = x.epoch ∧ res.ok = true

instance (x : Pages) (asked : Asked) (res : ApiResponse) : Decidable (x.Lands asked res) :=
  inferInstanceAs (Decidable (_ ∧ _ ∧ _))

/-- The history after a reply. -/
def Content.answered (x : Pages) (asked : Asked) (res : ApiResponse) : Content :=
  match x.content with
  | .given items => .given items
  | .query q answers =>
    .query q (if x.Lands asked res then answers ++ [⟨asked.request, results res⟩] else answers)

/-- The reply to a request that is out. -/
def answer (x : Pages) (id : Nat) (res : ApiResponse) : Pages :=
  match x.outbox.take id with
  | none => x
  | some (p, outbox) =>
    {x with
      outbox
      model := x.model.onPage p.closure.request.page p.closure.request.generation (x.delivered p.closure res)
      content := Content.answered x p.closure res
      failed := if p.closure.load = x.loads ∧ res.ok = false ∧ p.closure.request.page ≠ 0 then
        some p.closure.request else x.failed}

/-- What a reply says that `abort` ends. -/
def canceled : ApiResponse :=
  { status := 0
    ok := false
    stale := true
    body := .null
    errorString := "Operation canceled"
    redirectLocation := none }

/-- Each of the requests is aborted, and its reply comes at once. -/
def abort (x : Pages) (ids : List Nat) : Pages := ids.foldl (fun x id => x.answer id canceled) x

/-- What a change of base aborts: everything that is out and does not wait for a refresh. -/
def onWire (x : Pages) (waiting : List Nat) : List Nat :=
  (x.outbox.inFlight.map (·.id)).filter fun id => id ∉ waiting

/-- The new server, before the replies of the old one are aborted. -/
def moveBase (x : Pages) (base : QUrl) : Pages :=
  {x with server := Endpoints.setBase base, epoch := x.epoch + 1}

def step (x : Pages) : Event → Pages
  | .loadLibrary q =>
    {x with loads := x.loads + 1, content := .query q [], failed := none}.send
      (x.model.loadLibrary q.libraryId q.sort q.desc q.filter)
  | .loadMore =>
    {x with failed := if x.model.loadMore.2.isSome then none else x.failed}.send x.model.loadMore
  | .setItems items =>
    {x with model := x.model.setItems items, loads := x.loads + 1, content := .given items, failed := none}
  | .setBaseUrl base waiting =>
    if x.server.base = base then x else (x.moveBase base).abort (x.onWire waiting)
  | .reply id res => x.answer id res

def machine : Machine Pages Event := ⟨step⟩

/-! ### What is kept -/

/-- Of the current load. -/
def ours (x : Pages) (p : Sent Asked) : Bool := p.closure.load == x.loads

/-- Where the model stands in the answers to a query. -/
structure Stands (x : Pages) (q : Query) (answers : List Answer) : Prop where
  library : x.model.libraryId = q.libraryId
  query : x.model.baseQuery = q.base
  /-- A page that has come in is the last one. -/
  page : answers ≠ [] → x.model.page + 1 = answers.length
  nothing : answers = [] → x.model.page = 0 ∧ x.model.hasMore = false
  pages : answers.map (·.request.page) = List.range answers.length
  asked : ∀ a ∈ answers, q.Asks a.request
  coming : ∀ p ∈ x.outbox.inFlight, p.closure.load = x.loads →
    p.closure.request = x.model.request answers.length

structure Kept (x : Pages) : Prop where
  generation : x.model.generation = x.loads
  limit : x.model.limit = 50
  made : ∀ p ∈ x.outbox.inFlight, p.closure.request.generation = p.closure.load ∧ p.closure.load ≤ x.loads
  /-- No more than one page of the current load is on its way. -/
  alone : x.outbox.inFlight.countP x.ours ≤ if x.model.loading then 1 else 0
  rows : x.model.items = x.content.rows
  given : ∀ items, x.content = .given items → x.model.hasMore = false ∧ x.model.loading = false
  stands : ∀ q answers, x.content = .query q answers → x.Stands q answers
  failed : ∀ r ∈ x.failed, r = x.model.request (x.model.page + 1)
  quiet : x.failed ≠ none → ∀ p ∈ x.outbox.inFlight, p.closure.load ≠ x.loads

theorem kept_start (server : Endpoints) : ({server} : Pages).Kept where
  generation := rfl
  limit := rfl
  made := fun _ hp => nomatch hp
  alone := Nat.le_refl 0
  rows := rfl
  given := fun _ _ => ⟨rfl, rfl⟩
  stands := fun _ _ h => nomatch h
  failed := fun _ h => nomatch h
  quiet := fun h => absurd rfl h

variable {x : Pages}

/-- A new load has nothing on its way yet. -/
theorem Kept.none_next (h : x.Kept) :
    x.outbox.inFlight.countP (fun p => p.closure.load == x.loads + 1) = 0 := by
  refine List.countP_eq_zero.mpr fun p hp => ?_
  have hle := (h.made p hp).2
  simp only [beq_iff_eq]
  omega

/-- The first request of a load, or the next one. -/
theorem one_more {p : Sent Asked} {others : List (Sent Asked)} {ours : Sent Asked → Bool}
    (h : others.countP ours = 0) : (p :: others).countP ours ≤ 1 := by
  rw [List.countP_cons, h]
  split <;> decide

theorem Kept.loadLibrary (h : x.Kept) (q : Query) : (x.step (.loadLibrary q)).Kept := by
  have hgeneration := h.generation
  have hlimit := h.limit
  have hold : ∀ p ∈ x.outbox.inFlight, p.closure.request.generation = p.closure.load ∧
      p.closure.load ≤ x.loads + 1 := fun p hp => ⟨(h.made p hp).1, Nat.le_succ_of_le (h.made p hp).2⟩
  have hnone := h.none_next
  unfold step LibraryItemsModel.loadLibrary send
  dsimp only
  generalize hm : LibraryItemsModel.fetchPage _ 0 = asked
  rcases LibraryItemsModel.fetchPage_sends _ 0 with he | he
  · rw [← hm, he]
    refine ⟨congrArg (· + 1) hgeneration, hlimit, hold, ?_, rfl, (fun _ hc => nomatch hc), ?_, (fun _ hr => nomatch hr),
      fun hr => absurd rfl hr⟩
    · exact Nat.le_trans (Nat.le_of_eq hnone) (Nat.zero_le _)
    · rintro _ _ ⟨⟩
      refine ⟨rfl, rfl, fun hne => absurd rfl hne, fun _ => ⟨rfl, rfl⟩, rfl, (fun _ ha => nomatch ha), fun p hp hours => ?_⟩
      have hle := (h.made p hp).2
      exact absurd hours (Nat.ne_of_lt (Nat.lt_succ_of_le hle))
  · rw [← hm, he]
    refine ⟨congrArg (· + 1) hgeneration, hlimit, ?_, ?_, rfl, (fun _ hc => nomatch hc), ?_, (fun _ hr => nomatch hr),
      fun hr => absurd rfl hr⟩
    · exact List.forall_mem_cons.mpr ⟨⟨congrArg (· + 1) hgeneration, Nat.le_refl _⟩, hold⟩
    · exact one_more hnone
    · rintro _ _ ⟨⟩
      refine ⟨rfl, rfl, fun hne => absurd rfl hne, fun _ => ⟨rfl, rfl⟩, rfl, (fun _ ha => nomatch ha), ?_⟩
      refine List.forall_mem_cons.mpr ⟨fun _ => rfl, fun p hp hours => ?_⟩
      have hle := (h.made p hp).2
      exact absurd hours (Nat.ne_of_lt (Nat.lt_succ_of_le hle))

theorem Kept.setItems (h : x.Kept) (items : List Json) : (x.step (.setItems items)).Kept where
  generation := congrArg (· + 1) h.generation
  limit := h.limit
  made := fun p hp => ⟨(h.made p hp).1, Nat.le_succ_of_le (h.made p hp).2⟩
  alone := Nat.le_of_eq h.none_next
  rows := rfl
  given := fun _ _ => ⟨rfl, rfl⟩
  stands := fun _ _ hc => nomatch hc
  failed := fun _ hr => nomatch hr
  quiet := fun hr => absurd rfl hr

/-- What `loadMore` sends is the page after the last answer. -/
theorem Kept.loadMore (h : x.Kept) : (x.step .loadMore).Kept := by
  unfold step send
  dsimp only
  rcases x.model.loadMore_sends with he | ⟨⟨hmore, hidle⟩, he⟩
  · rw [he]
    exact h
  · have hnone : x.outbox.inFlight.countP x.ours = 0 := by
      have halone := h.alone
      rw [hidle] at halone
      exact Nat.le_zero.mp halone
    rw [he]
    refine ⟨h.generation, h.limit, ?_, ?_, h.rows, fun items hc => ?_, fun q answers hc => ?_, (fun _ hr => nomatch hr),
      fun hr => absurd rfl hr⟩
    · exact List.forall_mem_cons.mpr ⟨⟨h.generation, Nat.le_refl _⟩, h.made⟩
    · exact one_more hnone
    · exact absurd ((h.given items hc).1.symm.trans hmore) Bool.false_ne_true
    · have hstands := h.stands q answers hc
      have hsome : answers ≠ [] := fun hnil =>
        absurd ((hstands.nothing hnil).2.symm.trans hmore) Bool.false_ne_true
      refine ⟨hstands.library, hstands.query, hstands.page, hstands.nothing, hstands.pages, hstands.asked, ?_⟩
      exact List.forall_mem_cons.mpr ⟨fun _ => hstands.page hsome ▸ rfl, hstands.coming⟩

/-! ### Replies -/

variable {id : Nat} {p : Sent Asked} {outbox : Outbox Asked} {res : ApiResponse}

/-- The request whose reply has come is not on its way any more. -/
theorem Kept.taken (h : x.Kept) (htake : x.outbox.take id = some (p, outbox)) : ({x with outbox} : Pages).Kept where
  generation := h.generation
  limit := h.limit
  made := fun q hq => h.made q (Outbox.take_rest htake hq)
  alone := by
    have hperm := (Outbox.take_some htake).2.1.countP_eq x.ours
    rw [List.countP_cons] at hperm
    exact Nat.le_trans (Nat.le_trans (Nat.le_add_right _ _) (Nat.le_of_eq hperm.symm)) h.alone
  rows := h.rows
  given := h.given
  stands := fun q answers hc =>
    {h.stands q answers hc with coming := fun p hp => (h.stands q answers hc).coming p (Outbox.take_rest htake hp)}
  failed := h.failed
  quiet := fun hr q hq => h.quiet hr q (Outbox.take_rest htake hq)

/-- It was the only one of its load. -/
theorem Kept.only (h : x.Kept) (htake : x.outbox.take id = some (p, outbox)) (hours : p.closure.load = x.loads) :
    x.model.loading = true ∧ ∀ q ∈ outbox.inFlight, q.closure.load ≠ x.loads := by
  have halone := h.alone
  rw [(Outbox.take_some htake).2.1.countP_eq x.ours, List.countP_cons, if_pos (by simpa [ours] using hours)] at halone
  cases hloading : x.model.loading with
  | false => simp [hloading] at halone
  | true =>
    rw [hloading, if_pos rfl] at halone
    have hnone := List.countP_eq_zero.mp (Nat.le_zero.mp (Nat.le_of_succ_le_succ halone))
    exact ⟨rfl, fun q hq hload => hnone q hq (by simpa [ours] using hload)⟩

/-- The page that comes next in the query of the current load. -/
theorem Kept.next (h : x.Kept) (htake : x.outbox.take id = some (p, outbox)) (hours : p.closure.load = x.loads) :
    ∃ q answers, x.content = .query q answers ∧ p.closure.request = x.model.request answers.length := by
  cases hcontent : x.content with
  | given items =>
    exact absurd ((h.given items hcontent).2.symm.trans (h.only htake hours).1) Bool.false_ne_true
  | query q answers => exact ⟨q, answers, rfl, (h.stands q answers hcontent).coming p (Outbox.take_mem htake) hours⟩

/-- Nothing came of the request, and a `loadMore` is to be made again. -/
theorem Kept.refused (h : x.Kept) (htake : x.outbox.take id = some (p, outbox)) (hours : p.closure.load = x.loads)
    (loading : Bool) {failed : Option PageRequest}
    (hfailed : failed = x.failed ∨ p.closure.request.page ≠ 0 ∧ failed = some p.closure.request) :
    ({x with outbox, model := {x.model with loading}, failed} : Pages).Kept := by
  have htaken := h.taken htake
  obtain ⟨hwaiting, hnone⟩ := h.only htake hours
  obtain ⟨q, answers, hcontent, hrequest⟩ := h.next htake hours
  refine ⟨h.generation, h.limit, htaken.made, ?_, h.rows, fun items hc => ?_, fun q answers hc => ?_, fun r hr => ?_,
    fun _ => hnone⟩
  · refine Nat.le_trans (Nat.le_of_eq (List.countP_eq_zero.mpr fun q hq => ?_)) (Nat.zero_le _)
    simpa [ours] using hnone q hq
  · exact absurd (hcontent.symm.trans hc) (by simp)
  · exact {htaken.stands q answers hc with}
  · rcases hfailed with rfl | ⟨hpage, rfl⟩
    · exact h.failed r hr
    · cases hr
      have hsome : answers ≠ [] := fun hnil => hpage (by rw [hrequest, hnil]; rfl)
      rw [hrequest, ← (h.stands q answers hcontent).page hsome]
      rfl

/-- The next page is there. -/
theorem Kept.landed (h : x.Kept) (htake : x.outbox.take id = some (p, outbox)) (hours : p.closure.load = x.loads)
    (hepoch : p.closure.epoch = x.epoch) (hok : res.ok = true) (hasMore : Bool) :
    ({x with
      outbox
      model := {x.model with
        loading := false
        items := x.model.items ++ (results res).map fun v => LibraryItemsModel.normalise v.toObject
        page := p.closure.request.page
        hasMore}
      content := Content.answered x p.closure res} : Pages).Kept := by
  have htaken := h.taken htake
  obtain ⟨-, hnone⟩ := h.only htake hours
  obtain ⟨q, answers, hcontent, hrequest⟩ := h.next htake hours
  have hstands := h.stands q answers hcontent
  have hpage : p.closure.request.page = answers.length := congrArg PageRequest.page hrequest
  have hasked : q.Asks p.closure.request := by
    rw [hrequest]
    refine ⟨hstands.library, ?_⟩
    show x.model.baseQuery ++ [("limit", toString x.model.limit), _] = _
    rw [hstands.query, h.limit]
    rfl
  have hanswered : Content.answered x p.closure res =
      .query q (answers ++ [⟨p.closure.request, results res⟩]) := by
    unfold Content.answered
    rw [hcontent]
    exact congrArg (Content.query q) (if_pos ⟨hours, hepoch, hok⟩)
  have hquiet : x.failed = none := by
    by_contra hsome
    exact h.quiet hsome p (Outbox.take_mem htake) hours
  rw [hanswered]
  refine ⟨h.generation, h.limit, htaken.made, ?_, ?_, (fun _ hc => nomatch hc), ?_, ?_, fun _ => hnone⟩
  · refine Nat.le_of_eq (List.countP_eq_zero.mpr fun q hq => ?_)
    simpa [ours] using hnone q hq
  · have hrows := h.rows
    rw [hcontent] at hrows
    simp [Content.rows, hrows]
  · rintro _ _ ⟨⟩
    refine ⟨hstands.library, hstands.query, fun _ => by simp [hpage], fun hnil => by simp at hnil, ?_, ?_, ?_⟩
    · simp [hstands.pages, hpage, List.range_succ]
    · exact List.forall_mem_append.mpr ⟨hstands.asked, List.forall_mem_singleton.mpr hasked⟩
    · exact fun q hq hload => absurd hload (hnone q hq)
  · rintro r hr
    rw [Option.mem_def, hquiet] at hr
    cases hr

theorem Kept.answer (h : x.Kept) (id : Nat) (res : ApiResponse) : (x.answer id res).Kept := by
  unfold Pages.answer
  split
  · exact h
  · next p outbox htake =>
    have hmade := (h.made p (Outbox.take_mem htake)).1
    have hcontent (hnot : ¬x.Lands p.closure res) : Content.answered x p.closure res = x.content := by
      unfold Content.answered
      split
      · next hc => exact hc.symm
      · next hc => rw [if_neg hnot, hc]
    rcases x.model.onPage_cases p.closure.request.page p.closure.request.generation (x.delivered p.closure res) with
      ⟨hlate, he⟩ | ⟨⟨hstale, hgeneration⟩, ⟨hok, he⟩ | ⟨hok, hasMore, he⟩⟩
    · rw [he]
      by_cases hours : p.closure.load = x.loads
      · have hepoch : p.closure.epoch ≠ x.epoch := by
          rcases hlate with hstale | hother
          · simpa [delivered] using hstale
          · exact absurd (hmade.trans (hours.trans h.generation.symm)) hother
        rw [hcontent fun hlands => hepoch hlands.2.1]
        split
        · next hfailed => exact h.refused htake hours x.model.loading (.inr ⟨hfailed.2.2, rfl⟩)
        · exact h.refused htake hours x.model.loading (.inl rfl)
      · rw [hcontent fun hlands => hours hlands.1, if_neg fun hfailed => hours hfailed.1]
        exact h.taken htake
    · have hours : p.closure.load = x.loads := hmade.symm.trans (hgeneration.trans h.generation)
      have hok : res.ok = false := hok
      rw [he, hcontent fun hlands => absurd (hok.symm.trans hlands.2.2) Bool.false_ne_true]
      split
      · next hfailed => exact h.refused htake hours false (.inr ⟨hfailed.2.2, rfl⟩)
      · exact h.refused htake hours false (.inl rfl)
    · have hours : p.closure.load = x.loads := hmade.symm.trans (hgeneration.trans h.generation)
      have hepoch : p.closure.epoch = x.epoch := by simpa [delivered] using hstale
      have hok : res.ok = true := hok
      rw [he, if_neg fun hfailed => absurd (hfailed.2.1.symm.trans hok) Bool.false_ne_true]
      exact h.landed htake hours hepoch hok hasMore

/-- What every aborted reply keeps, all of them keep. -/
theorem abort_keeps {I : Pages → Prop} (hanswer : ∀ y id, I y → I (y.answer id canceled)) (hx : I x)
    (ids : List Nat) : I (x.abort ids) := by
  induction ids generalizing x with
  | nil => exact hx
  | cons id rest ih => exact ih (hanswer x id hx)

theorem Kept.abort (h : x.Kept) (ids : List Nat) : (x.abort ids).Kept :=
  abort_keeps (fun _ id hy => hy.answer id canceled) h ids

theorem Kept.setBaseUrl (h : x.Kept) (base : QUrl) (waiting : List Nat) : (x.step (.setBaseUrl base waiting)).Kept := by
  unfold step
  dsimp only
  split
  · exact h
  · have hmoved : (x.moveBase base).Kept := {h with stands := fun q answers hc => {h.stands q answers hc with }}
    exact hmoved.abort _

theorem keeps : Machine.Keeps machine (fun _ _ => True) Kept where
  step x e h _ := by
    cases e with
    | loadLibrary q => exact h.loadLibrary q
    | loadMore => exact h.loadMore
    | setItems items => exact h.setItems items
    | setBaseUrl base waiting => exact h.setBaseUrl base waiting
    | reply id res => exact h.answer id res

/-! ### Every run -/

/-- The rows are those of the content, whose answers are the pages of the query in order,
up to the last one; and what failed is what is asked for next. -/
structure Exact (x : Pages) : Prop where
  rows : x.model.items = x.content.rows
  pages : ∀ q answers, x.content = .query q answers →
    (∀ a ∈ answers, q.Asks a.request) ∧ answers.map (·.request.page) = List.range answers.length ∧
      (answers ≠ [] → x.model.page + 1 = answers.length)
  again : ∀ r ∈ x.failed, ∀ r', x.model.loadMore.2 = some r' → r' = r

/-- A reply adds rows only if it is one of the current load, from the current server. A change
of server adds none. -/
def Adds (x : Pages) : Event → Prop
  | .reply id res => (x.step (.reply id res)).model.items = x.model.items ∨
    ∃ p outbox, x.outbox.take id = some (p, outbox) ∧ x.Lands p.closure res ∧
      (x.step (.reply id res)).model.items =
        x.model.items ++ (results res).map fun v => LibraryItemsModel.normalise v.toObject
  | .setBaseUrl base waiting => (x.step (.setBaseUrl base waiting)).model.items = x.model.items
  | _ => True

theorem Kept.exact (h : x.Kept) : x.Exact where
  rows := h.rows
  pages := fun q answers hc => ⟨(h.stands q answers hc).asked, (h.stands q answers hc).pages,
    (h.stands q answers hc).page⟩
  again := by
    intro r hr r' hnext
    rcases x.model.loadMore_sends with he | ⟨-, he⟩
    · rw [he] at hnext
      cases hnext
    · rw [he] at hnext
      cases hnext
      exact (h.failed r hr).symm

/-- A reply that is no success adds nothing. -/
theorem answer_items (x : Pages) (id : Nat) (hok : res.ok = false) : (x.answer id res).model.items = x.model.items := by
  unfold answer
  split
  · rfl
  · next p outbox _ =>
    dsimp only
    rcases x.model.onPage_cases p.closure.request.page p.closure.request.generation (x.delivered p.closure res) with
      ⟨-, he⟩ | ⟨-, ⟨-, he⟩ | ⟨hfine, -⟩⟩
    · rw [he]
    · rw [he]
    · exact absurd (hok.symm.trans hfine) Bool.false_ne_true

theorem abort_items (x : Pages) (ids : List Nat) : (x.abort ids).model.items = x.model.items :=
  abort_keeps (I := fun y => y.model.items = x.model.items) (fun y id hy => (y.answer_items id rfl).trans hy) rfl ids

theorem Kept.adds (h : x.Kept) (e : Event) : x.Adds e := by
  cases e with
  | setBaseUrl base waiting =>
    unfold Adds step
    dsimp only
    split
    · rfl
    · exact abort_items (x.moveBase base) _
  | reply id res =>
    unfold Adds step
    dsimp only
    unfold Pages.answer
    cases htake : x.outbox.take id with
    | none => exact .inl rfl
    | some taken =>
      obtain ⟨p, outbox⟩ := taken
      have hmade := (h.made p (Outbox.take_mem htake)).1
      dsimp only
      rcases x.model.onPage_cases p.closure.request.page p.closure.request.generation (x.delivered p.closure res) with
        ⟨-, he⟩ | ⟨⟨hstale, hgeneration⟩, ⟨-, he⟩ | ⟨hok, hasMore, he⟩⟩
      · exact .inl (congrArg LibraryItemsModel.items he)
      · exact .inl ((congrArg LibraryItemsModel.items he).trans rfl)
      · have hload : p.closure.load = x.loads := hmade.symm.trans (hgeneration.trans h.generation)
        exact .inr ⟨p, outbox, rfl, ⟨hload, by simpa [delivered] using hstale, hok⟩,
          congrArg LibraryItemsModel.items he⟩
  | _ => trivial

/-- **The pages are exact.** In every run of loads, calls of `loadMore` and `setItems`,
replies and changes of the server: the rows are what was set last, or the pages of the
query asked last, each once and in order; only the replies to that query add to them; and
a page that failed is asked for again. -/
theorem pages_exact (server : Endpoints) (es : List Event) :
    (machine.run ({server} : Pages) es).Exact ∧ machine.Along (fun x e => x.Adds e) ({server} : Pages) es := by
  have hstart := kept_start server
  exact ⟨(keeps.always hstart es).exact, keeps.always_along (fun _ e h => h.adds e) hstart es⟩

/-- A page fails, and comes when it is asked for again. -/
example :
    let page : List Json → ApiResponse := fun results =>
      ⟨200, true, false, .object [("total", .number 2), ("results", .array results)], "", none⟩
    let x := machine.run ({server := default} : Pages)
      [.loadLibrary ⟨"audiobooks", "", false, ""⟩, .reply 0 (page [.null]), .loadMore,
        .reply 1 ⟨0, false, false, .null, "timeout", none⟩, .loadMore, .reply 2 (page [.null])]
    x.model.items.length = 2 ∧ x.model.page = 1 ∧ x.model.hasMore = false := by decide +kernel

end Pages

end ShelfRemote.Model
