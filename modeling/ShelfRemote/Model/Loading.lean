import ShelfRemote.Model.Pages

/-! The loading flag, and the request it stands for.

The flag is to be up exactly while a page request of the current generation is unanswered.
A load without a library supersedes the request and leaves the flag. A reply of the
current generation that comes back stale takes the request and leaves the flag, be it
aborted by a change of server or held back by a refresh meanwhile. `loading_follows` says
that nothing else does. -/
namespace ShelfRemote.Model
open Qt Net Runs

namespace Pages
variable {x : Pages} {p : Sent Asked} {outbox : Outbox Asked} {id : Nat} {res : ApiResponse}

/-- The request is of the current generation. -/
def Current (x : Pages) (p : Sent Asked) : Prop := p.closure.request.generation = x.model.generation

instance (x : Pages) (p : Sent Asked) : Decidable (x.Current p) := inferInstanceAs (Decidable (_ = _))

/-- Loading is reported exactly while a page request of the current generation is unanswered. -/
def InStep (x : Pages) : Prop := x.model.loading = true ↔ ∃ p ∈ x.outbox.inFlight, x.Current p

instance (x : Pages) : Decidable x.InStep := inferInstanceAs (Decidable (_ ↔ _))

/-- The flag is left up: a load without a library, or another server, while the model loads,
unless what it loads waits for a refresh; or a reply to that which is stale when it comes. -/
def Strands (x : Pages) : Event → Prop
  | .loadLibrary q => q.libraryId = "" ∧ x.model.loading = true
  | .setBaseUrl base waiting => x.server.base ≠ base ∧ x.model.loading = true ∧
      ∀ p ∈ x.outbox.inFlight, x.Current p → p.id ∉ waiting
  | .reply id _ => ∃ taken ∈ x.outbox.take id, x.Current taken.1 ∧ taken.1.closure.epoch ≠ x.epoch
  | .loadMore | .setItems _ => False

instance (x : Pages) (e : Event) : Decidable (x.Strands e) := by
  cases e <;> unfold Strands <;> infer_instance

/-! ### What a change of server aborts -/

/-- Numbers are used once, and no request is of an epoch to come. -/
structure Timely (x : Pages) : Prop where
  sound : x.outbox.Sound
  past : ∀ p ∈ x.outbox.inFlight, p.closure.epoch ≤ x.epoch

theorem timely_start (server : Endpoints) : ({server} : Pages).Timely where
  sound := Outbox.sound_start
  past := fun _ hp => nomatch hp

theorem Timely.send (h : x.Timely) (asked : LibraryItemsModel × Option PageRequest) : (x.send asked).Timely := by
  unfold Pages.send
  split
  · exact {h with}
  · exact ⟨h.sound.send .., List.forall_mem_cons.mpr ⟨Nat.le_refl _, h.past⟩⟩

theorem Timely.answer (h : x.Timely) (id : Nat) (res : ApiResponse) : (x.answer id res).Timely := by
  unfold Pages.answer
  split
  · exact h
  · next p outbox htake => exact ⟨(h.sound.take htake).1, fun q hq => h.past q (Outbox.take_rest htake hq)⟩

theorem Timely.abort (h : x.Timely) (ids : List Nat) : (x.abort ids).Timely :=
  abort_keeps (fun _ id hy => hy.answer id canceled) h ids

theorem Timely.moveBase (h : x.Timely) (base : QUrl) : (x.moveBase base).Timely :=
  ⟨h.sound, fun p hp => Nat.le_succ_of_le (h.past p hp)⟩

theorem Timely.step (h : x.Timely) (e : Event) : (x.step e).Timely := by
  cases e with
  | loadLibrary q =>
    have hloaded : ({x with loads := x.loads + 1, content := .query q [], failed := none} : Pages).Timely := {h with}
    exact hloaded.send _
  | loadMore =>
    have hasked : ({x with failed := if x.model.loadMore.2.isSome then none else x.failed} : Pages).Timely := {h with}
    exact hasked.send _
  | setItems items => exact {h with}
  | setBaseUrl base waiting =>
    unfold Pages.step
    dsimp only
    split
    · exact h
    · exact (h.moveBase base).abort _
  | reply id res => exact h.answer id res

theorem Timely.mem_answer (h : x.Timely) (id : Nat) (res : ApiResponse) (p : Sent Asked) :
    p ∈ (x.answer id res).outbox.inFlight ↔ p ∈ x.outbox.inFlight ∧ p.id ≠ id := by
  unfold Pages.answer
  cases htake : x.outbox.take id with
  | none => exact ⟨fun hp => ⟨hp, Outbox.take_none htake p hp⟩, And.left⟩
  | some taken => exact h.sound.mem_take htake p

theorem Timely.mem_abort (h : x.Timely) (ids : List Nat) (p : Sent Asked) :
    p ∈ (x.abort ids).outbox.inFlight ↔ p ∈ x.outbox.inFlight ∧ p.id ∉ ids := by
  induction ids generalizing x with
  | nil => simp [Pages.abort]
  | cons id rest ih =>
    refine (ih (h.answer id canceled)).trans ?_
    rw [h.mem_answer, List.mem_cons, not_or, and_assoc]

/-- Everything in flight is of an earlier server. -/
def Late (x : Pages) : Prop := ∀ p ∈ x.outbox.inFlight, p.closure.epoch ≠ x.epoch

theorem Timely.late (h : x.Timely) (base : QUrl) : (x.moveBase base).Late :=
  fun p hp => Nat.ne_of_lt (Nat.lt_succ_of_le (h.past p hp))

/-- A reply of an earlier server is dropped. -/
theorem Late.answer (h : x.Late) (id : Nat) (res : ApiResponse) :
    (x.answer id res).Late ∧ (x.answer id res).model = x.model := by
  unfold Pages.answer
  split
  · exact ⟨h, rfl⟩
  · next p outbox htake =>
    refine ⟨fun q hq => h q (Outbox.take_rest htake hq), ?_⟩
    have hstale : (x.delivered p.closure res).stale = true := by
      simpa [delivered] using h p (Outbox.take_mem htake)
    unfold LibraryItemsModel.onPage
    rw [if_pos (by rw [hstale, Bool.true_or])]

theorem Late.abort (h : x.Late) (ids : List Nat) : (x.abort ids).model = x.model := by
  have hkept : (x.abort ids).Late ∧ (x.abort ids).model = x.model := by
    refine abort_keeps (I := fun y => y.Late ∧ y.model = x.model) (fun y id hy => ?_) ⟨h, rfl⟩ ids
    obtain ⟨hlate, hmodel⟩ := hy.1.answer id canceled
    exact ⟨hlate, hmodel.trans hy.2⟩
  exact hkept.2

/-- Another server leaves the model as it is, and out is what waits for a refresh. -/
theorem Timely.setBaseUrl (h : x.Timely) {base : QUrl} (hbase : x.server.base ≠ base) (waiting : List Nat) :
    (x.step (.setBaseUrl base waiting)).model = x.model ∧
      ∀ p, p ∈ (x.step (.setBaseUrl base waiting)).outbox.inFlight ↔ p ∈ x.outbox.inFlight ∧ p.id ∈ waiting := by
  have hstep : x.step (.setBaseUrl base waiting) = (x.moveBase base).abort (x.onWire waiting) := if_neg hbase
  rw [hstep]
  refine ⟨(h.late base).abort _, fun p => ((h.moveBase base).mem_abort _ p).trans ?_⟩
  refine and_congr_right fun hp => ?_
  have hmem : p.id ∈ x.outbox.inFlight.map (·.id) := List.mem_map_of_mem hp
  simp [onWire, hmem]

/-! ### One event -/

theorem Kept.current_iff (h : x.Kept) (hp : p ∈ x.outbox.inFlight) : x.Current p ↔ p.closure.load = x.loads := by
  unfold Current
  rw [(h.made p hp).1, h.generation]

/-- While a request is unanswered the flag is up. -/
theorem Kept.waits (h : x.Kept) (hp : p ∈ x.outbox.inFlight) (hcurrent : x.Current p) : x.model.loading = true := by
  have hload := (h.current_iff hp).mp hcurrent
  have hpos : 0 < x.outbox.inFlight.countP x.ours := List.countP_pos_iff.mpr ⟨p, hp, by simpa [ours] using hload⟩
  have halone := h.alone
  by_contra hidle
  rw [if_neg hidle] at halone
  omega

theorem Kept.inStep_iff (h : x.Kept) :
    x.InStep ↔ (x.model.loading = true → ∃ p ∈ x.outbox.inFlight, x.Current p) :=
  ⟨Iff.mp, fun hwaits => ⟨hwaits, fun ⟨_, hp, hcurrent⟩ => h.waits hp hcurrent⟩⟩

/-- A request that is sent is the one the flag stands for. -/
theorem send_waits (x : Pages) (page : Nat) (m : LibraryItemsModel) :
    ∃ p ∈ (x.send ({m with loading := true}, some (m.request page))).outbox.inFlight,
      (x.send ({m with loading := true}, some (m.request page))).Current p :=
  ⟨_, List.mem_cons_self .., rfl⟩

/-- No request of a load that comes next is on its way. -/
theorem Kept.superseded (h : x.Kept) (hp : p ∈ x.outbox.inFlight) :
    p.closure.request.generation ≠ x.model.generation + 1 := by
  obtain ⟨hmade, hle⟩ := h.made p hp
  have hgeneration := h.generation
  omega

theorem Kept.loadLibrary_inStep (h : x.Kept) (q : Query) :
    (x.step (.loadLibrary q)).InStep ↔ ¬x.Strands (.loadLibrary q) := by
  rw [(h.loadLibrary q).inStep_iff]
  unfold Strands step LibraryItemsModel.loadLibrary LibraryItemsModel.fetchPage
  dsimp only
  split
  · next hempty =>
    have hnone : ¬∃ p ∈ x.outbox.inFlight, p.closure.request.generation = x.model.generation + 1 :=
      fun ⟨_, hp, hcurrent⟩ => h.superseded hp hcurrent
    simp only [hempty, true_and]
    exact ⟨fun hwaits hloading => hnone (hwaits hloading), fun hidle hloading => absurd hloading hidle⟩
  · next hlibrary =>
    simp only [hlibrary, false_and, not_false_eq_true, iff_true]
    exact fun _ => ⟨_, List.mem_cons_self .., rfl⟩

theorem Kept.loadMore_inStep (h : x.Kept) (hstep : x.InStep) : (x.step .loadMore).InStep := by
  rw [h.loadMore.inStep_iff]
  unfold step
  dsimp only
  rcases x.model.loadMore_sends with he | ⟨-, he⟩
  · rw [he]
    exact hstep.mp
  · rw [he]
    exact fun _ => send_waits _ _ _

/-- The reply to the request the flag stands for takes the flag down, or leaves it without one. -/
theorem Kept.reply_inStep (h : x.Kept) (hstep : x.InStep) (id : Nat) (res : ApiResponse) :
    (x.step (.reply id res)).InStep ↔ ¬x.Strands (.reply id res) := by
  have hanswer : x.step (.reply id res) = x.answer id res := rfl
  rw [hanswer, (h.answer id res).inStep_iff]
  unfold Strands Pages.answer
  dsimp only
  cases htake : x.outbox.take id with
  | none => simpa using hstep.mp
  | some taken =>
    obtain ⟨p, outbox⟩ := taken
    have hp := Outbox.take_mem htake
    have hrest : ∀ q ∈ x.outbox.inFlight, q = p ∨ q ∈ outbox.inFlight := fun q hq => by
      simpa using (Outbox.take_some htake).2.1.mem_iff.mp hq
    simp only [Option.mem_def, Option.some.injEq, exists_eq_left']
    rcases x.model.onPage_cases p.closure.request.page p.closure.request.generation (x.delivered p.closure res) with
      ⟨hlate, he⟩ | ⟨⟨hstale, hgeneration⟩, hfresh⟩
    · rw [he]
      by_cases hcurrent : x.Current p
      · have hepoch : p.closure.epoch ≠ x.epoch := by
          rcases hlate with hstale | hother
          · simpa [delivered] using hstale
          · exact absurd hcurrent hother
        obtain ⟨hloading, hnone⟩ := h.only htake ((h.current_iff hp).mp hcurrent)
        refine iff_of_false (fun hwaits => ?_) fun hkept => hkept ⟨hcurrent, hepoch⟩
        obtain ⟨q, hq, hqcurrent⟩ := hwaits hloading
        exact hnone q hq ((h.current_iff (Outbox.take_rest htake hq)).mp hqcurrent)
      · refine iff_of_true (fun hloading => ?_) fun hstrands => hcurrent hstrands.1
        obtain ⟨q, hq, hqcurrent⟩ := hstep.mp hloading
        obtain rfl | hq := hrest q hq
        · exact absurd hqcurrent hcurrent
        · exact ⟨q, hq, hqcurrent⟩
    · have hepoch : p.closure.epoch = x.epoch := by simpa [delivered] using hstale
      have hdown : (x.model.onPage p.closure.request.page p.closure.request.generation
          (x.delivered p.closure res)).loading = false := by
        rcases hfresh with ⟨-, he⟩ | ⟨-, hasMore, he⟩
        · rw [he]
        · rw [he]
      refine iff_of_true (fun hloading => ?_) fun hstrands => hstrands.2 hepoch
      exact absurd (hloading.symm.trans hdown) (by decide)

/-- There is one request the flag stands for, and the change of server aborts it or does not. -/
theorem Kept.setBaseUrl_inStep (h : x.Kept) (htimely : x.Timely) (hstep : x.InStep) (base : QUrl)
    (waiting : List Nat) :
    (x.step (.setBaseUrl base waiting)).InStep ↔ ¬x.Strands (.setBaseUrl base waiting) := by
  by_cases hbase : x.server.base = base
  · have hsame : x.step (.setBaseUrl base waiting) = x := if_pos hbase
    rw [hsame]
    exact iff_of_true hstep fun hstrands => hstrands.1 hbase
  · obtain ⟨hmodel, hleft⟩ := htimely.setBaseUrl hbase waiting
    rw [(h.setBaseUrl base waiting).inStep_iff]
    unfold Strands Current
    rw [hmodel]
    constructor
    · rintro hwaits ⟨-, hloading, hnone⟩
      obtain ⟨p, hp, hcurrent⟩ := hwaits hloading
      obtain ⟨hp, hwaiting⟩ := (hleft p).mp hp
      exact hnone p hp hcurrent hwaiting
    · intro hkept hloading
      by_contra hnone
      refine hkept ⟨hbase, hloading, fun p hp hcurrent hwaiting => hnone ?_⟩
      exact ⟨p, (hleft p).mpr ⟨hp, hwaiting⟩, hcurrent⟩

theorem Kept.step_inStep (h : x.Kept) (htimely : x.Timely) (hstep : x.InStep) (e : Event) :
    (x.step e).InStep ↔ ¬x.Strands e := by
  cases e with
  | loadLibrary q => exact h.loadLibrary_inStep q
  | loadMore => exact iff_of_true (h.loadMore_inStep hstep) id
  | setItems items =>
    refine iff_of_true ?_ id
    rw [(h.setItems items).inStep_iff]
    exact fun hloading => nomatch hloading
  | setBaseUrl base waiting => exact h.setBaseUrl_inStep htimely hstep base waiting
  | reply id res => exact h.reply_inStep hstep id res

/-- A reply of the current server ends the wait. -/
theorem reply_answers (htake : x.outbox.take id = some (p, outbox)) (hcurrent : x.Current p)
    (hepoch : p.closure.epoch = x.epoch) (res : ApiResponse) : (x.step (.reply id res)).model.loading = false := by
  unfold step answer
  dsimp only
  rw [htake]
  dsimp only
  rcases x.model.onPage_cases p.closure.request.page p.closure.request.generation (x.delivered p.closure res) with
    ⟨hstale | hother, -⟩ | ⟨-, ⟨-, he⟩ | ⟨-, hasMore, he⟩⟩
  · exact absurd hepoch (by simpa [delivered] using hstale)
  · exact absurd hcurrent hother
  · rw [he]
  · rw [he]

/-! ### Every run -/

theorem keeps_timely : Machine.Keeps machine (fun _ _ => True) (fun x => x.Kept ∧ x.Timely) where
  step x e h _ := ⟨keeps.step x e h.1 trivial, h.2.step e⟩

/-- **The model reports loading exactly while it waits for a page**, in every run in which,
while it is loading, no load without a library comes and no change of server that aborts what
it waits for, and no reply it waits for is stale. From every state of such a run, one event
leaves flag and request in step if and only if it is none of these; and a reply of the current
server to what it waits for ends the wait. -/
theorem loading_follows (server : Endpoints) (es : List Event)
    (hes : machine.Along (fun x e => ¬x.Strands e) ({server} : Pages) es) :
    let x := machine.run ({server} : Pages) es
    x.InStep ∧ (∀ e, (machine.step x e).InStep ↔ ¬x.Strands e) ∧
      ∀ id, ∀ taken ∈ x.outbox.take id, x.Current taken.1 → taken.1.closure.epoch = x.epoch →
        ∀ res, (machine.step x (.reply id res)).model.loading = false := by
  have hstart : ({server} : Pages).InStep := by simp [InStep]
  obtain ⟨-, hstep, hnext⟩ :=
    keeps_timely.exactly (fun x e hx hstep => hx.1.step_inStep hx.2 hstep e) ⟨kept_start server, timely_start server⟩
      hstart hes
  exact ⟨hstep, hnext, fun _ _ htake => reply_answers htake⟩

/-- The first page is on its way. -/
def fetching : List Event := [.loadLibrary ⟨"audiobooks", "", false, ""⟩]

def elsewhere : QUrl := {scheme := "https", host := "b.example"}

/-- No page of the current load is on its way, and the model says that it loads: after a load
without a library, after another server, and after a reply that a refresh held back until there
was one. -/
theorem loading_stranded :
    let superseded := machine.run ({server := default} : Pages) (fetching ++ [.loadLibrary ⟨"", "", false, ""⟩])
    let dropped := machine.run ({server := default} : Pages) (fetching ++ [.setBaseUrl elsewhere []])
    let late := machine.run ({server := default} : Pages)
      (fetching ++ [.setBaseUrl elsewhere [0], .reply 0 ⟨401, false, false, .null, "", none⟩])
    superseded.model.loading = true ∧ ¬superseded.InStep ∧
      (dropped.model.loading = true ∧ dropped.outbox.inFlight.length = 0 ∧ ¬dropped.InStep) ∧
      late.model.loading = true ∧ late.outbox.inFlight.length = 0 ∧ ¬late.InStep := by
  decide +kernel

theorem loading_follows_fetching :
    let x := machine.run ({server := default} : Pages) fetching
    (x.model.loading = true ∧ x.InStep) ∧ (machine.step x (.loadLibrary ⟨"podcasts", "", false, ""⟩)).InStep ∧
      ¬(machine.step x (.loadLibrary ⟨"", "", false, ""⟩)).InStep ∧
      ¬(machine.step x (.setBaseUrl elsewhere [])).InStep ∧ (machine.step x (.setBaseUrl elsewhere [0])).InStep ∧
      (machine.step x (.reply 0 ⟨500, false, false, .null, "", none⟩)).model.loading = false :=
  have h := loading_follows default fetching (by decide +kernel)
  ⟨⟨rfl, h.1⟩, (h.2.1 _).mpr (by decide +kernel), fun hstep => (h.2.1 _).mp hstep (by decide +kernel),
    fun hstep => (h.2.1 _).mp hstep (by decide +kernel), (h.2.1 _).mpr (by decide +kernel),
    h.2.2 0 _ rfl (by decide +kernel) (by decide +kernel) _⟩

end Pages

end ShelfRemote.Model
