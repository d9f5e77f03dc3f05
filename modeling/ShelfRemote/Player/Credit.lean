import ShelfRemote.Model.ProgressStore
import ShelfRemote.Player.Steady

/-! Whose progress is recorded.

The item is set when a book is asked for, the rest of a session when the answer
comes, and progress is recorded when a session ends, which may be because the next
book was asked for. `progress_credited` says that the parts always belong together:
an open session is the answer to the newest request, and what is recorded at its end
is recorded for the item it was opened for. -/
namespace ShelfRemote.Player
open Qt Net Runs Model

/-- A session has ended. -/
def Signal.ended : Signal → Bool
  | .activeChanged active .. => !active
  | _ => false

/-- main's handler of `activeChanged`. -/
def onActiveChanged (clock : Rat) (progress : ProgressStore) : Signal → ProgressStore
  | .activeChanged active itemId episodeId position duration completed =>
    if active ∨ episodeId ≠ "" then progress
    else (progress.update clock itemId position duration completed).getD progress
  | _ => progress

theorem onActiveChanged_other (clock : Rat) (progress : ProgressStore) {signal : Signal}
    (h : signal.ended = false) : onActiveChanged clock progress signal = progress := by
  cases signal with
  | activeChanged active =>
    have hactive : active = true := by simpa [Signal.ended] using h
    exact if_pos (.inl hactive)
  | _ => rfl

/-- Only the end of a session is recorded. -/
theorem foldl_ended (clock : Rat) (signals : List Signal) : ∀ progress : ProgressStore,
    signals.foldl (onActiveChanged clock) progress =
      (signals.filter Signal.ended).foldl (onActiveChanged clock) progress := by
  induction signals with
  | nil => exact fun _ => rfl
  | cons signal rest ih =>
    intro progress
    cases h : signal.ended
    · rw [List.foldl_cons, onActiveChanged_other clock progress h, ih, List.filter_cons_of_neg (by simp [h])]
    · rw [List.foldl_cons, ih, List.filter_cons_of_pos h, List.foldl_cons]

/-! ### The end of a session -/

namespace Course
variable {c c' c₀ : Course} {e : PlaybackSession.Event}

/-- What is announced at the end of a session. -/
def ending (c : Course) (completed : Bool) : Signal :=
  .activeChanged false c.itemId c.episodeId c.position c.duration completed

/-- Either the session is as it was, or it has ended as what it was. -/
def Ends (e : PlaybackSession.Event) (c₀ c : Course) : Prop :=
  (c.active = c₀.active ∧ c.signals.filter Signal.ended = [] ∧
      (c.active = true → c.completed = c₀.completed ∧ (e.seeks = false → c.position = c₀.position))) ∨
    c.active = false ∧ c₀.active = true ∧
      c.signals.filter Signal.ended = [c₀.ending (c₀.completed || e.ends)]

/-- A session ends once, and with what it had. -/
theorem Ends.close (h : Ends e c₀ c) (hframe : Frame c₀ c) (hactive : c.active = true)
    (hseeks : e.seeks = false) : Ends e c₀ (c.close (c.completed || e.ends)) := by
  obtain ⟨hsame, hnone, hkept⟩ | ⟨hidle, -⟩ := h
  · obtain ⟨-, -, hitem, hepisode⟩ := hframe.stays hactive
    obtain ⟨hcompleted, hposition⟩ := hkept hactive
    refine .inr ⟨rfl, hsame.symm.trans hactive, ?_⟩
    show (c.signals ++ [c.ending (c.completed || e.ends)]).filter Signal.ended = _
    rw [List.filter_append, hnone]
    simp [ending, Signal.ended, hitem, hepisode, hcompleted, hposition hseeks, hframe.duration]
  · exact nomatch hidle.symm.trans hactive

theorem Ends.seek (h : Ends e c₀ c) (hseeks : e.seeks = true) (hactive : c.active = true) (q : Rat) :
    Ends e c₀ (c.seek q) := by
  obtain ⟨hsame, hnone, hkept⟩ | ⟨hidle, -⟩ := h
  · refine .inl ⟨hsame, ?_, fun _ => ⟨(hkept hactive).1, fun hno => nomatch hno.symm.trans hseeks⟩⟩
    show (c.signals ++ [Signal.seeked q]).filter Signal.ended = []
    rw [List.filter_append, hnone]
    rfl
  · exact nomatch hidle.symm.trans hactive

theorem Ends.loads (h : Ends e c₀ c) (hload : c.Loads c') : Ends e c₀ c' := by
  cases hload with
  | load => exact h

theorem Move.ends (hmove : Move e c c') (hframe : Frame c₀ c) (h : Ends e c₀ c) : Ends e c₀ c' := by
  cases hmove with
  | heard q hseeks hactive =>
    obtain ⟨hsame, hnone, hkept⟩ | ⟨hidle, -⟩ := h
    · exact .inl ⟨hsame, hnone, fun _ => ⟨(hkept hactive).1, fun hno => nomatch hno.symm.trans hseeks⟩⟩
    · exact nomatch hidle.symm.trans hactive
  | close _ hcloses hactive | abandon hcloses hactive =>
    exact h.close hframe hactive (PlaybackSession.Event.closes_seeks hcloses)
  | seek q hseeks hactive => exact h.seek hseeks hactive q
  | jump q hseeks hactive hload =>
    have hloaded := h.loads hload
    cases hload with
    | load => exact hloaded.seek hseeks hactive q
  | reload _ _ hload => exact h.loads hload
  | _ => exact h

theorem Moves.ends (hmoves : Moves e c c') (hsilent : c.signals = []) : Ends e c c' := by
  have hstart : Ends e c c := .inl ⟨rfl, by rw [hsilent]; rfl, fun _ => ⟨rfl, fun _ => rfl⟩⟩
  exact hmoves.preserves (fun hframe hmove => hmove.ends hframe) hstart

/-- Whatever the event, a session that has ended is announced with what it had. -/
theorem Step.ends (hstep : Step c e c') (hkept : c.Kept) (hsilent : c.signals = []) :
    c'.signals.filter Signal.ended = [] ∨
      c.active = true ∧ c'.active = false ∧ c'.signals.filter Signal.ended = [c.ending e.ends] := by
  have hnone : c.signals.filter Signal.ended = [] := by rw [hsilent]; rfl
  cases hstep with
  | moves hmoves =>
    obtain ⟨-, hends, -⟩ | ⟨hidle, hactive, hends⟩ := hmoves.ends hsilent
    · exact .inl hends
    · rw [hkept.going hactive, Bool.false_or] at hends
      exact .inr ⟨hactive, hidle, hends⟩
  | tick | accessToken | baseUrl | dropped | unusable => exact .inl hnone
  | opened _ _ _ _ _ hload =>
    cases hload with
    | load => exact .inl (by simp [load, opens, read, hsilent, Signal.ended])

end Course

namespace PlaybackSession

theorem ended_course (s : PlaybackSession) :
    s.course.signals.filter Signal.ended = s.signals.filter Signal.ended := by
  show (s.signals.filter Signal.marks).filter Signal.ended = _
  rw [List.filter_filter]
  congr 1
  funext signal
  cases signal <;> simp [Signal.ended, Signal.marks]

end PlaybackSession

/-! ### Whose session it is -/

/-- A call of `playItem` or `playEpisode`, and the request it posted. -/
structure Request where
  itemId : String
  episodeId : String
  post : Option Post

/-- A session and what is recorded of it. -/
structure Credit where
  session : PlaybackSession
  progress : ProgressStore := {}
  /-- History: the play requests, newest first. -/
  requests : List Request := []
  /-- History: the post whose answer opened the newest session, and that answer. -/
  opening : Option (Post × Json) := none

namespace Credit
open PlaybackSession

/-- The request a reply answers, and its response. -/
def answered (s : PlaybackSession) : Event → Option (Post × Json)
  | .reply id res => (pick (fun p => p.id == id) s.inFlight).map fun picked => (picked.1, res.body.toObject)
  | _ => none

/-- The session handles an event at the time the clock on the wall shows, and main hears
of it. -/
def step (x : Credit) (e : Event × Rat) : Credit :=
  let session := PlaybackSession.machine.step x.session e.1
  { session
    progress := session.signals.foldl (onActiveChanged e.2) x.progress
    requests := match e.1.asks x.session.server with
      | some (itemId, episodeId, _) => ⟨itemId, episodeId, session.wire.head?⟩ :: x.requests
      | none => x.requests
    opening := if session.opens then answered x.session e.1 else x.opening }

def machine : Machine Credit (Event × Rat) := ⟨step⟩

/-- The session open is the answer to the newest request, and of its item. -/
def Answers (x : Credit) : Prop :=
  x.session.active = true → ∃ r p response, x.requests.head? = some r ∧ x.opening = some (p, response) ∧
    r.post = some p ∧ x.session.itemId = r.itemId ∧ x.session.episodeId = r.episodeId ∧
    x.session.sessionId = (x.session.readPlayResponse response).sessionId ∧
    x.session.tracks = (x.session.readPlayResponse response).tracks ∧
    x.session.chapters = (x.session.readPlayResponse response).chapters

/-- Nothing is announced to have ended and nothing recorded, or the session that was open
has ended and its item, unless it was an episode, is recorded with what the session had. -/
def Credits (x : Credit) (e : Event × Rat) : Prop :=
  let s := x.session
  let y := x.step e
  (y.session.signals.filter Signal.ended = [] ∧ y.progress = x.progress) ∨
    s.active = true ∧ y.session.active = false ∧
      y.session.signals.filter Signal.ended =
        [.activeChanged false s.itemId s.episodeId s.globalPosition s.duration e.1.ends] ∧
      y.progress =
        if s.episodeId = "" then
          (x.progress.update e.2 s.itemId s.globalPosition s.duration e.1.ends).getD x.progress
        else x.progress

theorem credits (x : Credit) (e : Event × Rat) (h : x.session.Steady) : Credits x e := by
  have hends := (h.step e.1).ends {h.kept with} rfl
  unfold Credits step
  dsimp only
  rw [foldl_ended, ← ended_course]
  generalize PlaybackSession.machine.step x.session e.1 = s at *
  obtain hnone | ⟨hactive, hidle, hended⟩ := hends
  · rw [hnone]
    exact .inl ⟨rfl, rfl⟩
  · rw [hended]
    refine .inr ⟨hactive, hidle, rfl, ?_⟩
    show (if false = true ∨ x.session.episodeId ≠ "" then x.progress else _) = _
    by_cases hbook : x.session.episodeId = ""
    · rw [if_pos hbook, if_neg (by simp [hbook])]
      rfl
    · rw [if_neg hbook, if_pos (.inr hbook)]

end Credit

/-! ### Requests and answers -/

namespace Course
variable {c c' : Course} {e : PlaybackSession.Event} {requests : List Request} {opening : Option (Post × Json)}

/-- The item is that of the newest request, which is the one an answer can still open a
session for; and the session open was opened by it. -/
structure Credited (requests : List Request) (opening : Option (Post × Json)) (c : Course) : Prop where
  item : ∀ r ∈ requests.head?, c.itemId = r.itemId ∧ c.episodeId = r.episodeId
  flying : ∀ p ∈ c.inFlight, p.closure = .play c.asked → ∃ r ∈ requests.head?, r.post = some p
  opened : c.active = true → ∃ r p response, requests.head? = some r ∧ opening = some (p, response) ∧
    r.post = some p ∧ c.sessionId = (c.read response).sessionId ∧ c.tracks = (c.read response).tracks ∧
    c.chapters = (c.read response).chapters

theorem Credited.loads (h : c.Credited requests opening) (hload : c.Loads c') :
    c'.Credited requests opening := by
  cases hload with
  | load => exact {h with}

/-- A report goes out, which is no play request. -/
theorem Credited.post (h : c.Credited requests opening) {p : Post} (hp : ∀ gen, p.closure ≠ .play gen) :
    (c.post p).Credited requests opening where
  item := h.item
  flying := List.forall_mem_cons.mpr ⟨fun hplay => absurd hplay (hp _), h.flying⟩
  opened := h.opened

theorem Credited.close (h : c.Credited requests opening) (completed : Bool) :
    (c.close completed).Credited requests opening where
  item := h.item
  flying := h.flying
  opened := fun hopen => nomatch hopen

theorem Move.credited (hmove : Move e c c') (hasks : e.asks c.server = none)
    (h : c.Credited requests opening) : c'.Credited requests opening := by
  cases hmove with
  | sync p _ _ _ hp =>
    have hlapsed : ({c with seekSyncTimer := none} : Course).Credited requests opening := {h with}
    exact hlapsed.post hp.closure
  | close p _ _ _ hp => exact (h.close _).post hp.closure
  | abandon => exact h.close _
  | request p hsome => exact nomatch hasks.symm.trans hsome
  | jump q _ _ hload =>
    have hloaded := h.loads hload
    exact {hloaded with}
  | reload _ _ hload => exact h.loads hload
  | _ => exact {h with}

theorem Moves.credited (hmoves : Moves e c c') (hasks : e.asks c.server = none)
    (h : c.Credited requests opening) : c'.Credited requests opening :=
  hmoves.preserves (fun hframe hmove => hmove.credited (hframe.server.symm ▸ hasks)) h

theorem Step.credited (hstep : Step c e c') (hasks : e.asks c.server = none) (hsilent : c.signals = [])
    (h : c.Credited requests opening) :
    c'.signals.any Signal.opens = false ∧ c'.Credited requests opening ∨
      c'.signals.any Signal.opens = true ∧ ∃ id res p rest, e = .reply id res ∧
        pick (fun p => p.id == id) c.inFlight = some (p, rest) ∧
        c'.Credited requests (some (p, res.body.toObject)) := by
  have hnone : c.signals.any Signal.opens = false := by rw [hsilent]; rfl
  cases hstep with
  | moves hmoves => exact .inl ⟨hmoves.opens hnone, hmoves.credited hasks h⟩
  | tick | accessToken | baseUrl => exact .inl ⟨hnone, {h with}⟩
  | dropped rest hsub => exact .inl ⟨hnone, {h with flying := fun p hp => h.flying p (hsub.mem hp)}⟩
  | unusable hpick hp hidle =>
    refine .inl ⟨hnone, h.item, fun p hp => h.flying p (pick_rest hpick hp), fun hopen => ?_⟩
    exact nomatch hidle.symm.trans hopen
  | @opened id res p rest c' resume hpick hp hidle hid hload =>
    obtain ⟨r, hr, hpost⟩ := h.flying p (pick_mem hpick) hp
    cases hload with
    | load idx n =>
      refine .inr ⟨by simp [load, opens, Signal.opens], id, res, p, rest, rfl, hpick, h.item, ?_, ?_⟩
      · exact fun q hq => h.flying q (pick_rest hpick hq)
      · exact fun _ => ⟨r, p, res.body.toObject, hr, rfl, hpost, rfl, rfl, rfl⟩

/-- A play request opens no session by itself. -/
theorem Step.silent (hstep : Step c e c') (hsilent : c.signals = []) {asked : String × String × Target}
    (hasks : e.asks c.server = some asked) : c'.signals.any Signal.opens = false := by
  have hnone : c.signals.any Signal.opens = false := by rw [hsilent]; rfl
  cases hstep with
  | moves hmoves => exact hmoves.opens hnone
  | tick | accessToken | baseUrl | dropped | unusable => exact hnone
  | opened => cases hasks

end Course

namespace PlaybackSession

/-- A play request is the last thing a call of `playItem` or `playEpisode` does. -/
theorem handle_request (s : PlaybackSession) {e : Event} {itemId episodeId : String} {target : Target}
    (hasks : e.asks s.server = some (itemId, episodeId, target)) :
    ∃ (c : Course) (p : Post), (s.handle e).course = c.request itemId episodeId p ∧ c.active = false ∧
      p.closure = .play (c.asked + 1) := by
  cases e with
  | playItem | playEpisode =>
    cases hasks
    exact ⟨s.leaveItem.course, _, rfl, leaveItem_idle s, rfl⟩
  | _ => cases hasks

end PlaybackSession

namespace Credit
open PlaybackSession

/-- What is kept along a run. -/
structure Kept (x : Credit) : Prop where
  steady : x.session.Steady
  credited : x.session.course.Credited x.requests x.opening

theorem Kept.answers {x : Credit} (h : Kept x) : Answers x := by
  intro hactive
  obtain ⟨r, p, response, hr, hopening, hpost, hid, htracks, hchapters⟩ := h.credited.opened hactive
  obtain ⟨hitem, hepisode⟩ := h.credited.item r hr
  exact ⟨r, p, response, hr, hopening, hpost, hitem, hepisode, hid, htracks, hchapters⟩

theorem keeps : Machine.Keeps machine (fun _ _ => True) Kept where
  step x e hx _ := by
    have hstep := hx.steady.step e.1
    have hsteady := hx.steady.next e.1
    have hbefore : Course.Credited x.requests x.opening {x.session.course with signals := []} :=
      {hx.credited with}
    cases hasks : e.1.asks x.session.server with
    | none =>
      have hcredited := hstep.credited hasks rfl hbefore
      rw [opens_course] at hcredited
      show Kept (x.step e)
      unfold step
      rw [hasks]
      dsimp only
      obtain ⟨hsilent, hcredited⟩ | ⟨hopens, id, res, p, rest, he, hpick, hcredited⟩ := hcredited
      · rw [if_neg (by simp [hsilent])]
        exact ⟨hsteady, hcredited⟩
      · have hanswered : answered x.session e.1 = some (p, res.body.toObject) := by
          rw [he]
          exact congrArg (Option.map _) hpick
        rw [if_pos hopens, hanswered]
        exact ⟨hsteady, hcredited⟩
    | some asked =>
      obtain ⟨itemId, episodeId, target⟩ := asked
      obtain ⟨c, p, hcourse, hidle, hclosure⟩ := handle_request x.session.fresh hasks
      have hsilent := hstep.silent rfl hasks
      have honce := hsteady.asked.once
      rw [opens_course] at hsilent
      show Kept (x.step e)
      unfold step
      rw [hasks]
      dsimp only
      change (PlaybackSession.machine.step x.session e.1).course = _ at hcourse
      generalize PlaybackSession.machine.step x.session e.1 = s at *
      rw [if_neg (by simp [hsilent])]
      have hwire : s.wire.head? = some p := congrArg (fun c : Course => c.wire.head?) hcourse
      have hflight : s.books.inFlight = p :: c.inFlight := congrArg Course.inFlight hcourse
      rw [hflight] at honce
      refine ⟨hsteady, ?_⟩
      dsimp only
      rw [hcourse, hwire]
      refine ⟨?_, List.forall_mem_cons.mpr ⟨fun _ => ⟨_, rfl, rfl⟩, fun q hq hplay => ?_⟩, fun hopen => ?_⟩
      · rintro r ⟨⟩
        exact ⟨rfl, rfl⟩
      · exact absurd hplay ((List.pairwise_cons.mp honce).1 q hq _ hclosure)
      · exact nomatch hidle.symm.trans hopen

theorem kept_start (env : Env) (server : Endpoints) : Kept {session := {env, server}} where
  steady := steady_start env server
  credited := ⟨(fun _ hr => nomatch hr), (fun _ hp => nomatch hp), fun hactive => nomatch hactive⟩

/-- **Progress is credited to the right book.** In every run, a session that is open is
the answer to the newest play request and has its item; and every session is announced
to have ended once, with its own item, episode, position and duration, as completed
exactly if it ended on its own, and it is recorded for that item unless it was of an
episode. Nothing else is recorded. -/
theorem progress_credited (env : Env) (server : Endpoints) (es : List (Event × Rat)) :
    machine.Along Credits {session := {env, server}} es ∧
      Answers (machine.run {session := {env, server}} es) := by
  have hstart := kept_start env server
  exact ⟨keeps.always_along (fun x e hx => credits x e hx.steady) hstart es, (keeps.always hstart es).answers⟩

end Credit

end ShelfRemote.Player
