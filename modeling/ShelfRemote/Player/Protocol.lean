import ShelfRemote.Player.Steady

/-! What the server hears of each session.

Each session the program opens is reported to the server: syncs while it is open, one
close when it ends, nothing after that. A seek is not reported at once: it starts the
debounce timer, and whichever sync comes next reports it. `reports_in_order` is about
every run, whatever opens and ends the sessions in it, and about the bursts of seeks
the debounce timer is there for. -/
namespace ShelfRemote.Player
open Qt Net Runs

/-! ### Addresses -/

namespace Post

/-- It reports a position in the session. -/
def Syncs (id : String) (p : Post) : Prop := p.target.path = (p.target.server.sessionSync id).path

/-- It closes the session. -/
def Closes (id : String) (p : Post) : Prop := p.target.path = (p.target.server.sessionClose id).path

instance (id : String) : DecidablePred (Syncs id) := fun p => inferInstanceAs (Decidable (p.target.path = _))

instance (id : String) : DecidablePred (Closes id) := fun p => inferInstanceAs (Decidable (p.target.path = _))

variable {p : Post} {id id' : String}

theorem append_left_cancel {a b c : String} (h : a ++ b = a ++ c) : b = c := by
  have hlists := congrArg String.toList h
  rw [String.toList_append, String.toList_append] at hlists
  exact String.toList_inj.mp (List.append_cancel_left hlists)

theorem append_right_cancel {a b c : String} (h : a ++ c = b ++ c) : a = b := by
  have hlists := congrArg String.toList h
  rw [String.toList_append, String.toList_append] at hlists
  exact String.toList_inj.mp (List.append_cancel_right hlists)

theorem Syncs.inj (h : p.Syncs id) (h' : p.Syncs id') : id = id' :=
  append_left_cancel (append_right_cancel (h.symm.trans h'))

theorem Closes.inj (h : p.Closes id) (h' : p.Closes id') : id = id' :=
  append_left_cancel (append_right_cancel (h.symm.trans h'))

/-- The two endpoints of a session end in different words. -/
theorem Syncs.not_closes (h : p.Syncs id) : ¬p.Closes id' := by
  intro h'
  have hlists := congrArg String.toList (h.symm.trans h')
  have hlast := congrArg List.getLast? hlists
  simp [Endpoints.sessionSync, Endpoints.sessionClose, List.getLast?_cons, List.getLast?_append] at hlast

/-- It is about the session. -/
def Addresses (id : String) (p : Post) : Prop := p.Syncs id ∨ p.Closes id

instance (id : String) : DecidablePred (Addresses id) := fun _ => inferInstanceAs (Decidable (_ ∨ _))

theorem Addresses.inj (h : p.Addresses id) (h' : p.Addresses id') : id = id' := by
  rcases h with h | h <;> rcases h' with h' | h'
  · exact h.inj h'
  · exact absurd h' h.not_closes
  · exact absurd h h'.not_closes
  · exact h.inj h'

/-- A play request is about no session. -/
theorem not_addresses {server : Endpoints} {itemId episodeId : String} {target : Target}
    {e : PlaybackSession.Event} (hasks : e.asks server = some (itemId, episodeId, target))
    (h : p.target = target) : ¬p.Addresses id := by
  cases e with
  | playItem itemId =>
    cases hasks
    rintro (haddr | haddr) <;> have hlists := congrArg String.toList haddr <;>
      simp [h, Endpoints.play, Endpoints.sessionSync, Endpoints.sessionClose] at hlists
  | playEpisode itemId episodeId =>
    cases hasks
    rintro (haddr | haddr) <;> have hlists := congrArg String.toList haddr <;>
      simp [h, Endpoints.playEpisode, Endpoints.sessionSync, Endpoints.sessionClose] at hlists
  | _ => cases hasks

end Post

/-! ### What a step reports -/

/-- What was posted about a session, newest first. -/
def addressed (wire : List Post) (id : String) : List Post := wire.filter fun p => p.Addresses id

/-- Some syncs, and one close after them once the session is not open any more. -/
structure Orderly (isOpen : Prop) (id : String) (posts : List Post) : Prop where
  syncs : isOpen → ∀ p ∈ posts, p.Syncs id
  closed : ¬isOpen → ∃ p rest, posts = p :: rest ∧ p.Closes id ∧ ∀ q ∈ rest, q.Syncs id

theorem addressed_other {p : Post} {id : String} (h : ¬p.Addresses id) (wire : List Post) :
    addressed (p :: wire) id = addressed wire id :=
  List.filter_cons_of_neg (by simpa using h)

theorem addressed_own {p : Post} {id : String} (h : p.Addresses id) (wire : List Post) :
    addressed (p :: wire) id = p :: addressed wire id :=
  List.filter_cons_of_pos (by simpa using h)

namespace Course

/-- Every session opened so far is reported in order, and no other. -/
structure Reported (opened : List String) (c : Course) : Prop where
  known : c.active = true → c.sessionId ∈ opened
  strangers : ∀ p ∈ c.wire, ∀ id, p.Addresses id → id ∈ opened
  posts : ∀ id ∈ opened, Orderly (c.active = true ∧ c.sessionId = id) id (addressed c.wire id)

variable {c c' : Course} {e : PlaybackSession.Event} {opened : List String}

theorem Reports.syncs {p : Post} {id : String} (hp : c.Reports (c.server.sessionSync id) p) : p.Syncs id := by
  unfold Post.Syncs
  rw [hp.target]
  rfl

theorem Reports.closes {p : Post} {id : String} (hp : c.Reports (c.server.sessionClose id) p) : p.Closes id := by
  unfold Post.Closes
  rw [hp.target]
  rfl

theorem Reported.sync (h : c.Reported opened) (hactive : c.active = true) {p : Post}
    (hp : p.Syncs c.sessionId) : (c.post p).Reported opened where
  known := h.known
  strangers := List.forall_mem_cons.mpr
    ⟨fun id hid => Post.Addresses.inj (.inl hp) hid ▸ h.known hactive, h.strangers⟩
  posts := by
    intro id hid
    have hposts := h.posts id hid
    by_cases hsame : c.sessionId = id
    · subst hsame
      have hsyncs := hposts.syncs ⟨hactive, rfl⟩
      refine ⟨fun _ => ?_, fun hclosed => absurd ⟨hactive, rfl⟩ hclosed⟩
      show ∀ q ∈ addressed (p :: c.wire) c.sessionId, q.Syncs c.sessionId
      rw [addressed_own (.inl hp)]
      exact List.forall_mem_cons.mpr ⟨hp, hsyncs⟩
    · have hother : addressed (p :: c.wire) id = addressed c.wire id :=
        addressed_other (fun haddr => hsame (Post.Addresses.inj (.inl hp) haddr)) c.wire
      show Orderly (c.active = true ∧ c.sessionId = id) id (addressed (p :: c.wire) id)
      rw [hother]
      exact hposts

theorem Reported.close (h : c.Reported opened) (hactive : c.active = true) {p : Post}
    (hp : p.Closes c.sessionId) (completed : Bool) : ((c.close completed).post p).Reported opened where
  known := fun hopen => nomatch hopen
  strangers := List.forall_mem_cons.mpr
    ⟨fun id hid => Post.Addresses.inj (.inr hp) hid ▸ h.known hactive, h.strangers⟩
  posts := by
    intro id hid
    refine ⟨(fun hopen => nomatch hopen.1), fun _ => ?_⟩
    show ∃ q rest, addressed (p :: c.wire) id = q :: rest ∧ _
    by_cases hsame : c.sessionId = id
    · subst hsame
      exact ⟨p, _, addressed_own (.inr hp) c.wire, hp, (h.posts _ hid).syncs ⟨hactive, rfl⟩⟩
    · rw [addressed_other fun haddr => hsame (Post.Addresses.inj (.inr hp) haddr)]
      exact (h.posts id hid).closed fun hopen => hsame hopen.2

/-- What is no report addresses no session. -/
theorem Reported.request (h : c.Reported opened) (hidle : c.active = false) {p : Post}
    (hp : ∀ id, ¬p.Addresses id) (itemId episodeId : String) : (c.request itemId episodeId p).Reported opened where
  known := fun hopen => nomatch hidle.symm.trans hopen
  strangers := List.forall_mem_cons.mpr ⟨fun id hid => absurd hid (hp id), h.strangers⟩
  posts := fun id hid => by
    show Orderly (c.active = true ∧ c.sessionId = id) id (addressed (p :: c.wire) id)
    rw [addressed_other (hp id)]
    exact h.posts id hid

theorem Reported.loads (h : c.Reported opened) (hload : c.Loads c') : c'.Reported opened := by
  cases hload with
  | load => exact {h with}

theorem Move.reported (hmove : Move e c c') (hkept : c.Kept) (h : c.Reported opened) : c'.Reported opened := by
  cases hmove with
  | sync p _ hactive _ hp =>
    have hlapsed : ({c with seekSyncTimer := none} : Course).Reported opened := {h with}
    exact hlapsed.sync hactive hp.syncs
  | close p _ hactive _ hp => exact h.close hactive hp.closes _
  | abandon _ hactive hid => exact absurd hid (hkept.named hactive)
  | request p hasks hidle _ htarget => exact h.request hidle (fun _ => Post.not_addresses hasks htarget) _ _
  | jump q _ _ hload =>
    have hloaded := h.loads hload
    exact {hloaded with}
  | reload _ _ hload => exact h.loads hload
  | _ => exact {h with}

theorem Moves.reported (hmoves : Moves e c c') (hkept : c.Kept) (h : c.Reported opened) :
    c'.Reported opened :=
  hmoves.preserves_kept hkept (fun hkept hmove => hmove.reported hkept) h

theorem Step.reported (hstep : Step c e c') (hkept : c.Kept) (hsilent : c.signals = [])
    (h : c.Reported opened) :
    c'.signals.any Signal.opens = false ∧ c'.Reported opened ∨
      c'.signals.any Signal.opens = true ∧
        (c'.sessionId ∉ opened → c'.Reported (c'.sessionId :: opened)) := by
  have hnone : c.signals.any Signal.opens = false := by rw [hsilent]; rfl
  have hclosed : c.active = false → ∀ id ∈ opened, ∃ p rest, addressed c.wire id = p :: rest ∧
      p.Closes id ∧ ∀ q ∈ rest, q.Syncs id := fun hidle id hid =>
    (h.posts id hid).closed fun hopen => Bool.eq_false_iff.mp hidle hopen.1
  cases hstep with
  | moves hmoves => exact .inl ⟨hmoves.opens hnone, hmoves.reported hkept h⟩
  | tick | accessToken | baseUrl | dropped => exact .inl ⟨hnone, {h with}⟩
  | unusable hpick hp hidle =>
    have hno : ¬c.active = true := Bool.eq_false_iff.mp hidle
    refine .inl ⟨hnone, fun hopen => absurd hopen hno, h.strangers, fun id hid => ?_⟩
    exact ⟨fun hopen => absurd hopen.1 hno, fun _ => hclosed hidle id hid⟩
  | opened resume hpick hp hidle hid hload =>
    cases hload with
    | load idx n =>
      refine .inr ⟨by simp [load, opens, Signal.opens], fun hfresh => ?_⟩
      refine ⟨fun _ => List.mem_cons_self .., fun p hp' id hid' => ?_, List.forall_mem_cons.mpr ⟨?_, ?_⟩⟩
      · exact List.mem_cons_of_mem _ (h.strangers p hp' id hid')
      · -- The server has heard nothing of a new session.
        refine ⟨fun _ p hp' => ?_, fun hno => absurd ⟨rfl, rfl⟩ hno⟩
        obtain ⟨hmem, haddr⟩ := List.mem_filter.mp hp'
        exact absurd (h.strangers p hmem _ (by simpa using haddr)) hfresh
      · intro id hid'
        exact ⟨fun hopen => absurd (hopen.2 ▸ hid') hfresh, fun _ => hclosed hidle id hid'⟩

/-- A seek made in session `id` waits for the debounce timer, unless it was reported
since: `waits` says whether one waited before the event. -/
structure Noted (e : PlaybackSession.Event) (id : String) (wire : List Post) (waits : Bool) (c : Course) :
    Prop where
  same : c.active = true → c.sessionId = id
  only : e.seeks = false → c.signals.any Signal.seeks = false
  timer : ∃ news, c.wire = news ++ wire ∧
    (c.active = true → c.signals.any Signal.seeks = true ∨ waits = true ∧ (∀ p ∈ news, ¬p.Syncs id) →
      c.seekSyncTimer ≠ none)

variable {id : String} {wire : List Post} {waits : Bool}

theorem Noted.seek (h : c.Noted e id wire waits) (hseeks : e.seeks = true) (q : Rat) :
    (c.seek q).Noted e id wire waits := by
  obtain ⟨news, hwire, -⟩ := h.timer
  exact ⟨h.same, fun hno => absurd (hno.symm.trans hseeks) Bool.false_ne_true,
    news, hwire, fun _ _ => Option.some_ne_none _⟩

theorem Noted.closed (h : c.Noted e id wire waits) (completed : Bool) :
    (c.close completed).Noted e id wire waits := by
  obtain ⟨news, hwire, -⟩ := h.timer
  refine ⟨(fun hopen => nomatch hopen), fun hno => ?_, news, hwire, fun hopen => nomatch hopen⟩
  simpa [close, Signal.seeks] using h.only hno

theorem Noted.loads (h : c.Noted e id wire waits) (hload : c.Loads c') : c'.Noted e id wire waits := by
  cases hload with
  | load => exact {h with}

theorem Move.noted (hmove : Move e c c') (hkept : c.Kept) (h : c.Noted e id wire waits) :
    c'.Noted e id wire waits := by
  cases hmove with
  | lapse hlapses =>
    obtain ⟨news, hwire, -⟩ := h.timer
    refine ⟨h.same, h.only, news, hwire, fun hopen => ?_⟩
    rcases hlapses with hidle | hnone
    · exact nomatch hidle.symm.trans hopen
    · exact absurd hnone (hkept.named hopen)
  | sync p hseeks hactive _ hp =>
    obtain ⟨news, hwire, -⟩ := h.timer
    refine ⟨h.same, h.only, p :: news, congrArg (p :: ·) hwire, fun _ hwaits => ?_⟩
    rcases hwaits with hsought | ⟨-, hnone⟩
    · exact absurd ((h.only hseeks).symm.trans hsought) Bool.false_ne_true
    · exact absurd (h.same hactive ▸ hp.syncs) (hnone p (List.mem_cons_self ..))
  | close p =>
    have hclosed := h.closed (c.completed || e.ends)
    obtain ⟨news, hwire, -⟩ := h.timer
    exact ⟨hclosed.same, hclosed.only, p :: news, congrArg (p :: ·) hwire, fun hopen => nomatch hopen⟩
  | abandon _ hactive hid => exact absurd hid (hkept.named hactive)
  | request p _ hidle =>
    obtain ⟨news, hwire, -⟩ := h.timer
    exact ⟨h.same, h.only, p :: news, congrArg (p :: ·) hwire, fun hopen => nomatch hidle.symm.trans hopen⟩
  | seek q hseeks => exact h.seek hseeks q
  | jump q hseeks _ hload => exact (h.loads hload).seek hseeks q
  | reload _ _ hload => exact h.loads hload
  | _ => exact {h with}

theorem Moves.noted (hmoves : Moves e c c') (hkept : c.Kept) (h : c.Noted e id wire waits) :
    c'.Noted e id wire waits :=
  hmoves.preserves_kept hkept (fun hkept hmove => hmove.noted hkept) h

end Course

namespace Course
variable {c c' : Course} {e : PlaybackSession.Event}

theorem Move.wire {wire : List Post} (hmove : Move e c c') (h : ∃ news, c.wire = news ++ wire) :
    ∃ news, c'.wire = news ++ wire := by
  obtain ⟨news, hwire⟩ := h
  cases hmove with
  | sync p | close p | request p => exact ⟨p :: news, congrArg (p :: ·) hwire⟩
  | jump _ _ _ hload | reload _ _ hload =>
    cases hload with
    | load => exact ⟨news, hwire⟩
  | _ => exact ⟨news, hwire⟩

/-- Nothing that was posted is taken back. -/
theorem Step.wire (hstep : Step c e c') : ∃ news, c'.wire = news ++ c.wire := by
  cases hstep with
  | moves hmoves => exact hmoves.preserves (fun _ hmove => hmove.wire) ⟨[], rfl⟩
  | opened _ _ _ _ _ hload =>
    cases hload with
    | load => exact ⟨[], rfl⟩
  | _ => exact ⟨[], rfl⟩

/-- After an event, a seek of the open session that was not reported waits for the timer. -/
theorem Step.noted (hstep : Step c e c') (hkept : c.Kept) (hsilent : c.signals = []) {waits : Bool}
    (hwaits : c.active = true → waits = true → c.seekSyncTimer ≠ none) :
    ∃ news, c'.wire = news ++ c.wire ∧
      (c'.active = true →
        c'.signals.any Signal.seeks = true ∨
          waits = true ∧ c'.signals.any Signal.opens = false ∧ (∀ p ∈ news, ¬p.Syncs c.sessionId) →
        c'.seekSyncTimer ≠ none) := by
  have hnone : c.signals.any Signal.seeks = false := by rw [hsilent]; rfl
  have hquiet : ∀ P : Prop, c.active = true → c.signals.any Signal.seeks = true ∨ waits = true ∧ P →
      c.seekSyncTimer ≠ none := by
    rintro P hactive (hsought | ⟨hwait, -⟩)
    · exact absurd (hnone.symm.trans hsought) Bool.false_ne_true
    · exact hwaits hactive hwait
  cases hstep with
  | moves hmoves =>
    have hnoted : c.Noted e c.sessionId c.wire waits :=
      ⟨fun _ => rfl, fun _ => hnone, [], rfl, hquiet _⟩
    obtain ⟨news, hwire, htimer⟩ := (hmoves.noted hkept hnoted).timer
    refine ⟨news, hwire, fun hactive hwait => htimer hactive ?_⟩
    exact hwait.imp_right fun ⟨hwait, _, hnews⟩ => ⟨hwait, hnews⟩
  | tick | accessToken | baseUrl | dropped => exact ⟨[], rfl, hquiet _⟩
  | unusable _ _ hidle => exact ⟨[], rfl, fun hactive => absurd hactive (Bool.eq_false_iff.mp hidle)⟩
  | opened resume _ _ _ _ hload =>
    cases hload with
    | load =>
      refine ⟨[], rfl, fun _ => ?_⟩
      simp [load, opens, read, hsilent, Signal.opens, Signal.seeks]

end Course

/-! ### Every run -/

namespace PlaybackSession
variable {s s' : PlaybackSession}

/-- What an event posted, newest first. -/
def posted (s s' : PlaybackSession) : List Post := s'.wire.take (s'.wire.length - s.wire.length)

theorem posted_eq {news : List Post} (h : s'.wire = news ++ s.wire) : posted s s' = news := by
  simp [posted, h]

end PlaybackSession

/-- A session and the history of its reports. -/
structure Protocol where
  session : PlaybackSession
  /-- History: the ids of the sessions opened, newest first. -/
  opened : List String := []
  /-- History: a position was sought after the last sync of the open session. -/
  unreported : Bool := false

namespace Protocol
open PlaybackSession

def step (x : Protocol) (e : Event) : Protocol :=
  let session := PlaybackSession.machine.step x.session e
  let synced := (posted x.session session).any fun p => p.Syncs x.session.sessionId
  { session
    opened := if session.opens then session.sessionId :: x.opened else x.opened
    unreported := session.sought || (x.unreported && !session.opens && !synced) }

def machine : Machine Protocol Event := ⟨step⟩

/-- The server gives every session it opens an id of its own. -/
def Fresh (x : Protocol) (e : Event) : Prop :=
  (PlaybackSession.machine.step x.session e).opens = true →
    (PlaybackSession.machine.step x.session e).sessionId ∉ x.opened

instance (x : Protocol) (e : Event) : Decidable (Fresh x e) := inferInstanceAs (Decidable (_ → _))

/-- The sessions opened are reported in order, one is open at most, and no seek is
forgotten. -/
structure Ordered (x : Protocol) : Prop where
  posts : ∀ id ∈ x.opened, Orderly (x.session.active = true ∧ x.session.sessionId = id) id
    (addressed x.session.wire id)
  once : x.opened.Nodup
  current : x.session.active = true → x.opened.head? = some x.session.sessionId
  quiet : x.session.active = false →
    x.session.syncTimer = none ∧ x.session.seekSyncTimer = none ∧ x.session.sleepTimer = none
  due : x.session.active = true → x.unreported = true → x.session.seekSyncTimer ≠ none

/-- What is kept along a run. -/
structure Kept (x : Protocol) : Prop where
  steady : x.session.Steady
  reported : x.session.course.Reported x.opened
  once : x.opened.Nodup
  current : x.session.active = true → x.opened.head? = some x.session.sessionId
  due : x.session.active = true → x.unreported = true → x.session.seekSyncTimer ≠ none

theorem keeps : Machine.Keeps machine Fresh Kept where
  step x e hx hfresh := by
    have hstep := hx.steady.step e
    have hkept : Course.Kept {x.session.course with signals := []} := {hx.steady.kept with}
    have hbefore : Course.Reported x.opened {x.session.course with signals := []} := {hx.reported with}
    have hsteady := hx.steady.next e
    have hdue := hstep.noted hkept rfl hx.due
    have hreported := hstep.reported hkept rfl hbefore
    have hstays := hstep.stays
    unfold Fresh at hfresh
    show Kept (x.step e)
    unfold step
    dsimp only
    generalize PlaybackSession.machine.step x.session e = s at *
    rw [opens_course] at hreported hstays hdue
    rw [sought_course] at hdue
    obtain ⟨news, hwire, hdue⟩ := hdue
    rw [posted_eq (show s.wire = news ++ x.session.wire from hwire)]
    have hunreported : s.active = true →
        (s.sought || (x.unreported && !s.opens && !news.any fun p => p.Syncs x.session.sessionId)) = true →
        s.seekSyncTimer ≠ none := by
      intro hactive hwaits
      refine hdue hactive ?_
      rcases Bool.or_eq_true_iff.mp hwaits with hsought | hwaits
      · exact .inl hsought
      · simp only [Bool.and_eq_true, Bool.not_eq_true', List.any_eq_false, decide_eq_true_eq] at hwaits
        exact .inr ⟨hwaits.1.1, hwaits.1.2, hwaits.2⟩
    rcases hreported with ⟨hsilent, hreported⟩ | ⟨hopens, hreported⟩
    · rw [if_neg (by simp [hsilent])]
      refine ⟨hsteady, hreported, hx.once, fun hactive => ?_, hunreported⟩
      obtain ⟨hbefore, hid, -⟩ := hstays hsilent hactive
      exact (hx.current hbefore).trans (congrArg some hid.symm)
    · rw [if_pos hopens]
      have hnew := hfresh hopens
      exact ⟨hsteady, hreported hnew, List.nodup_cons.mpr ⟨hnew, hx.once⟩, fun _ => rfl, hunreported⟩

theorem kept_start (env : Env) (server : Endpoints) : Kept {session := {env, server}} where
  steady := steady_start env server
  reported := ⟨(fun hactive => nomatch hactive), (fun _ hp => nomatch hp), fun _ hid => nomatch hid⟩
  once := .nil
  current := fun hactive => nomatch hactive
  due := fun hactive => nomatch hactive

theorem Kept.ordered {x : Protocol} (h : Kept x) : Ordered x where
  posts := h.reported.posts
  once := h.once
  current := h.current
  quiet := h.steady.kept.quiet
  due := h.due

end Protocol

/-! ### A burst of seeks -/

namespace Course
variable {c c' c₀ : Course} {e : PlaybackSession.Event}

/-- As long as nothing is posted, only a seek touches the debounce timer. -/
structure Timed (c₀ c : Course) : Prop where
  now : c.now = c₀.now
  grows : c₀.wire.length ≤ c.wire.length
  timer : c.active = true → c.wire.length = c₀.wire.length →
    c.seekSyncTimer =
      if c.signals.any Signal.seeks then some (c₀.now + seekSyncDebounceMs) else c₀.seekSyncTimer

theorem Timed.seek (h : Timed c₀ c) (q : Rat) : Timed c₀ (c.seek q) where
  now := h.now
  grows := h.grows
  timer := fun _ _ => by simp [Course.seek, Signal.seeks, h.now]

theorem Timed.loads (h : Timed c₀ c) (hload : c.Loads c') : Timed c₀ c' := by
  cases hload with
  | load => exact {h with}

theorem Move.timed (hmove : Move e c c') (hkept : c.Kept) (h : Timed c₀ c) : Timed c₀ c' := by
  have hgrows := h.grows
  cases hmove with
  | lapse hlapses =>
    refine ⟨h.now, h.grows, fun hactive => ?_⟩
    rcases hlapses with hidle | hnone
    · exact absurd hactive (Bool.eq_false_iff.mp hidle)
    · exact absurd hnone (hkept.named hactive)
  | sync p =>
    refine ⟨h.now, Nat.le_succ_of_le hgrows, fun _ hlength => ?_⟩
    have hlonger : c.wire.length + 1 = c₀.wire.length := hlength
    omega
  | close p => exact ⟨h.now, Nat.le_succ_of_le hgrows, fun hopen => nomatch hopen⟩
  | abandon => exact ⟨h.now, hgrows, fun hopen => nomatch hopen⟩
  | request p _ hidle =>
    exact ⟨h.now, Nat.le_succ_of_le hgrows, fun hopen => absurd hopen (Bool.eq_false_iff.mp hidle)⟩
  | seek q => exact h.seek q
  | jump q _ _ hload => exact (h.loads hload).seek q
  | reload _ _ hload => exact h.loads hload
  | _ => exact {h with}

theorem Moves.timed (hmoves : Moves e c c') (hkept : c.Kept) (h : Timed c₀ c) : Timed c₀ c' :=
  hmoves.preserves_kept hkept (fun hkept hmove => hmove.timed hkept) h

/-- An event of an open session that posts nothing. -/
theorem Step.timed (hstep : Step c e c') (hkept : c.Kept) (hsilent : c.signals = [])
    (hactive : c.active = true) (hstays : c'.active = true) (hwire : c'.wire = c.wire) :
    c.now ≤ c'.now ∧ c'.sessionId = c.sessionId ∧ c'.duration = c.duration ∧
      c'.seekSyncTimer =
        if c'.signals.any Signal.seeks then some (c.now + seekSyncDebounceMs) else c.seekSyncTimer := by
  cases hstep with
  | moves hmoves =>
    have hframe := hmoves.frame
    have hstart : Timed c c := ⟨rfl, le_rfl, fun _ _ => by rw [hsilent]; rfl⟩
    have htimed := hmoves.timed hkept hstart
    exact ⟨htimed.now.ge, (hframe.stays hstays).2.1, hframe.duration, htimed.timer hstays (congrArg _ hwire)⟩
  | tick ms => exact ⟨Nat.le_add_right _ _, rfl, rfl, by rw [hsilent]; rfl⟩
  | accessToken | baseUrl | dropped => exact ⟨le_rfl, rfl, rfl, by rw [hsilent]; rfl⟩
  | unusable _ _ hidle => exact nomatch hidle.symm.trans hactive
  | opened _ _ _ hidle => exact nomatch hidle.symm.trans hactive

end Course

namespace PlaybackSession
variable {s : PlaybackSession}

/-- The debounce timer posts the position when it fires, and nothing when it does not run. -/
theorem debounce_fires (hsteady : s.Steady) (hactive : s.active = true) :
    s.seekSyncTimer = none ∧ machine.step s .seekSyncTimeout = s.fresh ∨
      s.seekSyncTimer ≠ none ∧ ∃ p, (machine.step s .seekSyncTimeout).course =
          ({s.course with seekSyncTimer := none, signals := []} : Course).post p ∧
        s.course.Reports (s.server.sessionSync s.sessionId) p := by
  show s.seekSyncTimer = none ∧ s.fresh.onSeekSyncTimeout = s.fresh ∨
    s.seekSyncTimer ≠ none ∧ ∃ p, s.fresh.onSeekSyncTimeout.course = _ ∧ _
  unfold onSeekSyncTimeout
  split
  · next hnone => exact .inl ⟨hnone, rfl⟩
  · next due hdue =>
    obtain ⟨p, hcourse, hp⟩ := sync_posts (s := {s.fresh with seekSyncTimer := none}) hactive
      (hsteady.kept.named hactive)
    refine .inr ⟨?_, p, hcourse, hp.id, hp.target, hp.body, hp.closure⟩
    exact fun hnone => nomatch hnone.symm.trans hdue

end PlaybackSession

/-- A session in which a burst of seeks is made. -/
structure Burst where
  session : PlaybackSession
  /-- History: when the last seek of the burst was made. -/
  last : Option Nat := none
  /-- History: what was posted since, and the position it was posted at, newest first. -/
  sent : List (Post × Rat) := []

namespace Burst
open PlaybackSession

def step (x : Burst) (e : Event) : Burst :=
  let session := PlaybackSession.machine.step x.session e
  { session
    last := if session.sought then some x.session.now else x.last
    sent := (posted x.session session).map (·, x.session.globalPosition) ++ x.sent }

def machine : Machine Burst Event := ⟨step⟩

/-- The debounce timer fires. -/
def fires : Event → Bool
  | .seekSyncTimeout => true
  | _ => false

/-- The session stays open, and nothing is posted but by the debounce timer, which fires
once it is due; a seek comes less than the timer's interval after the one before it. -/
def Rule (x : Burst) (e : Event) : Prop :=
  (PlaybackSession.machine.step x.session e).active = true ∧
    (fires e = false → (posted x.session (PlaybackSession.machine.step x.session e)).isEmpty = true) ∧
    (fires e = true → ∀ due ∈ x.session.seekSyncTimer, due ≤ x.session.now) ∧
    ((PlaybackSession.machine.step x.session e).sought = true →
      ∀ t ∈ x.last, x.session.now < t + seekSyncDebounceMs)

instance (x : Burst) (e : Event) : Decidable (Rule x e) := inferInstanceAs (Decidable (_ ∧ _ ∧ _ ∧ _))

/-- One sync was posted, with the position it was posted at. -/
def One (x : Burst) : Prop :=
  ∃ p position, x.sent = [(p, position)] ∧ p.Syncs x.session.sessionId ∧
    ∃ listened, p.body = .report ⟨position, listened, x.session.duration⟩

/-- While the timer runs nothing was posted, when it fires one sync is, and that is all. -/
structure Coalesced (x : Burst) : Prop where
  waits : ∀ t ∈ x.last, x.session.seekSyncTimer ≠ none →
    x.session.seekSyncTimer = some (t + seekSyncDebounceMs) ∧ x.sent = []
  fired : x.last ≠ none → x.session.seekSyncTimer = none → One x
  fires : x.last ≠ none → x.session.seekSyncTimer ≠ none →
    (x.step .seekSyncTimeout).session.seekSyncTimer = none ∧ One (x.step .seekSyncTimeout)

/-- What is kept along a burst. -/
structure Kept (x : Burst) : Prop where
  steady : x.session.Steady
  active : x.session.active = true
  calm : x.last = none → x.session.seekSyncTimer = none ∧ x.sent = []
  burst : ∀ t ∈ x.last,
    x.session.seekSyncTimer = some (t + seekSyncDebounceMs) ∧ x.sent = [] ∨
      x.session.seekSyncTimer = none ∧ t + seekSyncDebounceMs ≤ x.session.now ∧ One x

/-- An event that posts nothing and leaves the session open. -/
theorem Kept.still {x : Burst} (h : Kept x) {e : Event}
    (hactive : (PlaybackSession.machine.step x.session e).active = true)
    (hnothing : posted x.session (PlaybackSession.machine.step x.session e) = [])
    (hspaced : (PlaybackSession.machine.step x.session e).sought = true →
      ∀ t ∈ x.last, x.session.now < t + seekSyncDebounceMs) : Kept (x.step e) := by
  have hstep := h.steady.step e
  have hkept : Course.Kept {x.session.course with signals := []} := {h.steady.kept with}
  have hsteady := h.steady.next e
  obtain ⟨news, hwire⟩ := hstep.wire
  unfold step
  dsimp only
  rw [hnothing]
  generalize PlaybackSession.machine.step x.session e = s at *
  have hnone : news = [] := (posted_eq (show s.wire = news ++ x.session.wire from hwire)).symm.trans hnothing
  obtain ⟨hnow, hid, hduration, htimer⟩ :=
    hstep.timed hkept rfl h.active hactive (by rw [hwire, hnone]; rfl)
  rw [sought_course] at htimer
  have hone : One x → One {x with session := s} := by
    rintro ⟨p, position, hsent, hp, hbody⟩
    have hid' : s.sessionId = x.session.sessionId := hid
    have hduration' : s.duration = x.session.duration := hduration
    refine ⟨p, position, hsent, ?_, ?_⟩ <;> dsimp only
    · rw [hid']
      exact hp
    · rw [hduration']
      exact hbody
  by_cases hsought : s.sought = true
  · rw [if_pos hsought] at htimer
    simp only [hsought, if_true, List.map_nil, List.nil_append]
    refine ⟨hsteady, hactive, (fun hno => nomatch hno), ?_⟩
    rintro t ⟨⟩
    refine .inl ⟨htimer, ?_⟩
    cases hlast : x.last with
    | none => exact (h.calm hlast).2
    | some t =>
      -- The timer cannot have fired: the seek before was too recent.
      rcases h.burst t hlast with ⟨-, hsent⟩ | ⟨-, hpast, -⟩
      · exact hsent
      · exact absurd hpast (Nat.not_le.mpr (hspaced hsought t hlast))
  · rw [if_neg hsought] at htimer
    simp only [hsought, if_false, List.map_nil, List.nil_append, Bool.false_eq_true]
    refine ⟨hsteady, hactive, fun hlast => ?_, fun t ht => ?_⟩
    · exact ⟨htimer.trans (h.calm hlast).1, (h.calm hlast).2⟩
    · rcases h.burst t ht with ⟨hruns, hsent⟩ | ⟨hdone, hpast, hsent⟩
      · exact .inl ⟨htimer.trans hruns, hsent⟩
      · exact .inr ⟨htimer.trans hdone, hpast.trans hnow, hone hsent⟩

/-- The timer runs, and fires. -/
theorem Kept.fires {x : Burst} (h : Kept x) (hruns : x.session.seekSyncTimer ≠ none) {t : Nat}
    (hlast : x.last = some t) :
    (x.step .seekSyncTimeout).session.Steady ∧ (x.step .seekSyncTimeout).session.active = true ∧
      (x.step .seekSyncTimeout).last = some t ∧ (x.step .seekSyncTimeout).session.now = x.session.now ∧
      (x.step .seekSyncTimeout).session.seekSyncTimer = none ∧ One (x.step .seekSyncTimeout) := by
  have hsteady := h.steady.next .seekSyncTimeout
  have hempty : x.sent = [] := by
    rcases h.burst t hlast with ⟨-, hsent⟩ | ⟨hdone, -⟩
    · exact hsent
    · exact absurd hdone hruns
  obtain ⟨hnone, -⟩ | ⟨-, p, hcourse, hp⟩ := debounce_fires h.steady h.active
  · exact absurd hnone hruns
  · unfold step
    dsimp only
    generalize PlaybackSession.machine.step x.session .seekSyncTimeout = s at *
    have hposted : posted x.session s = [p] := posted_eq (congrArg Course.wire hcourse)
    have hsought : s.sought = false := by
      rw [← sought_course, hcourse]
      rfl
    have hid : s.sessionId = x.session.sessionId := congrArg Course.sessionId hcourse
    have hduration : s.duration = x.session.duration := congrArg Course.duration hcourse
    refine ⟨hsteady, (congrArg Course.active hcourse).trans h.active, ?_, congrArg Course.now hcourse,
      congrArg Course.seekSyncTimer hcourse, p, x.session.globalPosition, ?_, ?_, ?_⟩
    · simp [hsought, hlast]
    · simp [hposted, hempty]
    · dsimp only
      rw [hid]
      exact hp.syncs
    · dsimp only
      rw [hduration]
      exact hp.body

theorem keeps : Machine.Keeps machine Rule Kept where
  step x e hx he := by
    obtain ⟨hactive, hquiet, hdue, hspaced⟩ := he
    by_cases hfires : fires e = true
    · obtain rfl : e = .seekSyncTimeout := by cases e <;> first | rfl | cases hfires
      by_cases hruns : x.session.seekSyncTimer = none
      · have hsame : PlaybackSession.machine.step x.session .seekSyncTimeout = x.session.fresh := by
          obtain ⟨-, hsame⟩ | ⟨hsome, -⟩ := debounce_fires hx.steady hx.active
          · exact hsame
          · exact absurd hruns hsome
        refine hx.still hactive ?_ hspaced
        rw [hsame]
        exact posted_eq (show x.session.fresh.wire = [] ++ x.session.wire from rfl)
      · cases hlast : x.last with
        | none => exact absurd (hx.calm hlast).1 hruns
        | some t =>
          obtain ⟨hsteady, hopen, hlast', hnow, htimer, hone⟩ := hx.fires hruns hlast
          have hpast : t + seekSyncDebounceMs ≤ x.session.now := by
            rcases hx.burst t hlast with ⟨htimer, -⟩ | ⟨-, hpast, -⟩
            · exact hdue rfl _ htimer
            · exact hpast
          refine ⟨hsteady, hopen, (fun hnone => nomatch hnone.symm.trans hlast'), fun t' ht' => ?_⟩
          obtain rfl : t = t' := Option.some_inj.mp (hlast'.symm.trans ht')
          exact .inr ⟨htimer, hnow.symm ▸ hpast, hone⟩
    · have hother : fires e = false := Bool.eq_false_of_not_eq_true hfires
      exact hx.still hactive (List.isEmpty_iff.mp (hquiet hother)) hspaced

theorem Kept.coalesced {x : Burst} (h : Kept x) : Coalesced x where
  waits := fun t ht hruns => by
    rcases h.burst t ht with hwaits | ⟨hdone, -⟩
    · exact hwaits
    · exact absurd hdone hruns
  fired := fun hlast hdone => by
    obtain ⟨t, ht⟩ := Option.ne_none_iff_exists'.mp hlast
    rcases h.burst t ht with ⟨hruns, -⟩ | ⟨-, -, hone⟩
    · exact nomatch hdone.symm.trans hruns
    · exact hone
  fires := fun hlast hruns => by
    obtain ⟨t, ht⟩ := Option.ne_none_iff_exists'.mp hlast
    exact (h.fires hruns ht).2.2.2.2

end Burst

/-! ### Every run, and every burst -/

/-- **Sessions are reported in order.** In every run in which the server gives each
session it opens an id of its own: what is posted about a session is some syncs, and
one close once it is not open any more; one session is open at most; while none is,
no timer runs; and a seek of the open session that no sync has reported waits for the
debounce timer. In every state reached, a burst of seeks is reported by one sync. -/
theorem Protocol.reports_in_order (env : Env) (server : Endpoints) (es : List PlaybackSession.Event)
    (h : Protocol.machine.Along Protocol.Fresh {session := {env, server}} es) :
    let x := Protocol.machine.run {session := {env, server}} es
    x.Ordered ∧ ∀ burst, x.session.active = true → x.session.seekSyncTimer = none →
      Burst.machine.Along Burst.Rule {session := x.session} burst →
      (Burst.machine.run {session := x.session} burst).Coalesced := by
  have hkept := Protocol.keeps.run (Protocol.kept_start env server) h
  refine ⟨hkept.ordered, fun burst hactive hcalm hburst => ?_⟩
  have hstart : Burst.Kept {session := (Protocol.machine.run {session := {env, server}} es).session} :=
    ⟨hkept.steady, hactive, fun _ => ⟨hcalm, rfl⟩, fun _ ht => nomatch ht⟩
  exact (Burst.keeps.run hstart hburst).coalesced

namespace Protocol

/-- A book is opened, left for another one soon after a seek, and closed by its end. -/
def threeSessions : List PlaybackSession.Event :=
  let opened (id : String) : ApiResponse :=
    ⟨200, true, false, .object [("id", .string id), ("duration", .number 30),
      ("audioTracks", sampleBook.value "audioTracks")], "", none⟩
  [.playItem "book", .reply 0 (opened "s1"), .mpv (.coreIdle false), .tick 12000, .syncTimeout,
    .seekGlobal 15, .playItem "book", .reply 3 (opened "s2"), .seekGlobal 25, .mpv (.endFile .eof),
    .playItem "book", .reply 5 (opened "s3")]

/-- Three seeks, and the timer fires after the last. -/
def burst : List PlaybackSession.Event :=
  [.seekGlobal 5, .tick 1000, .seekGlobal 12, .tick 500, .skip 3, .tick 1200, .seekSyncTimeout, .tick 100]

theorem reports_in_order_threeSessions :
    let x := machine.run {session := samplePlayer} threeSessions
    x.Ordered ∧ (Burst.machine.run {session := x.session} burst).Coalesced ∧
      x.opened = ["s3", "s2", "s1"] ∧ (addressed x.session.wire "s1").length = 2 ∧
      (Burst.machine.run {session := x.session} burst).sent.map (·.2) = [15] :=
  have h := reports_in_order _ sampleServer threeSessions (by decide +kernel)
  ⟨h.1, h.2 burst (by decide +kernel) (by decide +kernel) (by decide +kernel), by decide +kernel,
    by decide +kernel, by decide +kernel⟩

end Protocol

end ShelfRemote.Player
