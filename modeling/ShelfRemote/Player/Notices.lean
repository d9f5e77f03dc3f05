import ShelfRemote.Player.Hearing

/-! What an observer of the chapter holds.

It reads the index and the title again whenever `chapterChanged` is emitted, and at no
other time. The signal follows the index; the title depends on the chapters too, and a play
response replaces them. `chapters_announced` says for which responses the observer keeps up. -/
namespace ShelfRemote.Player
open Qt Net Runs

/-- The index and the title of a chapter, as they were read. -/
structure Shown where
  index : Int := -1
  title : String := ""
  deriving DecidableEq

/-- The observer reads both when the signal tells it to. -/
def Shown.observe (shown : Shown) : Signal → Shown
  | .chapterChanged index title => ⟨index, title⟩
  | .activeChanged .. | .positionChanged _ | .seeked _ | .playbackError _ => shown

namespace Hearing
variable {h h' : Hearing} {e : PlaybackSession.Event} {q : Rat}

/-- What the accessors return. -/
def reads (h : Hearing) : Shown := ⟨h.chapterIndex, h.title⟩

/-- The signals since tell an observer of everything that changed. -/
def Told (h h' : Hearing) : Prop :=
  ∃ news, h'.signals = h.signals ++ news ∧ news.foldl Shown.observe h.reads = h'.reads

theorem Told.refl (h : Hearing) : h.Told h := ⟨[], (List.append_nil _).symm, rfl⟩

theorem Told.trans {h'' : Hearing} (htold : h.Told h') (htold' : h'.Told h'') : h.Told h'' := by
  obtain ⟨news, hsignals, hreads⟩ := htold
  obtain ⟨news', hsignals', hreads'⟩ := htold'
  refine ⟨news ++ news', ?_, ?_⟩
  · rw [hsignals', hsignals, List.append_assoc]
  · rw [List.foldl_append, hreads, hreads']

/-- Nothing the accessors read changes. -/
theorem Told.same (hchapters : h'.chapters = h.chapters) (hindex : h'.chapterIndex = h.chapterIndex)
    (hsignals : h'.signals = h.signals) : h.Told h' := by
  refine ⟨[], hsignals.trans (List.append_nil _).symm, ?_⟩
  show h.reads = h'.reads
  unfold reads title
  rw [hchapters, hindex]

/-- A chapter that changes is announced. -/
theorem update_told (h : Hearing) (q : Rat) : h.Told (h.update q) := by
  unfold update
  split
  · exact .refl h
  · exact ⟨_, rfl, rfl⟩

theorem seek_told (h : Hearing) (q : Rat) : h.Told (h.seek q) := ⟨_, rfl, rfl⟩

theorem resume_told (h : Hearing) : h.Told h.resume := by
  unfold resume
  split
  · exact .refl h
  · exact .same rfl rfl rfl

theorem hold_told (h : Hearing) : h.Told h.hold := by
  unfold hold
  split
  · exact .refl h
  · exact .same rfl rfl rfl

theorem report_told (h : Hearing) (playing : Bool) : h.Told (h.report playing) := by
  unfold report
  dsimp only
  split_ifs
  · exact .same rfl rfl rfl
  · refine Told.trans ?_ (resume_told _)
    exact .same rfl rfl rfl
  · refine Told.trans ?_ (hold_told _)
    exact .same rfl rfl rfl

theorem setTimer_told (h : Hearing) (minutes : Int) : h.Told (h.setTimer minutes) := by
  unfold setTimer
  dsimp only
  split_ifs
  · exact .same rfl rfl rfl
  · refine Told.trans ?_ (resume_told _)
    exact .same rfl rfl rfl
  · exact .same rfl rfl rfl

theorem setChapterEnd_told (h : Hearing) : h.Told h.setChapterEnd := by
  unfold setChapterEnd
  split <;> exact .same rfl rfl rfl

theorem Sought.told (hsought : h.Sought q h') : h.Told h' := by
  cases hsought with
  | stay => exact seek_told h q
  | jump => exact (update_told h q).trans (seek_told _ q)

theorem hear_told (h : Hearing) (q : Rat) : h.Told (h.hear q) := by
  refine Told.trans ?_ (update_told _ q)
  exact .same rfl rfl rfl

theorem halt_told (h : Hearing) (q : Rat) : h.Told (h.halt q) := (hear_told h q).trans (.same rfl rfl rfl)

theorem Stopped.told (hstopped : h.Stopped q h') : h.Told h' := by
  cases hstopped with
  | within _ hsought => exact (halt_told h q).trans hsought.told
  | last => exact halt_told h q

theorem Act.told (hact : Act e h h') : h.Told h' := by
  cases hact with
  | same => exact .refl h
  | wait | press | close | expire => exact .same rfl rfl rfl
  | setTimer minutes => exact setTimer_told h minutes
  | setChapterEnd => exact setChapterEnd_told h
  | seek q _ _ hsought => exact hsought.told
  | hear q => exact hear_told h q
  | stop q _ _ _ hstopped => exact hstopped.told
  | turn q => exact update_told h q
  | reload q =>
    refine Told.trans ?_ (update_told _ q)
    exact .same rfl rfl rfl

theorem Step.told (hstep : Step e h h') : h.Told h' := by
  cases hstep with
  | act hact => exact hact.told
  | report playing hact => exact hact.told.trans (report_told _ playing)

/-- An observer that was current when nothing was emitted yet is current again. -/
theorem Told.current (htold : ({h with signals := []} : Hearing).Told h') :
    h'.signals.foldl Shown.observe h.reads = h'.reads := by
  obtain ⟨news, hsignals, hreads⟩ := htold
  rw [hsignals]
  exact hreads

/-- Where a session opens, the chapter is announced if its index is another one, and the
title shown stays right if it does not change. -/
theorem start_current (h : Hearing) (resume : Rat) (shown : Shown) (hindex : shown.index = h.chapterIndex) :
    let h' := ({h with signals := []} : Hearing).start resume
    h'.signals.foldl Shown.observe shown = h'.reads ↔ h.title = shown.title ∨ h.chapterAt resume ≠ h.chapterIndex := by
  obtain ⟨index, title⟩ := shown
  dsimp only at hindex ⊢
  subst hindex
  unfold start update
  dsimp only
  split
  · next hsame =>
    have hat : h.chapterAt resume = h.chapterIndex := hsame
    simp only [hat, ne_eq, not_true, or_false]
    exact ⟨fun hreads => (congrArg Shown.title hreads).symm, fun htitle => congrArg (Shown.mk _) htitle.symm⟩
  · next hother => exact iff_of_true rfl (.inr hother)

end Hearing

/-- The signals the listener is not told by change nothing an observer holds. -/
theorem foldl_heard (signals : List Signal) (shown : Shown) :
    signals.foldl Shown.observe shown = (signals.filter Signal.heard).foldl Shown.observe shown := by
  rw [List.foldl_filter]
  congr 1
  funext shown signal
  cases signal <;> rfl

namespace PlaybackSession
variable {s : PlaybackSession}

/-- What the accessors return now. -/
def reads (s : PlaybackSession) : Shown := ⟨s.chapterIndex, s.chapterTitle⟩

/-- The chapter at the index shown keeps its title, or the session opens at another index. -/
def Announces (s : PlaybackSession) (obj : Json) : Prop :=
  let r := s.readPlayResponse obj
  titleAt r.chapters s.chapterIndex = s.chapterTitle ∨ r.Usable ∧ r.chapterAt (resumeAt obj) ≠ s.chapterIndex

instance (s : PlaybackSession) (obj : Json) : Decidable (s.Announces obj) :=
  inferInstanceAs (Decidable (_ ∨ _ ∧ _))

/-- A session, and what its observer holds. -/
structure Observed where
  session : PlaybackSession
  shown : Shown := {}

namespace Observed

def step (o : Observed) (e : Event) : Observed :=
  let s := machine.step o.session e
  {session := s, shown := s.signals.foldl Shown.observe o.shown}

/-- The observer holds what the accessors return. -/
def Current (o : Observed) : Prop := o.shown = o.session.reads

instance (o : Observed) : Decidable o.Current := inferInstanceAs (Decidable (_ = _))

variable {o : Observed}

theorem step_current (o : Observed) (e : Event) :
    (o.step e).Current ↔
      (machine.step o.session e).hearing.signals.foldl Shown.observe o.shown = (machine.step o.session e).hearing.reads :=
  iff_of_eq (congrArg (· = _) (foldl_heard _ _))

/-- The observer keeps up with an event if and only if it keeps up with the play response
that is read, if one is. -/
theorem Current.step (h : o.Current) (hsteady : o.session.Steady) (e : Event) :
    (o.step e).Current ↔ ∀ obj ∈ o.session.response e, o.session.Announces obj := by
  rw [step_current, show o.shown = o.session.reads from h]
  cases hreads : o.session.response e with
  | none => exact iff_of_true (hsteady.hearing hreads).told.current fun _ hnone => nomatch hnone
  | some obj =>
    obtain ⟨-, he⟩ := hsteady.reads hreads
    have hindex : o.session.reads.index = (o.session.readPlayResponse obj).chapterIndex := rfl
    simp only [Option.mem_def, Option.some.injEq, forall_eq']
    rw [he]
    unfold Announces
    split
    · next husable =>
      simp only [husable, true_and]
      exact Hearing.start_current _ _ _ hindex
    · next hbad =>
      simp only [hbad, false_and, or_false]
      exact ⟨fun hreads => (congrArg Shown.title hreads).symm, fun htitle => congrArg (Shown.mk _) htitle.symm⟩

end Observed

def observing : Machine Observed Event := ⟨Observed.step⟩

/-- **The observer holds what the accessors return** in every run in which each play
response that is read keeps the title of the chapter shown, or opens the session in a
chapter of another index. From every state of such a run, one event leaves the observer
current if and only if it meets this condition. -/
theorem chapters_announced (env : Env) (server : Endpoints) (es : List Event)
    (hes : observing.Along (fun o e => ∀ obj ∈ o.session.response e, o.session.Announces obj)
      {session := {env, server}} es) :
    let o := observing.run {session := {env, server}} es
    o.Current ∧ ∀ e, (observing.step o e).Current ↔ ∀ obj ∈ o.session.response e, o.session.Announces obj := by
  have hsteady : Machine.Keeps observing (fun _ _ => True) (fun o => o.session.Steady) :=
    ⟨fun o e ho _ => ho.next e⟩
  have hstart : Observed.Current {session := {env, server}} := rfl
  exact (hsteady.exactly (fun o e ho hcurrent => hcurrent.step ho e) (steady_start env server) hstart hes).2

/-- Another book, whose first chapter has another name. -/
def otherBook : Json :=
  .object [("id", .string "session2"), ("duration", .number 10), ("audioTracks", .array
    [.object [("index", .number 1), ("startOffset", .number 0), ("duration", .number 10),
      ("contentUrl", .string "/b")]]),
    ("chapters", .array [.object [("start", .number 0), ("end", .number 10), ("title", .string "Other")]])]

/-- The first book plays at its start when the second is asked for. -/
def announced : List Event := chapteredOpened ++ [.playItem "book2"]

def otherReply : Event := .reply 2 ⟨200, true, false, otherBook, "", none⟩

/-- The index is 0 in both, so nothing is announced and the observer keeps the old title. -/
theorem title_unannounced :
    let o := observing.run {session := samplePlayer} (announced ++ [otherReply])
    o.session.chapterTitle = "Other" ∧ o.shown = ⟨0, "One"⟩ ∧ ¬o.Current := by
  decide +kernel

theorem chapters_announced_chaptered :
    let o := observing.run {session := samplePlayer} announced
    o.Current ∧ (observing.step o (.mpv (.timePos 5))).Current ∧ ¬(observing.step o otherReply).Current :=
  have h := chapters_announced samplePlayer.env sampleServer announced (by decide +kernel)
  ⟨h.1, (h.2 _).mpr (by decide +kernel), fun hcurrent => absurd ((h.2 otherReply).mp hcurrent) (by decide +kernel)⟩

end PlaybackSession

end ShelfRemote.Player
