import ShelfRemote.Player.Course

/-! What an event does to the course of a session.

Along one event the course moves in small steps (`Move`): a timer changes, a report goes
out, the session closes, the user's seek is noted, a playlist is loaded. What holds of
every move is proved by cases on it and carried over their sequence (`Moves`).
`handle_course` says once what each event can do. -/
namespace ShelfRemote.Player
open Qt Net Runs

namespace PlaybackSession.Event

/-- The user, or the end of a chapter, may move the position. -/
def seeks : Event → Bool
  | .seekGlobal _ | .skip _ | .nextChapter | .previousChapter | .mpv (.timePos _) => true
  | _ => false

/-- A file has ended on its own. -/
def ends : Event → Bool
  | .mpv (.endFile .eof) => true
  | _ => false

theorem ends_eq {e : Event} (h : e.ends = true) : e = .mpv (.endFile .eof) := by
  unfold ends at h
  split at h
  · rfl
  · cases h

/-- A session may end. -/
def closes : Event → Bool
  | .playItem _ | .playEpisode _ _ | .stopAndClose | .aboutToQuit | .mpv (.endFile .eof)
  | .mpv (.endFile (.error _)) => true
  | _ => false

theorem closes_seeks {e : Event} (h : e.closes = true) : e.seeks = false := by
  unfold closes at h
  split at h <;> first | rfl | cases h

/-- The item and the episode a play request is about, and where it goes. -/
def asks (server : Endpoints) : Event → Option (String × String × Target)
  | .playItem itemId => some (itemId, "", server.play itemId)
  | .playEpisode itemId episodeId => some (itemId, episodeId, server.playEpisode itemId episodeId)
  | _ => none

end PlaybackSession.Event

namespace Course

/-- What an event does to the course, but for a reply, the passing of time and what the
client is set to. -/
inductive Move (e : PlaybackSession.Event) (c : Course) : Course → Prop where
  | stop (hidle : c.active = false) : Move e c {c with tape := c.tape.exec .stop}
  | interval (due : Option Nat) (h : due ≠ none → c.active = true ∨ c.syncTimer ≠ none) :
      Move e c {c with syncTimer := due}
  | countdown (due : Option Nat) (h : due ≠ none → c.active = true) : Move e c {c with sleepTimer := due}
  | heard (q : Rat) (hseeks : e.seeks = true) (hactive : c.active = true) : Move e c {c with position := q}
  /-- The debounce timer fires over a session that cannot report. -/
  | lapse (h : c.active = false ∨ c.sessionId = "") : Move e c {c with seekSyncTimer := none}
  | sync (p : Post) (hseeks : e.seeks = false) (hactive : c.active = true) (hid : c.sessionId ≠ "")
      (hp : c.Reports (c.server.sessionSync c.sessionId) p) :
      Move e c ({c with seekSyncTimer := none}.post p)
  | close (p : Post) (hcloses : e.closes = true) (hactive : c.active = true) (hid : c.sessionId ≠ "")
      (hp : c.Reports (c.server.sessionClose c.sessionId) p) :
      Move e c ((c.close (c.completed || e.ends)).post p)
  | abandon (hcloses : e.closes = true) (hactive : c.active = true) (hid : c.sessionId = "") :
      Move e c (c.close (c.completed || e.ends))
  | request {itemId episodeId : String} {target : Target} (p : Post)
      (hasks : e.asks c.server = some (itemId, episodeId, target)) (hidle : c.active = false)
      (hid : p.id = c.created) (htarget : p.target = target) (hclosure : p.closure = .play (c.asked + 1))
      (hbody : ∃ body, p.body = .play body) :
      Move e c (c.request itemId episodeId p)
  | seek (q : Rat) (hseeks : e.seeks = true) (hactive : c.active = true) : Move e c (c.seek q)
  | jump {c' : Course} (q : Rat) (hseeks : e.seeks = true) (hactive : c.active = true) (hload : c.Loads c') :
      Move e c (c'.seek q)
  /-- libmpv is already playing the next track. -/
  | turn (hends : e.ends = true) (hactive : c.active = true)
      (hnext : c.currentTrack + 1 ≤ c.queuedThroughTrack) :
      Move e c {c with currentTrack := c.currentTrack + 1}
  | reload {c' : Course} (hends : e.ends = true) (hactive : c.active = true) (hload : c.Loads c') : Move e c c'

/-- A sequence of moves. -/
def Moves (e : PlaybackSession.Event) : Course → Course → Prop := Relation.ReflTransGen (Move e)

section Moves
variable {e : PlaybackSession.Event} {a b c : Course}

theorem Moves.refl (c : Course) : Moves e c c := Relation.ReflTransGen.refl

theorem Moves.trans (h : Moves e a b) (h' : Moves e b c) : Moves e a c := Relation.ReflTransGen.trans h h'

theorem Moves.of_eq (h : b = a) : Moves e a b := by
  rw [h]
  exact Moves.refl a

theorem Move.moves (h : Move e a b) : Moves e a b := Relation.ReflTransGen.single h

/-- What no move changes: the book that is open, and where it comes from. -/
structure Frame (a b : Course) : Prop where
  text : b.text = a.text
  sort : b.sort = a.sort
  server : b.server = a.server
  accessToken : b.accessToken = a.accessToken
  isHls : b.isHls = a.isHls
  duration : b.duration = a.duration
  tracks : b.tracks = a.tracks
  chapters : b.chapters = a.chapters
  now : b.now = a.now
  stays : b.active = true →
    a.active = true ∧ b.sessionId = a.sessionId ∧ b.itemId = a.itemId ∧ b.episodeId = a.episodeId

theorem Frame.trans (h : Frame a b) (h' : Frame b c) : Frame a c where
  text := h'.text.trans h.text
  sort := h'.sort.trans h.sort
  server := h'.server.trans h.server
  accessToken := h'.accessToken.trans h.accessToken
  isHls := h'.isHls.trans h.isHls
  duration := h'.duration.trans h.duration
  tracks := h'.tracks.trans h.tracks
  chapters := h'.chapters.trans h.chapters
  now := h'.now.trans h.now
  stays := fun hactive =>
    have ⟨hbefore, hid, hitem, hepisode⟩ := h'.stays hactive
    have ⟨hfirst, hid', hitem', hepisode'⟩ := h.stays hbefore
    ⟨hfirst, hid.trans hid', hitem.trans hitem', hepisode.trans hepisode'⟩

theorem Loads.frame (h : a.Loads b) : Frame a b := by
  cases h with
  | load => exact ⟨rfl, rfl, rfl, rfl, rfl, rfl, rfl, rfl, rfl, fun hactive => ⟨hactive, rfl, rfl, rfl⟩⟩

theorem Move.frame (h : Move e a b) : Frame a b := by
  cases h with
  | close | abandon => exact ⟨rfl, rfl, rfl, rfl, rfl, rfl, rfl, rfl, rfl, fun hactive => nomatch hactive⟩
  | request _ _ hidle =>
    exact ⟨rfl, rfl, rfl, rfl, rfl, rfl, rfl, rfl, rfl, fun hactive => nomatch hidle.symm.trans hactive⟩
  | jump _ _ _ hload => exact {hload.frame with}
  | reload _ _ hload => exact hload.frame
  | _ => exact ⟨rfl, rfl, rfl, rfl, rfl, rfl, rfl, rfl, rfl, fun hactive => ⟨hactive, rfl, rfl, rfl⟩⟩

theorem Moves.frame (h : Moves e a b) : Frame a b := by
  induction h with
  | refl => exact ⟨rfl, rfl, rfl, rfl, rfl, rfl, rfl, rfl, rfl, fun hactive => ⟨hactive, rfl, rfl, rfl⟩⟩
  | tail _ hmove ih => exact ih.trans hmove.frame

/-- What every move preserves, while the book is the one the event finds, holds after all
of them. -/
theorem Moves.preserves {P : Course → Prop} (h : Moves e a b)
    (hmove : ∀ {b c}, Frame a b → Move e b c → P b → P c) (ha : P a) : P b := by
  induction h with
  | refl => exact ha
  | tail hbefore hnext ih => exact hmove (Moves.frame hbefore) hnext ih

end Moves

end Course

namespace PlaybackSession
variable {s : PlaybackSession} {e : Event}

open Course

/-! ### What leaves the course alone -/

@[simp] theorem play_course : s.play.course = s.course := by unfold play; split <;> rfl

@[simp] theorem pause_course : s.pause.course = s.course := by unfold pause; split <;> rfl

@[simp] theorem togglePlayPause_course : s.togglePlayPause.course = s.course := by
  unfold togglePlayPause
  split_ifs <;> simp

/-! ### Timers and reports -/

theorem clearSleepTimer_course (s : PlaybackSession) : Moves e s.course s.clearSleepTimer.course :=
  (Move.countdown none fun h => absurd rfl h).moves

theorem resumeSleepCountdown_course (hactive : s.active = true) :
    Moves e s.course s.resumeSleepCountdown.course := by
  unfold resumeSleepCountdown
  split
  · exact Moves.refl _
  · exact (Move.countdown _ fun _ => hactive).moves

theorem holdSleepCountdown_course (s : PlaybackSession) : Moves e s.course s.holdSleepCountdown.course := by
  unfold holdSleepCountdown
  split
  · exact Moves.refl _
  · exact (Move.countdown none fun h => absurd rfl h).moves

theorem setSleepTimer_course (s : PlaybackSession) (minutes : Int) :
    Moves e s.course (s.setSleepTimer minutes).course := by
  have hclear : Moves e s.course s.clearSleepTimer.course := clearSleepTimer_course s
  unfold setSleepTimer
  dsimp only
  split_ifs with hidle
  · exact hclear
  · exact hclear.trans (resumeSleepCountdown_course (s := {s.clearSleepTimer with
      sleepMinutes := max 0 minutes, sleepRemainingMs := max 0 minutes * 60 * 1000}) (by simpa using hidle))
  · exact hclear

theorem setSleepAtChapterEnd_course (s : PlaybackSession) :
    Moves e s.course s.setSleepAtChapterEnd.course := by
  have hclear : Moves e s.course s.clearSleepTimer.course := clearSleepTimer_course s
  unfold setSleepAtChapterEnd
  dsimp only
  split <;> exact hclear

theorem cycleSleepTimer_course (s : PlaybackSession) : Moves e s.course s.cycleSleepTimer.course := by
  unfold cycleSleepTimer
  split_ifs
  · exact setSleepTimer_course s 0
  · exact setSleepTimer_course s 15
  · exact setSleepTimer_course s 30
  · exact setSleepTimer_course s 60
  · exact setSleepTimer_course s 0
  · exact setSleepAtChapterEnd_course s

/-- A session that is open posts its position, and no seek is left to report. -/
theorem sync_posts (hactive : s.active = true) (hid : s.sessionId ≠ "") :
    ∃ p, s.sync.course = ({s.course with seekSyncTimer := none} : Course).post p ∧
      s.course.Reports (s.server.sessionSync s.sessionId) p := by
  unfold sync
  rw [if_neg (by simp [hactive, hid])]
  exact ⟨_, rfl, rfl, rfl, ⟨_, rfl⟩, fun _ => Closure.noConfusion⟩

theorem sync_course (s : PlaybackSession) (hseeks : e.seeks = false) : Moves e s.course s.sync.course := by
  by_cases h : s.active = true ∧ s.sessionId ≠ ""
  · obtain ⟨p, hcourse, hp⟩ := sync_posts h.1 h.2
    rw [hcourse]
    exact (Move.sync p hseeks h.1 h.2 hp).moves
  · have hsame : s.sync = s := if_pos (by simpa [imp_iff_not_or] using h)
    rw [hsame]
    exact Moves.refl _

theorem emitActiveChanged_course (s : PlaybackSession) :
    s.emitActiveChanged.course =
      {s.course with signals := s.course.signals ++
        [.activeChanged s.active s.itemId s.episodeId s.globalPosition s.duration s.completed]} :=
  emit_course s rfl

theorem flushAndClose_course (hcloses : e.closes = true) (hactive : s.active = true) (completed : Bool)
    (hcompleted : completed = (s.completed || e.ends)) (blocking : Bool) :
    Move e s.course (({s with completed} : PlaybackSession).flushAndClose blocking).course := by
  subst hcompleted
  let listened := (s.listen.setPlaying s.now false).takeListened s.now
  let closed : PlaybackSession :=
    {s.clearSleepTimer with
      completed := s.completed || e.ends
      syncTimer := none
      seekSyncTimer := none
      listen := listened.1
      spans := []
      active := false
      sessionId := ""}
  have hclosed : closed.emitActiveChanged.course = s.course.close (s.completed || e.ends) :=
    emitActiveChanged_course closed
  unfold flushAndClose
  rw [if_neg (by simp [hactive])]
  dsimp only
  split
  · next hid =>
    show Move e s.course closed.emitActiveChanged.course
    rw [hclosed]
    exact .abandon hcloses hactive hid
  · next hid =>
    let p : Post :=
      ⟨s.created, s.server.sessionClose s.sessionId, .report ⟨s.globalPosition, listened.2, s.duration⟩,
        if blocking then .quit else .report listened.2 s.listenGeneration, s.listenGeneration, s.spans⟩
    show Move e s.course (closed.emitActiveChanged.course.post p)
    rw [hclosed]
    refine .close p hcloses hactive hid ⟨rfl, rfl, ⟨_, rfl⟩, fun gen => ?_⟩
    cases blocking <;> exact Closure.noConfusion

theorem stop_course (h : s.active = false) (stopped : Nat) :
    Move e s.course ({s with mpv := s.mpv.stop, stopped} : PlaybackSession).course :=
  .stop h

theorem stopAndClose_course (hcloses : e.closes = true) (hends : e.ends = false) (s : PlaybackSession) :
    Moves e s.course s.stopAndClose.course := by
  have hidle : s.flushAndClose.active = false := flushAndClose_idle s false
  have hstop : Move e s.flushAndClose.course s.stopAndClose.course := stop_course hidle _
  cases hactive : s.active
  · have hsame : s.flushAndClose = s := if_pos (by simp [hactive])
    exact (hsame ▸ hstop).moves
  · have hclose := flushAndClose_course hcloses hactive s.completed (by simp [hends]) false
    exact hclose.moves.trans hstop.moves

theorem leaveItem_course (hcloses : e.closes = true) (hends : e.ends = false) (s : PlaybackSession) :
    Moves e s.course s.leaveItem.course := by
  unfold leaveItem
  split
  · next hactive =>
    have hclose := flushAndClose_course hcloses hactive s.completed (by simp [hends]) false
    exact hclose.moves.trans (stop_course (flushAndClose_idle s false) _).moves
  · exact Moves.refl _

theorem onPlayingChanged_course (hseeks : e.seeks = false) (s : PlaybackSession) (playing : Bool) :
    Moves e s.course (s.onPlayingChanged playing).course := by
  unfold onPlayingChanged
  dsimp only
  split
  · exact Moves.refl _
  · next h =>
    have hactive : s.active = true := by simpa using h
    split
    · have hinterval : Move e s.course {s.course with syncTimer := some (s.now + syncIntervalMs)} :=
        .interval _ fun _ => .inl hactive
      exact hinterval.moves.trans (resumeSleepCountdown_course (s := {s with
        playing, listen := s.listen.setPlaying s.now playing, syncTimer := some (s.now + syncIntervalMs)})
        hactive)
    · have hinterval : Move e s.course {s.course with syncTimer := none} :=
        .interval _ fun h => absurd rfl h
      refine hinterval.moves.trans (Moves.trans ?_ (sync_course _ hseeks))
      exact holdSleepCountdown_course {s with
        playing, listen := s.listen.setPlaying s.now playing, syncTimer := none}

theorem updatePlaying_course (hseeks : e.seeks = false) (s : PlaybackSession) :
    Moves e s.course s.updatePlaying.course := by
  unfold updatePlaying
  split
  · exact Moves.refl _
  · exact onPlayingChanged_course hseeks {s with mpv := s.mpv.updatePlaying} s.mpv.effective

/-! ### Seeks and ends of files -/

theorem scheduleSync_course (hactive : s.active = true) :
    s.scheduleSync.course = {s.course with seekSyncTimer := some (s.now + seekSyncDebounceMs)} := by
  unfold scheduleSync
  rw [if_pos hactive]
  rfl

theorem noted_course (hactive : s.active = true) (q : Rat) : (s.noted q).course = s.course.seek q := by
  let moved : PlaybackSession := {s with globalPosition := q}
  have hemitted : ((moved.emit (.positionChanged q)).emit (.seeked q)).course =
      {moved.course with signals := s.course.signals ++ [.seeked q]} := by
    rw [emit_course _ rfl, emit_unmarked _ rfl]
    rfl
  have hnoted : ∀ s' : PlaybackSession, s'.active = true → s'.now = s.now →
      s'.course = ((moved.emit (.positionChanged q)).emit (.seeked q)).course →
      s'.scheduleSync.course = s.course.seek q := by
    intro s' hactive' hnow hs'
    rw [scheduleSync_course hactive', hs', hemitted, hnow]
    rfl
  unfold noted
  dsimp only
  split
  · exact hnoted _ hactive rfl rfl
  · exact hnoted _ hactive rfl rfl

/-- What a seek needs to load another track. -/
def Stocked (s : PlaybackSession) : Prop := s.active = true → s.tracks ≠ []

theorem seekGlobal_course (hseeks : e.seeks = true) (hstocked : s.Stocked) (seconds : Rat) :
    Moves e s.course (s.seekGlobal seconds).course := by
  obtain ⟨-, he⟩ | ⟨hactive, ⟨-, he⟩ | ⟨-, he⟩⟩ := seekGlobal_cases s seconds
  · rw [he]
    exact Moves.refl _
  · rw [he, noted_course]
    · exact (Move.seek _ hseeks hactive).moves
    · exact hactive
  · have hload := loadTrack_course (hstocked hactive) (s.aim seconds) (!s.mpv.paused)
    have hopen : (s.loadTrackForGlobal (s.aim seconds) (!s.mpv.paused)).active = true :=
      (congrArg Books.active (loadTrack_books _ _)).trans hactive
    rw [he, noted_course hopen]
    exact (Move.jump _ hseeks hactive hload).moves

theorem skip_course (hseeks : e.seeks = true) (hstocked : s.Stocked) (delta : Rat) :
    Moves e s.course (s.skip delta).course :=
  seekGlobal_course hseeks hstocked _

theorem nextChapter_course (hseeks : e.seeks = true) (hstocked : s.Stocked) :
    Moves e s.course s.nextChapter.course := by
  unfold nextChapter
  dsimp only
  split_ifs
  · exact Moves.refl _
  · exact skip_course hseeks hstocked _
  · exact seekGlobal_course hseeks hstocked _
  · exact Moves.refl _

theorem previousChapter_course (hseeks : e.seeks = true) (hstocked : s.Stocked) :
    Moves e s.course s.previousChapter.course := by
  unfold previousChapter
  dsimp only
  split_ifs
  · exact Moves.refl _
  · exact skip_course hseeks hstocked _
  · exact seekGlobal_course hseeks hstocked _
  · exact seekGlobal_course hseeks hstocked _

theorem onMpvPosition_course (hseeks : e.seeks = true) (hstocked : s.Stocked) (q : Rat) :
    Moves e s.course (s.onMpvPosition q).course := by
  unfold onMpvPosition
  split
  · exact Moves.refl _
  · next h =>
    have hactive : s.active = true := by simp_all
    dsimp only
    generalize (if s.isHls then q else (s.trackAt s.currentTrack).startOffset + q) = global
    let heard : PlaybackSession :=
      ({s with globalPosition := global}.emit (.positionChanged global)).updateChapterForPosition global
    have hcourse : heard.course = {s.course with position := global} := by
      rw [updateChapter_course, emit_unmarked _ rfl]
      rfl
    have hheard : Moves e s.course heard.course := hcourse ▸ (Move.heard global hseeks hactive).moves
    have hpaused : Moves e s.course heard.clearSleepTimer.pause.course := by
      rw [pause_course]
      exact hheard.trans (clearSleepTimer_course heard)
    split
    · split
      · have htracks : heard.clearSleepTimer.pause.tracks = s.tracks :=
          calc heard.clearSleepTimer.pause.tracks
            _ = heard.course.tracks := congrArg Course.tracks (pause_course (s := heard.clearSleepTimer))
            _ = s.tracks := congrArg Course.tracks hcourse
        refine hpaused.trans (seekGlobal_course hseeks (fun _ => ?_) _)
        rw [htracks]
        exact hstocked hactive
      · exact hpaused
    · exact hheard

theorem onEndOfFile_course (hends : e.ends = true) (hcloses : e.closes = true) (hstocked : s.Stocked) :
    Moves e s.course s.onEndOfFile.course := by
  have hdone : s.active = true →
      Moves e s.course ({s with completed := true} : PlaybackSession).stopAndClose.course := by
    intro hactive
    have hclose := flushAndClose_course hcloses hactive true (by simp [hends]) false
    exact hclose.moves.trans (stop_course (flushAndClose_idle _ false) _).moves
  unfold onEndOfFile
  dsimp only
  split_ifs with hidle hhls hmore hqueued
  · exact Moves.refl _
  · exact hdone (by simpa using hidle)
  · have hactive : s.active = true := by simpa using hidle
    have hsync := sync_course (e := e) s (Event.closes_seeks hcloses)
    have hdeck : s.sync.deck = s.deck := sync_deck
    have hcurrent : s.sync.course.currentTrack = s.currentTrack := congrArg Deck.currentTrack hdeck
    refine hsync.trans ?_
    rw [updateChapter_course]
    have hturn : Move e s.sync.course {s.sync.course with currentTrack := s.sync.course.currentTrack + 1} :=
      .turn hends ((congrArg Deck.active hdeck).trans hactive) (hcurrent.symm ▸ hqueued)
    rw [hcurrent] at hturn
    exact hturn.moves
  · have hactive : s.active = true := by simpa using hidle
    have hdeck : s.sync.deck = s.deck := sync_deck
    have htracks : s.sync.tracks ≠ [] := by
      rw [show s.sync.tracks = s.tracks from congrArg Deck.tracks hdeck]
      exact hstocked hactive
    have hload := loadTrack_course htracks (s.sync.startOf (s.currentTrack + 1)) true
    exact (sync_course s (Event.closes_seeks hcloses)).trans
      (Move.reload hends ((congrArg Deck.active hdeck).trans hactive) hload).moves
  · exact hdone (by simpa using hidle)

theorem handleEvent_course (s : PlaybackSession) (e : MpvEvent) :
    ({s with mpv := s.mpv.handleEvent e} : PlaybackSession).course = s.course := by
  simp only [course, MpvController.handleEvent_tape]

theorem onMpvError_course (hcloses : e.closes = true) (hends : e.ends = false) (s : PlaybackSession)
    (message : String) : Moves e s.course (s.onMpvError message).course := by
  unfold onMpvError
  rw [emit_unmarked _ rfl]
  exact leaveItem_course hcloses hends s

theorem onMpvEvent_course (hstocked : s.Stocked) (e : MpvEvent) :
    Moves (.mpv e) s.course (s.onMpvEvent e).course := by
  have hheard := handleEvent_course s e
  unfold onMpvEvent
  dsimp only
  rw [← hheard]
  cases e with
  | timePos q =>
    exact onMpvPosition_course (e := .mpv (.timePos q)) (s := {s with mpv := s.mpv.handleEvent (.timePos q)})
      rfl hstocked q
  | duration _ => exact Moves.refl _
  | fileLoaded => exact Moves.refl _
  | pause _ => exact updatePlaying_course rfl _
  | coreIdle _ => exact updatePlaying_course rfl _
  | pausedForCache _ => exact updatePlaying_course rfl _
  | endFile reason =>
    cases reason with
    | eof => exact (onEndOfFile_course rfl rfl hstocked).trans (updatePlaying_course rfl _)
    | error message => exact (onMpvError_course rfl rfl _ message).trans (updatePlaying_course rfl _)
    | other => exact updatePlaying_course rfl _

/-! ### What an event does to the course -/

theorem onSyncTimeout_course (hseeks : e.seeks = false) (s : PlaybackSession) :
    Moves e s.course s.onSyncTimeout.course := by
  unfold onSyncTimeout
  split
  · exact Moves.refl _
  · next due hdue =>
    have hagain : Move e s.course {s.course with syncTimer := some (due + syncIntervalMs)} :=
      .interval _ fun _ => .inr fun hnone => nomatch hnone.symm.trans hdue
    exact hagain.moves.trans
      (sync_course {s with syncTimer := some (due + syncIntervalMs)} hseeks)

theorem onSeekSyncTimeout_course (hseeks : e.seeks = false) (s : PlaybackSession) :
    Moves e s.course s.onSeekSyncTimeout.course := by
  unfold onSeekSyncTimeout
  split
  · exact Moves.refl _
  · by_cases hidle : s.active = false ∨ s.sessionId = ""
    · have hsame : ({s with seekSyncTimer := none} : PlaybackSession).sync = {s with seekSyncTimer := none} :=
        if_pos (by simpa using hidle)
      rw [hsame]
      exact (Move.lapse hidle).moves
    · have hsame : ({s with seekSyncTimer := none} : PlaybackSession).sync = s.sync := by
        unfold sync
        split <;> simp_all
      rw [hsame]
      exact sync_course s hseeks

theorem playItem_course (hcloses : e.closes = true) (hends : e.ends = false) (s : PlaybackSession)
    {itemId episodeId : String} {target : Target}
    (hasks : e.asks s.leaveItem.server = some (itemId, episodeId, target)) :
    Moves e s.course (startSession {s.leaveItem with itemId, episodeId} target).course := by
  refine (leaveItem_course hcloses hends s).trans (Move.moves ?_)
  let p : Post :=
    ⟨s.leaveItem.created, target, .play (playRequestBody s.leaveItem.env),
      .play (s.leaveItem.playGeneration + 1), s.leaveItem.listenGeneration, []⟩
  exact .request p hasks (leaveItem_idle s) rfl rfl rfl ⟨_, rfl⟩

theorem onAccessTokenChanged_course (s : PlaybackSession) (token : String) :
    (s.onAccessTokenChanged token).course =
      {s.course with
        accessToken := token
        tape := if s.course.active && s.course.usesAuth then
            {s.course.tape with header := "Authorization: Bearer " ++ token}
          else s.course.tape} := by
  have hcond : (s.course.active && s.course.usesAuth) = (s.active && s.currentPlaylistUsesAuth) := rfl
  unfold onAccessTokenChanged
  dsimp only
  rw [hcond]
  split <;> rfl

end PlaybackSession

namespace Course

/-- What an event can do to the course. -/
inductive Step (c : Course) : PlaybackSession.Event → Course → Prop where
  | moves {c' : Course} {e : PlaybackSession.Event} (h : Moves e c c') : Step c e c'
  | tick (ms : Nat) : Step c (.tick ms) {c with now := c.now + ms}
  | accessToken (token : String) :
      Step c (.accessToken token)
        {c with
          accessToken := token
          tape := if c.active && c.usesAuth then {c.tape with header := "Authorization: Bearer " ++ token}
            else c.tape}
  | baseUrl (server : Endpoints) : Step c (.baseUrl server) {c with server}
  /-- A reply that opens no session. -/
  | dropped {id : Nat} {res : ApiResponse} (rest : List Post) (h : rest.Sublist c.inFlight) :
      Step c (.reply id res) {c with inFlight := rest}
  /-- The newest play request is answered, and its response read. -/
  | unusable {id : Nat} {res : ApiResponse} {p : Post} {rest : List Post}
      (hpick : pick (fun p => p.id == id) c.inFlight = some (p, rest)) (hp : p.closure = .play c.asked)
      (hidle : c.active = false) : Step c (.reply id res) ({c with inFlight := rest}.read res.body.toObject)
  | opened {id : Nat} {res : ApiResponse} {p : Post} {rest : List Post} {c' : Course} (resume : Rat)
      (hpick : pick (fun p => p.id == id) c.inFlight = some (p, rest)) (hp : p.closure = .play c.asked)
      (hidle : c.active = false) (hid : (c.read res.body.toObject).sessionId ≠ "")
      (hload : (({c with inFlight := rest}.read res.body.toObject).opens resume).Loads c') :
      Step c (.reply id res) c'

end Course

namespace PlaybackSession
variable {s : PlaybackSession}

open Course

theorem openAt_course (s : PlaybackSession) (resume : Rat) (hne : s.tracks ≠ []) :
    (s.course.opens resume).Loads (s.openAt resume).course := by
  let active : PlaybackSession := {s with globalPosition := resume, active := true, completed := false}
  have hemitted : active.emitActiveChanged.course = s.course.opens resume := emitActiveChanged_course active
  have hload : ∀ s' : PlaybackSession, s'.tracks ≠ [] → s'.course = active.emitActiveChanged.course →
      (s.course.opens resume).Loads (s'.loadTrackForGlobal resume true).course := by
    intro s' hne' hs'
    rw [← hemitted, ← hs']
    exact loadTrack_course hne' resume true
  refine hload {active.emitActiveChanged with
    listen := s.listen.reset
    spans := []
    listenGeneration := s.listenGeneration + 1
    mpv := if 0 < s.env.defaultRate then s.mpv.setSpeed s.env.defaultRate else s.mpv} hne ?_
  split <;> rfl

theorem finished_course (hasked : s.books.Asked) (id : Nat) (res : ApiResponse) :
    Step s.course (.reply id res) (s.finished id res).course := by
  unfold finished
  split
  · exact .moves (Moves.refl _)
  · next p rest hpick =>
    have hsub := pick_sublist hpick
    have hdropped : Step s.course (.reply id res) {s.course with inFlight := rest} := .dropped rest hsub
    dsimp only
    split
    · next gen hp =>
      unfold onPlayReply
      split_ifs with hlate
      · exact hdropped
      · rw [emit_unmarked _ rfl]
        exact hdropped
      · have hgen : gen = s.playGeneration := by simp_all
        have hp' : p.closure = .play s.playGeneration := hgen ▸ hp
        have hidle : s.active = false := hasked.closed hpick hp'
        unfold applyPlayResponse
        dsimp only
        split_ifs with husable
        · exact .opened _ hpick hp' hidle husable.1 (openAt_course _ _ husable.2.1)
        · rw [emit_unmarked _ rfl]
          exact .unusable hpick hp' hidle
    · unfold onReportReply
      split_ifs <;> exact hdropped
    · exact hdropped

/-- **Whatever an event does, to the course it is one of these steps.** -/
theorem handle_course (hasked : s.books.Asked) (hstocked : s.Stocked) (e : Event) :
    Step s.course e (s.handle e).course := by
  cases e with
  | reply id res => exact finished_course hasked id res
  | tick ms => exact .tick ms
  | accessToken token =>
    show Step s.course _ (s.onAccessTokenChanged token).course
    rw [onAccessTokenChanged_course]
    exact .accessToken token
  | baseUrl server => exact .baseUrl server
  | playItem itemId => exact .moves (playItem_course (e := .playItem itemId) rfl rfl s rfl)
  | playEpisode itemId episodeId =>
    exact .moves (playItem_course (e := .playEpisode itemId episodeId) rfl rfl s rfl)
  | play => exact .moves (Moves.of_eq play_course)
  | pause => exact .moves (Moves.of_eq pause_course)
  | togglePlayPause => exact .moves (Moves.of_eq togglePlayPause_course)
  | seekGlobal q => exact .moves (seekGlobal_course rfl hstocked q)
  | skip q => exact .moves (skip_course rfl hstocked q)
  | nextChapter => exact .moves (nextChapter_course rfl hstocked)
  | previousChapter => exact .moves (previousChapter_course rfl hstocked)
  | setSpeed _ | setVolume _ | settings _ _ => exact .moves (Moves.refl _)
  | setSleepTimer minutes => exact .moves (setSleepTimer_course s minutes)
  | setSleepAtChapterEnd => exact .moves (setSleepAtChapterEnd_course s)
  | cycleSleepTimer => exact .moves (cycleSleepTimer_course s)
  | stopAndClose => exact .moves (stopAndClose_course rfl rfl s)
  | aboutToQuit =>
    cases hactive : s.active
    · have hsame : s.flushAndClose true = s := if_pos (by simp [hactive])
      exact .moves (Moves.of_eq (congrArg course hsame))
    · exact .moves (flushAndClose_course rfl hactive s.completed (by simp [Event.ends]) true).moves
  | mpv e => exact .moves (onMpvEvent_course hstocked e)
  | syncTimeout => exact .moves (onSyncTimeout_course rfl s)
  | seekSyncTimeout => exact .moves (onSeekSyncTimeout_course rfl s)
  | sleepTimeout =>
    show Step s.course _ s.onSleepTimeout.course
    unfold onSleepTimeout
    split
    · exact .moves (Moves.refl _)
    · rw [pause_course]
      exact .moves (clearSleepTimer_course s)

/-- The event opened a session. -/
def opens (s : PlaybackSession) : Bool := s.signals.any Signal.opens

/-- The event sought a position. -/
def sought (s : PlaybackSession) : Bool := s.signals.any Signal.seeks

theorem any_course (s : PlaybackSession) {f : Signal → Bool} (h : ∀ signal, f signal = true → signal.marks = true) :
    s.course.signals.any f = s.signals.any f := by
  show (s.signals.filter Signal.marks).any f = _
  rw [List.any_filter]
  congr 1
  funext signal
  cases hf : f signal
  · rw [Bool.and_false]
  · rw [h signal hf, Bool.and_true]

theorem opens_course (s : PlaybackSession) : s.course.signals.any Signal.opens = s.opens :=
  s.any_course fun signal h => by cases signal <;> simp_all [Signal.opens, Signal.marks]

theorem sought_course (s : PlaybackSession) : s.course.signals.any Signal.seeks = s.sought :=
  s.any_course fun signal h => by cases signal <;> simp_all [Signal.seeks, Signal.marks]

end PlaybackSession

end ShelfRemote.Player
