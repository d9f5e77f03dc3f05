import ShelfRemote.Player.Timeline

/-! What is heard of a playback session.

`Hearing` is the part of a session its listener is about: whether it plays, the position
and its chapter, the sleep timer, and the clocks that follow what libmpv reports. Each
function of the session has its counterpart here; `handle_hearing` says once what each
event can do, and `reply_hearing` what a play response that is read does. -/
namespace ShelfRemote.Player
open Qt Net Runs

/-- The listener is told by these signals. -/
def Signal.heard : Signal → Bool
  | .seeked _ | .chapterChanged .. => true
  | .activeChanged .. | .positionChanged _ | .playbackError _ => false

/-- The title `chapterTitle` shows for a chapter index. -/
def titleAt (chapters : List Chapter) (index : Int) : String :=
  if index < 0 ∨ chapters.length ≤ index then "" else ((chapters[index.toNat]?).map (·.title)).getD ""

/-- The six fields of the sleep timer. -/
structure Sleep where
  timer : Option Nat := none
  tick : Bool := false
  minutes : Int := 0
  remainingMs : Int := 0
  atChapterEnd : Bool := false
  chapterEnd : Rat := 0
  deriving DecidableEq

structure Hearing where
  active : Bool
  playing : Bool
  /-- The last `playingChanged` of the libmpv wrapper. -/
  reported : Bool
  /-- Whether libmpv was asked to pause. -/
  paused : Bool
  /-- The listening clock runs. -/
  listening : Bool
  /-- The interval timer runs. -/
  interval : Bool
  now : Nat
  duration : Rat
  position : Rat
  chapters : List Chapter
  chapterIndex : Int
  sleep : Sleep
  signals : List Signal

namespace Hearing

def title (h : Hearing) : String := titleAt h.chapters h.chapterIndex

def aim (h : Hearing) (seconds : Rat) : Rat := max 0 (min h.duration seconds)

def chapterAt (h : Hearing) (q : Rat) : Int :=
  match h.chapters.findIdx? fun c => c.start ≤ q && q < c.stop with
  | some i => i
  | none => -1

def chapterEndFor (h : Hearing) (q : Rat) : Rat := PlaybackSession.chapterEndFor.go q h.chapters h.duration

def clear (h : Hearing) : Hearing := {h with sleep := {}}

def resume (h : Hearing) : Hearing :=
  if h.sleep.minutes ≤ 0 ∨ h.sleep.timer.isSome then h
  else {h with sleep := {h.sleep with
    timer := some (h.now + (PlaybackSession.toInt (max 1 h.sleep.remainingMs)).toNat)
    tick := true}}

def hold (h : Hearing) : Hearing :=
  match h.sleep.timer with
  | none => h
  | some due => {h with sleep := {h.sleep with remainingMs := ↑(due - h.now), timer := none, tick := false}}

def setTimer (h : Hearing) (minutes : Int) : Hearing :=
  if !h.active then h.clear
  else
    let h : Hearing :=
      {h with sleep := {minutes := max 0 minutes, remainingMs := max 0 minutes * 60 * 1000}}
    if h.playing then h.resume else h

def setChapterEnd (h : Hearing) : Hearing :=
  if h.active ∧ h.chapters ≠ [] then
    {h with sleep := {atChapterEnd := true, chapterEnd := h.chapterEndFor h.position}}
  else h.clear

/-- A session that is open ends. -/
def close (h : Hearing) : Hearing :=
  {h.clear with active := false, listening := false, interval := false}

def update (h : Hearing) (q : Rat) : Hearing :=
  if h.chapterAt q = h.chapterIndex then h
  else
    {h with
      chapterIndex := h.chapterAt q
      signals := h.signals ++ [.chapterChanged (h.chapterAt q) (titleAt h.chapters (h.chapterAt q))]}

def seek (h : Hearing) (q : Rat) : Hearing :=
  {h with
    position := q
    sleep := if h.sleep.atChapterEnd then {h.sleep with chapterEnd := h.chapterEndFor q} else h.sleep
    signals := h.signals ++ [.seeked q]}

/-- Within the file the chapter shown stays, into another it follows. -/
inductive Sought (h : Hearing) (q : Rat) : Hearing → Prop where
  | stay : Sought h q (h.seek q)
  | jump : Sought h q ((h.update q).seek q)

/-- A position libmpv reports. -/
def hear (h : Hearing) (q : Rat) : Hearing := ({h with position := q} : Hearing).update q

/-- The position is where playback is to stop for the end of the chapter. -/
def Reaches (h : Hearing) (q : Rat) : Prop := h.sleep.atChapterEnd = true ∧ h.sleep.chapterEnd - 1 / 20 ≤ q

instance (h : Hearing) (q : Rat) : Decidable (h.Reaches q) := inferInstanceAs (Decidable (_ ∧ _))

section Update
variable (h : Hearing) (q : Rat)

/-- A chapter that is shown, or not, leaves the rest. -/
theorem update_eq : ∃ signals, h.update q = {h with chapterIndex := h.chapterAt q, signals} := by
  unfold update
  split
  · next hsame => exact ⟨h.signals, hsame ▸ rfl⟩
  · exact ⟨_, rfl⟩

@[simp] theorem update_active : (h.update q).active = h.active := by
  obtain ⟨signals, he⟩ := h.update_eq q
  rw [he]

@[simp] theorem update_sleep : (h.update q).sleep = h.sleep := by
  obtain ⟨signals, he⟩ := h.update_eq q
  rw [he]

@[simp] theorem update_duration : (h.update q).duration = h.duration := by
  obtain ⟨signals, he⟩ := h.update_eq q
  rw [he]

@[simp] theorem update_chapters : (h.update q).chapters = h.chapters := by
  obtain ⟨signals, he⟩ := h.update_eq q
  rw [he]

end Update

/-- The mode is over and a pause asked for. -/
def halt (h : Hearing) (q : Rat) : Hearing := {(h.hear q).clear with paused := true}

/-- Playback stops for the end of the chapter, and steps back onto it. -/
inductive Stopped (h : Hearing) (q : Rat) : Hearing → Prop where
  | within {h' : Hearing} (hend : h.sleep.chapterEnd < h.duration)
      (hsought : (h.halt q).Sought (h.aim h.sleep.chapterEnd) h') : Stopped h q h'
  | last (hend : ¬h.sleep.chapterEnd < h.duration) : Stopped h q (h.halt q)

/-- What `playingChanged` does. -/
def report (h : Hearing) (playing : Bool) : Hearing :=
  let h := {h with playing, reported := playing}
  if !h.active then h
  else
    let h := {h with listening := playing, interval := playing}
    if playing then h.resume else h.hold

/-- The sleep timer runs out. -/
def expire (h : Hearing) : Hearing := {h.clear with paused := h.active || h.paused}

/-- A session opens and starts to play. -/
def start (h : Hearing) (resume : Rat) : Hearing :=
  ({h with active := true, position := resume, listening := false, paused := false} : Hearing).update resume

end Hearing

namespace PlaybackSession.Event

/-- The user or libmpv may change whether a pause is asked for. -/
def presses : Event → Bool
  | .play | .pause | .togglePlayPause | .mpv (.pause _) => true
  | _ => false

/-- libmpv tells where it is. -/
def hears : Event → Bool
  | .mpv (.timePos _) => true
  | _ => false

theorem hears_eq {e : Event} (h : e.hears = true) : ∃ place, e = .mpv (.timePos place) := by
  unfold hears at h
  split at h
  · exact ⟨_, rfl⟩
  · cases h

/-- The sleep timer may be set. -/
def sets : Event → Bool
  | .setSleepTimer _ | .setSleepAtChapterEnd | .cycleSleepTimer => true
  | _ => false

end PlaybackSession.Event

namespace Hearing

/-- What an event does to what is heard, but for a report that comes with it. -/
inductive Act (e : PlaybackSession.Event) (h : Hearing) : Hearing → Prop where
  | same : Act e h h
  | wait (ms : Nat) (he : e = .tick ms) : Act e h {h with now := h.now + ms}
  | press (paused : Bool) (he : e.presses = true) : Act e h {h with paused}
  | setTimer (minutes : Int) (he : e.sets = true) : Act e h (h.setTimer minutes)
  | setChapterEnd (he : e.sets = true) : Act e h h.setChapterEnd
  | seek {h' : Hearing} (q : Rat) (he : e.seeks = true) (hactive : h.active = true) (hsought : h.Sought q h') :
      Act e h h'
  | hear (q : Rat) (he : e.hears = true) (hactive : h.active = true) (hshort : ¬h.Reaches q) : Act e h (h.hear q)
  | stop {h' : Hearing} (q : Rat) (he : e.hears = true) (hactive : h.active = true) (hreach : h.Reaches q)
      (hstopped : h.Stopped q h') : Act e h h'
  /-- The next track plays, and its chapter is shown. -/
  | turn (q : Rat) (he : e.ends = true) (hactive : h.active = true) : Act e h (h.update q)
  | reload (q : Rat) (he : e.ends = true) (hactive : h.active = true) :
      Act e h (({h with paused := false} : Hearing).update q)
  | close (he : e.closes = true) (hactive : h.active = true) : Act e h h.close
  | expire (he : e = .sleepTimeout) (hruns : h.sleep.timer ≠ none) : Act e h h.expire

/-- What an event does, with the report that may come with it. -/
inductive Step (e : PlaybackSession.Event) (h : Hearing) : Hearing → Prop where
  | act {h' : Hearing} (hact : Act e h h') : Step e h h'
  | report {h' : Hearing} (playing : Bool) (hact : Act e h h') (hchange : playing ≠ h'.reported) :
      Step e h (h'.report playing)

end Hearing

namespace ProgressSyncer

theorem setPlaying_playing (p : ProgressSyncer) (now : Nat) (playing : Bool) :
    (p.setPlaying now playing).playing = playing := by
  unfold setPlaying
  split
  · next h => exact h.symm
  · split
    · next h => exact h.symm
    · next h => exact (eq_false_of_ne_true h).symm

theorem takeListened_playing (p : ProgressSyncer) (now : Nat) : (p.takeListened now).1.playing = p.playing := by
  unfold takeListened flushInto
  dsimp only
  split <;> rfl

theorem rollback_playing (p : ProgressSyncer) (listened : Nat) : (p.rollback listened).playing = p.playing := by
  unfold rollback
  split <;> rfl

end ProgressSyncer

namespace PlaybackSession
variable {s : PlaybackSession}

def hearing (s : PlaybackSession) : Hearing :=
  { active := s.active
    playing := s.playing
    reported := s.mpv.playing
    paused := s.mpv.paused
    listening := s.listen.playing
    interval := s.syncTimer.isSome
    now := s.now
    duration := s.duration
    position := s.globalPosition
    chapters := s.chapters
    chapterIndex := s.chapterIndex
    sleep :=
      { timer := s.sleepTimer
        tick := s.sleepTick
        minutes := s.sleepMinutes
        remainingMs := s.sleepRemainingMs
        atChapterEnd := s.sleepAtChapterEnd
        chapterEnd := s.sleepChapterEnd }
    signals := s.signals.filter Signal.heard }

theorem emit_hearing (s : PlaybackSession) {signal : Signal} (h : signal.heard = true) :
    (s.emit signal).hearing = {s.hearing with signals := s.hearing.signals ++ [signal]} := by
  simp only [hearing, emit, List.filter_append, List.filter_cons_of_pos h, List.filter_nil]

theorem emit_unheard (s : PlaybackSession) {signal : Signal} (h : signal.heard = false) :
    (s.emit signal).hearing = s.hearing := by
  simp [hearing, emit, h]

/-! ### Timers and reports -/

@[simp] theorem clearSleepTimer_hearing (s : PlaybackSession) : s.clearSleepTimer.hearing = s.hearing.clear := rfl

@[simp] theorem resumeSleepCountdown_hearing (s : PlaybackSession) :
    s.resumeSleepCountdown.hearing = s.hearing.resume := by
  unfold resumeSleepCountdown Hearing.resume
  exact apply_ite hearing _ _ _

@[simp] theorem holdSleepCountdown_hearing (s : PlaybackSession) :
    s.holdSleepCountdown.hearing = s.hearing.hold := by
  unfold holdSleepCountdown
  split
  · next hnone => simp only [Hearing.hold, hearing, hnone]
  · next due hdue => simp only [Hearing.hold, hearing, hdue]

theorem setSleepTimer_hearing (s : PlaybackSession) (minutes : Int) :
    (s.setSleepTimer minutes).hearing = s.hearing.setTimer minutes := by
  unfold setSleepTimer Hearing.setTimer
  dsimp only
  split
  · next hidle => exact (if_pos hidle).symm
  · next hopen =>
    refine Eq.trans ?_ (if_neg hopen).symm
    split
    · next hplaying =>
      rw [resumeSleepCountdown_hearing]
      exact (if_pos hplaying).symm
    · next hquiet => exact (if_neg hquiet).symm

theorem setSleepAtChapterEnd_hearing (s : PlaybackSession) :
    s.setSleepAtChapterEnd.hearing = s.hearing.setChapterEnd := by
  unfold setSleepAtChapterEnd Hearing.setChapterEnd
  exact apply_ite hearing _ _ _

theorem loadPlaylist_playing (m : MpvController) (entries : List Entry) (header : String) (q : Rat) :
    (m.loadPlaylist entries header q).playing = m.playing := by
  have happend : ∀ (rest : List Entry) (m : MpvController),
      (rest.foldl (fun m entry => m.command (.append entry)) m).playing = m.playing := by
    intro rest
    induction rest with
    | nil => exact fun _ => rfl
    | cons entry rest ih => exact fun m => ih _
  cases entries with
  | nil => rfl
  | cons first rest => exact happend rest _

@[simp] theorem sync_hearing (s : PlaybackSession) : s.sync.hearing = s.hearing := by
  unfold sync
  split
  · rfl
  · simp only [hearing, post, ProgressSyncer.takeListened_playing]

theorem flushAndClose_hearing (hactive : s.active = true) (completed blocking : Bool) :
    (({s with completed} : PlaybackSession).flushAndClose blocking).hearing = s.hearing.close := by
  have hlisten : ((s.listen.setPlaying s.now false).takeListened s.now).1.playing = false := by
    rw [ProgressSyncer.takeListened_playing, ProgressSyncer.setPlaying_playing]
  unfold flushAndClose
  rw [if_neg (by simp [hactive])]
  dsimp only
  split
  · simp only [hearing, clearSleepTimer, emitActiveChanged, emit, hlisten]
    simp [Hearing.close, Hearing.clear, Signal.heard]
  · simp only [hearing, clearSleepTimer, emitActiveChanged, emit, post, hlisten]
    simp [Hearing.close, Hearing.clear, Signal.heard]

theorem onPlayingChanged_hearing (s : PlaybackSession) (playing : Bool) :
    ({s with mpv := {s.mpv with playing}}.onPlayingChanged playing : PlaybackSession).hearing =
      s.hearing.report playing := by
  unfold onPlayingChanged Hearing.report
  dsimp only
  split
  · next hidle => exact (if_pos hidle).symm
  · next hopen =>
    refine Eq.trans ?_ (if_neg hopen).symm
    cases playing
    · rw [if_neg Bool.false_ne_true, if_neg Bool.false_ne_true, sync_hearing, holdSleepCountdown_hearing]
      simp [hearing, ProgressSyncer.setPlaying_playing]
    · rw [if_pos rfl, if_pos rfl, resumeSleepCountdown_hearing]
      simp [hearing, ProgressSyncer.setPlaying_playing]

theorem updatePlaying_hearing (s : PlaybackSession) :
    s.updatePlaying.hearing = s.hearing ∨
      s.mpv.effective ≠ s.hearing.reported ∧ s.updatePlaying.hearing = s.hearing.report s.mpv.effective := by
  unfold updatePlaying
  split
  · exact .inl rfl
  · next hchange => exact .inr ⟨hchange, onPlayingChanged_hearing s s.mpv.effective⟩

theorem onSleepTimeout_hearing (s : PlaybackSession) :
    s.onSleepTimeout.hearing = if s.hearing.sleep.timer.isSome then s.hearing.expire else s.hearing := by
  have hpause : ∀ s' : PlaybackSession,
      s'.pause.hearing = {s'.hearing with paused := s'.hearing.active || s'.hearing.paused} := by
    intro s'
    unfold pause
    split
    · next hactive =>
      simp only [hearing, hactive, Bool.true_or]
      rfl
    · next hidle =>
      simp only [hearing, eq_false_of_ne_true hidle, Bool.false_or]
  have htimer : s.hearing.sleep.timer = s.sleepTimer := rfl
  rw [htimer]
  unfold onSleepTimeout
  split
  · next hnone => simp [hnone]
  · next due hdue =>
    rw [hpause, hdue]
    rfl

theorem stopAndClose_hearing (hactive : s.active = true) (completed : Bool) :
    ({s with completed} : PlaybackSession).stopAndClose.hearing = s.hearing.close :=
  flushAndClose_hearing hactive completed false

theorem leaveItem_hearing (s : PlaybackSession) :
    s.leaveItem.hearing = if s.active then s.hearing.close else s.hearing := by
  unfold leaveItem
  split
  · next hactive => exact flushAndClose_hearing hactive s.completed false
  · rfl

/-! ### Seeks and ends of files -/

@[simp] theorem updateChapter_hearing (s : PlaybackSession) (q : Rat) :
    (s.updateChapterForPosition q).hearing = s.hearing.update q := by
  unfold updateChapterForPosition Hearing.update
  dsimp only
  split
  · next hsame => exact (if_pos hsame).symm
  · next hother =>
    rw [emit_hearing _ rfl]
    exact (if_neg hother).symm

theorem loadTrack_hearing (hne : s.tracks ≠ []) (q : Rat) (autoplay : Bool) :
    (s.loadTrackForGlobal q autoplay).hearing =
      ({s.hearing with paused := !autoplay} : Hearing).update q := by
  obtain ⟨idx, hidx, hlt⟩ := trackIndex_bounds hne q
  obtain ⟨hpaused, -, -⟩ := loadPlaylist_ends s.mpv (playlistFrom_spec hlt).1
    (s.authHeader (s.trackAt idx)) (if s.isHls then q else q - (s.trackAt idx).startOffset)
  have hplaying := loadPlaylist_playing s.mpv (s.playlistFrom idx)
    (s.authHeader (s.trackAt idx)) (if s.isHls then q else q - (s.trackAt idx).startOffset)
  unfold loadTrackForGlobal
  rw [hidx]
  dsimp only
  rw [if_neg (by omega), updateChapter_hearing, Int.toNat_natCast]
  congr 1
  cases autoplay
  · rw [if_neg Bool.false_ne_true]
    simp only [hearing, MpvController.pause, MpvController.requestPaused, MpvController.command, hplaying,
      Bool.not_false]
  · rw [if_pos rfl]
    simp only [hearing, hpaused, hplaying, Bool.not_true]

theorem noted_hearing (s : PlaybackSession) (q : Rat) : (s.noted q).hearing = s.hearing.seek q := by
  let moved : PlaybackSession := {s with globalPosition := q}
  have hemitted : ((moved.emit (.positionChanged q)).emit (.seeked q)).hearing =
      {moved.hearing with signals := s.hearing.signals ++ [.seeked q]} := by
    rw [emit_hearing _ rfl, emit_unheard _ rfl]
    rfl
  have hschedule : ∀ s' : PlaybackSession, s'.scheduleSync.hearing = s'.hearing := fun s' => by
    unfold scheduleSync
    split <;> rfl
  have hfollows : ∀ (s' : PlaybackSession) (sleepChapterEnd : Rat), ({s' with sleepChapterEnd}).hearing =
      {s'.hearing with sleep := {s'.hearing.sleep with chapterEnd := sleepChapterEnd}} := fun _ _ => rfl
  unfold noted
  dsimp only
  rw [hschedule]
  split
  · next hat =>
    have hat' : s.hearing.sleep.atChapterEnd = true := hat
    rw [hfollows, hemitted]
    unfold Hearing.seek
    rw [if_pos hat']
    rfl
  · next hat =>
    have hat' : ¬s.hearing.sleep.atChapterEnd = true := hat
    rw [hemitted]
    unfold Hearing.seek
    rw [if_neg hat']
    rfl

/-- A seek of a session that plays. -/
theorem seekGlobal_hearing (h : s.Playing) (seconds : Rat) :
    s.hearing.Sought (s.aim seconds) (s.seekGlobal seconds).hearing := by
  have hactive := h.active
  have hfirst := h.first
  have hlast := h.last
  obtain ⟨hclosed | hclosed | hclosed, -⟩ | ⟨-, ⟨-, he⟩ | ⟨-, he⟩⟩ := seekGlobal_cases s seconds
  · exact absurd (hactive.symm.trans hclosed) (by decide)
  · omega
  · omega
  · rw [he, noted_hearing]
    exact .stay
  · rw [he, noted_hearing, loadTrack_hearing h.tracks, Bool.not_not]
    exact .jump

theorem seekGlobal_idle (h : s.active = false) (seconds : Rat) : s.seekGlobal seconds = s :=
  if_pos (by simp [h])

theorem Playing.of_deck {s' : PlaybackSession} (h : s.Playing) (hdeck : s'.deck = s.deck) : s'.Playing := by
  refine ⟨(congrArg Deck.active hdeck).trans h.active, ?_, ?_⟩
  · rw [show s'.currentTrack = s.currentTrack from congrArg Deck.currentTrack hdeck]
    exact h.first
  · rw [show s'.currentTrack = s.currentTrack from congrArg Deck.currentTrack hdeck,
      show s'.tracks = s.tracks from congrArg Deck.tracks hdeck]
    exact h.last

/-- Where in the book a place in the current file is. -/
def globalOf (s : PlaybackSession) (positionInFile : Rat) : Rat :=
  if s.isHls then positionInFile else (s.trackAt s.currentTrack).startOffset + positionInFile

theorem onMpvPosition_idle (h : s.active = false) (q : Rat) : s.onMpvPosition q = s := if_pos (by simp [h])

/-- A position short of the end that is waited for is shown, any other one stops playback. -/
theorem onMpvPosition_hearing (h : s.Playing) (q : Rat) :
    (¬s.hearing.Reaches (s.globalOf q) ∧ (s.onMpvPosition q).hearing = s.hearing.hear (s.globalOf q)) ∨
    s.hearing.Reaches (s.globalOf q) ∧ s.hearing.Stopped (s.globalOf q) (s.onMpvPosition q).hearing := by
  have hactive := h.active
  have hfirst := h.first
  unfold onMpvPosition
  rw [if_neg (by simp [hactive, hfirst])]
  dsimp only
  rw [show (if s.isHls then q else (s.trackAt s.currentTrack).startOffset + q) = s.globalOf q from rfl]
  generalize s.globalOf q = global
  generalize hshown : ({s with globalPosition := global} : PlaybackSession).emit (.positionChanged global) = shown
  have hheard : (shown.updateChapterForPosition global).hearing = s.hearing.hear global := by
    rw [updateChapter_hearing, ← hshown, emit_unheard _ rfl]
    rfl
  have hdeck : (shown.updateChapterForPosition global).deck = s.deck := by
    rw [updateChapter_deck, ← hshown]
    rfl
  generalize shown.updateChapterForPosition global = heard at *
  have hsleep : heard.hearing.sleep = s.hearing.sleep := by
    rw [hheard]
    exact Hearing.update_sleep _ _
  have hduration : heard.duration = s.hearing.duration :=
    (congrArg Hearing.duration hheard).trans (Hearing.update_duration _ _)
  have hend : heard.sleepChapterEnd = s.hearing.sleep.chapterEnd := congrArg Sleep.chapterEnd hsleep
  have hreaches : heard.sleepAtChapterEnd = true ∧ heard.sleepChapterEnd - 1 / 20 ≤ global ↔
      s.hearing.Reaches global := by
    rw [hend, show heard.sleepAtChapterEnd = s.hearing.sleep.atChapterEnd from congrArg Sleep.atChapterEnd hsleep]
    rfl
  have hplaying : heard.Playing := h.of_deck hdeck
  have hpaused : heard.clearSleepTimer.pause = {heard.clearSleepTimer with mpv := heard.mpv.pause} :=
    if_pos hplaying.active
  have hhalted : ({heard.clearSleepTimer with mpv := heard.mpv.pause} : PlaybackSession).hearing =
      s.hearing.halt global := congrArg (fun h : Hearing => {h.clear with paused := true}) hheard
  have hplaying' : ({heard.clearSleepTimer with mpv := heard.mpv.pause} : PlaybackSession).Playing :=
    ⟨hplaying.active, hplaying.first, hplaying.last⟩
  by_cases hreach : s.hearing.Reaches global
  · refine .inr ⟨hreach, ?_⟩
    rw [if_pos (hreaches.mpr hreach), hpaused]
    have haim : ({heard.clearSleepTimer with mpv := heard.mpv.pause} : PlaybackSession).aim heard.sleepChapterEnd =
        s.hearing.aim s.hearing.sleep.chapterEnd := by
      rw [hend]
      exact congrArg (fun duration => max 0 (min duration s.hearing.sleep.chapterEnd)) hduration
    have hbefore : heard.sleepChapterEnd < heard.duration ↔ s.hearing.sleep.chapterEnd < s.hearing.duration := by
      rw [hend, hduration]
    split
    · next hlt =>
      have hsought := seekGlobal_hearing hplaying' heard.sleepChapterEnd
      rw [hhalted, haim] at hsought
      exact .within (hbefore.mp hlt) hsought
    · next hlast =>
      rw [hhalted]
      exact .last fun hlt => hlast (hbefore.mpr hlt)
  · refine .inl ⟨hreach, ?_⟩
    rw [if_neg (fun h => hreach (hreaches.mp h))]
    exact hheard

theorem onEndOfFile_hearing {e : Event} (hends : e.ends = true) (hcloses : e.closes = true) (hstocked : s.Stocked) :
    Hearing.Act e s.hearing s.onEndOfFile.hearing := by
  unfold onEndOfFile
  dsimp only
  split_ifs with hidle hhls hmore hqueued
  · exact .same
  · have hactive : s.active = true := by simpa using hidle
    rw [stopAndClose_hearing hactive]
    exact .close hcloses hactive
  · have hactive : s.active = true := by simpa using hidle
    rw [updateChapter_hearing]
    show Hearing.Act e s.hearing (s.sync.hearing.update _)
    rw [sync_hearing]
    exact .turn _ hends hactive
  · have hactive : s.active = true := by simpa using hidle
    have htracks : s.sync.tracks ≠ [] := by
      rw [show s.sync.tracks = s.tracks from congrArg Deck.tracks sync_deck]
      exact hstocked hactive
    rw [loadTrack_hearing htracks, sync_hearing]
    exact .reload _ hends hactive
  · have hactive : s.active = true := by simpa using hidle
    rw [stopAndClose_hearing hactive]
    exact .close hcloses hactive

theorem leaveItem_act {e : Event} (hcloses : e.closes = true) (s : PlaybackSession) :
    Hearing.Act e s.hearing s.leaveItem.hearing := by
  rw [leaveItem_hearing]
  split
  · next hactive => exact .close hcloses hactive
  · exact .same

theorem updatePlaying_step {e : Event} {h : Hearing} (hact : Hearing.Act e h s.hearing) :
    Hearing.Step e h s.updatePlaying.hearing := by
  obtain he | ⟨hchange, he⟩ := updatePlaying_hearing s
  · rw [he]
    exact .act hact
  · rw [he]
    exact .report _ hact hchange

theorem handleEvent_hearing (s : PlaybackSession) {e : MpvEvent} (he : ∀ flag, e ≠ .pause flag) :
    ({s with mpv := s.mpv.handleEvent e} : PlaybackSession).hearing = s.hearing := by
  cases e with
  | pause flag => exact absurd rfl (he flag)
  | fileLoaded =>
    simp only [hearing, MpvController.handleEvent]
    split <;> rfl
  | _ => rfl

theorem onMpvEvent_hearing (hplaying : s.active = true → s.Playing) (e : MpvEvent) :
    Hearing.Step (.mpv e) s.hearing (s.onMpvEvent e).hearing := by
  have hstocked : s.Stocked := fun hactive => (hplaying hactive).tracks
  have hheard := handleEvent_hearing s (e := e)
  unfold onMpvEvent
  dsimp only
  cases e with
  | timePos q =>
    dsimp only
    rw [← hheard fun flag h => nomatch h]
    by_cases hactive : s.active = true
    · have hplays : ({s with mpv := s.mpv.handleEvent (.timePos q)} : PlaybackSession).Playing :=
        (hplaying hactive).of_deck rfl
      obtain ⟨hshort, he⟩ | ⟨hreach, hstopped⟩ := onMpvPosition_hearing hplays q
      · rw [he]
        exact .act (.hear _ rfl hactive hshort)
      · exact .act (.stop _ rfl hactive hreach hstopped)
    · rw [onMpvPosition_idle (by simpa using hactive)]
      exact .act .same
  | duration _ => exact .act .same
  | fileLoaded =>
    dsimp only
    rw [hheard fun flag h => nomatch h]
    exact .act .same
  | pause flag => exact updatePlaying_step (.press flag rfl)
  | coreIdle _ | pausedForCache _ => exact updatePlaying_step .same
  | endFile reason =>
    cases reason with
    | eof => exact updatePlaying_step (onEndOfFile_hearing rfl rfl hstocked)
    | error message =>
      refine updatePlaying_step ?_
      unfold onMpvError
      rw [emit_unheard _ rfl]
      exact leaveItem_act rfl _
    | other => exact updatePlaying_step .same

/-! ### What an event does to what is heard -/

/-- The play response that is read: the reply to the newest play request, if it is of the
server the client is set to and no failure. -/
def response (s : PlaybackSession) : Event → Option Json
  | .reply id res =>
    match pick (fun p => p.id == id) s.inFlight with
    | none => none
    | some (p, _) =>
      match p.closure with
      | .play gen => if res.stale || gen != s.playGeneration || !res.ok then none else some res.body.toObject
      | .report _ _ | .quit => none
  | _ => none

/-- A response is read while no session is open. -/
theorem response_idle (hasked : s.books.Asked) {e : Event} {obj : Json} (h : s.response e = some obj) :
    s.active = false := by
  unfold response at h
  split at h
  · split at h
    · cases h
    · next hpick =>
      split at h
      · next gen hp =>
        split at h
        · cases h
        · next hlate =>
          have hgen : gen = s.playGeneration := by simp_all
          have hp' : _ = Closure.play s.playGeneration := hgen ▸ hp
          exact hasked.closed hpick hp'
      · cases h
      · cases h
  · cases h

theorem openAt_hearing (hne : s.tracks ≠ []) (resume : Rat) : (s.openAt resume).hearing = s.hearing.start resume := by
  let opened : PlaybackSession := {s with globalPosition := resume, active := true, completed := false}
  have hemitted : opened.emitActiveChanged.hearing = opened.hearing := emit_unheard _ rfl
  have hload : ∀ s' : PlaybackSession, s'.tracks ≠ [] →
      s'.hearing = {opened.emitActiveChanged.hearing with listening := false} →
      (s'.loadTrackForGlobal resume true).hearing = s.hearing.start resume := by
    intro s' hne' hs'
    rw [loadTrack_hearing hne', hs', hemitted]
    rfl
  refine hload {opened.emitActiveChanged with
    listen := s.listen.reset
    spans := []
    listenGeneration := s.listenGeneration + 1
    mpv := if 0 < s.env.defaultRate then s.mpv.setSpeed s.env.defaultRate else s.mpv} hne ?_
  split <;> rfl

theorem applyPlayResponse_hearing (s : PlaybackSession) (obj : Json) :
    (s.applyPlayResponse obj).hearing =
      if (s.readPlayResponse obj).Usable then (s.readPlayResponse obj).hearing.start (resumeAt obj)
      else (s.readPlayResponse obj).hearing := by
  unfold applyPlayResponse
  dsimp only
  split
  · next husable => exact openAt_hearing husable.2.1 _
  · exact emit_unheard _ rfl

/-- **A play response that is read**, and a session it opens if it is usable. -/
theorem reply_hearing {e : Event} {obj : Json} (h : s.response e = some obj) :
    (s.handle e).hearing =
      if (s.readPlayResponse obj).Usable then (s.readPlayResponse obj).hearing.start (resumeAt obj)
      else (s.readPlayResponse obj).hearing := by
  unfold response at h
  split at h
  · next id res =>
    show (s.finished id res).hearing = _
    unfold finished
    cases hpick : pick (fun p => p.id == id) s.inFlight with
    | none =>
      rw [hpick] at h
      cases h
    | some taken =>
      obtain ⟨p, rest⟩ := taken
      rw [hpick] at h
      dsimp only at h ⊢
      cases hp : p.closure with
      | play gen =>
        rw [hp] at h
        dsimp only at h ⊢
        split at h
        · cases h
        · next hread =>
          cases h
          rw [Bool.or_eq_true, not_or] at hread
          unfold onPlayReply
          rw [if_neg hread.1, if_neg hread.2]
          exact applyPlayResponse_hearing {s with inFlight := rest} res.body.toObject
      | report listened gen =>
        rw [hp] at h
        cases h
      | quit =>
        rw [hp] at h
        cases h
  · cases h

theorem finished_hearing {id : Nat} {res : ApiResponse} (h : s.response (.reply id res) = none) :
    (s.finished id res).hearing = s.hearing := by
  unfold response at h
  dsimp only at h
  unfold finished
  split
  · rfl
  · next p rest hpick =>
    rw [hpick] at h
    dsimp only at h ⊢
    split
    · next gen hp =>
      rw [hp] at h
      simp only [ite_eq_left_iff, reduceCtorEq, imp_false, Decidable.not_not, Bool.or_eq_true, Bool.not_eq_true'] at h
      unfold onPlayReply
      split_ifs with hlate hfailed
      · rfl
      · exact emit_unheard _ rfl
      · simp_all
    · unfold onReportReply
      split_ifs
      · rfl
      · simp only [hearing, ProgressSyncer.rollback_playing]
      · rfl
    · rfl

/-! ### What each call does -/

section Calls
variable {e : Event}

theorem play_act (he : e.presses = true) (s : PlaybackSession) : Hearing.Act e s.hearing s.play.hearing := by
  unfold play
  split
  · exact .press false he
  · exact .same

theorem pause_act (he : e.presses = true) (s : PlaybackSession) : Hearing.Act e s.hearing s.pause.hearing := by
  unfold pause
  split
  · exact .press true he
  · exact .same

theorem togglePlayPause_act (he : e.presses = true) (s : PlaybackSession) :
    Hearing.Act e s.hearing s.togglePlayPause.hearing := by
  unfold togglePlayPause
  split_ifs
  · exact .same
  · exact play_act he s
  · exact pause_act he s

theorem seekGlobal_act (he : e.seeks = true) (hplaying : s.active = true → s.Playing) (seconds : Rat) :
    Hearing.Act e s.hearing (s.seekGlobal seconds).hearing := by
  by_cases hactive : s.active = true
  · exact .seek _ he hactive (seekGlobal_hearing (hplaying hactive) seconds)
  · rw [seekGlobal_idle (by simpa using hactive)]
    exact .same

theorem nextChapter_act (he : e.seeks = true) (hplaying : s.active = true → s.Playing) :
    Hearing.Act e s.hearing s.nextChapter.hearing := by
  unfold nextChapter
  dsimp only
  split_ifs
  · exact .same
  · exact seekGlobal_act he hplaying _
  · exact seekGlobal_act he hplaying _
  · exact .same

theorem previousChapter_act (he : e.seeks = true) (hplaying : s.active = true → s.Playing) :
    Hearing.Act e s.hearing s.previousChapter.hearing := by
  unfold previousChapter
  dsimp only
  split_ifs
  · exact .same
  · exact seekGlobal_act he hplaying _
  · exact seekGlobal_act he hplaying _
  · exact seekGlobal_act he hplaying _

theorem cycleSleepTimer_act (he : e.sets = true) (s : PlaybackSession) :
    Hearing.Act e s.hearing s.cycleSleepTimer.hearing := by
  have hset (minutes : Int) : Hearing.Act e s.hearing (s.setSleepTimer minutes).hearing := by
    rw [setSleepTimer_hearing]
    exact .setTimer minutes he
  unfold cycleSleepTimer
  split_ifs
  · exact hset 0
  · exact hset 15
  · exact hset 30
  · exact hset 60
  · exact hset 0
  · rw [setSleepAtChapterEnd_hearing]
    exact .setChapterEnd he

theorem flushAndClose_act (he : e.closes = true) (s : PlaybackSession) (blocking : Bool) :
    Hearing.Act e s.hearing (s.flushAndClose blocking).hearing := by
  by_cases hactive : s.active = true
  · rw [flushAndClose_hearing hactive s.completed]
    exact .close he hactive
  · have hsame : s.flushAndClose blocking = s := if_pos (by simpa using hactive)
    rw [hsame]
    exact .same

theorem onSyncTimeout_act (e : Event) (s : PlaybackSession) : Hearing.Act e s.hearing s.onSyncTimeout.hearing := by
  unfold onSyncTimeout
  split
  · exact .same
  · next due hdue =>
    rw [sync_hearing]
    simp only [hearing, hdue, Option.isSome_some]
    exact .same

theorem onSeekSyncTimeout_act (e : Event) (s : PlaybackSession) :
    Hearing.Act e s.hearing s.onSeekSyncTimeout.hearing := by
  unfold onSeekSyncTimeout
  split
  · exact .same
  · rw [sync_hearing]
    exact .same

theorem onSleepTimeout_act (s : PlaybackSession) : Hearing.Act .sleepTimeout s.hearing s.onSleepTimeout.hearing := by
  rw [onSleepTimeout_hearing]
  split
  · next hruns => exact .expire rfl (by simpa [Option.isSome_iff_ne_none] using hruns)
  · exact .same

theorem onAccessTokenChanged_act (e : Event) (s : PlaybackSession) (token : String) :
    Hearing.Act e s.hearing (s.onAccessTokenChanged token).hearing := by
  unfold onAccessTokenChanged
  dsimp only
  split <;> exact .same

end Calls

/-- **Whatever an event does, what is heard changes by one of these steps**, unless a
play response is read. -/
theorem handle_hearing (hplaying : s.active = true → s.Playing) {e : Event} (hreads : s.response e = none) :
    Hearing.Step e s.hearing (s.handle e).hearing := by
  cases e with
  | mpv e => exact onMpvEvent_hearing hplaying e
  | playItem itemId => exact .act (leaveItem_act (e := .playItem itemId) rfl s)
  | playEpisode itemId episodeId => exact .act (leaveItem_act (e := .playEpisode itemId episodeId) rfl s)
  | play => exact .act (play_act rfl s)
  | pause => exact .act (pause_act rfl s)
  | togglePlayPause => exact .act (togglePlayPause_act rfl s)
  | seekGlobal q => exact .act (seekGlobal_act rfl hplaying q)
  | skip q => exact .act (seekGlobal_act rfl hplaying _)
  | nextChapter => exact .act (nextChapter_act rfl hplaying)
  | previousChapter => exact .act (previousChapter_act rfl hplaying)
  | setSpeed _ | setVolume _ | baseUrl _ | settings _ _ => exact .act .same
  | setSleepTimer minutes =>
    show Hearing.Step _ s.hearing (s.setSleepTimer minutes).hearing
    rw [setSleepTimer_hearing]
    exact .act (.setTimer minutes rfl)
  | setSleepAtChapterEnd =>
    show Hearing.Step _ s.hearing s.setSleepAtChapterEnd.hearing
    rw [setSleepAtChapterEnd_hearing]
    exact .act (.setChapterEnd rfl)
  | cycleSleepTimer => exact .act (cycleSleepTimer_act rfl s)
  | stopAndClose => exact .act (flushAndClose_act (e := .stopAndClose) rfl s false)
  | aboutToQuit => exact .act (flushAndClose_act (e := .aboutToQuit) rfl s true)
  | reply id res => exact .act (finished_hearing hreads ▸ .same)
  | syncTimeout => exact .act (onSyncTimeout_act _ s)
  | seekSyncTimeout => exact .act (onSeekSyncTimeout_act _ s)
  | sleepTimeout => exact .act (onSleepTimeout_act s)
  | tick ms => exact .act (.wait ms rfl)
  | accessToken token => exact .act (onAccessTokenChanged_act _ s token)

/-- One event of a run that reads no play response, from a state in which nothing is emitted
yet. -/
theorem Steady.hearing (h : s.Steady) {e : Event} (hreads : s.response e = none) :
    Hearing.Step e {s.hearing with signals := []} (machine.step s e).hearing :=
  handle_hearing (s := s.fresh) (fun hactive => (h.playing hactive).fresh) hreads

/-- One that reads a play response. -/
theorem Steady.reads (h : s.Steady) {e : Event} {obj : Json} (hreads : s.response e = some obj) :
    s.active = false ∧ (machine.step s e).hearing =
      if (s.readPlayResponse obj).Usable then
        ({(s.readPlayResponse obj).hearing with signals := []} : Hearing).start (resumeAt obj)
      else {(s.readPlayResponse obj).hearing with signals := []} :=
  ⟨response_idle h.asked hreads, reply_hearing (s := s.fresh) hreads⟩

/-- While a session is open no play response is read. -/
theorem Steady.response_none (h : s.Steady) (hactive : s.active = true) (e : Event) : s.response e = none := by
  cases hreads : s.response e with
  | none => rfl
  | some obj => exact nomatch hactive.symm.trans (response_idle h.asked hreads)

/-- A position libmpv reports. -/
theorem Steady.hears (h : s.Steady) (hactive : s.active = true) (place : Rat) :
    let heard := (machine.step s (.mpv (.timePos place))).hearing
    (¬s.hearing.Reaches (s.globalOf place) ∧
      heard = ({s.hearing with signals := []} : Hearing).hear (s.globalOf place)) ∨
    s.hearing.Reaches (s.globalOf place) ∧
      ({s.hearing with signals := []} : Hearing).Stopped (s.globalOf place) heard := by
  have hplaying : ({s.fresh with mpv := s.mpv.handleEvent (.timePos place)} : PlaybackSession).Playing :=
    (h.playing hactive).of_deck rfl
  exact onMpvPosition_hearing hplaying place

end PlaybackSession

end ShelfRemote.Player
