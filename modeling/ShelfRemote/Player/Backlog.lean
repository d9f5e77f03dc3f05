import ShelfRemote.Player.SleepTimer

/-! How much listening the server may not have been told of.

While a book plays, a timer reports every twelve seconds; a pause, the end of a track and
the end of a session report at once; and a report that fails hands its time back. What has
not been reported is what a crash loses. `backlog_bounded` says that it is never more than
one interval, the slack of the timer and what failed reports have handed back. -/
namespace ShelfRemote.Player
open Qt Net Runs

def Post.isReport (p : Post) : Bool :=
  match p.body with
  | .play _ => false
  | .report _ => true

/-- The part of a session that reports when time has passed. -/
structure Meter where
  active : Bool
  sessionId : String
  listen : ProgressSyncer
  now : Nat
  /-- When the interval timer is due. -/
  interval : Option Nat
  /-- The last report of libmpv said playing. -/
  heard : Bool
  /-- How many reports have gone out. -/
  reports : Nat

/-- The interval timer fires. -/
def PlaybackSession.Event.times : PlaybackSession.Event → Bool
  | .syncTimeout => true
  | _ => false

namespace Meter

def pending (m : Meter) : Nat := m.listen.pendingListened m.now

def sync (m : Meter) : Meter :=
  if m.active = true ∧ m.sessionId ≠ "" then
    {m with listen := (m.listen.takeListened m.now).1, reports := m.reports + 1}
  else m

def close (m : Meter) : Meter :=
  if m.active = true then
    {m with
      active := false
      sessionId := ""
      listen := ((m.listen.setPlaying m.now false).takeListened m.now).1
      interval := none
      reports := if m.sessionId = "" then m.reports else m.reports + 1}
  else m

/-- libmpv says whether audio comes out. -/
def report (m : Meter) (playing : Bool) : Meter :=
  if m.active = true then
    let m := {m with heard := playing, listen := m.listen.setPlaying m.now playing}
    if playing then {m with interval := some (m.now + syncIntervalMs)} else {m with interval := none}.sync
  else {m with heard := playing}

end Meter

namespace PlaybackSession
variable {s : PlaybackSession}

def meter (s : PlaybackSession) : Meter :=
  { active := s.active
    sessionId := s.sessionId
    listen := s.listen
    now := s.now
    interval := s.syncTimer
    heard := s.mpv.playing
    reports := (s.wire.filter Post.isReport).length }

/-! ### What leaves the meter alone -/

@[simp] theorem play_meter : s.play.meter = s.meter := by unfold play; split <;> rfl

@[simp] theorem pause_meter : s.pause.meter = s.meter := by unfold pause; split <;> rfl

@[simp] theorem clearSleepTimer_meter : s.clearSleepTimer.meter = s.meter := rfl

@[simp] theorem resumeSleepCountdown_meter : s.resumeSleepCountdown.meter = s.meter := by
  unfold resumeSleepCountdown
  split <;> rfl

@[simp] theorem holdSleepCountdown_meter : s.holdSleepCountdown.meter = s.meter := by
  unfold holdSleepCountdown
  split <;> rfl

@[simp] theorem scheduleSync_meter : s.scheduleSync.meter = s.meter := by
  unfold scheduleSync
  split <;> rfl

@[simp] theorem updateChapter_meter (q : Rat) : (s.updateChapterForPosition q).meter = s.meter := by
  unfold updateChapterForPosition
  dsimp only
  split <;> rfl

@[simp] theorem loadTrack_meter (q : Rat) (autoplay : Bool) :
    (s.loadTrackForGlobal q autoplay).meter = s.meter := by
  unfold loadTrackForGlobal
  dsimp only
  split
  · rfl
  · rw [updateChapter_meter]
    split
    · simp only [meter, loadPlaylist_playing]
    · simp only [meter, MpvController.pause, MpvController.requestPaused, MpvController.command,
        loadPlaylist_playing]

@[simp] theorem noted_meter (q : Rat) : (s.noted q).meter = s.meter := by
  unfold noted
  dsimp only
  rw [scheduleSync_meter]
  split <;> rfl

@[simp] theorem seekGlobal_meter (q : Rat) : (s.seekGlobal q).meter = s.meter := by
  obtain ⟨-, he⟩ | ⟨-, ⟨-, he⟩ | ⟨-, he⟩⟩ := seekGlobal_cases s q
  · rw [he]
  · rw [he, noted_meter]
    rfl
  · rw [he, noted_meter, loadTrack_meter]

@[simp] theorem setSleepTimer_meter (minutes : Int) : (s.setSleepTimer minutes).meter = s.meter := by
  unfold setSleepTimer
  dsimp only
  split_ifs
  · rfl
  · exact resumeSleepCountdown_meter
  · rfl

@[simp] theorem setSleepAtChapterEnd_meter : s.setSleepAtChapterEnd.meter = s.meter := by
  unfold setSleepAtChapterEnd
  dsimp only
  split <;> rfl

@[simp] theorem togglePlayPause_meter : s.togglePlayPause.meter = s.meter := by
  unfold togglePlayPause
  split_ifs <;> simp

@[simp] theorem nextChapter_meter : s.nextChapter.meter = s.meter := by
  unfold nextChapter skip
  dsimp only
  split_ifs <;> simp

@[simp] theorem previousChapter_meter : s.previousChapter.meter = s.meter := by
  unfold previousChapter skip
  dsimp only
  split_ifs <;> simp

@[simp] theorem cycleSleepTimer_meter : s.cycleSleepTimer.meter = s.meter := by
  unfold cycleSleepTimer
  split_ifs <;> simp

@[simp] theorem onSleepTimeout_meter : s.onSleepTimeout.meter = s.meter := by
  unfold onSleepTimeout
  split <;> simp

@[simp] theorem onAccessTokenChanged_meter (token : String) : (s.onAccessTokenChanged token).meter = s.meter := by
  unfold onAccessTokenChanged
  dsimp only
  split <;> rfl

@[simp] theorem onMpvPosition_meter (q : Rat) : (s.onMpvPosition q).meter = s.meter := by
  unfold onMpvPosition
  split
  · rfl
  · dsimp only
    split_ifs <;> simp <;> rfl

/-! ### What an event does to the meter -/

theorem sync_meter (s : PlaybackSession) : s.sync.meter = s.meter.sync := by
  unfold sync
  split
  · next hidle =>
    refine (if_neg fun hopen : s.active = true ∧ s.sessionId ≠ "" => ?_).symm
    simp [hopen] at hidle
  · next hopen =>
    have hopen : s.active = true ∧ s.sessionId ≠ "" := by simpa using hopen
    exact (if_pos (show s.meter.active = true ∧ s.meter.sessionId ≠ "" from hopen)).symm

theorem flushAndClose_meter (s : PlaybackSession) (blocking : Bool) :
    (s.flushAndClose blocking).meter = s.meter.close := by
  unfold flushAndClose Meter.close
  by_cases hactive : s.active = true
  · rw [if_neg (by simp [hactive]), if_pos (show s.meter.active = true from hactive)]
    dsimp only
    split
    · next hid =>
      rw [if_pos (show s.meter.sessionId = "" from hid)]
      rfl
    · next hid =>
      rw [if_neg (show ¬s.meter.sessionId = "" from hid)]
      rfl
  · rw [if_pos (by simpa using hactive), if_neg (show ¬s.meter.active = true from hactive)]

theorem stopAndClose_meter (s : PlaybackSession) : s.stopAndClose.meter = s.meter.close :=
  flushAndClose_meter s false

theorem leaveItem_meter (s : PlaybackSession) : s.leaveItem.meter = s.meter.close := by
  unfold leaveItem
  split
  · exact flushAndClose_meter s false
  · next hidle => exact (if_neg hidle).symm

theorem playItem_meter (s : PlaybackSession) (itemId episodeId : String) (target : Target) :
    (startSession {s.leaveItem with itemId, episodeId} target).meter = s.meter.close :=
  leaveItem_meter s

theorem onPlayingChanged_meter {s : PlaybackSession} {playing : Bool} (hheard : s.mpv.playing = playing) :
    (s.onPlayingChanged playing).meter = s.meter.report playing := by
  subst hheard
  unfold onPlayingChanged Meter.report
  by_cases hactive : s.active = true
  · rw [if_neg (by simp [hactive]), if_pos (show s.meter.active = true from hactive)]
    dsimp only
    split
    · rw [resumeSleepCountdown_meter]
      rfl
    · rw [sync_meter, holdSleepCountdown_meter]
      rfl
  · rw [if_pos (by simpa using hactive), if_neg (show ¬s.meter.active = true from hactive)]
    rfl

theorem updatePlaying_meter (s : PlaybackSession) : s.updatePlaying.meter =
    if s.mpv.effective = s.meter.heard then s.meter else s.meter.report s.mpv.effective := by
  unfold updatePlaying
  split
  · next hsame => exact (if_pos hsame).symm
  · next hnew =>
    rw [if_neg (show ¬s.mpv.effective = s.meter.heard from hnew)]
    exact onPlayingChanged_meter (s := {s with mpv := s.mpv.updatePlaying}) rfl

/-- The end of a file. The book goes on, or it is over. -/
theorem onEndOfFile_meter (s : PlaybackSession) :
    s.onEndOfFile.meter = s.meter ∨ s.onEndOfFile.meter = s.meter.sync ∨ s.onEndOfFile.meter = s.meter.close := by
  unfold onEndOfFile
  dsimp only
  split_ifs
  · exact .inl rfl
  · exact .inr (.inr (stopAndClose_meter _))
  · rw [updateChapter_meter]
    exact .inr (.inl (sync_meter s))
  · rw [loadTrack_meter]
    exact .inr (.inl (sync_meter s))
  · exact .inr (.inr (stopAndClose_meter _))

theorem openAt_meter (s : PlaybackSession) (resume : Rat) :
    (s.openAt resume).meter = {s.meter with active := true, listen := s.listen.reset} := by
  unfold openAt
  dsimp only
  rw [loadTrack_meter]
  split <;> rfl

end PlaybackSession

/-! ### What is kept -/

namespace Meter
variable {early late held : Nat} {m m' : Meter}

/-- What is pending is at most one interval old, but for what was handed back and the slack
of the timer. While the clock stands it is all handed back. -/
structure Kept (early late held : Nat) (m : Meter) : Prop where
  sound : m.listen.Sound m.now
  named : m.active = true → m.sessionId ≠ ""
  heard : m.listen.playing = true → m.active = true ∧ m.heard = true ∧ m.interval.isSome = true
  ahead : ∀ due ∈ m.interval, due ≤ m.now + syncIntervalMs + early ∧ m.now ≤ due + late
  timely : ∀ due ∈ m.interval, m.pending + due ≤ m.now + syncIntervalMs + early + held
  idle : m.listen.playing = false → m.pending ≤ held

theorem Kept.bounded (h : m.Kept early late held) : m.pending ≤ syncIntervalMs + early + late + held := by
  cases hplaying : m.listen.playing with
  | false => exact Nat.le_add_left_of_le (h.idle hplaying)
  | true =>
    obtain ⟨due, hdue⟩ := Option.isSome_iff_exists.mp (h.heard hplaying).2.2
    have hahead := h.ahead due hdue
    have htimely := h.timely due hdue
    omega

theorem Kept.more (h : m.Kept early late held) {more : Nat} (hmore : held ≤ more) : m.Kept early late more :=
  {h with
    timely := fun due hdue => Nat.le_trans (h.timely due hdue) (Nat.add_le_add_left hmore _)
    idle := fun hidle => Nat.le_trans (h.idle hidle) hmore}

/-- What has been taken is no longer pending. -/
theorem taken_pending (m : Meter) : ({m with listen := (m.listen.takeListened m.now).1} : Meter).pending = 0 :=
  (ProgressSyncer.pending_takeListened m.listen m.now).2

/-- The meter after a step: no report has gone out and what is held back is bounded as
before, or one has gone out and nothing is held back. -/
def After (early late held : Nat) (m m' : Meter) : Prop :=
  m'.reports = m.reports ∧ m'.Kept early late held ∨ m.reports < m'.reports ∧ m'.Kept early late 0

theorem Kept.after (h : m.Kept early late held) : m.After early late held m := .inl ⟨rfl, h⟩

theorem Kept.same (h : m.Kept early late held) (he : m' = m) : m.After early late held m' := he ▸ h.after

theorem After.kept (h : m.After early late held m') : m'.Kept early late held := by
  rcases h with ⟨-, h⟩ | ⟨-, h⟩
  · exact h
  · exact h.more (Nat.zero_le _)

theorem After.trans {m'' : Meter} (h : m.After early late held m')
    (hnext : ∀ {held}, m'.Kept early late held → m'.After early late held m'') : m.After early late held m'' := by
  rcases h with ⟨hreports, h⟩ | ⟨hreports, h⟩
  · rcases hnext h with ⟨hsame, h⟩ | ⟨hmore, h⟩
    · exact .inl ⟨hsame.trans hreports, h⟩
    · exact .inr ⟨hreports ▸ hmore, h⟩
  · rcases hnext h with ⟨hsame, h⟩ | ⟨hmore, h⟩
    · exact .inr ⟨hsame ▸ hreports, h⟩
    · exact .inr ⟨Nat.lt_trans hreports hmore, h⟩

/-- An open session reports, and nothing is left. -/
theorem Kept.posts (h : m.Kept early late held) (hactive : m.active = true) :
    m.reports < m.sync.reports ∧ m.sync.Kept early late 0 := by
  unfold Meter.sync
  rw [if_pos ⟨hactive, h.named hactive⟩]
  refine ⟨Nat.lt_succ_self _, h.sound.takeListened, h.named, fun hplaying => h.heard ?_, h.ahead, ?_, ?_⟩
  · exact (ProgressSyncer.takeListened_playing m.listen m.now).symm.trans hplaying
  · intro due hdue
    show ({m with listen := (m.listen.takeListened m.now).1} : Meter).pending + due ≤ _
    rw [taken_pending, Nat.zero_add]
    exact (h.ahead due hdue).1
  · exact fun _ => Nat.le_of_eq (taken_pending m)

theorem Kept.sync (h : m.Kept early late held) : m.After early late held m.sync := by
  by_cases hactive : m.active = true
  · exact .inr (h.posts hactive)
  · have hsame : m.sync = m := if_neg fun hopen => hactive hopen.1
    rw [hsame]
    exact h.after

/-- Everything is taken at the end, and reported, as an open session has an id. -/
theorem Kept.close (h : m.Kept early late held) : m.After early late held m.close := by
  unfold Meter.close
  split
  · next hactive =>
    have hreports : m.reports < if m.sessionId = "" then m.reports else m.reports + 1 := by
      rw [if_neg (h.named hactive)]
      exact Nat.lt_succ_self _
    have hidle : ((m.listen.setPlaying m.now false).takeListened m.now).1.playing = false :=
      (ProgressSyncer.takeListened_playing _ _).trans (ProgressSyncer.setPlaying_playing _ _ _)
    refine .inr ⟨hreports, (h.sound.setPlaying false).takeListened, nofun, ?_, nofun, nofun, ?_⟩
    · exact fun hplaying => nomatch hidle.symm.trans hplaying
    · exact fun _ => Nat.le_of_eq (taken_pending {m with listen := m.listen.setPlaying m.now false})
  · exact h.after

/-- Audio comes out again. The clock stood, so that what is pending has been handed back. -/
theorem Kept.starts (h : m.Kept early late held) (hactive : m.active = true) (hnew : m.heard ≠ true) :
    Kept early late held {m with
      heard := true, listen := m.listen.setPlaying m.now true, interval := some (m.now + syncIntervalMs)} := by
  have hstood : m.listen.playing = false := by
    by_contra hplaying
    exact hnew (h.heard (Bool.eq_true_of_not_eq_false hplaying)).2.1
  have hpending : ({m with listen := m.listen.setPlaying m.now true} : Meter).pending = m.pending :=
    ProgressSyncer.pending_setPlaying m.listen m.now true
  have hheld : ({m with listen := m.listen.setPlaying m.now true} : Meter).pending ≤ held :=
    hpending.symm ▸ h.idle hstood
  have hset := ProgressSyncer.setPlaying_playing m.listen m.now true
  refine ⟨h.sound.setPlaying true, h.named, fun _ => ⟨hactive, rfl, rfl⟩, ?_, ?_, ?_⟩
  · intro due hdue
    cases hdue
    exact ⟨Nat.le_add_right _ _, Nat.le_add_right_of_le (Nat.le_add_right _ _)⟩
  · intro due hdue
    cases hdue
    show ({m with listen := m.listen.setPlaying m.now true} : Meter).pending + (m.now + syncIntervalMs) ≤
      m.now + syncIntervalMs + early + held
    omega
  · exact fun hidle => nomatch hidle.symm.trans hset

/-- No audio comes out any more. Whatever is pending is reported next. -/
theorem Kept.stops (h : m.Kept early late held) : Kept early late (syncIntervalMs + early + late + held)
    {m with heard := false, listen := m.listen.setPlaying m.now false, interval := none} := by
  have hpending : ({m with listen := m.listen.setPlaying m.now false} : Meter).pending = m.pending :=
    ProgressSyncer.pending_setPlaying m.listen m.now false
  have hset := ProgressSyncer.setPlaying_playing m.listen m.now false
  refine ⟨h.sound.setPlaying false, h.named, fun hplaying => ?_, nofun, nofun, fun _ => ?_⟩
  · exact nomatch hset.symm.trans hplaying
  · exact hpending.symm ▸ h.bounded

/-- libmpv reports what it has not reported before. -/
theorem Kept.report (h : m.Kept early late held) {playing : Bool} (hnew : playing ≠ m.heard) :
    m.After early late held (m.report playing) := by
  unfold Meter.report
  dsimp only
  split
  · next hactive =>
    cases playing with
    | true => exact .inl ⟨rfl, h.starts hactive hnew.symm⟩
    | false => exact .inr (h.stops.posts hactive)
  · next hidle => exact .inl ⟨rfl, {h with heard := fun hplaying => absurd (h.heard hplaying).1 hidle}⟩

/-- Time passes, but for the lateness of the timer not beyond the moment it is due. -/
theorem Kept.tick (h : m.Kept early late held) {ms : Nat}
    (hideal : ∀ due ∈ m.interval, m.now + ms ≤ due + late) :
    Kept early late held {m with now := m.now + ms} := by
  have hlater := ProgressSyncer.pending_later h.sound ms
  refine ⟨h.sound.later ms, h.named, h.heard, fun due hdue => ?_, fun due hdue => ?_, fun hidle => ?_⟩
  · have hahead := (h.ahead due hdue).1
    exact ⟨by dsimp only; omega, hideal due hdue⟩
  · have htimely := h.timely due hdue
    show m.listen.pendingListened (m.now + ms) + due ≤ m.now + ms + syncIntervalMs + early + held
    rw [hlater]
    unfold Meter.pending at htimely
    split <;> omega
  · show m.listen.pendingListened (m.now + ms) ≤ held
    rw [hlater, hidle]
    exact h.idle hidle

/-- The interval is over, and the next one runs. -/
theorem Kept.timeout (h : m.Kept early late held) {due : Nat} (hdue : m.interval = some due)
    (hfired : due ≤ m.now + early) :
    m.After early late held ({m with interval := some (due + syncIntervalMs)} : Meter).sync := by
  have hnext : Kept early late (held + syncIntervalMs) {m with interval := some (due + syncIntervalMs)} := by
    refine ⟨h.sound, h.named, fun hplaying => ?_, fun next hnext => ?_, fun next hnext => ?_, fun hidle => ?_⟩
    · exact ⟨(h.heard hplaying).1, (h.heard hplaying).2.1, rfl⟩
    · cases hnext
      have hahead := h.ahead due hdue
      dsimp only
      omega
    · cases hnext
      have htimely := h.timely due hdue
      show m.pending + (due + syncIntervalMs) ≤ m.now + syncIntervalMs + early + (held + syncIntervalMs)
      omega
    · exact Nat.le_trans (h.idle hidle) (Nat.le_add_right _ _)
  by_cases hactive : m.active = true
  · exact .inr (hnext.posts hactive)
  · have hstood : m.listen.playing = false :=
      Bool.eq_false_of_not_eq_true fun hplaying => hactive (h.heard hplaying).1
    have hsame : ({m with interval := some (due + syncIntervalMs)} : Meter).sync =
        {m with interval := some (due + syncIntervalMs)} := if_neg fun hopen => hactive hopen.1
    rw [hsame]
    refine .inl ⟨rfl, {hnext with timely := fun next hnext => ?_, idle := h.idle}⟩
    cases hnext
    have hheld := h.idle hstood
    show m.pending + (due + syncIntervalMs) ≤ m.now + syncIntervalMs + early + held
    omega

/-- A session opens with nothing pending. -/
theorem Kept.opens (h : m.Kept early late held) {sessionId : String} (hid : sessionId ≠ "") :
    Kept early late held {m with active := true, sessionId, listen := m.listen.reset} := by
  refine ⟨ProgressSyncer.reset_sound m.listen m.now, fun _ => hid, nofun, h.ahead, fun due hdue => ?_, ?_⟩
  case refine_2 => exact fun _ => Nat.zero_le _
  have hpending : ({m with listen := m.listen.reset} : Meter).pending = 0 := rfl
  show ({m with listen := m.listen.reset} : Meter).pending + due ≤ _
  rw [hpending, Nat.zero_add]
  exact Nat.le_add_right_of_le (h.ahead due hdue).1

/-- A report that failed hands its time back. -/
theorem Kept.rollback (h : m.Kept early late held) (listened : Nat) :
    Kept early late (held + listened) {m with listen := m.listen.rollback listened} := by
  have hpending : ({m with listen := m.listen.rollback listened} : Meter).pending = m.pending + listened :=
    ProgressSyncer.pending_rollback m.listen m.now listened
  have hplaying := ProgressSyncer.rollback_playing m.listen listened
  refine ⟨h.sound.rollback listened, h.named, fun hplays => h.heard (hplaying.symm.trans hplays), h.ahead, ?_, ?_⟩
  · intro due hdue
    have htimely := h.timely due hdue
    show ({m with listen := m.listen.rollback listened} : Meter).pending + due ≤ _
    rw [hpending]
    dsimp only
    omega
  · intro hidle
    show ({m with listen := m.listen.rollback listened} : Meter).pending ≤ _
    rw [hpending]
    exact Nat.add_le_add_right (h.idle (hplaying.symm.trans hidle)) _

end Meter

namespace PlaybackSession
open Meter
variable {s : PlaybackSession} {early late held : Nat}

/-- The listening time that a reply hands back. -/
def handedBack (s : PlaybackSession) : Event → Nat
  | .reply id res =>
    match pick (fun p => p.id == id) s.inFlight with
    | none => 0
    | some (p, _) =>
      match p.closure with
      | .play _ | .quit => 0
      | .report listened gen =>
        if res.stale = false ∧ gen = s.listenGeneration ∧ res.ok = false then listened else 0
  | _ => 0

/-- The interval timer fires at most so many milliseconds early or late. -/
def Punctual (early late : Nat) (s : PlaybackSession) (e : Event) : Prop :=
  ∀ due ∈ s.syncTimer, s.now + e.lasts ≤ due + late ∧ (e.times = true → due ≤ s.now + early)

instance (early late : Nat) (s : PlaybackSession) (e : Event) : Decidable (Punctual early late s e) :=
  inferInstanceAs (Decidable (∀ due ∈ s.syncTimer, _ ∧ (_ → _)))

/-! ### What an event keeps -/

theorem updatePlaying_kept (h : s.meter.Kept early late held) :
    s.meter.After early late held s.updatePlaying.meter := by
  rw [updatePlaying_meter]
  split
  · exact h.after
  · next hnew => exact h.report hnew

theorem onMpvEvent_kept (h : s.meter.Kept early late held) (e : MpvEvent) :
    s.meter.After early late held (s.onMpvEvent e).meter := by
  unfold onMpvEvent
  dsimp only
  generalize hheard : ({s with mpv := s.mpv.handleEvent e} : PlaybackSession) = heard
  have hsame : heard.meter = s.meter := by
    rw [← hheard]
    cases e with
    | fileLoaded =>
      unfold MpvController.handleEvent
      dsimp only
      split <;> rfl
    | _ => rfl
  rw [← hsame] at h ⊢
  cases e with
  | timePos q =>
    rw [onMpvPosition_meter]
    exact h.after
  | duration | fileLoaded => exact h.after
  | pause | coreIdle | pausedForCache => exact updatePlaying_kept h
  | endFile reason =>
    cases reason with
    | eof =>
      have hended : heard.meter.After early late held heard.onEndOfFile.meter := by
        rcases heard.onEndOfFile_meter with he | he | he <;> rw [he]
        · exact h.after
        · exact h.sync
        · exact h.close
      exact hended.trans fun h => updatePlaying_kept h
    | error message =>
      have hleft : heard.meter.After early late held (heard.onMpvError message).meter := by
        show heard.meter.After early late held heard.leaveItem.meter
        rw [leaveItem_meter]
        exact h.close
      exact hleft.trans fun h => updatePlaying_kept h
    | other => exact updatePlaying_kept h

/-- What is read of a response while no session is open. -/
theorem applyPlayResponse_kept (h : s.meter.Kept early late held) (hidle : s.active = false) (obj : Json) :
    s.meter.After early late held (s.applyPlayResponse obj).meter := by
  unfold applyPlayResponse
  dsimp only
  split
  · next husable =>
    rw [openAt_meter]
    exact .inl ⟨rfl, h.opens husable.1⟩
  · exact .inl ⟨rfl, {h with named := fun hactive => nomatch hidle.symm.trans hactive}⟩

/-- A reply opens a session, hands time back, or changes nothing here. -/
theorem finished_kept (h : s.meter.Kept early late held) (hasked : s.books.Asked) (id : Nat) (res : ApiResponse) :
    s.meter.After early late (held + s.handedBack (.reply id res)) (s.finished id res).meter := by
  unfold finished
  cases hpick : pick (fun p => p.id == id) s.inFlight with
  | none =>
    have hnone : s.handedBack (.reply id res) = 0 := by simp only [handedBack, hpick]
    rw [hnone]
    exact h.after
  | some picked =>
    obtain ⟨p, rest⟩ := picked
    dsimp only
    cases hclosure : p.closure with
    | quit =>
      have hnone : s.handedBack (.reply id res) = 0 := by simp only [handedBack, hpick, hclosure]
      rw [hnone]
      exact h.after
    | play gen =>
      have hnone : s.handedBack (.reply id res) = 0 := by simp only [handedBack, hpick, hclosure]
      rw [hnone]
      unfold onPlayReply
      dsimp only
      split_ifs with hlate hfailed
      · exact h.after
      · exact h.after
      · have hreads : s.response (.reply id res) = some res.body.toObject := by
          simp only [response, hpick, hclosure]
          simp_all
        have hidle : s.active = false := response_idle hasked hreads
        exact applyPlayResponse_kept (s := {s with inFlight := rest}) h hidle _
    | report listened gen =>
      have hback : s.handedBack (.reply id res) =
          if res.stale = false ∧ gen = s.listenGeneration ∧ res.ok = false then listened else 0 := by
        simp only [handedBack, hpick, hclosure]
      have hmeter : (onReportReply {s with inFlight := rest} listened gen p.spans res).meter =
          if res.stale = false ∧ gen = s.listenGeneration ∧ res.ok = false then
            {s.meter with listen := s.listen.rollback listened} else s.meter := by
        unfold onReportReply
        by_cases hgen : gen = s.listenGeneration <;> cases hstale : res.stale <;> cases hok : res.ok <;>
          simp [hgen, meter]
      show s.meter.After early late _ (onReportReply {s with inFlight := rest} listened gen p.spans res).meter
      rw [hback, hmeter]
      split
      · exact .inl ⟨rfl, h.rollback listened⟩
      · exact h.after

theorem handle_kept (h : s.meter.Kept early late held) (hasked : s.books.Asked) {e : Event}
    (hpunctual : s.Punctual early late e) : s.meter.After early late (held + s.handedBack e) (s.handle e).meter := by
  cases e with
  | reply id res => exact finished_kept h hasked id res
  | tick ms => exact .inl ⟨rfl, h.tick fun due hdue => (hpunctual due hdue).1⟩
  | syncTimeout =>
    show s.meter.After early late held s.onSyncTimeout.meter
    unfold onSyncTimeout
    split
    · exact h.after
    · next due hdue =>
      rw [sync_meter]
      exact h.timeout hdue ((hpunctual due hdue).2 rfl)
  | seekSyncTimeout =>
    show s.meter.After early late held s.onSeekSyncTimeout.meter
    unfold onSeekSyncTimeout
    split
    · exact h.after
    · rw [sync_meter]
      exact h.sync
  | mpv e => exact onMpvEvent_kept h e
  | playItem itemId =>
    show s.meter.After early late held (startSession {s.leaveItem with itemId, episodeId := ""} _).meter
    rw [playItem_meter]
    exact h.close
  | playEpisode itemId episodeId =>
    show s.meter.After early late held (startSession {s.leaveItem with itemId, episodeId} _).meter
    rw [playItem_meter]
    exact h.close
  | stopAndClose =>
    show s.meter.After early late held s.stopAndClose.meter
    rw [stopAndClose_meter]
    exact h.close
  | aboutToQuit =>
    show s.meter.After early late held (s.flushAndClose true).meter
    rw [flushAndClose_meter]
    exact h.close
  | setSpeed | setVolume | baseUrl | settings => exact h.after
  | play | pause | togglePlayPause | seekGlobal | skip | nextChapter | previousChapter | setSleepTimer
  | setSleepAtChapterEnd | cycleSleepTimer | sleepTimeout | accessToken =>
    exact h.same (by simp [handle, skip])

end PlaybackSession

/-- A session, and what failed reports have handed back since the last one that went out. -/
structure Backlog where
  session : PlaybackSession
  handedBack : Nat := 0

namespace Backlog
open PlaybackSession

def step (b : Backlog) (e : Event) : Backlog :=
  let session := PlaybackSession.machine.step b.session e
  { session
    handedBack := if session.meter.reports = b.session.meter.reports then b.handedBack + b.session.handedBack e
      else 0 }

def machine : Machine Backlog Event := ⟨step⟩

/-- What a crash loses of the listening so far, but for the reports on their way. -/
def pending (b : Backlog) : Nat := b.session.listen.pendingListened b.session.now

structure Kept (early late : Nat) (b : Backlog) : Prop where
  steady : b.session.Steady
  meter : b.session.meter.Kept early late b.handedBack

theorem keeps (early late : Nat) :
    Machine.Keeps machine (fun b e => b.session.Punctual early late e) (Kept early late) where
  step b e h hpunctual := by
    refine ⟨h.steady.next e, ?_⟩
    have hfresh : b.session.fresh.meter.Kept early late b.handedBack := h.meter
    have hafter : b.session.meter.After early late (b.handedBack + b.session.handedBack e)
        (PlaybackSession.machine.step b.session e).meter := handle_kept hfresh h.steady.asked hpunctual
    show Meter.Kept early late (step b e).handedBack (PlaybackSession.machine.step b.session e).meter
    unfold step
    dsimp only
    split
    · exact hafter.kept
    · next hposted =>
      rcases hafter with ⟨hsame, -⟩ | ⟨-, hkept⟩
      · exact absurd hsame hposted
      · exact hkept

/-- **The backlog is bounded.** In every run in which the interval timer fires at most `early`
milliseconds early and `late` milliseconds late, the listening time that no report has taken
is at most twelve seconds, these two, and what failed reports have handed back since the last
one went out. While the clock stands it is only what was handed back. -/
theorem backlog_bounded (env : Env) (server : Endpoints) (early late : Nat) (es : List Event) :
    let b := machine.run {session := {env, server}} es
    machine.Along (fun b e => b.session.Punctual early late e) {session := {env, server}} es →
      b.pending ≤ syncIntervalMs + early + late + b.handedBack ∧
        (b.session.listen.playing = false → b.pending ≤ b.handedBack) := by
  intro b hes
  have hstart : Kept early late {session := {env, server}} := by
    refine ⟨steady_start env server, ?_⟩
    exact ⟨⟨rfl, nofun⟩, nofun, nofun, nofun, nofun, fun _ => Nat.zero_le _⟩
  have hkept := (keeps early late).run hstart hes
  exact ⟨hkept.meter.bounded, hkept.meter.idle⟩

/-- The timer comes half a second late, and its report fails. -/
def evening : List Event :=
  [.playItem "book", .reply 0 ⟨200, true, false, sampleBook, "", none⟩, .mpv (.coreIdle false), .tick 12500,
    .syncTimeout, .tick 4000, .reply 1 ⟨502, false, false, .null, "", none⟩, .tick 3000]

theorem backlog_bounded_evening :
    let b := machine.run {session := samplePlayer} evening
    b.pending = 19500 ∧ b.handedBack = 12500 ∧ b.pending ≤ syncIntervalMs + 0 + 500 + b.handedBack := by
  refine ⟨by decide +kernel, by decide +kernel, ?_⟩
  exact (backlog_bounded samplePlayer.env samplePlayer.server 0 500 evening (by decide +kernel)).1

end Backlog

end ShelfRemote.Player
