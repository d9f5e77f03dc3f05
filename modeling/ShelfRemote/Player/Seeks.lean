import ShelfRemote.Player.Tracks

/-! Where libmpv ends up after a burst of seeks.

Within the file that plays a seek is a command at once. Into another file it is a
playlist loaded anew, and the place in the file waits in `pendingSeek` until libmpv
reports the file as loaded. The two do not know of each other: a command sent while a
place waits is overtaken by it. `last_seek_wins` is about the runs in which none is. -/
namespace ShelfRemote.Player
open Qt Runs

/-! ### libmpv -/

/-- libmpv, as far as loading and seeking go. -/
structure Loader where
  /-- The track of the file loaded last. -/
  file : Option Nat := none
  ready : Bool := false
  /-- How many file-loaded events wait to be fetched. -/
  events : Nat := 0
  /-- The last seek carried out in the file. -/
  heard : Option Rat := none

namespace Loader

/-- A file starts to load. -/
def load (m : Loader) (track : Nat) : Loader := {m with file := some track, ready := false, heard := none}

/-- A seek that comes before the file is ready is dropped or carried out first. -/
def exec (drops : Bool) (m : Loader) : Command → Loader
  | .replace entry => m.load entry.track
  | .seek seconds => if m.ready || !drops then {m with heard := some seconds} else m
  | .stop => {m with file := none, ready := false, heard := none}
  | .append _ | .setHttpHeaders _ | .setPause _ | .setSpeed _ | .setVolume _ => m

/-- Carries out commands, newest first. -/
def obey (drops : Bool) (m : Loader) (commands : List Command) : Loader :=
  commands.foldr (fun c m => m.exec drops c) m

/-- The file is ready, which is reported once. -/
def loads (m : Loader) : Loader :=
  if m.file.isSome && !m.ready then {m with ready := true, events := m.events + 1} else m

theorem exec_seek (drops : Bool) (m : Loader) (q : Rat) :
    m.exec drops (.seek q) = if m.ready || !drops then {m with heard := some q} else m := rfl

theorem obey_append (drops : Bool) (m : Loader) (news olds : List Command) :
    m.obey drops (news ++ olds) = (m.obey drops olds).obey drops news :=
  List.foldr_append

/-- What is queued behind the file does not move it. -/
theorem obey_appends (drops : Bool) (m : Loader) (rest : List Entry) :
    m.obey drops (rest.map Command.append).reverse = m := by
  induction rest generalizing m with
  | nil => rfl
  | cons entry rest ih =>
    rw [List.map_cons, List.reverse_cons, obey_append]
    exact ih m

end Loader

/-! ### What a seek does to the session -/

/-- The part of a playback session that decides where libmpv plays. -/
structure Cue where
  active : Bool
  isHls : Bool
  tracks : List Track
  duration : Rat
  currentTrack : Int
  pendingSeek : Rat
  commands : List Command

namespace PlaybackSession
variable {s : PlaybackSession}

def cue (s : PlaybackSession) : Cue :=
  { active := s.active
    isHls := s.isHls
    tracks := s.tracks
    duration := s.duration
    currentTrack := s.currentTrack
    pendingSeek := s.mpv.pendingSeek
    commands := s.mpv.commands }

/-- The track of a position, and the place in its file. A stream is one file. -/
def place (s : PlaybackSession) (seconds : Rat) : Int × Rat :=
  if s.isHls then (s.currentTrack, seconds)
  else (s.trackIndexForGlobal seconds, seconds - (s.trackAt (s.trackIndexForGlobal seconds)).startOffset)

@[simp] theorem scheduleSync_cue : s.scheduleSync.cue = s.cue := by
  unfold scheduleSync
  split <;> rfl

@[simp] theorem updateChapter_cue (q : Rat) : (s.updateChapterForPosition q).cue = s.cue := by
  unfold updateChapterForPosition
  dsimp only
  split <;> rfl

theorem foldl_append_pending (rest : List Entry) :
    ∀ m : MpvController,
      (rest.foldl (fun m entry => m.command (.append entry)) m).pendingSeek = m.pendingSeek := by
  induction rest with
  | nil => exact fun _ => rfl
  | cons entry rest ih => exact fun m => ih (m.command (.append entry))

/-- The file is loaded anew, and the place in it is to be sought once it is ready. -/
theorem loadPlaylist_cue (m : MpvController) {entries : List Entry} {idx : Nat}
    (hfirst : entries.head?.map (·.track) = some idx) (header : String) (q : Rat) :
    (m.loadPlaylist entries header q).pendingSeek = q ∧
      ∃ commands, (m.loadPlaylist entries header q).commands = commands ++ m.commands ∧
        ∀ drops (loader : Loader), loader.obey drops commands = loader.load idx := by
  cases entries with
  | nil => cases hfirst
  | cons first rest =>
    have htrack : first.track = idx := by simpa using hfirst
    refine ⟨foldl_append_pending rest _, _, loadPlaylist_tells m first rest header q, fun drops loader => ?_⟩
    show (loader.obey drops ((rest.map Command.append).reverse ++
      [.replace first, .setHttpHeaders header])).exec drops (.setPause false) = _
    rw [Loader.obey_append, Loader.obey_appends, ← htrack]
    rfl

theorem playlistFrom_first {idx : Nat} (h : idx < s.tracks.length) :
    (s.playlistFrom idx).head?.map (·.track) = some idx := by
  obtain ⟨hne, hlabels, -⟩ := playlistFrom_spec h
  cases hentries : s.playlistFrom idx with
  | nil => exact absurd hentries hne
  | cons entry rest =>
    rw [hentries] at hlabels
    simp only [List.map_cons, List.length_cons, List.range'_succ, List.cons.injEq] at hlabels
    simp [hlabels.1]

/-- A position is loaded by its track and the place in its file. -/
theorem loadTrack_cue (hne : s.tracks ≠ []) (q : Rat) (autoplay : Bool) :
    ∃ (idx : Nat) (commands : List Command), s.trackIndexForGlobal q = idx ∧ idx < s.tracks.length ∧
      (s.loadTrackForGlobal q autoplay).cue =
        {s.cue with
          currentTrack := idx
          pendingSeek := if s.isHls then q else q - (s.trackAt idx).startOffset
          commands := commands ++ s.cue.commands} ∧
      ∀ drops (loader : Loader), loader.obey drops commands = loader.load idx := by
  obtain ⟨idx, hidx, hlt⟩ := trackIndex_bounds hne q
  obtain ⟨hpending, commands, hcommands, hobey⟩ := loadPlaylist_cue s.mpv (playlistFrom_first hlt)
    (s.authHeader (s.trackAt idx)) (if s.isHls then q else q - (s.trackAt idx).startOffset)
  unfold loadTrackForGlobal
  rw [hidx]
  dsimp only
  rw [if_neg (by omega), updateChapter_cue]
  cases autoplay
  · refine ⟨idx, .setPause true :: commands, rfl, hlt, ?_, fun drops loader => hobey drops loader⟩
    simp [cue, MpvController.pause, MpvController.requestPaused, MpvController.command, hcommands, hpending]
  · refine ⟨idx, commands, rfl, hlt, ?_, hobey⟩
    simp [cue, hcommands, hpending]

/-- The target is in another file. -/
def Jumps (s : PlaybackSession) (seconds : Rat) : Prop := (s.place (s.aim seconds)).1 ≠ s.currentTrack

instance (s : PlaybackSession) (seconds : Rat) : Decidable (s.Jumps seconds) :=
  inferInstanceAs (Decidable (_ ≠ _))

/-- A track of the book plays. -/
structure Playing (s : PlaybackSession) : Prop where
  active : s.active = true
  first : 0 ≤ s.currentTrack
  last : s.currentTrack < s.tracks.length

theorem Playing.tracks (h : s.Playing) : s.tracks ≠ [] := by
  have hfirst := h.first
  have hlast := h.last
  intro hnone
  rw [hnone, List.length_nil] at hlast
  omega

@[simp] theorem noted_cue (q : Rat) : (s.noted q).cue = s.cue := by
  unfold noted
  dsimp only
  rw [scheduleSync_cue]
  split <;> rfl

theorem place_stay {T : Rat} (h : s.isHls = true ∨ s.trackIndexForGlobal T = s.currentTrack) :
    (s.place T).1 = s.currentTrack ∧
      (s.place T).2 = if s.isHls then T else T - (s.trackAt s.currentTrack).startOffset := by
  unfold place
  cases hhls : s.isHls
  · have hsame : s.trackIndexForGlobal T = s.currentTrack := h.resolve_left (by simp [hhls])
    simp [hsame]
  · simp

/-- A seek within the file is a command, and one into another file loads it. -/
theorem seekGlobal_cue (h : s.Playing) (seconds : Rat) :
    (¬s.Jumps seconds ∧ (s.seekGlobal seconds).cue =
        {s.cue with commands := .seek (s.place (s.aim seconds)).2 :: s.cue.commands}) ∨
      s.Jumps seconds ∧ ∃ (idx : Nat) (commands : List Command),
        (s.place (s.aim seconds)).1 = idx ∧ idx < s.tracks.length ∧
        (s.seekGlobal seconds).cue =
          {s.cue with
            currentTrack := idx
            pendingSeek := (s.place (s.aim seconds)).2
            commands := commands ++ s.cue.commands} ∧
        ∀ drops (loader : Loader), loader.obey drops commands = loader.load idx := by
  obtain ⟨hclosed, -⟩ | ⟨-, ⟨hstay, he⟩ | ⟨⟨hhls, hother⟩, he⟩⟩ := seekGlobal_cases s seconds
  · have hfirst := h.first
    have hlast := h.last
    obtain hclosed | hclosed | hclosed := hclosed
    · exact absurd (h.active.symm.trans hclosed) (by decide)
    · omega
    · omega
  · left
    obtain ⟨htrack, hplace⟩ := place_stay hstay
    refine ⟨not_not.mpr htrack, ?_⟩
    rw [he, noted_cue, hplace]
    rfl
  · right
    obtain ⟨idx, commands, hidx, hlt, hcue, hobey⟩ := loadTrack_cue h.tracks (s.aim seconds) (!s.mpv.paused)
    have hplace : s.place (s.aim seconds) = (s.trackIndexForGlobal (s.aim seconds),
        s.aim seconds - (s.trackAt (s.trackIndexForGlobal (s.aim seconds))).startOffset) := by
      simp [place, hhls]
    refine ⟨?_, idx, commands, ?_, hlt, ?_, hobey⟩
    · unfold Jumps
      rw [hplace]
      exact hother
    · rw [hplace]
      exact hidx
    · rw [he, noted_cue, hcue, hplace, hidx]
      simp [hhls]

/-- The place that waited is sought. -/
theorem fileLoaded_cue (s : PlaybackSession) :
    (0 < s.mpv.pendingSeek ∧ (s.onMpvEvent .fileLoaded).cue =
        {s.cue with pendingSeek := 0, commands := .seek s.mpv.pendingSeek :: s.cue.commands}) ∨
      ¬0 < s.mpv.pendingSeek ∧ (s.onMpvEvent .fileLoaded).cue = s.cue := by
  unfold onMpvEvent MpvController.handleEvent
  dsimp only
  split
  · next hpending => exact .inl ⟨hpending, rfl⟩
  · next hpending => exact .inr ⟨hpending, rfl⟩

/-- Positions keep their places while the book is the same. -/
theorem place_congr {s' : PlaybackSession} (hhls : s'.isHls = s.isHls) (htracks : s'.tracks = s.tracks)
    (hcurrent : s.isHls = true → s'.currentTrack = s.currentTrack) (T : Rat) : s'.place T = s.place T := by
  have hindex : s'.trackIndexForGlobal T = s.trackIndexForGlobal T := by
    unfold trackIndexForGlobal
    rw [htracks]
  have htrack : ∀ i, s'.trackAt i = s.trackAt i := fun i => by
    unfold trackAt
    rw [htracks]
  unfold place
  rw [hhls, hindex, htrack]
  split
  · next h => rw [hcurrent h]
  · rfl

/-- What waits and what libmpv is told change neither the book nor the track that plays. -/
theorem Playing.told {s' : PlaybackSession} (h : s.Playing) {pendingSeek : Rat} {commands : List Command}
    (hcue : s'.cue = {s.cue with pendingSeek, commands}) :
    s'.Playing ∧ s'.currentTrack = s.currentTrack ∧ s'.mpv.pendingSeek = pendingSeek ∧
      ∀ T, s'.place T = s.place T := by
  have hactive : s'.active = s.active := congrArg Cue.active hcue
  have hcurrent : s'.currentTrack = s.currentTrack := congrArg Cue.currentTrack hcue
  have htracks : s'.tracks = s.tracks := congrArg Cue.tracks hcue
  refine ⟨⟨?_, ?_, ?_⟩, hcurrent, congrArg Cue.pendingSeek hcue, ?_⟩
  · exact hactive.trans h.active
  · exact hcurrent.symm ▸ h.first
  · exact hcurrent.symm ▸ htracks.symm ▸ h.last
  · exact place_congr (congrArg Cue.isHls hcue) htracks fun _ => hcurrent

end PlaybackSession

/-! ### The session and libmpv -/

structure Seeks where
  session : PlaybackSession
  mpv : Loader
  /-- History: where the last `seekGlobal` went. -/
  target : Option Rat := none

namespace Seeks
open PlaybackSession

inductive Event where
  /-- Whether libmpv drops the command, should it come before the file is ready. -/
  | seekGlobal (seconds : Rat) (drops : Bool)
  /-- The file is ready. -/
  | loads
  /-- The oldest file-loaded event is delivered. -/
  | deliver (drops : Bool)

/-- The session handles an event, and libmpv does what it is told. -/
def pass (x : Seeks) (e : PlaybackSession.Event) (drops : Bool) : Seeks :=
  let session := PlaybackSession.machine.step x.session e
  {x with session, mpv := x.mpv.obey drops (Playback.told x.session session)}

def step (x : Seeks) : Event → Seeks
  | .seekGlobal seconds drops =>
    {x.pass (.seekGlobal seconds) drops with target := some (x.session.aim seconds)}
  | .loads => {x with mpv := x.mpv.loads}
  | .deliver drops =>
    if x.mpv.events = 0 then x
    else {x with mpv := {x.mpv with events := x.mpv.events - 1}}.pass (.mpv .fileLoaded) drops

def machine : Machine Seeks Event := ⟨step⟩

/-- A session that has just been opened. -/
def opened (s : PlaybackSession) (response : Json) (mpv : Loader) : Seeks :=
  let session := s.applyPlayResponse response
  {session, mpv := mpv.obey false (Playback.told s session)}

/-- libmpv plays from here: it was sought, or is where the file starts. -/
def Fits (heard : Option Rat) (q : Rat) : Prop :=
  match heard with
  | some p => p = q
  | none => q ≤ 0

instance (heard : Option Rat) (q : Rat) : Decidable (Fits heard q) :=
  match heard with
  | some p => inferInstanceAs (Decidable (p = q))
  | none => inferInstanceAs (Decidable (q ≤ 0))

/-- Once the file is ready and the session knows it, libmpv is where the last seek went. -/
def Wins (x : Seeks) : Prop :=
  x.mpv.ready = true → x.mpv.events = 0 → ∀ T ∈ x.target,
    x.mpv.file.map Int.ofNat = some (x.session.place T).1 ∧ Fits x.mpv.heard (x.session.place T).2

instance (x : Seeks) : Decidable x.Wins :=
  inferInstanceAs (Decidable (_ → _ → ∀ T ∈ x.target, _))

/-- A command is overtaken by no place that waits for the file, and is not lost: a seek
within the file comes when no other place waits, and what libmpv drops before the file is
ready is where it would be anyway. -/
def Rule (x : Seeks) : Event → Prop
  | .seekGlobal seconds drops =>
    let q := (x.session.place (x.session.aim seconds)).2
    ¬x.session.Jumps seconds →
      if 0 < x.session.mpv.pendingSeek then q = x.session.mpv.pendingSeek
      else x.mpv.ready = true ∨ drops = false ∨ Fits x.mpv.heard q
  | .loads => True
  | .deliver drops =>
    0 < x.mpv.events → 0 < x.session.mpv.pendingSeek →
      x.mpv.ready = true ∨ drops = false ∨ Fits x.mpv.heard x.session.mpv.pendingSeek

instance (x : Seeks) : DecidablePred (Rule x)
  | .seekGlobal _ _ => inferInstanceAs (Decidable (_ → ite _ _ _))
  | .loads => .isTrue trivial
  | .deliver _ => inferInstanceAs (Decidable (_ → _ → _))

structure Kept (x : Seeks) : Prop where
  playing : x.session.Playing
  file : x.mpv.file.map Int.ofNat = some x.session.currentTrack
  /-- What waits is still to be sought. -/
  coming : 0 < x.session.mpv.pendingSeek → x.mpv.ready = false ∨ 0 < x.mpv.events
  lands : ∀ T ∈ x.target, (x.session.place T).1 = x.session.currentTrack ∧
    if 0 < x.session.mpv.pendingSeek then x.session.mpv.pendingSeek = (x.session.place T).2
    else Fits x.mpv.heard (x.session.place T).2

/-- A seek that libmpv may drop only where it is there already. -/
theorem fits_seek {m : Loader} {drops : Bool} {q : Rat} (h : m.ready = true ∨ drops = false ∨ Fits m.heard q) :
    Fits (m.exec drops (.seek q)).heard q := by
  rw [Loader.exec_seek]
  split
  · rfl
  · next hearly =>
    simp only [Bool.or_eq_true, Bool.not_eq_true', not_or] at hearly
    exact (h.resolve_left hearly.1).resolve_left hearly.2

theorem seek_kept (m : Loader) (drops : Bool) (q : Rat) :
    (m.exec drops (.seek q)).file = m.file ∧ (m.exec drops (.seek q)).ready = m.ready ∧
      (m.exec drops (.seek q)).events = m.events := by
  rw [Loader.exec_seek]
  split <;> exact ⟨rfl, rfl, rfl⟩

/-- What the session tells libmpv in handling an event. -/
theorem pass_eq (x : Seeks) (e : PlaybackSession.Event) (drops : Bool) {commands : List Command}
    (h : (PlaybackSession.machine.step x.session e).cue.commands = commands ++ x.session.cue.commands) :
    x.pass e drops = {x with
      session := PlaybackSession.machine.step x.session e
      mpv := x.mpv.obey drops commands} := by
  have htold : Playback.told x.session (PlaybackSession.machine.step x.session e) = commands :=
    Playback.told_eq h
  simp only [pass, htold]

/-- A seek within the file overtakes no other place that waits, and is heard. -/
theorem Kept.stays {x : Seeks} (h : Kept x) {seconds : Rat} {drops : Bool}
    (he : Rule x (.seekGlobal seconds drops)) (hstay : ¬x.session.Jumps seconds)
    (hcue : (x.session.fresh.seekGlobal seconds).cue = {x.session.cue with
      commands := .seek (x.session.place (x.session.aim seconds)).2 :: x.session.cue.commands}) :
    Kept (x.step (.seekGlobal seconds drops)) := by
  have hcommands : (PlaybackSession.machine.step x.session (.seekGlobal seconds)).cue.commands =
      [.seek (x.session.place (x.session.aim seconds)).2] ++ x.session.cue.commands :=
    congrArg Cue.commands hcue
  have hstep : x.step (.seekGlobal seconds drops) =
      { session := x.session.fresh.seekGlobal seconds
        mpv := x.mpv.exec drops (.seek (x.session.place (x.session.aim seconds)).2)
        target := some (x.session.aim seconds) } := by
    show {x.pass (.seekGlobal seconds) drops with target := some (x.session.aim seconds)} = _
    rw [pass_eq x _ drops hcommands]
    rfl
  obtain ⟨hplaying, hcurrent, hpending, hplace⟩ := h.playing.told hcue
  obtain ⟨hfile, hready, hevents⟩ := seek_kept x.mpv drops (x.session.place (x.session.aim seconds)).2
  have hnext := he hstay
  rw [hstep]
  refine ⟨hplaying, ?_, ?_, ?_⟩
  · rw [hfile, hcurrent]
    exact h.file
  · rw [hready, hevents, hpending]
    exact h.coming
  · rintro T ⟨⟩
    dsimp only
    rw [hplace, hcurrent, hpending]
    refine ⟨by simpa [Jumps] using hstay, ?_⟩
    split
    · next hwaits =>
      rw [if_pos (show 0 < x.session.mpv.pendingSeek from hwaits)] at hnext
      exact hnext.symm
    · next hwaits =>
      rw [if_neg (show ¬0 < x.session.mpv.pendingSeek from hwaits)] at hnext
      exact fits_seek hnext

/-- A seek into another file waits for it, and nothing of the old file is left. -/
theorem Kept.jumps {x : Seeks} (h : Kept x) {seconds : Rat} (drops : Bool) (hjump : x.session.Jumps seconds)
    {idx : Nat} {commands : List Command} (htrack : (x.session.place (x.session.aim seconds)).1 = idx)
    (hlt : idx < x.session.tracks.length)
    (hcue : (x.session.fresh.seekGlobal seconds).cue =
      {x.session.cue with
        currentTrack := idx
        pendingSeek := (x.session.place (x.session.aim seconds)).2
        commands := commands ++ x.session.cue.commands})
    (hobey : x.mpv.obey drops commands = x.mpv.load idx) :
    Kept (x.step (.seekGlobal seconds drops)) := by
  have hcommands : (PlaybackSession.machine.step x.session (.seekGlobal seconds)).cue.commands =
      commands ++ x.session.cue.commands := congrArg Cue.commands hcue
  have hstep : x.step (.seekGlobal seconds drops) =
      { session := x.session.fresh.seekGlobal seconds
        mpv := x.mpv.load idx
        target := some (x.session.aim seconds) } := by
    show {x.pass (.seekGlobal seconds) drops with target := some (x.session.aim seconds)} = _
    rw [pass_eq x _ drops hcommands, hobey]
    rfl
  have hactive : (x.session.fresh.seekGlobal seconds).active = x.session.active := congrArg Cue.active hcue
  have hcurrent : (x.session.fresh.seekGlobal seconds).currentTrack = idx := congrArg Cue.currentTrack hcue
  have htracks : (x.session.fresh.seekGlobal seconds).tracks = x.session.tracks := congrArg Cue.tracks hcue
  have hpending : (x.session.fresh.seekGlobal seconds).mpv.pendingSeek =
      (x.session.place (x.session.aim seconds)).2 := congrArg Cue.pendingSeek hcue
  -- A stream has no other file to jump into.
  have hhls : x.session.isHls = false := by
    by_contra hhls
    exact hjump (by simp [place, Bool.not_eq_false _ ▸ hhls])
  have hplace := place_congr (s := x.session) (congrArg Cue.isHls hcue) htracks
    fun hstream => absurd (hhls.symm.trans hstream) Bool.false_ne_true
  rw [hstep]
  refine ⟨⟨?_, ?_, ?_⟩, ?_, fun _ => .inl rfl, ?_⟩
  · exact hactive.trans h.playing.active
  · exact hcurrent.symm ▸ Int.natCast_nonneg idx
  · exact hcurrent.symm ▸ htracks.symm ▸ Int.ofNat_lt.mpr hlt
  · rw [hcurrent]
    rfl
  · rintro T ⟨⟩
    dsimp only
    rw [hplace, hcurrent, hpending]
    refine ⟨htrack, ?_⟩
    split
    · rfl
    · next hwaits => exact not_lt.mp hwaits

theorem Kept.seekGlobal {x : Seeks} (h : Kept x) {seconds : Rat} {drops : Bool}
    (he : Rule x (.seekGlobal seconds drops)) : Kept (x.step (.seekGlobal seconds drops)) := by
  have hplaying : x.session.fresh.Playing := ⟨h.playing.active, h.playing.first, h.playing.last⟩
  obtain ⟨hstay, hcue⟩ | ⟨hjump, idx, commands, htrack, hlt, hcue, hobey⟩ :=
    seekGlobal_cue hplaying seconds
  · exact h.stays he hstay hcue
  · exact h.jumps drops hjump htrack hlt hcue (hobey drops x.mpv)

theorem Kept.loads {x : Seeks} (h : Kept x) : Kept (x.step .loads) := by
  unfold step Loader.loads
  dsimp only
  split
  · exact ⟨h.playing, h.file, fun _ => .inr (Nat.succ_pos _), h.lands⟩
  · exact h

theorem deliver_eq {x : Seeks} {drops : Bool} (hsome : x.mpv.events ≠ 0) {commands : List Command}
    (hcommands : (x.session.fresh.onMpvEvent .fileLoaded).cue.commands = commands ++ x.session.cue.commands) :
    x.step (.deliver drops) =
      { session := x.session.fresh.onMpvEvent .fileLoaded
        mpv := Loader.obey drops {x.mpv with events := x.mpv.events - 1} commands
        target := x.target } := by
  show (if x.mpv.events = 0 then x else _) = _
  rw [if_neg hsome,
    pass_eq {x with mpv := {x.mpv with events := x.mpv.events - 1}} (.mpv .fileLoaded) drops hcommands]
  rfl

/-- The place that waited is sought, whichever file the event was about. -/
theorem Kept.deliver {x : Seeks} (h : Kept x) {drops : Bool} (he : Rule x (.deliver drops)) :
    Kept (x.step (.deliver drops)) := by
  by_cases hnothing : x.mpv.events = 0
  · rw [show x.step (.deliver drops) = x from if_pos hnothing]
    exact h
  obtain ⟨hwaits, hcue⟩ | ⟨hnone, hcue⟩ := fileLoaded_cue x.session.fresh
  · obtain ⟨hplaying, hcurrent, hpending, hplace⟩ := h.playing.told hcue
    obtain ⟨hfile, -⟩ := seek_kept {x.mpv with events := x.mpv.events - 1} drops x.session.mpv.pendingSeek
    have hcommands : (x.session.fresh.onMpvEvent .fileLoaded).cue.commands =
        [.seek x.session.mpv.pendingSeek] ++ x.session.cue.commands := congrArg Cue.commands hcue
    rw [deliver_eq hnothing hcommands]
    refine ⟨hplaying, (congrArg _ hfile).trans (h.file.trans (congrArg some hcurrent.symm)), fun hpos => ?_,
      fun T hT => ?_⟩
    · exact absurd (hpending ▸ hpos) (lt_irrefl 0)
    · obtain ⟨htrack, hlands⟩ := h.lands T hT
      dsimp only
      rw [hplace, hcurrent, hpending, if_neg (lt_irrefl 0)]
      refine ⟨htrack, ?_⟩
      rw [if_pos (show 0 < x.session.mpv.pendingSeek from hwaits)] at hlands
      exact hlands ▸ fits_seek (he (Nat.pos_of_ne_zero hnothing) hwaits)
  · obtain ⟨hplaying, hcurrent, hpending, hplace⟩ := h.playing.told hcue
    have hcommands : (x.session.fresh.onMpvEvent .fileLoaded).cue.commands = [] ++ x.session.cue.commands :=
      congrArg Cue.commands hcue
    rw [deliver_eq hnothing hcommands]
    refine ⟨hplaying, h.file.trans (congrArg some hcurrent.symm), fun hpos => ?_, fun T hT => ?_⟩
    · exact absurd (hpending ▸ hpos) hnone
    · dsimp only
      rw [hplace, hcurrent, hpending]
      exact h.lands T hT

theorem keeps : Machine.Keeps machine Rule Kept where
  step x e hx he := by
    cases e with
    | seekGlobal seconds drops => exact hx.seekGlobal he
    | loads => exact hx.loads
    | deliver drops => exact hx.deliver he

/-- With the last event handled, nothing waits. -/
theorem Kept.wins {x : Seeks} (h : Kept x) : Wins x := by
  intro hready hevents T hT
  obtain ⟨htrack, hlands⟩ := h.lands T hT
  refine ⟨htrack ▸ h.file, ?_⟩
  split at hlands
  · next hwaits =>
    rcases h.coming hwaits with hloading | hpos
    · exact absurd (hloading.symm.trans hready) Bool.false_ne_true
    · exact absurd hevents (Nat.ne_of_gt hpos)
  · exact hlands

/-- Before it loads its file, a session that opens only sets the speed. -/
theorem openAt_cue (s : PlaybackSession) (resume : Rat) :
    ∃ (s' : PlaybackSession) (speed : List Command), s.openAt resume = s'.loadTrackForGlobal resume true ∧
      s'.cue = {s.cue with active := true, commands := speed ++ s.cue.commands} := by
  obtain ⟨speed, -, hcommands, hpending⟩ := Playback.defaultSpeed_tells s
  refine ⟨_, speed, rfl, ?_⟩
  simp only [cue, emitActiveChanged, emit, ← hcommands, ← hpending]
  rfl

/-- The file that plays first is loaded, and nothing was sought yet. -/
theorem kept_opened (s : PlaybackSession) (response : Json) (mpv : Loader)
    (husable : (s.readPlayResponse response).Usable) : Kept (opened s response mpv) := by
  obtain ⟨resume, happly⟩ : ∃ resume, s.applyPlayResponse response =
      (s.readPlayResponse response).openAt resume := ⟨_, if_pos husable⟩
  obtain ⟨s', speed, hopen, hs'⟩ := openAt_cue (s.readPlayResponse response) resume
  have htracks : s'.tracks ≠ [] := fun hnone => husable.2.1 ((congrArg Cue.tracks hs').symm.trans hnone)
  obtain ⟨idx, commands, -, hlt, hcue, hobey⟩ := loadTrack_cue htracks resume true
  rw [← hopen, ← happly] at hcue
  have hactive : (s.applyPlayResponse response).active = true :=
    (congrArg Cue.active hcue).trans (congrArg Cue.active hs')
  have hcurrent : (s.applyPlayResponse response).currentTrack = idx := congrArg Cue.currentTrack hcue
  have hkept : (s.applyPlayResponse response).tracks = s'.tracks := congrArg Cue.tracks hcue
  have htold : Playback.told s (s.applyPlayResponse response) = commands ++ speed := by
    refine Playback.told_eq ((congrArg Cue.commands hcue).trans ?_)
    rw [List.append_assoc]
    exact congrArg (commands ++ ·) (congrArg Cue.commands hs')
  have hmpv : (opened s response mpv).mpv = (mpv.obey false speed).load idx := by
    show mpv.obey false (Playback.told s (s.applyPlayResponse response)) = _
    rw [htold, Loader.obey_append, hobey]
  refine ⟨⟨hactive, ?_, ?_⟩, ?_, fun _ => .inl ?_, ?_⟩
  · exact hcurrent.symm ▸ Int.natCast_nonneg idx
  · exact hcurrent.symm ▸ hkept.symm ▸ Int.ofNat_lt.mpr hlt
  · rw [hmpv]
    exact congrArg some hcurrent.symm
  · rw [hmpv]
    rfl
  · rintro T ⟨⟩

/-- **The last seek wins.** In every run of seeks, loads and file-loaded events in which a
seek within a file is made only while no other place waits for the file, and libmpv drops no
seek it needs: once the last event has been handled, libmpv is where the last seek went. -/
theorem last_seek_wins (s : PlaybackSession) (response : Json) (mpv : Loader)
    (husable : (s.readPlayResponse response).Usable) (es : List Event)
    (h : machine.Along Rule (opened s response mpv) es) : Wins (machine.run (opened s response mpv) es) :=
  (keeps.run (kept_opened s response mpv husable) h).wins

/-- Into another file, and on within it before it has loaded. -/
def burst : List Event :=
  [.loads, .deliver true, .seekGlobal 15 true, .seekGlobal 18 true, .loads, .deliver true]

/-- The place that waited overtakes the seek the user made last. -/
theorem burst_overtaken :
    ¬Wins (machine.run (opened samplePlayer sampleBook {}) burst) ∧
      (machine.run (opened samplePlayer sampleBook {}) burst).target = some 18 ∧
      (machine.run (opened samplePlayer sampleBook {}) burst).mpv.heard = some 5 := by
  decide +kernel

/-- The same seeks, the second one made once the file has loaded, and a jump back. -/
def patient : List Event :=
  [.loads, .deliver true, .seekGlobal 15 true, .loads, .deliver true, .seekGlobal 18 true, .seekGlobal 4 true,
    .loads, .deliver true]

theorem last_seek_wins_patient :
    Wins (machine.run (opened samplePlayer sampleBook {}) patient) ∧
      (machine.run (opened samplePlayer sampleBook {}) patient).target = some 4 ∧
      (machine.run (opened samplePlayer sampleBook {}) patient).mpv.heard = some 4 :=
  ⟨last_seek_wins samplePlayer sampleBook {} (by decide +kernel) patient (by decide +kernel),
    by decide +kernel⟩

end Seeks

end ShelfRemote.Player
