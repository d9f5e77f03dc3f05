import Mathlib.Algebra.Order.Field.Rat
import Mathlib.Data.List.Sort
import ShelfRemote.Net.ApiClient
import ShelfRemote.Player.MpvController
import ShelfRemote.Player.ProgressSyncer

/-! A playback session, from the play request to the close.

The book is one timeline over several tracks, and libmpv plays one playlist of
them at a time. Positions are exact and in seconds; the clock counts milliseconds
and a timer is the moment it is due. What the session posts is a `Post` with the
closure its reply is handed to; the client delivers a reply at most once and tells
whether it is stale. Signals that only redraw the screen are left out. -/
namespace ShelfRemote.Player
open Qt Net Runs

structure Track where
  index : Int := 0
  startOffset : Rat := 0
  duration : Rat := 0
  contentUrl : String := ""
  mimeType : String := ""
  deriving DecidableEq

namespace Track

def ofJson (t : Json) : Track :=
  { index := (t.value "index").toInt
    startOffset := (t.value "startOffset").toDouble 0
    duration := (t.value "duration").toDouble 0
    contentUrl := (t.value "contentUrl").toString ""
    mimeType := (t.value "mimeType").toString "" }

/-- Where the track ends. -/
def stop (t : Track) : Rat := t.startOffset + t.duration

/-- The order `applyPlayResponse` sorts by. -/
def Before (a b : Track) : Prop := a.startOffset ≤ b.startOffset

instance : DecidableRel Before := fun a b => inferInstanceAs (Decidable (a.startOffset ≤ b.startOffset))

end Track

/-- `std::sort` by start offset. Which of two tracks with one offset comes first is
left open. -/
structure TrackSort where
  sort : List Track → List Track
  perm : ∀ tracks, (sort tracks).Perm tracks
  sorted : ∀ tracks, (sort tracks).Pairwise Track.Before

instance : Std.Total Track.Before := ⟨fun a b => le_total a.startOffset b.startOffset⟩

instance : IsTrans Track Track.Before := ⟨fun _ b _ hab hbc => le_trans (b := b.startOffset) hab hbc⟩

instance : Inhabited TrackSort where
  default :=
    { sort := List.insertionSort Track.Before
      perm := List.perm_insertionSort Track.Before
      sorted := List.pairwise_insertionSort Track.Before }

structure Chapter where
  start : Rat
  stop : Rat
  title : String
  deriving DecidableEq

def Chapter.ofJson (c : Json) : Chapter :=
  { start := (c.toObject.value "start").toDouble 0
    stop := (c.toObject.value "end").toDouble 0
    title := (c.toObject.value "title").toString "" }

/-- What the session takes from Qt, the application and its settings. -/
structure Env where
  text : UrlText
  sort : TrackSort
  deviceId : String := ""
  version : String := ""
  defaultRate : Rat := 1
  skipSeconds : Int := 30

/-- Listening time, and the session it accrued in. -/
structure Span where
  session : Nat
  sessionId : String
  ms : Nat
  deriving DecidableEq

/-- The payload of a sync or a close; the listening time is in milliseconds. -/
structure Report where
  currentTime : Rat
  timeListened : Nat
  duration : Rat

inductive Body where
  | play (request : Json)
  | report (r : Report)

inductive Closure where
  | play (gen : Nat)
  | report (listened gen : Nat)
  /-- Ends the wait for the last close. -/
  | quit
  deriving DecidableEq

structure Post where
  id : Nat
  target : Target
  body : Body
  closure : Closure
  /-- History: the session it was posted in, and where the time it reports comes
  from. -/
  session : Nat
  spans : List Span

inductive Signal where
  | activeChanged (active : Bool) (itemId episodeId : String) (position duration : Rat)
      (completed : Bool)
  | positionChanged (position : Rat)
  | seeked (position : Rat)
  | chapterChanged (index : Int) (title : String)
  | playbackError (message : String)
  deriving DecidableEq

structure PlaybackSession where
  env : Env
  /-- The server and the token the client is set to. -/
  server : Endpoints
  accessToken : String := ""
  mpv : MpvController := {}
  listen : ProgressSyncer := {}
  /-- When the timers that run are due. -/
  syncTimer : Option Nat := none
  seekSyncTimer : Option Nat := none
  sleepTimer : Option Nat := none
  /-- The tick that redraws the time left is running. -/
  sleepTick : Bool := false
  sleepMinutes : Int := 0
  sleepRemainingMs : Int := 0
  sleepAtChapterEnd : Bool := false
  sleepChapterEnd : Rat := 0
  active : Bool := false
  playing : Bool := false
  playGeneration : Nat := 0
  listenGeneration : Nat := 0
  sessionId : String := ""
  itemId : String := ""
  episodeId : String := ""
  completed : Bool := false
  title : String := ""
  author : String := ""
  duration : Rat := 0
  globalPosition : Rat := 0
  currentTrack : Int := -1
  queuedThroughTrack : Int := -1
  currentPlaylistUsesAuth : Bool := false
  tracks : List Track := []
  chapters : List Chapter := []
  chapterIndex : Int := -1
  isHls : Bool := false
  /-- The clock, in milliseconds. -/
  now : Nat := 0
  created : Nat := 0
  inFlight : List Post := []
  /-- History: everything ever posted, newest first. -/
  wire : List Post := []
  /-- History: where the pending listening time comes from. -/
  spans : List Span := []
  /-- History: how many requests were made before the last `stopAndClose`. -/
  stopped : Nat := 0
  /-- What the event being handled has emitted, oldest first. -/
  signals : List Signal := []

/-- `kSyncIntervalMs`. -/
def syncIntervalMs : Nat := 12000

/-- `kSeekSyncDebounceMs`. -/
def seekSyncDebounceMs : Nat := 1200

/-- Same scheme, host and effective port. -/
def sameOrigin (a b : QUrl) : Bool :=
  toLower a.scheme == toLower b.scheme && toLower a.host == toLower b.host &&
    a.effectivePort == b.effectivePort

namespace PlaybackSession

def emit (s : PlaybackSession) (signal : Signal) : PlaybackSession :=
  {s with signals := s.signals ++ [signal]}

def emitActiveChanged (s : PlaybackSession) : PlaybackSession :=
  s.emit (.activeChanged s.active s.itemId s.episodeId s.globalPosition s.duration s.completed)

def post (s : PlaybackSession) (target : Target) (body : Body) (closure : Closure)
    (spans : List Span := []) : PlaybackSession :=
  let p : Post := ⟨s.created, target, body, closure, s.listenGeneration, spans⟩
  {s with created := s.created + 1, inFlight := p :: s.inFlight, wire := p :: s.wire}

/-- The track `m_tracks.at(i)`. -/
def trackAt (s : PlaybackSession) (i : Int) : Track := s.tracks.getD i.toNat {}

def chapterTitle (s : PlaybackSession) : String :=
  if s.chapterIndex < 0 ∨ s.chapters.length ≤ s.chapterIndex then ""
  else ((s.chapters[s.chapterIndex.toNat]?).map (·.title)).getD ""

def play (s : PlaybackSession) : PlaybackSession := if s.active then {s with mpv := s.mpv.play} else s

def pause (s : PlaybackSession) : PlaybackSession := if s.active then {s with mpv := s.mpv.pause} else s

def togglePlayPause (s : PlaybackSession) : PlaybackSession :=
  if !s.active then s else if s.mpv.paused then s.play else s.pause

def setSpeed (s : PlaybackSession) (speed : Rat) : PlaybackSession := {s with mpv := s.mpv.setSpeed speed}

def setVolume (s : PlaybackSession) (volume : Rat) : PlaybackSession :=
  {s with mpv := s.mpv.setVolume (max 0 (min 1 volume) * 100)}

/-! ### The sleep timer -/

def clearSleepTimer (s : PlaybackSession) : PlaybackSession :=
  {s with
    sleepTimer := none
    sleepTick := false
    sleepMinutes := 0
    sleepRemainingMs := 0
    sleepAtChapterEnd := false
    sleepChapterEnd := 0}

/-- `static_cast<int>`. -/
def toInt (ms : Int) : Int := Int.bmod ms (2 ^ 32)

def resumeSleepCountdown (s : PlaybackSession) : PlaybackSession :=
  if s.sleepMinutes ≤ 0 ∨ s.sleepTimer.isSome then s
  else {s with sleepTimer := some (s.now + (toInt (max 1 s.sleepRemainingMs)).toNat), sleepTick := true}

def holdSleepCountdown (s : PlaybackSession) : PlaybackSession :=
  match s.sleepTimer with
  | none => s
  | some due => {s with sleepRemainingMs := ↑(due - s.now), sleepTimer := none, sleepTick := false}

/-- Whole seconds left, rounded up. -/
def sleepRemaining (s : PlaybackSession) : Int :=
  let ms : Int := match s.sleepTimer with
    | some due => ↑(due - s.now)
    | none => s.sleepRemainingMs
  toInt ((max 0 ms + 999) / 1000)

def setSleepTimer (s : PlaybackSession) (minutes : Int) : PlaybackSession :=
  let s := s.clearSleepTimer
  if !s.active then s
  else
    let s :=
      {s with sleepMinutes := max 0 minutes, sleepRemainingMs := max 0 minutes * 60 * 1000}
    if s.playing then s.resumeSleepCountdown else s

/-- The end of the chapter a position is in, else the start of the next one, else
the end of the book. -/
def chapterEndFor (s : PlaybackSession) (globalSeconds : Rat) : Rat :=
  let rec go : List Chapter → Rat → Rat
    | [], nextStart => nextStart
    | c :: rest, nextStart =>
      if c.start ≤ globalSeconds ∧ globalSeconds < c.stop then c.stop
      else go rest (if globalSeconds < c.start then min nextStart c.start else nextStart)
  go s.chapters s.duration

def setSleepAtChapterEnd (s : PlaybackSession) : PlaybackSession :=
  let s := s.clearSleepTimer
  if s.active ∧ s.chapters ≠ [] then
    {s with sleepAtChapterEnd := true, sleepChapterEnd := s.chapterEndFor s.globalPosition}
  else s

def cycleSleepTimer (s : PlaybackSession) : PlaybackSession :=
  if s.sleepAtChapterEnd then s.setSleepTimer 0
  else if s.sleepMinutes = 0 then s.setSleepTimer 15
  else if s.sleepMinutes = 15 then s.setSleepTimer 30
  else if s.sleepMinutes = 30 then s.setSleepTimer 60
  else if s.chapters = [] then s.setSleepTimer 0
  else s.setSleepAtChapterEnd

/-! ### Reporting -/

/-- The pending time is reserved for this request. -/
def sync (s : PlaybackSession) : PlaybackSession :=
  if !s.active || s.sessionId == "" then s
  else
    let s := {s with seekSyncTimer := none}
    let (listen, listened) := s.listen.takeListened s.now
    let spans := s.spans
    {s with listen, spans := []}.post (s.server.sessionSync s.sessionId)
      (.report ⟨s.globalPosition, listened, s.duration⟩) (.report listened s.listenGeneration) spans

/-- Ends the session. A blocking close is the one before the program ends. -/
def flushAndClose (s : PlaybackSession) (blocking : Bool := false) : PlaybackSession :=
  if !s.active then s
  else
    let s := s.clearSleepTimer
    let s := {s with
      syncTimer := none
      seekSyncTimer := none
      listen := s.listen.setPlaying s.now false}
    let (listen, listened) := s.listen.takeListened s.now
    let spans := s.spans
    let sessionId := s.sessionId
    let body := Body.report ⟨s.globalPosition, listened, s.duration⟩
    let s := {s with listen, spans := [], active := false, sessionId := ""}.emitActiveChanged
    if sessionId = "" then s
    else
      s.post (s.server.sessionClose sessionId) body
        (if blocking then .quit else .report listened s.listenGeneration) spans

def stopAndClose (s : PlaybackSession) : PlaybackSession :=
  let s := s.flushAndClose
  {s with mpv := s.mpv.stop, stopped := s.created}

def scheduleSync (s : PlaybackSession) : PlaybackSession :=
  if s.active then {s with seekSyncTimer := some (s.now + seekSyncDebounceMs)} else s

/-! ### Tracks and chapters -/

/-- The first track that contains the position, else the last one. -/
def trackIndexForGlobal (s : PlaybackSession) (globalSeconds : Rat) : Int :=
  match s.tracks.findIdx? fun t => t.startOffset ≤ globalSeconds && globalSeconds < t.stop with
  | some i => i
  | none => s.tracks.length - 1

/-- The first chapter that contains the position, else none. -/
def chapterAt (s : PlaybackSession) (globalSeconds : Rat) : Int :=
  match s.chapters.findIdx? fun c => c.start ≤ globalSeconds && globalSeconds < c.stop with
  | some i => i
  | none => -1

def updateChapterForPosition (s : PlaybackSession) (globalSeconds : Rat) : PlaybackSession :=
  let idx := s.chapterAt globalSeconds
  if idx = s.chapterIndex then s
  else
    let s := {s with chapterIndex := idx}
    s.emit (.chapterChanged s.chapterIndex s.chapterTitle)

/-- The header for a track: the bearer goes to the server's own origin only. -/
def authHeader (s : PlaybackSession) (t : Track) : String :=
  if sameOrigin (s.server.resolveContentUrl s.env.text t.contentUrl) s.server.base then
    "Authorization: Bearer " ++ s.accessToken
  else ""

/-- The tracks from `idx` on that share the header of the first of them. -/
def playlistFrom (s : PlaybackSession) (idx : Nat) : List Entry :=
  let header := s.authHeader (s.trackAt idx)
  ((s.tracks.drop idx).takeWhile fun t => s.authHeader t == header).mapIdx fun i t =>
    ⟨s.env.text.toString (s.server.resolveContentUrl s.env.text t.contentUrl), idx + i⟩

def loadTrackForGlobal (s : PlaybackSession) (globalSeconds : Rat) (autoplay : Bool) : PlaybackSession :=
  let idx := s.trackIndexForGlobal globalSeconds
  if idx < 0 then s
  else
    let t := s.trackAt idx
    let inFile := if s.isHls then globalSeconds else globalSeconds - t.startOffset
    let entries := s.playlistFrom idx.toNat
    let header := s.authHeader t
    let s := {s with
      currentTrack := idx
      queuedThroughTrack := idx + entries.length - 1
      currentPlaylistUsesAuth := header ≠ ""
      mpv := s.mpv.loadPlaylist entries header inFile}
    let s := if autoplay then s else {s with mpv := s.mpv.pause}
    s.updateChapterForPosition globalSeconds

def seekGlobal (s : PlaybackSession) (seconds : Rat) : PlaybackSession :=
  if !s.active || s.currentTrack < 0 || s.currentTrack ≥ s.tracks.length then s
  else
    let seconds := max 0 (min s.duration seconds)
    let s :=
      if s.isHls || s.trackIndexForGlobal seconds == s.currentTrack then
        let inFile := if s.isHls then seconds else seconds - (s.trackAt s.currentTrack).startOffset
        {s with mpv := s.mpv.seekAbsolute inFile}
      else s.loadTrackForGlobal seconds (!s.mpv.paused)
    let s := ({s with globalPosition := seconds}.emit (.positionChanged seconds)).emit (.seeked seconds)
    let s := if s.sleepAtChapterEnd then {s with sleepChapterEnd := s.chapterEndFor seconds} else s
    s.scheduleSync

/-- Where a seek goes: within the book. -/
def aim (s : PlaybackSession) (seconds : Rat) : Rat := max 0 (min s.duration seconds)

/-- What a seek leaves to do once libmpv has been told. -/
def noted (s : PlaybackSession) (seconds : Rat) : PlaybackSession :=
  let s := ({s with globalPosition := seconds}.emit (.positionChanged seconds)).emit (.seeked seconds)
  let s := if s.sleepAtChapterEnd then {s with sleepChapterEnd := s.chapterEndFor seconds} else s
  s.scheduleSync

/-- Nothing is open to seek in, or libmpv seeks in the file, or another one is loaded. -/
theorem seekGlobal_cases (s : PlaybackSession) (seconds : Rat) :
    ((s.active = false ∨ s.currentTrack < 0 ∨ s.tracks.length ≤ s.currentTrack) ∧ s.seekGlobal seconds = s) ∨
    s.active = true ∧
      ((s.isHls = true ∨ s.trackIndexForGlobal (s.aim seconds) = s.currentTrack) ∧
        s.seekGlobal seconds =
          {s with mpv := s.mpv.seekAbsolute (if s.isHls then s.aim seconds
            else s.aim seconds - (s.trackAt s.currentTrack).startOffset)}.noted (s.aim seconds) ∨
      (s.isHls = false ∧ s.trackIndexForGlobal (s.aim seconds) ≠ s.currentTrack) ∧
        s.seekGlobal seconds =
          (s.loadTrackForGlobal (s.aim seconds) (!s.mpv.paused)).noted (s.aim seconds)) := by
  unfold seekGlobal
  split
  · next hclosed =>
    simp only [Bool.or_eq_true, Bool.not_eq_true', decide_eq_true_eq, ge_iff_le, or_assoc] at hclosed
    exact .inl ⟨hclosed, rfl⟩
  · next hopen =>
    simp only [Bool.or_eq_true, Bool.not_eq_true', decide_eq_true_eq, not_or, Bool.not_eq_false] at hopen
    refine .inr ⟨hopen.1.1, ?_⟩
    by_cases hstay : (s.isHls || s.trackIndexForGlobal (s.aim seconds) == s.currentTrack) = true
    · exact .inl ⟨by simpa using hstay, congrArg (noted · (s.aim seconds)) (if_pos hstay)⟩
    · exact .inr ⟨by simpa using hstay, congrArg (noted · (s.aim seconds)) (if_neg hstay)⟩

def skip (s : PlaybackSession) (deltaSeconds : Rat) : PlaybackSession :=
  s.seekGlobal (s.globalPosition + deltaSeconds)

def fallbackSkipSeconds (s : PlaybackSession) : Rat :=
  if 0 < s.env.skipSeconds then s.env.skipSeconds else 30

/-- To the earliest chapter that starts after the position. -/
def nextChapter (s : PlaybackSession) : PlaybackSession :=
  if !s.active then s
  else if s.chapters = [] then s.skip s.fallbackSkipSeconds
  else
    let target := s.chapters.foldl (fun target c =>
      if s.globalPosition + 1 / 2 < c.start ∧ (target < 0 ∨ c.start < target) then c.start
      else target) (-1)
    if 0 ≤ target then s.seekGlobal target else s

/-- To the start of the chapter being heard, or within its first three seconds to
the one before it. -/
def previousChapter (s : PlaybackSession) : PlaybackSession :=
  if !s.active then s
  else if s.chapters = [] then s.skip (-s.fallbackSkipSeconds)
  else
    let current := s.chapters.foldl (fun current c =>
      if c.start ≤ s.globalPosition + 1 / 2 then max current c.start else current) 0
    let previous := s.chapters.foldl (fun previous c =>
      if c.start < current then max previous c.start else previous) (-1)
    if 3 < s.globalPosition - current ∨ previous < 0 then s.seekGlobal current
    else s.seekGlobal previous

/-! ### Opening -/

def playRequestBody (env : Env) : Json :=
  .object [
    ("deviceInfo", .object [("deviceId", .string env.deviceId), ("clientName", .string "ShelfRemote"),
      ("clientVersion", .string env.version), ("manufacturer", .string "JW6"),
      ("model", .string "Linux HTPC")]),
    ("mediaPlayer", .string "mpv"),
    ("supportedMimeTypes", .array [.string "audio/mpeg", .string "audio/mp4", .string "audio/aac",
      .string "audio/flac", .string "audio/ogg", .string "audio/opus"]),
    ("forceDirectPlay", .bool false), ("forceTranscode", .bool false)]

def startSession (s : PlaybackSession) (target : Target) : PlaybackSession :=
  let s := {s with playGeneration := s.playGeneration + 1}
  s.post target (.play (playRequestBody s.env)) (.play s.playGeneration)

/-- A session that is open is closed, and its stream stopped. -/
def leaveItem (s : PlaybackSession) : PlaybackSession :=
  if s.active then
    let s := s.flushAndClose
    {s with mpv := s.mpv.stop}
  else s

def playItem (s : PlaybackSession) (itemId : String) : PlaybackSession :=
  let s := {s.leaveItem with itemId, episodeId := ""}
  s.startSession (s.server.play itemId)

def playEpisode (s : PlaybackSession) (itemId episodeId : String) : PlaybackSession :=
  let s := {s.leaveItem with itemId, episodeId}
  s.startSession (s.server.playEpisode itemId episodeId)

/-- What the response says of the session, before it is known to be usable. -/
def readPlayResponse (s : PlaybackSession) (obj : Json) : PlaybackSession :=
  let media := (obj.value "mediaMetadata").toObject
  let tracks := s.env.sort.sort ((obj.value "audioTracks").toArray.map fun t => Track.ofJson t.toObject)
  let duration := (obj.value "duration").toDouble 0
  {s with
    sessionId := (obj.value "id").toString ""
    chapters := (obj.value "chapters").toArray.map Chapter.ofJson
    title := (obj.value "displayTitle").toString ((media.value "title").toString "")
    author := (obj.value "displayAuthor").toString ((media.value "author").toString "")
    tracks
    isHls := tracks.length == 1 && tracks.any fun t => contains t.mimeType "mpegurl"
    -- A duration the server leaves out is where the last track ends.
    duration := if duration ≤ 0 then (tracks.getLast?.map Track.stop).getD duration else duration}

/-- The session has an id, a playable track and a duration. -/
def Usable (s : PlaybackSession) : Prop :=
  s.sessionId ≠ "" ∧ s.tracks ≠ [] ∧ (s.trackAt 0).contentUrl ≠ "" ∧ 0 < s.duration

instance (s : PlaybackSession) : Decidable s.Usable := inferInstanceAs (Decidable (_ ∧ _ ∧ _ ∧ _))

/-- The session opens at the position to resume from. -/
def openAt (s : PlaybackSession) (resume : Rat) : PlaybackSession :=
  let s := {s with globalPosition := resume, active := true, completed := false}.emitActiveChanged
  let s := {s with
    listen := s.listen.reset
    spans := []
    listenGeneration := s.listenGeneration + 1
    mpv := if 0 < s.env.defaultRate then s.mpv.setSpeed s.env.defaultRate else s.mpv}
  s.loadTrackForGlobal resume true

def applyPlayResponse (s : PlaybackSession) (obj : Json) : PlaybackSession :=
  let s := s.readPlayResponse obj
  if s.Usable then
    s.openAt ((obj.value "currentTime").toDouble ((obj.value "startTime").toDouble 0))
  else s.emit (.playbackError "The server returned an unusable playback session")

/-! ### Events of libmpv -/

def onMpvPosition (s : PlaybackSession) (positionInFile : Rat) : PlaybackSession :=
  if !s.active || s.currentTrack < 0 then s
  else
    let global := if s.isHls then positionInFile
      else (s.trackAt s.currentTrack).startOffset + positionInFile
    let s := {s with globalPosition := global}.emit (.positionChanged global)
    let s := s.updateChapterForPosition global
    if s.sleepAtChapterEnd ∧ s.sleepChapterEnd - 1 / 20 ≤ global then
      let boundary := s.sleepChapterEnd
      let s := s.clearSleepTimer.pause
      if boundary < s.duration then s.seekGlobal boundary else s
    else s

/-- A hundredth of a second into a track, so that rounding does not fall short of it. -/
def startOf (s : PlaybackSession) (track : Int) : Rat := (s.trackAt track).startOffset + 1 / 100

def onEndOfFile (s : PlaybackSession) : PlaybackSession :=
  if !s.active then s
  else if s.isHls then {s with completed := true}.stopAndClose
  else
    let nextTrack := s.currentTrack + 1
    if nextTrack < s.tracks.length then
      let s := s.sync
      if nextTrack ≤ s.queuedThroughTrack then
        -- libmpv is already moving to this entry.
        {s with currentTrack := nextTrack}.updateChapterForPosition (s.startOf nextTrack)
      else s.loadTrackForGlobal (s.startOf nextTrack) true
    else {s with completed := true}.stopAndClose

def onPlayingChanged (s : PlaybackSession) (playing : Bool) : PlaybackSession :=
  let s := {s with playing}
  if !s.active then s
  else
    let s := {s with listen := s.listen.setPlaying s.now playing}
    if playing then {s with syncTimer := some (s.now + syncIntervalMs)}.resumeSleepCountdown
    else ({s with syncTimer := none}.holdSleepCountdown).sync

/-- `playingChanged` is emitted when what is heard has changed. -/
def updatePlaying (s : PlaybackSession) : PlaybackSession :=
  if s.mpv.effective = s.mpv.playing then s
  else {s with mpv := s.mpv.updatePlaying}.onPlayingChanged s.mpv.effective

/-- libmpv is not to go on to the next track of a closed session. -/
def onMpvError (s : PlaybackSession) (message : String) : PlaybackSession :=
  s.leaveItem.emit (.playbackError ("Playback error: " ++ message))

def onMpvEvent (s : PlaybackSession) (e : MpvEvent) : PlaybackSession :=
  let s := {s with mpv := s.mpv.handleEvent e}
  match e with
  | .timePos seconds => s.onMpvPosition seconds
  | .duration _ | .fileLoaded => s
  | .pause _ | .coreIdle _ | .pausedForCache _ => s.updatePlaying
  | .endFile .eof => s.onEndOfFile.updatePlaying
  | .endFile (.error message) => (s.onMpvError message).updatePlaying
  | .endFile .other => s.updatePlaying

/-! ### Replies and timers -/

def onPlayReply (s : PlaybackSession) (gen : Nat) (res : ApiResponse) : PlaybackSession :=
  if res.stale || gen != s.playGeneration then s
  else if !res.ok then
    s.emit (.playbackError ("Could not start playback (HTTP " ++ toString res.status ++ ")"))
  else s.applyPlayResponse res.body.toObject

/-- A request that failed in the session it was sent in returns its time. -/
def onReportReply (s : PlaybackSession) (listened gen : Nat) (spans : List Span) (res : ApiResponse) :
    PlaybackSession :=
  if res.stale || gen != s.listenGeneration then s
  else if !res.ok then {s with listen := s.listen.rollback listened, spans := s.spans ++ spans}
  else s

def finished (s : PlaybackSession) (id : Nat) (res : ApiResponse) : PlaybackSession :=
  match pick (fun p => p.id == id) s.inFlight with
  | none => s
  | some (p, rest) =>
    let s := {s with inFlight := rest}
    match p.closure with
    | .play gen => s.onPlayReply gen res
    | .report listened gen => s.onReportReply listened gen p.spans res
    | .quit => s

def onSyncTimeout (s : PlaybackSession) : PlaybackSession :=
  match s.syncTimer with
  | none => s
  | some due => {s with syncTimer := some (due + syncIntervalMs)}.sync

def onSeekSyncTimeout (s : PlaybackSession) : PlaybackSession :=
  match s.seekSyncTimer with
  | none => s
  | some _ => {s with seekSyncTimer := none}.sync

def onSleepTimeout (s : PlaybackSession) : PlaybackSession :=
  match s.sleepTimer with
  | none => s
  | some _ => s.clearSleepTimer.pause

/-- Time passes. While the listening clock runs, it passes in the session that is
open. -/
def tick (s : PlaybackSession) (ms : Nat) : PlaybackSession :=
  {s with
    now := s.now + ms
    spans := if s.listen.playing then s.spans ++ [⟨s.listenGeneration, s.sessionId, ms⟩] else s.spans}

def onAccessTokenChanged (s : PlaybackSession) (accessToken : String) : PlaybackSession :=
  let s := {s with accessToken}
  if s.active && s.currentPlaylistUsesAuth then
    {s with mpv := s.mpv.setHttpHeaders ("Authorization: Bearer " ++ accessToken)}
  else s

/-! ### Events -/

inductive Event where
  | playItem (itemId : String)
  | playEpisode (itemId episodeId : String)
  | play
  | pause
  | togglePlayPause
  | seekGlobal (seconds : Rat)
  | skip (deltaSeconds : Rat)
  | nextChapter
  | previousChapter
  | setSpeed (speed : Rat)
  | setVolume (volume : Rat)
  | setSleepTimer (minutes : Int)
  | setSleepAtChapterEnd
  | cycleSleepTimer
  | stopAndClose
  | aboutToQuit
  | mpv (e : MpvEvent)
  | reply (id : Nat) (res : ApiResponse)
  | syncTimeout
  | seekSyncTimeout
  | sleepTimeout
  | tick (ms : Nat)
  | accessToken (token : String)
  /-- The client is pointed at a server. -/
  | baseUrl (server : Endpoints)
  | settings (defaultRate : Rat) (skipSeconds : Int)

def handle (s : PlaybackSession) : Event → PlaybackSession
  | .playItem itemId => s.playItem itemId
  | .playEpisode itemId episodeId => s.playEpisode itemId episodeId
  | .play => s.play
  | .pause => s.pause
  | .togglePlayPause => s.togglePlayPause
  | .seekGlobal seconds => s.seekGlobal seconds
  | .skip deltaSeconds => s.skip deltaSeconds
  | .nextChapter => s.nextChapter
  | .previousChapter => s.previousChapter
  | .setSpeed speed => s.setSpeed speed
  | .setVolume volume => s.setVolume volume
  | .setSleepTimer minutes => s.setSleepTimer minutes
  | .setSleepAtChapterEnd => s.setSleepAtChapterEnd
  | .cycleSleepTimer => s.cycleSleepTimer
  | .stopAndClose => s.stopAndClose
  | .aboutToQuit => s.flushAndClose true
  | .mpv e => s.onMpvEvent e
  | .reply id res => s.finished id res
  | .syncTimeout => s.onSyncTimeout
  | .seekSyncTimeout => s.onSeekSyncTimeout
  | .sleepTimeout => s.onSleepTimeout
  | .tick ms => s.tick ms
  | .accessToken token => s.onAccessTokenChanged token
  | .baseUrl server => {s with server}
  | .settings defaultRate skipSeconds => {s with env := {s.env with defaultRate, skipSeconds}}

/-- The next event starts: nothing is emitted yet. -/
def fresh (s : PlaybackSession) : PlaybackSession := {s with signals := []}

def machine : Machine PlaybackSession Event := ⟨fun s e => s.fresh.handle e⟩

end PlaybackSession

/-! ### A book of three tracks

It is what the examples of runs play: ten seconds a track, each track on a host of
its own. -/

def sampleText : UrlText :=
  { toString := fun u => u.scheme ++ "://" ++ u.host
    parse := fun url => {scheme := "https", host := String.ofList (url.toList.drop 8)}
    sha1 := id }

def sampleServer : Endpoints := .setBase {scheme := "https", host := "abs"}

def sampleTrack (url : String) (startOffset : Int) : Json :=
  .object [("contentUrl", .string url), ("startOffset", .number startOffset), ("duration", .number 10)]

def sampleBook : Json :=
  .object [("id", .string "s1"), ("duration", .number 30), ("audioTracks", .array
    [sampleTrack "https://a" 0, sampleTrack "https://b" 10, sampleTrack "https://c" 20])]

/-- Before the first event. -/
def samplePlayer : PlaybackSession := {env := {text := sampleText, sort := default}, server := sampleServer}

end ShelfRemote.Player
