import ShelfRemote.Player.Books
import ShelfRemote.Player.Seeks

/-! The course of a playback session.

`Course` is the part of a session that its protocol is about: the book that is open
and where it comes from, the position, the timers, the requests, what libmpv was
given to play, and the signals other components hear. `loadTrack_load` says once what
a playlist that is loaded makes of it. -/
namespace ShelfRemote.Player
open Qt Net Runs

/-! ### What libmpv holds -/

/-- The header libmpv sends, and the playlist it was given last, the entries it has
played included. -/
structure Tape where
  header : String := ""
  entries : List Entry := []
  deriving DecidableEq

namespace Tape

def exec (t : Tape) : Command → Tape
  | .setHttpHeaders header => {t with header}
  | .replace entry => {t with entries := [entry]}
  | .append entry => {t with entries := t.entries ++ [entry]}
  | .stop => {t with entries := []}
  | .seek _ | .setPause _ | .setSpeed _ | .setVolume _ => t

/-- Carries out commands, newest first. -/
def obey (t : Tape) (commands : List Command) : Tape := commands.foldr (fun c t => t.exec c) t

theorem obey_append (t : Tape) (news olds : List Command) : t.obey (news ++ olds) = (t.obey olds).obey news :=
  List.foldr_append

theorem obey_appends (rest : List Entry) : ∀ t : Tape,
    t.obey (rest.map Command.append).reverse = {t with entries := t.entries ++ rest} := by
  induction rest with
  | nil => intro t; simp [obey]
  | cons entry rest ih =>
    intro t
    rw [List.map_cons, List.reverse_cons, obey_append, ih]
    show ({t with entries := t.entries ++ [entry] ++ rest} : Tape) = _
    rw [List.append_assoc]
    rfl

end Tape

namespace MpvController

/-- What libmpv holds after all it was told. -/
def tape (m : MpvController) : Tape := Tape.obey {} m.commands

theorem loadPlaylist_tape (m : MpvController) {entries : List Entry} (hne : entries ≠ []) (header : String)
    (q : Rat) : (m.loadPlaylist entries header q).tape = {header, entries} := by
  cases entries with
  | nil => exact absurd rfl hne
  | cons first rest =>
    unfold tape
    rw [PlaybackSession.loadPlaylist_tells, Tape.obey_append]
    show Tape.obey _ ((rest.map Command.append).reverse ++ [.replace first, .setHttpHeaders header]) = _
    rw [Tape.obey_append, Tape.obey_appends]
    rfl

theorem handleEvent_tape (m : MpvController) (e : MpvEvent) : (m.handleEvent e).tape = m.tape := by
  cases e with
  | fileLoaded =>
    unfold handleEvent
    dsimp only
    split <;> rfl
  | _ => rfl

end MpvController

/-! ### The course -/

/-- Other components and the reports are about these signals. -/
def Signal.marks : Signal → Bool
  | .activeChanged .. | .seeked _ => true
  | .positionChanged _ | .chapterChanged .. | .playbackError _ => false

/-- A session has opened. -/
def Signal.opens : Signal → Bool
  | .activeChanged active .. => active
  | _ => false

/-- A position was sought. -/
def Signal.seeks : Signal → Bool
  | .seeked _ => true
  | _ => false

structure Course where
  text : UrlText
  sort : TrackSort
  server : Endpoints
  accessToken : String
  active : Bool
  completed : Bool
  isHls : Bool
  sessionId : String
  itemId : String
  episodeId : String
  duration : Rat
  position : Rat
  tracks : List Track
  chapters : List Chapter
  currentTrack : Int
  queuedThroughTrack : Int
  usesAuth : Bool
  syncTimer : Option Nat
  seekSyncTimer : Option Nat
  sleepTimer : Option Nat
  now : Nat
  /-- The newest play request. -/
  asked : Nat
  created : Nat
  inFlight : List Post
  wire : List Post
  tape : Tape
  signals : List Signal

namespace Course

def trackAt (c : Course) (i : Nat) : Track := c.tracks.getD i {}

/-- The track's content is on the server's own origin. -/
def home (c : Course) (i : Nat) : Bool :=
  sameOrigin (c.server.resolveContentUrl c.text (c.trackAt i).contentUrl) c.server.base

def bearer (c : Course) : String := "Authorization: Bearer " ++ c.accessToken

theorem bearer_ne (c : Course) : c.bearer ≠ "" := by
  unfold bearer
  simp

def entry (c : Course) (i : Nat) : Entry :=
  ⟨c.text.toString (c.server.resolveContentUrl c.text (c.trackAt i).contentUrl), i⟩

@[simp] theorem entry_track (c : Course) (i : Nat) : (c.entry i).track = i := rfl

/-- `n` tracks from `idx` on are handed to libmpv. -/
def load (c : Course) (idx n : Nat) : Course :=
  {c with
    currentTrack := idx
    queuedThroughTrack := idx + n - 1
    usesAuth := c.home idx
    tape := {header := if c.home idx then c.bearer else "", entries := (List.range' idx n).map c.entry}}

@[simp] theorem load_home (c : Course) (idx n i : Nat) : (c.load idx n).home i = c.home i := rfl

@[simp] theorem load_usesAuth (c : Course) (idx n : Nat) : (c.load idx n).usesAuth = c.home idx := by
  simp only [load]

/-- The token goes with a playlist whose first track is at home. -/
theorem load_header (c : Course) (idx n : Nat) : (c.load idx n).tape.header ≠ "" ↔ c.home idx = true := by
  have hbearer := c.bearer_ne
  simp only [load]
  cases c.home idx <;> simp [hbearer]

def post (c : Course) (p : Post) : Course :=
  {c with created := c.created + 1, inFlight := p :: c.inFlight, wire := p :: c.wire}

/-- A position is sought, and is to be reported. -/
def seek (c : Course) (q : Rat) : Course :=
  {c with
    position := q
    seekSyncTimer := some (c.now + seekSyncDebounceMs)
    signals := c.signals ++ [.seeked q]}

def close (c : Course) (completed : Bool) : Course :=
  {c with
    active := false
    completed
    sessionId := ""
    syncTimer := none
    seekSyncTimer := none
    sleepTimer := none
    signals := c.signals ++ [.activeChanged false c.itemId c.episodeId c.position c.duration completed]}

def request (c : Course) (itemId episodeId : String) (p : Post) : Course :=
  {c with itemId, episodeId, asked := c.asked + 1}.post p

/-- What a play response says of the session. -/
def read (c : Course) (obj : Json) : Course :=
  let tracks := c.sort.sort ((obj.value "audioTracks").toArray.map fun t => Track.ofJson t.toObject)
  let duration := (obj.value "duration").toDouble 0
  {c with
    sessionId := (obj.value "id").toString ""
    chapters := (obj.value "chapters").toArray.map Chapter.ofJson
    tracks
    isHls := tracks.length == 1 && tracks.any fun t => contains t.mimeType "mpegurl"
    duration := if duration ≤ 0 then (tracks.getLast?.map Track.stop).getD duration else duration}

/-- The session a response is about becomes the open one. -/
def opens (c : Course) (resume : Rat) : Course :=
  {c with
    active := true
    completed := false
    position := resume
    signals := c.signals ++ [.activeChanged true c.itemId c.episodeId resume c.duration false]}

/-- `p` reports the position to an endpoint of the session. -/
structure Reports (c : Course) (target : Target) (p : Post) : Prop where
  id : p.id = c.created
  target : p.target = target
  body : ∃ listened, p.body = .report ⟨c.position, listened, c.duration⟩
  closure : ∀ gen, p.closure ≠ .play gen

/-- The `n` tracks from `idx` on are of one policy, and the next one is not. -/
structure Alike (c : Course) (idx n : Nat) : Prop where
  some : 0 < n
  within : idx + n ≤ c.tracks.length
  same : ∀ i < n, c.home (idx + i) = c.home idx
  next : idx + n < c.tracks.length → c.home (idx + n) ≠ c.home idx

/-- Consecutive tracks of one policy are loaded, as many as there are. -/
inductive Loads (c : Course) : Course → Prop where
  | load (idx n : Nat) (h : c.Alike idx n) : Loads c (c.load idx n)

end Course

namespace PlaybackSession
variable {s : PlaybackSession}

def course (s : PlaybackSession) : Course :=
  { text := s.env.text
    sort := s.env.sort
    server := s.server
    accessToken := s.accessToken
    active := s.active
    completed := s.completed
    isHls := s.isHls
    sessionId := s.sessionId
    itemId := s.itemId
    episodeId := s.episodeId
    duration := s.duration
    position := s.globalPosition
    tracks := s.tracks
    chapters := s.chapters
    currentTrack := s.currentTrack
    queuedThroughTrack := s.queuedThroughTrack
    usesAuth := s.currentPlaylistUsesAuth
    syncTimer := s.syncTimer
    seekSyncTimer := s.seekSyncTimer
    sleepTimer := s.sleepTimer
    now := s.now
    asked := s.playGeneration
    created := s.created
    inFlight := s.inFlight
    wire := s.wire
    tape := s.mpv.tape
    signals := s.signals.filter Signal.marks }

theorem emit_course (s : PlaybackSession) {signal : Signal} (h : signal.marks = true) :
    (s.emit signal).course = {s.course with signals := s.course.signals ++ [signal]} := by
  simp only [course, emit, List.filter_append, List.filter_cons_of_pos h, List.filter_nil]

/-- What only redraws the screen does not show in the course. -/
theorem emit_unmarked (s : PlaybackSession) {signal : Signal} (h : signal.marks = false) :
    (s.emit signal).course = s.course := by
  simp [course, emit, h]

/-! ### Loading -/

theorem authHeader_course (i : Nat) :
    s.authHeader (s.trackAt i) = if s.course.home i then s.course.bearer else "" := rfl

theorem authHeader_beq (i j : Nat) :
    (s.authHeader (s.trackAt i) == s.authHeader (s.trackAt j)) = (s.course.home i == s.course.home j) := by
  have hne := s.course.bearer_ne
  rw [authHeader_course, authHeader_course]
  cases s.course.home i <;> cases s.course.home j <;> simp [hne, hne.symm]

/-- The tracks `takeWhile` keeps are those of one policy, and the next one has the other. -/
theorem playlistFrom_course {idx : Nat} (h : idx < s.tracks.length) :
    ∃ n, s.course.Alike idx n ∧ s.playlistFrom idx = (List.range' idx n).map s.course.entry := by
  have hat : ∀ i, (hi : i < s.tracks.length) → s.trackAt i = s.tracks[i] := fun i hi => by
    simp [trackAt, hi]
  let other : Track → Bool := fun t => !(s.authHeader t == s.authHeader (s.trackAt idx))
  have hother : ∀ i, (hi : idx + i < s.tracks.length) →
      other s.tracks[idx + i] = !(s.course.home (idx + i) == s.course.home idx) := fun i hi => by
    rw [← hat, ← authHeader_beq]
  have htake : (s.tracks.drop idx).takeWhile (fun t => s.authHeader t == s.authHeader (s.trackAt idx)) =
      (s.tracks.drop idx).take ((s.tracks.drop idx).findIdx other) := List.takeWhile_eq_take_findIdx_not
  have hle : (s.tracks.drop idx).findIdx other ≤ s.tracks.length - idx :=
    List.length_drop ▸ List.findIdx_le_length
  generalize hn : (s.tracks.drop idx).findIdx other = n at htake hle
  have hsame : ∀ i < n, s.course.home (idx + i) = s.course.home idx := by
    intro i hi
    have hno := List.not_of_lt_findIdx (hn.symm ▸ hi)
    rw [List.getElem_drop, hother i (by omega)] at hno
    simpa using hno
  have hnext : idx + n < s.tracks.length → s.course.home (idx + n) ≠ s.course.home idx := by
    intro hi
    have hlt : (s.tracks.drop idx).findIdx other < (s.tracks.drop idx).length := by
      rw [hn, List.length_drop]
      omega
    have hyes : other (s.tracks.drop idx)[(s.tracks.drop idx).findIdx other] = true := List.findIdx_getElem
    simp only [hn, List.getElem_drop, hother n hi] at hyes
    simpa using hyes
  refine ⟨n, ⟨?_, show idx + n ≤ s.tracks.length by omega, hsame, hnext⟩, ?_⟩
  · by_contra hzero
    obtain rfl : n = 0 := by omega
    exact hnext h rfl
  · unfold playlistFrom
    dsimp only
    rw [htake]
    apply List.ext_getElem
    · simp only [List.length_mapIdx, List.length_take, List.length_drop, List.length_map, List.length_range']
      omega
    · intro i hi hi'
      simp only [List.length_map, List.length_range'] at hi'
      simp only [List.getElem_mapIdx, List.getElem_take, List.getElem_drop, List.getElem_map,
        List.getElem_range', one_mul]
      rw [← hat (idx + i) (by omega)]
      rfl

@[simp] theorem updateChapter_course (q : Rat) : (s.updateChapterForPosition q).course = s.course := by
  unfold updateChapterForPosition
  dsimp only
  split
  · rfl
  · rw [emit_unmarked _ rfl]
    rfl

theorem loaded_course (s : PlaybackSession) (currentTrack queuedThroughTrack : Int)
    (currentPlaylistUsesAuth : Bool) (mpv : MpvController) :
    {s with currentTrack, queuedThroughTrack, currentPlaylistUsesAuth, mpv}.course =
      {s.course with
        currentTrack, queuedThroughTrack
        usesAuth := currentPlaylistUsesAuth
        tape := mpv.tape} := rfl

theorem loadTrack_load {q : Rat} {idx : Nat} (hidx : s.trackIndexForGlobal q = idx)
    (hlt : idx < s.tracks.length) (autoplay : Bool) :
    ∃ n, s.course.Alike idx n ∧ (s.loadTrackForGlobal q autoplay).course = s.course.load idx n := by
  obtain ⟨n, halike, hentries⟩ := playlistFrom_course hlt
  have hsome : s.playlistFrom idx ≠ [] := (playlistFrom_spec hlt).1
  have htape := MpvController.loadPlaylist_tape s.mpv hsome (s.authHeader (s.trackAt idx))
    (if s.isHls then q else q - (s.trackAt idx).startOffset)
  have huses : decide (s.authHeader (s.trackAt idx) ≠ "") = s.course.home idx := by
    have hbearer := s.course.bearer_ne
    rw [authHeader_course]
    cases s.course.home idx <;> simp [hbearer]
  have hmpv : ∀ mpv : MpvController,
      mpv.tape = ⟨s.authHeader (s.trackAt idx), s.playlistFrom idx⟩ →
      ({s with
        currentTrack := (idx : Int)
        queuedThroughTrack := idx + (s.playlistFrom idx).length - 1
        currentPlaylistUsesAuth := decide (s.authHeader (s.trackAt idx) ≠ "")
        mpv} : PlaybackSession).course = s.course.load idx n := by
    intro mpv hmpv
    rw [loaded_course, huses, hmpv, hentries, authHeader_course, List.length_map, List.length_range']
    simp only [Course.load]
  refine ⟨n, halike, ?_⟩
  unfold loadTrackForGlobal
  rw [hidx]
  dsimp only
  rw [if_neg (by omega), updateChapter_course]
  cases autoplay
  · rw [if_neg Bool.false_ne_true]
    exact hmpv _ htape
  · rw [if_pos rfl]
    exact hmpv _ htape

theorem loadTrack_course (hne : s.tracks ≠ []) (q : Rat) (autoplay : Bool) :
    s.course.Loads (s.loadTrackForGlobal q autoplay).course := by
  obtain ⟨idx, hidx, hlt⟩ := trackIndex_bounds hne q
  obtain ⟨n, halike, hload⟩ := loadTrack_load hidx hlt autoplay
  rw [hload]
  exact .load idx n halike

end PlaybackSession

end ShelfRemote.Player
