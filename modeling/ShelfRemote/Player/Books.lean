import Mathlib.Logic.Relation
import ShelfRemote.Player.PlaybackSession

/-! The books of a playback session.

Of all a session does, little matters to its requests and to listening time: the
clock starts or stops, a report takes what is pending, a close ends the session, a
play request goes out, and a reply returns time or opens a new session. `Books` is
the part of the state this happens in, and `handle_step` says once what each event
can do to it. What is proved of the books by cases on `Step` then holds of the
session, whatever else its functions do. -/
namespace ShelfRemote.Player
open Qt Net Runs

/-- The part of a playback session that its requests come from. -/
structure Books where
  listen : ProgressSyncer
  now : Nat
  /-- The newest session, and the id the server gave it. -/
  session : Nat
  sessionId : String
  /-- The newest play request. -/
  asked : Nat
  active : Bool
  created : Nat
  inFlight : List Post
  wire : List Post
  spans : List Span
  stopped : Nat

namespace Books

def setPlaying (b : Books) (playing : Bool) : Books := {b with listen := b.listen.setPlaying b.now playing}

/-- A request goes out with all that is pending. -/
def report (b : Books) (target : Target) (currentTime duration : Rat) (closure : Nat → Closure) : Books :=
  let (listen, listened) := b.listen.takeListened b.now
  let p : Post :=
    ⟨b.created, target, .report ⟨currentTime, listened, duration⟩, closure listened, b.session, b.spans⟩
  {b with listen, spans := [], created := b.created + 1, inFlight := p :: b.inFlight, wire := p :: b.wire}

/-- What is pending is dropped. -/
def discard (b : Books) : Books := {b with listen := (b.listen.takeListened b.now).1, spans := []}

def close (b : Books) : Books := {b with active := false, sessionId := ""}

/-- `stopAndClose` is over. -/
def stop (b : Books) : Books := {b with stopped := b.created}

def request (b : Books) (target : Target) (body : Json) : Books :=
  let p : Post := ⟨b.created, target, .play body, .play (b.asked + 1), b.session, []⟩
  {b with
    asked := b.asked + 1
    created := b.created + 1
    inFlight := p :: b.inFlight
    wire := p :: b.wire}

/-- The response to a play request is read. -/
def named (b : Books) (sessionId : String) : Books := {b with sessionId}

/-- A session opens with nothing pending. -/
def renew (b : Books) : Books :=
  {b with active := true, listen := b.listen.reset, spans := [], session := b.session + 1}

def tick (b : Books) (ms : Nat) : Books :=
  {b with
    now := b.now + ms
    spans := if b.listen.playing then b.spans ++ [⟨b.session, b.sessionId, ms⟩] else b.spans}

/-- The reply to a request is in. -/
def settle (b : Books) (rest : List Post) : Books := {b with inFlight := rest}

def rollback (b : Books) (listened : Nat) (spans : List Span) : Books :=
  {b with listen := b.listen.rollback listened, spans := b.spans ++ spans}

/-- The end of a session. It is closed before its last report is written. -/
inductive Closes (b : Books) : Books → Prop where
  | report (server : Endpoints) (currentTime duration : Rat) (closure : Nat → Closure)
      (hactive : b.active = true)
      (h : ∀ listened, closure listened = .report listened b.session ∨ closure listened = .quit) :
      Closes b ((b.setPlaying false).close.report (server.sessionClose b.sessionId) currentTime duration
        closure)
  | abandon (hactive : b.active = true) : Closes b (b.setPlaying false).discard.close

/-- What an event can do to the books, but for a reply or the passing of time.
`plays` says whether it may ask for a new session. -/
inductive Move (plays : Prop) : Books → Books → Prop where
  | setPlaying (b : Books) (playing : Bool) : Move plays b (b.setPlaying playing)
  | report (b : Books) (server : Endpoints) (currentTime duration : Rat) (hactive : b.active = true) :
      Move plays b (b.report (server.sessionSync b.sessionId) currentTime duration
        fun listened => .report listened b.session)
  | close {b b' : Books} (h : Closes b b') : Move plays b b'
  | finish {b b' : Books} (h : Closes b b') : Move plays b b'.stop
  | request (b : Books) (target : Target) (body : Json) (hplays : plays) (h : b.active = false) :
      Move plays b (b.request target body)

/-- A sequence of moves. -/
def Moves (plays : Prop) : Books → Books → Prop := Relation.ReflTransGen (Move plays)

section Moves
variable {plays : Prop}

theorem Moves.refl (b : Books) : Moves plays b b := Relation.ReflTransGen.refl

theorem Moves.trans {a b c : Books} (h : Moves plays a b) (h' : Moves plays b c) : Moves plays a c :=
  Relation.ReflTransGen.trans h h'

theorem Moves.of_eq {a b : Books} (h : b = a) : Moves plays a b := by
  rw [h]
  exact Moves.refl a

theorem Move.moves {a b : Books} (h : Move plays a b) : Moves plays a b := Relation.ReflTransGen.single h

end Moves

end Books

namespace PlaybackSession
variable {s : PlaybackSession}

def books (s : PlaybackSession) : Books :=
  { listen := s.listen
    now := s.now
    session := s.listenGeneration
    sessionId := s.sessionId
    asked := s.playGeneration
    active := s.active
    created := s.created
    inFlight := s.inFlight
    wire := s.wire
    spans := s.spans
    stopped := s.stopped }

open Books

/-- A play request goes out. -/
def Event.plays : Event → Bool
  | .playItem _ | .playEpisode _ _ => true
  | _ => false

/-! ### What leaves the books alone -/

@[simp] theorem play_books : s.play.books = s.books := by unfold play; split <;> rfl

@[simp] theorem pause_books : s.pause.books = s.books := by unfold pause; split <;> rfl

@[simp] theorem clearSleepTimer_books : s.clearSleepTimer.books = s.books := rfl

@[simp] theorem resumeSleepCountdown_books : s.resumeSleepCountdown.books = s.books := by
  unfold resumeSleepCountdown
  split <;> rfl

@[simp] theorem holdSleepCountdown_books : s.holdSleepCountdown.books = s.books := by
  unfold holdSleepCountdown
  split <;> rfl

@[simp] theorem scheduleSync_books : s.scheduleSync.books = s.books := by
  unfold scheduleSync
  split <;> rfl

@[simp] theorem updateChapter_books (q : Rat) : (s.updateChapterForPosition q).books = s.books := by
  unfold updateChapterForPosition
  dsimp only
  split <;> rfl

@[simp] theorem loadTrack_books (q : Rat) (autoplay : Bool) :
    (s.loadTrackForGlobal q autoplay).books = s.books := by
  unfold loadTrackForGlobal
  dsimp only
  split
  · rfl
  · rw [updateChapter_books]
    split <;> rfl

@[simp] theorem noted_books (q : Rat) : (s.noted q).books = s.books := by
  unfold noted
  dsimp only
  rw [scheduleSync_books]
  split <;> rfl

@[simp] theorem seekGlobal_books (q : Rat) : (s.seekGlobal q).books = s.books := by
  obtain ⟨-, he⟩ | ⟨-, ⟨-, he⟩ | ⟨-, he⟩⟩ := seekGlobal_cases s q
  · rw [he]
  · rw [he, noted_books]
    rfl
  · rw [he, noted_books, loadTrack_books]

@[simp] theorem setSleepTimer_books (minutes : Int) : (s.setSleepTimer minutes).books = s.books := by
  unfold setSleepTimer
  dsimp only
  split_ifs
  · rfl
  · exact resumeSleepCountdown_books
  · rfl

@[simp] theorem setSleepAtChapterEnd_books : s.setSleepAtChapterEnd.books = s.books := by
  unfold setSleepAtChapterEnd
  dsimp only
  split <;> rfl

@[simp] theorem togglePlayPause_books : s.togglePlayPause.books = s.books := by
  unfold togglePlayPause
  split_ifs <;> simp

@[simp] theorem nextChapter_books : s.nextChapter.books = s.books := by
  unfold nextChapter skip
  dsimp only
  split_ifs <;> simp

@[simp] theorem previousChapter_books : s.previousChapter.books = s.books := by
  unfold previousChapter skip
  dsimp only
  split_ifs <;> simp

@[simp] theorem cycleSleepTimer_books : s.cycleSleepTimer.books = s.books := by
  unfold cycleSleepTimer
  split_ifs <;> simp

@[simp] theorem onSleepTimeout_books : s.onSleepTimeout.books = s.books := by
  unfold onSleepTimeout
  split <;> simp

@[simp] theorem onAccessTokenChanged_books (token : String) :
    (s.onAccessTokenChanged token).books = s.books := by
  unfold onAccessTokenChanged
  dsimp only
  split <;> rfl

@[simp] theorem onMpvPosition_books (q : Rat) : (s.onMpvPosition q).books = s.books := by
  unfold onMpvPosition
  split
  · rfl
  · dsimp only
    split_ifs <;> simp <;> rfl

/-! ### What an event does to the books -/

variable {plays : Prop}

theorem sync_moves (s : PlaybackSession) : Moves plays s.books s.sync.books := by
  unfold sync
  split
  · exact Moves.refl _
  · next h =>
    have hactive : s.active = true := by simp_all
    exact (Move.report s.books s.server s.globalPosition s.duration hactive).moves

theorem flushAndClose_closes (s : PlaybackSession) (blocking : Bool) :
    s.active = false ∧ s.flushAndClose blocking = s ∨ Closes s.books (s.flushAndClose blocking).books := by
  unfold flushAndClose
  split
  · next h => exact .inl ⟨by simpa using h, rfl⟩
  · next h =>
    have hactive : s.active = true := by simp_all
    right
    dsimp only
    split
    · exact Closes.abandon hactive
    · refine Closes.report s.server s.globalPosition s.duration
        (fun listened => if blocking then .quit else .report listened s.listenGeneration) hactive ?_
      cases blocking
      · exact fun _ => .inl rfl
      · exact fun _ => .inr rfl

theorem flushAndClose_moves (s : PlaybackSession) (blocking : Bool) :
    Moves plays s.books (s.flushAndClose blocking).books := by
  rcases s.flushAndClose_closes blocking with ⟨_, h⟩ | h
  · exact Moves.of_eq (by rw [h])
  · exact (Move.close h).moves

theorem stopAndClose_closes (s : PlaybackSession) :
    s.active = false ∧ s.stopAndClose.books = s.books.stop ∨
      ∃ b, Closes s.books b ∧ s.stopAndClose.books = b.stop := by
  rcases s.flushAndClose_closes false with ⟨hidle, h⟩ | h
  · refine .inl ⟨hidle, ?_⟩
    unfold stopAndClose
    rw [h]
    rfl
  · exact .inr ⟨_, h, rfl⟩

theorem flushAndClose_idle (s : PlaybackSession) (blocking : Bool) :
    (s.flushAndClose blocking).active = false := by
  unfold flushAndClose
  split
  · simp_all
  · dsimp only
    split <;> rfl

theorem leaveItem_moves (s : PlaybackSession) : Moves plays s.books s.leaveItem.books := by
  unfold leaveItem
  split
  · exact flushAndClose_moves s false
  · exact Moves.refl _

theorem leaveItem_idle (s : PlaybackSession) : s.leaveItem.active = false := by
  unfold leaveItem
  split
  · next hactive => simp only [flushAndClose_idle]
  · next hactive => exact Bool.eq_false_of_not_eq_true hactive

theorem playItem_moves (s : PlaybackSession) (hplays : plays) (itemId episodeId : String) (target : Target) :
    Moves plays s.books (startSession {s.leaveItem with itemId, episodeId} target).books := by
  refine (leaveItem_moves s).trans (Move.moves ?_)
  exact Move.request s.leaveItem.books target (playRequestBody s.leaveItem.env) hplays (leaveItem_idle s)

theorem onPlayingChanged_moves (s : PlaybackSession) (playing : Bool) :
    Moves plays s.books (s.onPlayingChanged playing).books := by
  unfold onPlayingChanged
  dsimp only
  split
  · exact Moves.refl _
  · have hset : Moves plays s.books (s.books.setPlaying playing) := (Move.setPlaying s.books playing).moves
    split
    · rw [resumeSleepCountdown_books]
      exact hset
    · refine hset.trans (Moves.trans ?_ (sync_moves _))
      rw [holdSleepCountdown_books]
      exact Moves.refl _

theorem updatePlaying_moves (s : PlaybackSession) : Moves plays s.books s.updatePlaying.books := by
  unfold updatePlaying
  split
  · exact Moves.refl _
  · exact onPlayingChanged_moves {s with mpv := s.mpv.updatePlaying} s.mpv.effective

theorem onEndOfFile_moves (s : PlaybackSession) : Moves plays s.books s.onEndOfFile.books := by
  have hdone : s.active = true →
      Moves plays s.books ({s with completed := true} : PlaybackSession).stopAndClose.books := by
    intro hactive
    rcases stopAndClose_closes {s with completed := true} with ⟨hidle, _⟩ | ⟨b, hb, h⟩
    · exact absurd (hidle.symm.trans hactive) Bool.false_ne_true
    · rw [h]
      exact (Move.finish hb).moves
  unfold onEndOfFile
  dsimp only
  split_ifs with hidle
  · exact Moves.refl _
  · exact hdone (by simpa using hidle)
  · rw [updateChapter_books]
    exact sync_moves s
  · rw [loadTrack_books]
    exact sync_moves s
  · exact hdone (by simpa using hidle)

theorem onMpvEvent_moves (s : PlaybackSession) (e : MpvEvent) :
    Moves plays s.books (s.onMpvEvent e).books := by
  unfold onMpvEvent
  cases e with
  | timePos q =>
    dsimp only
    rw [onMpvPosition_books]
    exact Moves.refl _
  | duration _ => exact Moves.refl _
  | fileLoaded => exact Moves.refl _
  | pause flag => exact updatePlaying_moves {s with mpv := s.mpv.handleEvent (.pause flag)}
  | coreIdle flag => exact updatePlaying_moves {s with mpv := s.mpv.handleEvent (.coreIdle flag)}
  | pausedForCache flag =>
    exact updatePlaying_moves {s with mpv := s.mpv.handleEvent (.pausedForCache flag)}
  | endFile reason =>
    let s' : PlaybackSession := {s with mpv := s.mpv.handleEvent (.endFile reason)}
    cases reason with
    | eof =>
      have hend : Moves plays s.books s'.onEndOfFile.books := onEndOfFile_moves s'
      exact hend.trans (updatePlaying_moves _)
    | error message =>
      have herror : Moves plays s.books (s'.onMpvError message).books := leaveItem_moves s'
      exact herror.trans (updatePlaying_moves _)
    | other => exact updatePlaying_moves s'

/-- Every event is a sequence of moves that is neither a reply, nor the passing of
time, nor a call of `stopAndClose`. -/
theorem handle_moves (s : PlaybackSession) {e : Event} (hr : ∀ id res, e ≠ .reply id res)
    (ht : ∀ ms, e ≠ .tick ms) (hs : e ≠ .stopAndClose) :
    Moves (e.plays = true) s.books (s.handle e).books := by
  cases e with
  | reply id res => exact absurd rfl (hr id res)
  | tick ms => exact absurd rfl (ht ms)
  | playItem itemId => exact playItem_moves s rfl itemId "" _
  | playEpisode itemId episodeId => exact playItem_moves s rfl itemId episodeId _
  | stopAndClose => exact absurd rfl hs
  | aboutToQuit => exact flushAndClose_moves s true
  | mpv e => exact onMpvEvent_moves s e
  | syncTimeout =>
    show Moves _ s.books s.onSyncTimeout.books
    unfold onSyncTimeout
    split
    · exact Moves.refl _
    · next due _ => exact sync_moves {s with syncTimer := some (due + syncIntervalMs)}
  | seekSyncTimeout =>
    show Moves _ s.books s.onSeekSyncTimeout.books
    unfold onSeekSyncTimeout
    split
    · exact Moves.refl _
    · exact sync_moves {s with seekSyncTimer := none}
  | play => exact Moves.of_eq play_books
  | pause => exact Moves.of_eq pause_books
  | togglePlayPause => exact Moves.of_eq togglePlayPause_books
  | seekGlobal q => exact Moves.of_eq (seekGlobal_books q)
  | skip q => exact Moves.of_eq (seekGlobal_books _)
  | nextChapter => exact Moves.of_eq nextChapter_books
  | previousChapter => exact Moves.of_eq previousChapter_books
  | setSleepTimer minutes => exact Moves.of_eq (setSleepTimer_books minutes)
  | setSleepAtChapterEnd => exact Moves.of_eq setSleepAtChapterEnd_books
  | cycleSleepTimer => exact Moves.of_eq cycleSleepTimer_books
  | sleepTimeout => exact Moves.of_eq onSleepTimeout_books
  | accessToken token => exact Moves.of_eq (onAccessTokenChanged_books token)
  | setSpeed _ | setVolume _ | baseUrl _ | settings _ _ => exact Moves.refl _

/-! ### Replies -/

theorem openAt_books (s : PlaybackSession) (resume : Rat) : (s.openAt resume).books = s.books.renew := by
  unfold openAt
  dsimp only
  rw [loadTrack_books]
  rfl

end PlaybackSession

namespace Books

/-- What the reply to `p` does to the books it is already taken out of. -/
inductive Answered (p : Post) (res : ApiResponse) (b : Books) : Books → Prop where
  /-- No session opens and no time is returned. -/
  | kept (h : ∀ listened gen, p.closure ≠ .report listened gen) : Answered p res b b
  | unusable (h : p.closure = .play b.asked) (sessionId : String) : Answered p res b (b.named sessionId)
  | opened (h : p.closure = .play b.asked) (sessionId : String) :
      Answered p res b (b.named sessionId).renew
  /-- A report that failed in the session that is still the newest returns its time. -/
  | reported (listened gen : Nat) (h : p.closure = .report listened gen) :
      Answered p res b
        (if res.stale = false ∧ gen = b.session ∧ res.ok = false then b.rollback listened p.spans else b)

/-- What an event can do to the books. -/
inductive Step (b : Books) : PlaybackSession.Event → Books → Prop where
  | moves {b' : Books} {e : PlaybackSession.Event} (h : Moves (e.plays = true) b b')
      (hr : ∀ id res, e ≠ .reply id res) (ht : ∀ ms, e ≠ .tick ms) : Step b e b'
  | tick (ms : Nat) : Step b (.tick ms) (b.tick ms)
  /-- No session is open that could be stopped. -/
  | stop (h : b.active = false) : Step b .stopAndClose b.stop
  /-- The client has no such request, or has handed out its reply before. -/
  | unknown {id : Nat} {res : ApiResponse} (h : pick (fun p => p.id == id) b.inFlight = none) :
      Step b (.reply id res) b
  | answered {b' : Books} {id : Nat} {res : ApiResponse} {p : Post} {rest : List Post}
      (hpick : pick (fun p => p.id == id) b.inFlight = some (p, rest))
      (h : Answered p res (b.settle rest) b') : Step b (.reply id res) b'

end Books

namespace PlaybackSession
open Books

theorem onPlayReply_answered (s : PlaybackSession) {p : Post} {gen : Nat} (hc : p.closure = .play gen)
    (res : ApiResponse) : Answered p res s.books (s.onPlayReply gen res).books := by
  have hkept : Answered p res s.books s.books := .kept (by simp [hc])
  unfold onPlayReply
  split_ifs with hlate
  · exact hkept
  · exact hkept
  · have hgen : gen = s.books.asked := by simp_all [books]
    unfold applyPlayResponse
    dsimp only
    split_ifs
    · rw [openAt_books]
      exact .opened (hgen ▸ hc) _
    · exact .unusable (hgen ▸ hc) _

theorem onReportReply_books (s : PlaybackSession) (listened gen : Nat) (spans : List Span)
    (res : ApiResponse) :
    (s.onReportReply listened gen spans res).books =
      if res.stale = false ∧ gen = s.books.session ∧ res.ok = false then s.books.rollback listened spans
      else s.books := by
  unfold onReportReply
  by_cases hgen : gen = s.listenGeneration <;> cases hstale : res.stale <;> cases hok : res.ok <;>
    simp [hgen, books, Books.rollback]

theorem finished_step (s : PlaybackSession) (id : Nat) (res : ApiResponse) :
    Step s.books (.reply id res) (s.finished id res).books := by
  unfold finished
  split
  · next hpick => exact .unknown hpick
  · next p rest hpick =>
    refine .answered hpick ?_
    dsimp only
    split
    · next gen hc => exact onPlayReply_answered {s with inFlight := rest} hc res
    · next listened gen hc =>
      rw [onReportReply_books]
      exact .reported listened gen hc
    · next hc => exact .kept (by simp [hc])

theorem stopAndClose_step (s : PlaybackSession) : Step s.books .stopAndClose s.stopAndClose.books := by
  rcases s.stopAndClose_closes with ⟨hidle, h⟩ | ⟨b, hb, h⟩
  · rw [h]
    exact .stop hidle
  · rw [h]
    exact .moves (Move.finish hb).moves (by simp) (by simp)

/-- **Whatever an event does, to the books it is one of these steps.** -/
theorem handle_step (s : PlaybackSession) (e : Event) : Step s.books e (s.handle e).books := by
  cases e with
  | reply id res => exact finished_step s id res
  | tick ms => exact .tick ms
  | stopAndClose => exact stopAndClose_step s
  | _ => exact .moves (handle_moves s (by simp) (by simp) (by simp)) (by simp) (by simp)

end PlaybackSession

/-! ### Play requests -/

namespace Books

/-- One play request is the newest, and while a session is open it is answered. -/
structure Asked (b : Books) : Prop where
  older : ∀ p ∈ b.inFlight, ∀ gen, p.closure = .play gen → gen ≤ b.asked
  once : b.inFlight.Pairwise fun p q => ∀ gen, p.closure = .play gen → q.closure ≠ .play gen
  answered : b.active = true → ∀ p ∈ b.inFlight, p.closure ≠ .play b.asked

variable {b b' : Books} {plays : Prop}

/-- Fewer requests in flight, and a session that opens only once none of them is the
newest play request. -/
theorem Asked.settle (h : b.Asked) {rest : List Post} (hsub : rest.Sublist b.inFlight)
    (hasked : b'.asked = b.asked) (hrest : b'.inFlight = rest)
    (hactive : b'.active = true → b.active = true ∨ ∀ p ∈ rest, p.closure ≠ .play b.asked) : b'.Asked := by
  subst hrest
  refine ⟨fun p hp => hasked ▸ h.older p (hsub.mem hp), h.once.sublist hsub, fun ha p hp => ?_⟩
  rw [hasked]
  exact (hactive ha).elim (fun ha => h.answered ha p (hsub.mem hp)) fun hnone => hnone p hp

theorem Asked.report (h : b.Asked) {target : Target} {currentTime duration : Rat}
    {closure : Nat → Closure} (hclosure : ∀ listened gen, closure listened ≠ .play gen) :
    (b.report target currentTime duration closure).Asked := by
  refine ⟨?_, ?_, fun hactive => ?_⟩
  · exact List.forall_mem_cons.mpr ⟨fun gen hc => absurd hc (hclosure _ gen), h.older⟩
  · exact List.pairwise_cons.mpr ⟨fun q _ gen hc => absurd hc (hclosure _ gen), h.once⟩
  · exact List.forall_mem_cons.mpr ⟨hclosure _ _, h.answered hactive⟩

theorem Asked.request (h : b.Asked) (target : Target) (body : Json) (hidle : b.active = false) :
    (b.request target body).Asked := by
  refine ⟨?_, ?_, fun hactive => absurd (hidle.symm.trans hactive) Bool.false_ne_true⟩
  · refine List.forall_mem_cons.mpr ⟨fun gen hc => ?_, fun p hp gen hc => ?_⟩
    · cases hc
      exact Nat.le_refl _
    · exact Nat.le_succ_of_le (h.older p hp gen hc)
  · refine List.pairwise_cons.mpr ⟨fun q hq gen hc hc' => ?_, h.once⟩
    cases hc
    exact absurd (h.older q hq _ hc') (Nat.not_succ_le_self _)

theorem Closes.idle (hcloses : Closes b b') : b'.active = false := by cases hcloses <;> rfl

theorem Closes.asked (hcloses : Closes b b') (h : b.Asked) : b'.Asked := by
  cases hcloses with
  | report server currentTime duration closure _ hclosure =>
    have hidle : ((b.setPlaying false).close).Asked := ⟨h.older, h.once, fun hactive => nomatch hactive⟩
    refine hidle.report fun listened gen hc => ?_
    rcases hclosure listened with h | h <;> cases h.symm.trans hc
  | abandon => exact ⟨h.older, h.once, fun hactive => nomatch hactive⟩

theorem Move.asked (hmove : Move plays b b') (h : b.Asked) : b'.Asked := by
  cases hmove with
  | setPlaying => exact ⟨h.older, h.once, h.answered⟩
  | report => exact h.report fun _ _ => Closure.noConfusion
  | close hcloses => exact hcloses.asked h
  | finish hcloses =>
    have hclosed := hcloses.asked h
    exact ⟨hclosed.older, hclosed.once, hclosed.answered⟩
  | request target body _ hidle => exact h.request target body hidle

theorem Moves.asked (hmoves : Moves plays b b') (h : b.Asked) : b'.Asked := by
  induction hmoves with
  | refl => exact h
  | tail _ hmove ih => exact hmove.asked ih

/-- No other request in flight is of the play request just answered. -/
theorem Asked.only (h : b.Asked) {id gen : Nat} {p : Post} {rest : List Post}
    (hpick : pick (fun p => p.id == id) b.inFlight = some (p, rest)) (hp : p.closure = .play gen) :
    ∀ q ∈ rest, q.closure ≠ .play gen := fun q hq =>
  pick_pairwise (fun hR gen hb ha => hR gen ha hb) hpick h.once q hq gen hp

/-- A session is opened by the newest play request, and while none is open. -/
theorem Asked.closed (h : b.Asked) {id : Nat} {p : Post} {rest : List Post}
    (hpick : pick (fun p => p.id == id) b.inFlight = some (p, rest)) (hp : p.closure = .play b.asked) :
    b.active = false :=
  Bool.eq_false_of_not_eq_true fun hactive => h.answered hactive p (pick_mem hpick) hp

theorem Step.asked {e : PlaybackSession.Event} (hstep : Step b e b') (h : b.Asked) : b'.Asked := by
  cases hstep with
  | moves hmoves => exact hmoves.asked h
  | tick ms => exact ⟨h.older, h.once, h.answered⟩
  | stop => exact ⟨h.older, h.once, h.answered⟩
  | unknown => exact h
  | answered hpick hans =>
    have hsub := pick_sublist hpick
    cases hans with
    | kept => exact h.settle hsub rfl rfl .inl
    | unusable _ _ => exact h.settle hsub rfl rfl .inl
    | opened hp _ => exact h.settle hsub rfl rfl fun _ => .inr (h.only hpick hp)
    | reported _ _ _ => split <;> exact h.settle hsub rfl rfl .inl

/-- Nothing is in flight before the first event. -/
theorem asked_start (env : Env) (server : Endpoints) :
    (PlaybackSession.books {env, server}).Asked :=
  ⟨(fun _ hp => nomatch hp), .nil, (fun hactive => nomatch hactive)⟩

end Books

end ShelfRemote.Player
