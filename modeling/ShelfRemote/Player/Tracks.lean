import ShelfRemote.Player.PlaybackSession

/-! The track the session shows and the track libmpv plays.

The session hands libmpv a playlist of several tracks and follows it by counting:
each end-of-file event moves it one track on. The events wait in a queue and say
nothing about the file that ended, so between the two there is always a gap of as
many tracks as there are events in the queue (`Synced`). A jump to another track
closes the gap at once, while the events it should have been closed by are still to
come; `tracks_agree` is about the runs in which no jump is made across such a gap. -/
namespace ShelfRemote.Player
open Qt Net Runs

/-! ### libmpv -/

/-- libmpv, as far as its playlist goes. -/
structure Mpv where
  /-- The file that plays, and those queued behind it. -/
  entries : List Entry := []
  /-- Events that wait to be fetched, oldest first. -/
  queue : List MpvEvent := []
  /-- History: the tracks that ended on their own, newest first. -/
  ended : List Nat := []

namespace Mpv

def exec (m : Mpv) : Command → Mpv
  | .replace entry => {m with entries := [entry]}
  -- An idle player does not start what is appended.
  | .append entry => if m.entries = [] then m else {m with entries := m.entries ++ [entry]}
  | .stop => {m with entries := []}
  | .setHttpHeaders _ | .seek _ | .setPause _ | .setSpeed _ | .setVolume _ => m

/-- Carries out commands, newest first. -/
def obey (m : Mpv) (commands : List Command) : Mpv := commands.foldr (fun c m => m.exec c) m

/-- The file that plays ends on its own, and the next one starts. -/
def ends (m : Mpv) : Mpv :=
  match m.entries with
  | [] => m
  | entry :: rest =>
    {entries := rest, queue := m.queue ++ [.endFile .eof], ended := entry.track :: m.ended}

/-- The index of the track that plays. -/
def playing (m : Mpv) : Option Nat := m.entries.head?.map (·.track)

theorem obey_append (m : Mpv) (news olds : List Command) : m.obey (news ++ olds) = (m.obey olds).obey news :=
  List.foldr_append

/-- A playlist is loaded entry by entry. -/
theorem obey_appends (m : Mpv) (first : Entry) (rest : List Entry) :
    ∀ loaded : List Entry,
      {m with entries := first :: loaded}.obey (rest.map Command.append).reverse =
        {m with entries := first :: (loaded ++ rest)} := by
  induction rest with
  | nil => intro loaded; simp [obey]
  | cons entry rest ih =>
    intro loaded
    rw [List.map_cons, List.reverse_cons, obey_append]
    have hone : {m with entries := first :: loaded}.obey [.append entry] =
        {m with entries := first :: (loaded ++ [entry])} := rfl
    rw [hone, ih (loaded ++ [entry]), List.append_assoc]
    rfl

end Mpv

/-! ### What the session does to its tracks -/

/-- The part of a playback session that follows libmpv's playlist. -/
structure Deck where
  active : Bool
  completed : Bool
  isHls : Bool
  tracks : List Track
  currentTrack : Int
  queuedThroughTrack : Int
  commands : List Command

namespace Deck

/-- Playlists are loaded from some track on, and nothing beyond the last one. -/
inductive Loads (d : Deck) : Deck → Prop where
  | load (idx : Nat) (entries : List Entry) (commands : List Command) (hne : entries ≠ [])
      (hlabels : entries.map (·.track) = List.range' idx entries.length)
      (hlast : idx + entries.length ≤ d.tracks.length)
      (hobey : ∀ m : Mpv, m.obey commands = {m with entries}) :
      Loads d {d with
        currentTrack := idx
        queuedThroughTrack := idx + entries.length - 1
        commands := commands ++ d.commands}

/-- What an end-of-file event does to a session that is open. -/
inductive Advances (d : Deck) : Deck → Prop where
  | next (h : d.currentTrack + 1 ≤ d.queuedThroughTrack) :
      Advances d {d with currentTrack := d.currentTrack + 1}
  | load {d' : Deck} (hmore : d.currentTrack + 1 < d.tracks.length)
      (h : d.queuedThroughTrack < d.currentTrack + 1) (hload : Loads d d') : Advances d d'
  | finish (h : d.tracks.length ≤ d.currentTrack + 1) :
      Advances d {d with active := false, completed := true, commands := .stop :: d.commands}

end Deck

namespace PlaybackSession
variable {s : PlaybackSession}

def deck (s : PlaybackSession) : Deck :=
  { active := s.active
    completed := s.completed
    isHls := s.isHls
    tracks := s.tracks
    currentTrack := s.currentTrack
    queuedThroughTrack := s.queuedThroughTrack
    commands := s.mpv.commands }

theorem currentTrack_deck (s : PlaybackSession) (currentTrack : Int) :
    {s with currentTrack}.deck = {s.deck with currentTrack} := rfl

@[simp] theorem resumeSleepCountdown_deck : s.resumeSleepCountdown.deck = s.deck := by
  unfold resumeSleepCountdown
  split <;> rfl

@[simp] theorem holdSleepCountdown_deck : s.holdSleepCountdown.deck = s.deck := by
  unfold holdSleepCountdown
  split <;> rfl

@[simp] theorem scheduleSync_deck : s.scheduleSync.deck = s.deck := by
  unfold scheduleSync
  split <;> rfl

@[simp] theorem updateChapter_deck (q : Rat) : (s.updateChapterForPosition q).deck = s.deck := by
  unfold updateChapterForPosition
  dsimp only
  split <;> rfl

@[simp] theorem sync_deck : s.sync.deck = s.deck := by
  unfold sync
  split <;> rfl

@[simp] theorem onPlayingChanged_deck (playing : Bool) : (s.onPlayingChanged playing).deck = s.deck := by
  unfold onPlayingChanged
  dsimp only
  split
  · rfl
  · split <;> simp <;> rfl

@[simp] theorem updatePlaying_deck : s.updatePlaying.deck = s.deck := by
  unfold updatePlaying
  split
  · rfl
  · rw [onPlayingChanged_deck]
    rfl

/-! ### Loading -/

theorem trackIndex_bounds (hne : s.tracks ≠ []) (q : Rat) :
    ∃ idx : Nat, s.trackIndexForGlobal q = idx ∧ idx < s.tracks.length := by
  unfold trackIndexForGlobal
  split
  · next i hi =>
    obtain ⟨hlt, _⟩ := List.findIdx?_eq_some_iff_getElem.mp hi
    exact ⟨i, rfl, hlt⟩
  · have hpos := List.length_pos_iff.mpr hne
    exact ⟨s.tracks.length - 1, by omega, by omega⟩

/-- The playlist starts at the track asked for and has its successors in order. -/
theorem playlistFrom_spec {idx : Nat} (h : idx < s.tracks.length) :
    s.playlistFrom idx ≠ [] ∧
      (s.playlistFrom idx).map (·.track) = List.range' idx (s.playlistFrom idx).length ∧
      idx + (s.playlistFrom idx).length ≤ s.tracks.length := by
  have htrack : s.trackAt idx = s.tracks[idx] := by simp [trackAt, h]
  refine ⟨?_, ?_, ?_⟩
  · unfold playlistFrom
    rw [List.drop_eq_getElem_cons h, ← htrack]
    simp
  · unfold playlistFrom
    apply List.ext_getElem <;> simp
  · unfold playlistFrom
    have hle := (List.takeWhile_sublist (fun t => s.authHeader t == s.authHeader (s.trackAt idx))
      (l := s.tracks.drop idx)).length_le
    rw [List.length_drop] at hle
    rw [List.length_mapIdx]
    omega

theorem foldl_append_commands (rest : List Entry) :
    ∀ m : MpvController, (rest.foldl (fun m entry => m.command (.append entry)) m).commands =
      (rest.map Command.append).reverse ++ m.commands := by
  induction rest with
  | nil => exact fun _ => rfl
  | cons entry rest ih =>
    intro m
    rw [List.foldl_cons, ih]
    simp [MpvController.command]

/-- What libmpv is told to load a playlist, newest first. -/
theorem loadPlaylist_tells (m : MpvController) (first : Entry) (rest : List Entry) (header : String) (q : Rat) :
    (m.loadPlaylist (first :: rest) header q).commands =
      (.setPause false :: ((rest.map Command.append).reverse ++ [.replace first, .setHttpHeaders header])) ++
        m.commands := by
  refine (congrArg (Command.setPause false :: ·) (foldl_append_commands rest
    {(m.setHttpHeaders header).command (.replace first) with pendingSeek := q})).trans ?_
  simp [MpvController.command, MpvController.setHttpHeaders]

theorem loadPlaylist_commands (m : MpvController) {entries : List Entry} (hne : entries ≠ [])
    (header : String) (q : Rat) :
    ∃ commands, (m.loadPlaylist entries header q).commands = commands ++ m.commands ∧
      ∀ mpv : Mpv, mpv.obey commands = {mpv with entries} := by
  cases entries with
  | nil => exact absurd rfl hne
  | cons first rest =>
    refine ⟨_, loadPlaylist_tells m first rest header q, fun mpv => ?_⟩
    have hfirst : mpv.obey [.replace first, .setHttpHeaders header] = {mpv with entries := [first]} := rfl
    show (mpv.obey ((rest.map Command.append).reverse ++ [.replace first, .setHttpHeaders header])).exec
      (.setPause false) = _
    rw [Mpv.obey_append, hfirst, Mpv.obey_appends mpv first rest []]
    rfl

theorem loadTrack_loads (hne : s.tracks ≠ []) (q : Rat) (autoplay : Bool) :
    s.deck.Loads (s.loadTrackForGlobal q autoplay).deck := by
  obtain ⟨idx, hidx, hlt⟩ := trackIndex_bounds hne q
  obtain ⟨hentries, hlabels, hlast⟩ := playlistFrom_spec hlt
  obtain ⟨commands, hcommands, hobey⟩ := loadPlaylist_commands s.mpv hentries (s.authHeader (s.trackAt idx))
    (if s.isHls then q else q - (s.trackAt idx).startOffset)
  have hload := Deck.Loads.load (d := s.deck) idx (s.playlistFrom idx)
  unfold loadTrackForGlobal
  rw [hidx]
  dsimp only
  rw [if_neg (by omega), updateChapter_deck]
  cases autoplay
  · have hpaused : ∀ mpv : Mpv, mpv.obey (.setPause true :: commands) =
        {mpv with entries := s.playlistFrom idx} := hobey
    convert hload (.setPause true :: commands) hentries hlabels hlast hpaused using 1
    simp [deck, MpvController.pause, MpvController.requestPaused, MpvController.command, hcommands]
  · convert hload commands hentries hlabels hlast hobey using 1
    simp [deck, hcommands]

/-- A jump to another track loads a playlist; within the track libmpv seeks. -/
def Reloads (s : PlaybackSession) (seconds : Rat) : Prop :=
  s.trackIndexForGlobal (max 0 (min s.duration seconds)) ≠ s.currentTrack

instance (s : PlaybackSession) (seconds : Rat) : Decidable (s.Reloads seconds) :=
  inferInstanceAs (Decidable (_ ≠ _))

@[simp] theorem noted_deck (q : Rat) : (s.noted q).deck = s.deck := by
  unfold noted
  dsimp only
  rw [scheduleSync_deck]
  split <;> rfl

theorem seekGlobal_deck (hne : s.tracks ≠ []) (seconds : Rat) :
    (∃ commands, (s.seekGlobal seconds).deck = {s.deck with commands := commands ++ s.deck.commands} ∧
        ∀ m : Mpv, m.obey commands = m) ∨
      s.active = true ∧ s.Reloads seconds ∧ s.deck.Loads (s.seekGlobal seconds).deck := by
  obtain ⟨-, he⟩ | ⟨hactive, ⟨-, he⟩ | ⟨⟨-, hother⟩, he⟩⟩ := seekGlobal_cases s seconds
  · rw [he]
    exact .inl ⟨[], rfl, fun _ => rfl⟩
  · rw [he, noted_deck]
    exact .inl ⟨[.seek _], rfl, fun _ => rfl⟩
  · rw [he, noted_deck]
    exact .inr ⟨hactive, hother, loadTrack_loads hne _ _⟩

theorem stopAndClose_deck (hactive : s.active = true) :
    s.stopAndClose.deck = {s.deck with active := false, commands := .stop :: s.deck.commands} := by
  unfold stopAndClose flushAndClose
  simp only [hactive, Bool.not_true, Bool.false_eq_true, if_false]
  split <;> rfl

theorem onEndOfFile_advances (hactive : s.active = true) (hhls : s.isHls = false) (hne : s.tracks ≠ []) :
    s.deck.Advances s.onEndOfFile.deck := by
  have hsync : s.sync.deck = s.deck := sync_deck
  have hdone := stopAndClose_deck (s := {s with completed := true}) hactive
  unfold onEndOfFile
  rw [if_neg (by simp [hactive]), if_neg (by simp [hhls])]
  dsimp only
  split
  · next hmore =>
    have hqueue : s.sync.queuedThroughTrack = s.queuedThroughTrack := congrArg Deck.queuedThroughTrack hsync
    have htracks : s.sync.tracks ≠ [] := fun h => hne ((congrArg Deck.tracks hsync).symm.trans h)
    split
    · next hqueued =>
      rw [updateChapter_deck, currentTrack_deck s.sync, hsync]
      rw [hqueue] at hqueued
      exact .next hqueued
    · next hbeyond =>
      rw [hqueue] at hbeyond
      exact .load hmore (Int.not_le.mp hbeyond) (hsync ▸ loadTrack_loads htracks _ true)
  · next hlast =>
    rw [hdone]
    exact .finish (Int.not_lt.mp hlast)

/-- What reaches the session when libmpv reports the end of a file. -/
theorem endFile_advances (hactive : s.active = true) (hhls : s.isHls = false) (hne : s.tracks ≠ []) :
    s.deck.Advances (s.onMpvEvent (.endFile .eof)).deck := by
  unfold onMpvEvent
  dsimp only
  rw [updatePlaying_deck]
  exact onEndOfFile_advances (s := {s with mpv := s.mpv.handleEvent (.endFile .eof)}) hactive hhls hne

end PlaybackSession

/-! ### The session and libmpv -/

structure Playback where
  session : PlaybackSession
  mpv : Mpv

namespace Playback

inductive Event where
  | seekGlobal (seconds : Rat)
  /-- The file that plays ends. -/
  | ends
  /-- The oldest event in the queue is delivered. -/
  | deliver

/-- What libmpv was told from one state to another. -/
def told (s s' : PlaybackSession) : List Command :=
  s'.mpv.commands.take (s'.mpv.commands.length - s.mpv.commands.length)

theorem told_eq {s s' : PlaybackSession} {commands : List Command}
    (h : s'.deck.commands = commands ++ s.deck.commands) : told s s' = commands := by
  have hcommands : s'.mpv.commands = commands ++ s.mpv.commands := h
  simp [told, hcommands]

/-- The session handles an event, and libmpv does what it is told. -/
def pass (x : Playback) (e : PlaybackSession.Event) : Playback :=
  let session := PlaybackSession.machine.step x.session e
  {session, mpv := x.mpv.obey (told x.session session)}

def step (x : Playback) : Event → Playback
  | .seekGlobal seconds => x.pass (.seekGlobal seconds)
  | .ends => {x with mpv := x.mpv.ends}
  | .deliver =>
    match x.mpv.queue with
    | [] => x
    | e :: rest => {x with mpv := {x.mpv with queue := rest}}.pass (.mpv e)

def machine : Machine Playback Event := ⟨step⟩

/-- A session that has just been opened. -/
def opened (s : PlaybackSession) (response : Json) (mpv : Mpv) : Playback :=
  let session := s.applyPlayResponse response
  {session, mpv := mpv.obey (told s session)}

/-- The session shows track `c`. libmpv is as many tracks ahead as there are events
in the queue, and has the rest of the playlist before it. -/
structure Synced (d : Deck) (m : Mpv) (c : Nat) : Prop where
  stream : d.isHls = false
  current : d.currentTrack = c
  eofs : ∀ e ∈ m.queue, e = .endFile .eof
  labels : m.entries.map (·.track) = List.range' (c + m.queue.length) m.entries.length
  queued : d.queuedThroughTrack + 1 = c + m.queue.length + m.entries.length
  last : d.queuedThroughTrack < d.tracks.length
  plays : m.queue = [] → m.entries ≠ []
  ended : m.queue ≠ [] → m.ended.head? = some (c + m.queue.length - 1)

/-- The book was heard to its end. -/
structure Finished (d : Deck) (m : Mpv) : Prop where
  closed : d.active = false
  silent : m.entries = [] ∧ m.queue = []
  heard : d.completed = true ∧ m.ended.head? = some (d.tracks.length - 1)

variable {d d' : Deck} {m : Mpv} {c : Nat}

/-- The next file starts, and there is one more event in the queue. -/
theorem Synced.ends (h : Synced d m c) : Synced d m.ends c := by
  unfold Mpv.ends
  split
  · exact h
  · next entry rest hentries =>
    have hlabels := h.labels
    have hqueued := h.queued
    rw [hentries] at hlabels hqueued
    simp only [List.map_cons, List.length_cons, List.range'_succ, List.cons.injEq] at hlabels hqueued
    refine ⟨h.stream, h.current, ?_, ?_, ?_, h.last, ?_, fun _ => ?_⟩
    · exact List.forall_mem_append.mpr ⟨h.eofs, List.forall_mem_singleton.mpr rfl⟩
    · rw [List.length_append, List.length_singleton, ← Nat.add_assoc]
      exact hlabels.2
    · simp only [List.length_append, List.length_singleton]
      omega
    · intro hnil
      exact absurd hnil (List.append_ne_nil_of_right_ne_nil _ (List.cons_ne_nil _ _))
    · simp only [List.head?_cons, List.length_append, List.length_singleton, hlabels.1]
      exact congrArg some (by omega)

/-- A playlist that is loaded over an empty queue. -/
theorem loads_synced (hload : d.Loads d') (hstream : d.isHls = false) (hqueue : m.queue = []) :
    d'.active = d.active ∧ ∃ commands c, d'.commands = commands ++ d.commands ∧
      Synced d' (m.obey commands) c := by
  cases hload with
  | load idx entries commands hne hlabels hlast hobey =>
    refine ⟨rfl, commands, idx, rfl, ?_⟩
    rw [hobey m]
    have hpos := List.length_pos_iff.mpr hne
    refine ⟨hstream, rfl, by simp [hqueue], ?_, ?_, ?_, fun _ => hne, fun hq => absurd hqueue hq⟩
    · simpa [hqueue] using hlabels
    · simp only [hqueue, List.length_nil]
      omega
    · dsimp only
      omega

/-- Delivering an event closes the gap by one track. -/
theorem Synced.deliver (h : Synced d m c) {rest : List MpvEvent} {e : MpvEvent} (hqueue : m.queue = e :: rest)
    (hadvance : d.Advances d') :
    ∃ commands, d'.commands = commands ++ d.commands ∧
      ((∃ c, Synced d' (Mpv.obey {m with queue := rest} commands) c) ∧ d'.active = d.active ∨
        Finished d' (Mpv.obey {m with queue := rest} commands)) := by
  have hcurrent := h.current
  have hqueued := h.queued
  have hlast := h.last
  have hended := h.ended (by rw [hqueue]; exact List.cons_ne_nil _ _)
  have hlabels := h.labels
  have heofs := h.eofs
  simp only [hqueue, List.length_cons] at hqueued hended hlabels heofs
  cases hadvance with
  | next hnext =>
    refine ⟨[], rfl, .inl ⟨⟨c + 1, ?_⟩, rfl⟩⟩
    have hgap : c + 1 + rest.length = c + (rest.length + 1) := by omega
    refine ⟨h.stream, ?_, fun e he => heofs e (List.mem_cons_of_mem _ he), ?_, ?_, hlast, ?_, fun _ => ?_⟩
    · dsimp only
      omega
    · exact hgap ▸ hlabels
    · dsimp only [Mpv.obey, List.foldr_nil]
      omega
    · intro hrest hnone
      simp only [Mpv.obey, List.foldr_nil] at hrest hnone
      simp only [hrest, hnone, List.length_nil] at hqueued
      omega
    · exact hgap ▸ hended
  | load hmore hbeyond hload =>
    have hrest : rest = [] := List.eq_nil_of_length_eq_zero (by omega)
    obtain ⟨hactive, commands, c, hcommands, hsynced⟩ :=
      loads_synced (m := {m with queue := rest}) hload h.stream hrest
    exact ⟨commands, hcommands, .inl ⟨⟨c, hsynced⟩, hactive⟩⟩
  | finish hfinish =>
    have hrest : rest = [] := List.eq_nil_of_length_eq_zero (by omega)
    refine ⟨[.stop], rfl, .inr ⟨rfl, ⟨rfl, hrest⟩, rfl, ?_⟩⟩
    refine hended.trans (congrArg some ?_)
    simp only [hrest, List.length_nil] at hqueued ⊢
    omega

theorem Synced.tracks (h : Synced d m c) : d.tracks ≠ [] := by
  have hqueued := h.queued
  have hlast := h.last
  intro hnone
  rw [hnone, List.length_nil] at hlast
  have hempty : m.queue = [] ∧ m.entries = [] :=
    ⟨List.eq_nil_of_length_eq_zero (by omega), List.eq_nil_of_length_eq_zero (by omega)⟩
  exact h.plays hempty.1 hempty.2

/-! ### Every run -/

/-- No jump to another track while an event is in the queue. -/
def Rule (x : Playback) : Event → Prop
  | .seekGlobal seconds => x.session.Reloads seconds → x.mpv.queue = []
  | .ends | .deliver => True

instance (x : Playback) : DecidablePred (Rule x)
  | .seekGlobal seconds => inferInstanceAs (Decidable (x.session.Reloads seconds → x.mpv.queue = []))
  | .ends | .deliver => .isTrue trivial

/-- With nothing in the queue the session shows the track that plays, and it is
closed as completed only after the last track has ended. -/
structure Agrees (x : Playback) : Prop where
  track : x.session.active = true → x.mpv.queue = [] →
    x.mpv.playing.map Int.ofNat = some x.session.currentTrack
  heard : x.session.active = false → x.session.completed = true →
    x.mpv.ended.head? = some (x.session.tracks.length - 1)

/-- What is kept along a run: the session is open and follows libmpv, or the book is
finished. -/
def Kept (x : Playback) : Prop :=
  (x.session.active = true ∧ ∃ c, Synced x.session.deck x.mpv c) ∨ Finished x.session.deck x.mpv

theorem pass_eq (x : Playback) (e : PlaybackSession.Event) {commands : List Command}
    (h : (PlaybackSession.machine.step x.session e).deck.commands = commands ++ x.session.deck.commands) :
    x.pass e = ⟨PlaybackSession.machine.step x.session e, x.mpv.obey commands⟩ := by
  have htold := told_eq h
  simp only [pass, htold]

theorem Synced.told (h : Synced d m c) (commands : List Command) : Synced {d with commands} m c := {h with}

theorem Kept.seekGlobal {x : Playback} (h : Kept x) {seconds : Rat} (he : Rule x (.seekGlobal seconds)) :
    Kept (x.pass (.seekGlobal seconds)) := by
  rcases h with ⟨hactive, c, hsynced⟩ | hfinished
  · rcases PlaybackSession.seekGlobal_deck (s := x.session.fresh) hsynced.tracks seconds with
      ⟨commands, hdeck, hobey⟩ | ⟨_, hreloads, hload⟩
    · rw [pass_eq x (.seekGlobal seconds) (congrArg Deck.commands hdeck), hobey]
      exact .inl ⟨(congrArg Deck.active hdeck).trans hactive, c, hdeck ▸ hsynced.told _⟩
    · obtain ⟨hopen, commands, c, hcommands, hloaded⟩ :=
        loads_synced hload hsynced.stream (he hreloads)
      rw [pass_eq x (.seekGlobal seconds) hcommands]
      exact .inl ⟨hopen.trans hactive, c, hloaded⟩
  · have hsame : PlaybackSession.machine.step x.session (.seekGlobal seconds) = x.session.fresh :=
      if_pos (by simp [PlaybackSession.fresh, show x.session.active = false from hfinished.closed])
    have hcommands : (PlaybackSession.machine.step x.session (.seekGlobal seconds)).deck.commands =
        [] ++ x.session.deck.commands := by rw [hsame]; rfl
    rw [pass_eq x _ hcommands, hsame]
    exact .inr hfinished

theorem Kept.ends {x : Playback} (h : Kept x) : Kept {x with mpv := x.mpv.ends} := by
  rcases h with ⟨hactive, c, hsynced⟩ | hfinished
  · exact .inl ⟨hactive, c, hsynced.ends⟩
  · have hsame : x.mpv.ends = x.mpv := by simp [Mpv.ends, hfinished.silent.1]
    rw [hsame]
    exact .inr hfinished

theorem Kept.deliver {x : Playback} (h : Kept x) : Kept (x.step .deliver) := by
  unfold step
  dsimp only
  split
  · exact h
  · next e rest hqueue =>
    rcases h with ⟨hactive, c, hsynced⟩ | hfinished
    · have heof : e = .endFile .eof := hsynced.eofs e (by rw [hqueue]; exact List.mem_cons_self ..)
      subst heof
      have hadvance := PlaybackSession.endFile_advances (s := x.session.fresh) hactive hsynced.stream
        hsynced.tracks
      obtain ⟨commands, hcommands, hkept⟩ := hsynced.deliver hqueue hadvance
      rw [pass_eq {x with mpv := {x.mpv with queue := rest}} (.mpv (.endFile .eof)) hcommands]
      exact hkept.imp_left fun ⟨hsynced, hopen⟩ => ⟨hopen.trans hactive, hsynced⟩
    · exact absurd (hqueue.symm.trans hfinished.silent.2) (List.cons_ne_nil _ _)

theorem keeps : Machine.Keeps machine Rule Kept where
  step x e hx he := by
    cases e with
    | seekGlobal seconds => exact hx.seekGlobal he
    | ends => exact hx.ends
    | deliver => exact hx.deliver

theorem Kept.agrees {x : Playback} (h : Kept x) : Agrees x := by
  rcases h with ⟨hactive, c, hsynced⟩ | hfinished
  · refine ⟨fun _ hqueue => ?_, fun hclosed => absurd (hclosed.symm.trans hactive) Bool.false_ne_true⟩
    have hlabels := hsynced.labels
    have hcurrent : x.session.currentTrack = c := hsynced.current
    cases hentries : x.mpv.entries with
    | nil => exact absurd hentries (hsynced.plays hqueue)
    | cons entry rest =>
      rw [hentries, hqueue] at hlabels
      simp only [List.map_cons, List.length_cons, List.range'_succ, List.cons.injEq] at hlabels
      simp [Mpv.playing, hentries, hlabels.1, hcurrent]
  · exact ⟨fun hactive => absurd (hfinished.closed.symm.trans hactive) Bool.false_ne_true,
      fun _ _ => hfinished.heard.2⟩

/-- A response with several tracks is no stream. -/
theorem readPlayResponse_stream (s : PlaybackSession) (response : Json)
    (hmany : 2 ≤ (s.readPlayResponse response).tracks.length) :
    (s.readPlayResponse response).isHls = false := by
  have hone : ((s.readPlayResponse response).tracks.length == 1) = false := by
    rw [beq_eq_false_iff_ne]
    omega
  exact (congrArg (· && _) hone).trans (Bool.false_and _)

/-- The speed of a session that opens. -/
theorem defaultSpeed_tells (s : PlaybackSession) :
    ∃ commands, (∀ m : Mpv, m.obey commands = m) ∧
      (if 0 < s.env.defaultRate then s.mpv.setSpeed s.env.defaultRate else s.mpv).commands =
        commands ++ s.mpv.commands ∧
      (if 0 < s.env.defaultRate then s.mpv.setSpeed s.env.defaultRate else s.mpv).pendingSeek =
        s.mpv.pendingSeek := by
  split
  · exact ⟨[.setSpeed _], fun _ => rfl, rfl, rfl⟩
  · exact ⟨[], fun _ => rfl, rfl, rfl⟩

/-- Before it loads a playlist, a session that opens only sets the speed. -/
theorem openAt_loads (s : PlaybackSession) (resume : Rat) (hne : s.tracks ≠ []) :
    ∃ commands, (∀ m : Mpv, m.obey commands = m) ∧
      {s.deck with active := true, completed := false, commands := commands ++ s.deck.commands}.Loads
        (s.openAt resume).deck := by
  obtain ⟨commands, hobey, hcommands, -⟩ := defaultSpeed_tells s
  obtain ⟨s', hopen, hdeck⟩ : ∃ s' : PlaybackSession, s.openAt resume = s'.loadTrackForGlobal resume true ∧
      s'.deck =
        {s.deck with active := true, completed := false, commands := commands ++ s.deck.commands} := by
    refine ⟨_, rfl, ?_⟩
    simp only [PlaybackSession.deck, PlaybackSession.emitActiveChanged, PlaybackSession.emit, ← hcommands]
    rfl
  refine ⟨commands, hobey, ?_⟩
  rw [hopen, ← hdeck]
  have htracks : s'.tracks ≠ [] := fun hnone => hne ((congrArg Deck.tracks hdeck).symm.trans hnone)
  exact PlaybackSession.loadTrack_loads htracks resume true

/-- The session opens where libmpv has been told to start. -/
theorem kept_opened (s : PlaybackSession) (response : Json) (mpv : Mpv)
    (husable : (s.readPlayResponse response).Usable)
    (hmany : 2 ≤ (s.readPlayResponse response).tracks.length) (hqueue : mpv.queue = []) :
    Kept (opened s response mpv) := by
  have happly : s.applyPlayResponse response = (s.readPlayResponse response).openAt
      ((response.value "currentTime").toDouble ((response.value "startTime").toDouble 0)) := if_pos husable
  obtain ⟨speed, hspeed, hload⟩ := openAt_loads (s.readPlayResponse response)
    ((response.value "currentTime").toDouble ((response.value "startTime").toDouble 0)) husable.2.1
  rw [← happly] at hload
  obtain ⟨hopen, commands, c, hcommands, hsynced⟩ :=
    loads_synced hload (readPlayResponse_stream s response hmany) hqueue
  have htold : told s (s.applyPlayResponse response) = commands ++ speed :=
    told_eq (hcommands.trans (List.append_assoc ..).symm)
  have hmpv : (opened s response mpv).mpv = mpv.obey commands := by
    simp only [opened, htold, Mpv.obey_append, hspeed]
  refine .inl ⟨hopen, c, ?_⟩
  rw [hmpv]
  exact hsynced

/-- **The session and libmpv agree on the track.** In every run of jumps, ends of
files and deliveries in which no jump to another track is made while an event is in
the queue: whenever the queue is empty, the session shows the track that plays, and
it is closed as completed only after the last track has ended. -/
theorem tracks_agree (s : PlaybackSession) (response : Json) (mpv : Mpv)
    (husable : (s.readPlayResponse response).Usable)
    (hmany : 2 ≤ (s.readPlayResponse response).tracks.length) (hqueue : mpv.queue = []) (es : List Event)
    (h : machine.Along Rule (opened s response mpv) es) : Agrees (machine.run (opened s response mpv) es) :=
  (keeps.run (kept_opened s response mpv husable hmany hqueue) h).agrees

/-- The first track ends, and before the session hears of it the user jumps into the
last one. -/
def crossing : List Event := [.ends, .seekGlobal 25, .deliver]

/-- The book is closed as completed while its last track has just begun. -/
theorem jump_completes : ¬Agrees (machine.run (opened samplePlayer sampleBook {}) crossing) := fun h =>
  absurd (h.heard (by decide +kernel) (by decide +kernel)) (by decide +kernel)

/-- The same, with the event delivered first, and then to the end of the book. -/
def waiting : List Event := [.ends, .deliver, .seekGlobal 25, .ends, .deliver]

theorem tracks_agree_waiting :
    Agrees (machine.run (opened samplePlayer sampleBook {}) waiting) ∧
      (machine.run (opened samplePlayer sampleBook {}) waiting).session.completed = true :=
  ⟨tracks_agree samplePlayer sampleBook {} (by decide +kernel) (by decide +kernel) rfl waiting
    (by decide +kernel), by decide +kernel⟩

end Playback

end ShelfRemote.Player
