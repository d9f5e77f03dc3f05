import ShelfRemote.Player.Steady

/-! From a position of the book to a place in a file, and back.

A position is looked up in the tracks and becomes a track and a place in its file. The
first track that contains it is taken, and where there is none, the last one, which is
right beyond the end of the book and nowhere else: `positions_located` says for which
positions playback starts where it should.

A seek takes one of two ways: within the file libmpv is told the place, into another file
the file is loaded. `seeks_agree` says when the first leaves the session as the second
would. -/
namespace ShelfRemote.Player
open Qt Net Runs

namespace PlaybackSession
variable {s : PlaybackSession}

/-! ### What a seek leaves -/

/-- The place in the file libmpv was told last, or will be told once it has loaded it. -/
def heading (s : PlaybackSession) : Rat :=
  match s.mpv.commands.head? with
  | some (.seek q) => q
  | _ => s.mpv.pendingSeek

theorem updateChapter_eq (s : PlaybackSession) (q : Rat) :
    ∃ signals, s.updateChapterForPosition q = {s with chapterIndex := s.chapterAt q, signals} := by
  unfold updateChapterForPosition
  dsimp only
  split
  · next hsame =>
    rw [hsame]
    exact ⟨s.signals, rfl⟩
  · exact ⟨_, rfl⟩

theorem noted_eq (s : PlaybackSession) (q : Rat) :
    ∃ signals seekSyncTimer, s.noted q =
      {s with
        globalPosition := q
        sleepChapterEnd := if s.sleepAtChapterEnd then s.chapterEndFor q else s.sleepChapterEnd
        seekSyncTimer
        signals} := by
  unfold noted scheduleSync
  dsimp only
  by_cases hsleep : s.sleepAtChapterEnd = true
  · simp only [emit, hsleep, if_true]
    split <;> exact ⟨_, _, rfl⟩
  · simp only [emit, hsleep, if_false, Bool.false_eq_true]
    split <;> exact ⟨_, _, rfl⟩

theorem loadPlaylist_ends (m : MpvController) {entries : List Entry} (hne : entries ≠ []) (header : String)
    (q : Rat) :
    (m.loadPlaylist entries header q).paused = false ∧
      (m.loadPlaylist entries header q).commands.head? = some (.setPause false) ∧
      (m.loadPlaylist entries header q).pendingSeek = q := by
  cases entries with
  | nil => exact absurd rfl hne
  | cons first rest => exact ⟨rfl, rfl, foldl_append_pending rest _⟩

/-- What is loaded for a position, and what libmpv is told with it. -/
theorem loadTrack_eq (hne : s.tracks ≠ []) (q : Rat) (autoplay : Bool) :
    ∃ queuedThroughTrack currentPlaylistUsesAuth mpv signals, s.loadTrackForGlobal q autoplay =
        {s with
          currentTrack := s.trackIndexForGlobal q
          queuedThroughTrack
          currentPlaylistUsesAuth
          mpv
          chapterIndex := s.chapterAt q
          signals} ∧
      mpv.paused = !autoplay ∧ mpv.commands.head? = some (.setPause !autoplay) ∧
      mpv.pendingSeek =
        if s.isHls then q else q - (s.trackAt (s.trackIndexForGlobal q)).startOffset := by
  obtain ⟨idx, hidx, hlt⟩ := trackIndex_bounds hne q
  obtain ⟨hpaused, hcommands, hpending⟩ := loadPlaylist_ends s.mpv (playlistFrom_spec hlt).1
    (s.authHeader (s.trackAt idx)) (if s.isHls then q else q - (s.trackAt idx).startOffset)
  unfold loadTrackForGlobal
  rw [hidx]
  dsimp only
  rw [if_neg (by omega)]
  cases autoplay
  · obtain ⟨signals, he⟩ := updateChapter_eq {s with
      currentTrack := (idx : Int)
      queuedThroughTrack := idx + (s.playlistFrom idx).length - 1
      currentPlaylistUsesAuth := s.authHeader (s.trackAt idx) ≠ ""
      mpv := (s.mpv.loadPlaylist (s.playlistFrom idx) (s.authHeader (s.trackAt idx))
        (if s.isHls then q else q - (s.trackAt idx).startOffset)).pause} q
    exact ⟨_, _, _, signals, he, rfl, rfl, hpending⟩
  · obtain ⟨signals, he⟩ := updateChapter_eq {s with
      currentTrack := (idx : Int)
      queuedThroughTrack := idx + (s.playlistFrom idx).length - 1
      currentPlaylistUsesAuth := s.authHeader (s.trackAt idx) ≠ ""
      mpv := s.mpv.loadPlaylist (s.playlistFrom idx) (s.authHeader (s.trackAt idx))
        (if s.isHls then q else q - (s.trackAt idx).startOffset)} q
    exact ⟨_, _, _, signals, he, hpaused, hcommands, hpending⟩

/-! ### The two ways of seeking -/

/-- What can be observed of a seek. -/
structure Outcome where
  position : Rat
  chapterIndex : Int
  chapterTitle : String
  track : Int
  target : Rat
  paused : Bool
  sleepChapterEnd : Option Rat
  deriving DecidableEq

def outcome (s : PlaybackSession) : Outcome :=
  { position := s.globalPosition
    chapterIndex := s.chapterIndex
    chapterTitle := s.chapterTitle
    track := s.currentTrack
    target := s.heading
    paused := s.mpv.paused
    sleepChapterEnd := if s.sleepAtChapterEnd then some s.sleepChapterEnd else none }

/-- What a seek is to come to: the position, its chapter, its track and the place in its
file, whether to pause as the user asked, and the end of the chapter now heard. -/
def aimed (s : PlaybackSession) (seconds : Rat) : Outcome :=
  { position := s.aim seconds
    chapterIndex := s.chapterAt (s.aim seconds)
    chapterTitle := {s with chapterIndex := s.chapterAt (s.aim seconds)}.chapterTitle
    track := (s.place (s.aim seconds)).1
    target := (s.place (s.aim seconds)).2
    paused := s.mpv.paused
    sleepChapterEnd := if s.sleepAtChapterEnd then some (s.chapterEndFor (s.aim seconds)) else none }

/-- A seek by way of loading, wherever the target is. -/
def seekByLoading (s : PlaybackSession) (seconds : Rat) : PlaybackSession :=
  (s.loadTrackForGlobal (s.aim seconds) (!s.mpv.paused)).noted (s.aim seconds)

theorem noted_outcome (s : PlaybackSession) (q : Rat) :
    (s.noted q).outcome =
      {s.outcome with
        position := q
        sleepChapterEnd := if s.sleepAtChapterEnd then some (s.chapterEndFor q) else none} := by
  obtain ⟨signals, seekSyncTimer, he⟩ := noted_eq s q
  rw [he]
  simp only [outcome, Outcome.mk.injEq, true_and]
  refine ⟨rfl, rfl, ?_⟩
  split <;> rfl

theorem heading_pending {flag : Bool} (h : s.mpv.commands.head? = some (.setPause flag)) :
    s.heading = s.mpv.pendingSeek := by
  unfold heading
  rw [h]

theorem seekByLoading_outcome (h : s.Playing) (hstream : s.isHls = true → s.tracks.length = 1) (seconds : Rat) :
    (s.seekByLoading seconds).outcome = s.aimed seconds := by
  obtain ⟨queued, uses, mpv, signals, he, hpaused, hcommands, hpending⟩ :=
    loadTrack_eq h.tracks (s.aim seconds) (!s.mpv.paused)
  have hplace : s.place (s.aim seconds) = (s.trackIndexForGlobal (s.aim seconds), mpv.pendingSeek) := by
    unfold place
    rw [hpending]
    split
    · next hhls =>
      -- A stream has one track, and it is the current one.
      obtain ⟨idx, hidx, hlt⟩ := trackIndex_bounds h.tracks (s.aim seconds)
      have hone := hstream hhls
      have hfirst := h.first
      have hlast := h.last
      rw [hidx, show s.currentTrack = idx by omega]
    · rfl
  unfold seekByLoading
  rw [noted_outcome, he]
  simp only [outcome, aimed, hplace, hpaused, Bool.not_not, Outcome.mk.injEq, true_and]
  exact ⟨rfl, heading_pending hcommands, rfl⟩

/-- Within the file, a seek leaves the chapter as it was. -/
theorem seekGlobal_outcome (h : s.Playing) (hstream : s.isHls = true → s.tracks.length = 1) (seconds : Rat) :
    (s.seekGlobal seconds).outcome =
      if s.Jumps seconds then s.aimed seconds
      else {s.aimed seconds with chapterIndex := s.chapterIndex, chapterTitle := s.chapterTitle} := by
  obtain ⟨hclosed, -⟩ | ⟨-, ⟨hstay, he⟩ | ⟨⟨hhls, hother⟩, he⟩⟩ := seekGlobal_cases s seconds
  · have hactive := h.active
    have hfirst := h.first
    have hlast := h.last
    obtain hclosed | hclosed | hclosed := hclosed
    · exact absurd (hactive.symm.trans hclosed) (by decide)
    · omega
    · omega
  · obtain ⟨htrack, hplace⟩ := place_stay hstay
    have hsame : ¬s.Jumps seconds := not_not.mpr htrack
    rw [if_neg hsame, he, noted_outcome, ← hplace]
    simp only [outcome, aimed, htrack, Outcome.mk.injEq, true_and]
    exact ⟨rfl, rfl, rfl, rfl⟩
  · have hjump : s.Jumps seconds := by
      unfold Jumps place
      simpa [hhls] using hother
    rw [if_pos hjump, he]
    exact seekByLoading_outcome h hstream seconds

/-- The chapter shown is the one a seek is to come to. -/
def Charted (s : PlaybackSession) (seconds : Rat) : Prop := s.chapterIndex = s.chapterAt (s.aim seconds)

instance (s : PlaybackSession) (seconds : Rat) : Decidable (s.Charted seconds) :=
  inferInstanceAs (Decidable (_ = _))

theorem seekGlobal_aimed (h : s.Playing) (hstream : s.isHls = true → s.tracks.length = 1) (seconds : Rat) :
    (s.seekGlobal seconds).outcome = s.aimed seconds ↔ s.Jumps seconds ∨ s.Charted seconds := by
  rw [seekGlobal_outcome h hstream]
  by_cases hjump : s.Jumps seconds
  · simp [hjump]
  · rw [if_neg hjump, or_iff_right hjump]
    refine ⟨fun he => congrArg Outcome.chapterIndex he, fun hchart => ?_⟩
    have hchart' : s.chapterIndex = s.chapterAt (s.aim seconds) := hchart
    simp only [aimed, Outcome.mk.injEq, true_and, and_true]
    refine ⟨hchart', ?_⟩
    rw [← hchart']

/-- **The two ways of seeking agree** exactly if the target is in another file, or its
chapter is the one already shown. In every run, and for every seek of a session that is
open: a seek by way of loading always comes to what it aims at, a seek as it is made comes
to the same if and only if this holds, and so does the chapter shown fit the position. -/
theorem seeks_agree (env : Env) (server : Endpoints) (es : List Event) (seconds : Rat)
    (hactive : (machine.run {env, server} es).active = true) :
    let s := machine.run {env, server} es
    let s' := machine.step s (.seekGlobal seconds)
    (s.seekByLoading seconds).outcome = s.aimed seconds ∧
      (s'.outcome = (s.seekByLoading seconds).outcome ↔ s.Jumps seconds ∨ s.Charted seconds) ∧
      (s'.chapterIndex = s'.chapterAt s'.globalPosition ↔ s.Jumps seconds ∨ s.Charted seconds) := by
  have hsteady := steady_run env server es
  dsimp only
  generalize machine.run {env, server} es = s at *
  have hplaying : s.Playing := hsteady.playing hactive
  have hfresh : s.fresh.Playing := hplaying.fresh
  have hstream := hsteady.kept.stream hactive
  have hloading := seekByLoading_outcome hplaying hstream seconds
  have haimed : (machine.step s (.seekGlobal seconds)).outcome = s.aimed seconds ↔
      s.Jumps seconds ∨ s.Charted seconds := seekGlobal_aimed hfresh hstream seconds
  refine ⟨hloading, hloading.symm ▸ haimed, ?_⟩
  have hframe := (seekGlobal_course (e := .seekGlobal seconds) rfl (s := s.fresh) hsteady.stocked seconds).frame
  have houtcome : (machine.step s (.seekGlobal seconds)).outcome =
      if s.Jumps seconds then s.aimed seconds
      else {s.aimed seconds with chapterIndex := s.chapterIndex, chapterTitle := s.chapterTitle} :=
    seekGlobal_outcome hfresh hstream seconds
  have hchapters : (machine.step s (.seekGlobal seconds)).chapters = s.chapters := hframe.chapters
  generalize machine.step s (.seekGlobal seconds) = s' at *
  have hposition : s'.globalPosition = s.aim seconds :=
    (congrArg Outcome.position houtcome).trans (by split <;> rfl)
  have hindex : s'.chapterIndex =
      if s.Jumps seconds then s.chapterAt (s.aim seconds) else s.chapterIndex :=
    (congrArg Outcome.chapterIndex houtcome).trans (apply_ite Outcome.chapterIndex _ _ _)
  have hat : s'.chapterAt (s.aim seconds) = s.chapterAt (s.aim seconds) := by
    unfold chapterAt
    rw [hchapters]
  rw [hposition, hat, hindex]
  by_cases hjump : s.Jumps seconds
  · simp [hjump]
  · simp [hjump, Charted]

/-- One track with two chapters. -/
def chapteredBook : Json :=
  .object [("id", .string "s1"), ("duration", .number 10), ("audioTracks", .array [sampleTrack "https://abs" 0]),
    ("chapters", .array [
      .object [("start", .number 0), ("end", .number 4), ("title", .string "One")],
      .object [("start", .number 4), ("end", .number 10), ("title", .string "Two")]])]

def chapteredOpened : List Event := [.playItem "book", .reply 0 ⟨200, true, false, chapteredBook, "", none⟩]

/-- The chapter left is still the one shown. -/
theorem stale_chapter :
    let s := machine.run samplePlayer chapteredOpened
    let s' := machine.step s (.seekGlobal 6)
    s.active = true ∧ s'.outcome ≠ (s.seekByLoading 6).outcome ∧ s'.chapterTitle = "One" ∧
      (s.seekByLoading 6).chapterTitle = "Two" ∧ s'.chapterIndex ≠ s'.chapterAt s'.globalPosition := by
  decide +kernel

theorem seeks_agree_chaptered :
    let s := machine.run samplePlayer chapteredOpened
    (machine.step s (.seekGlobal 3)).outcome = (s.seekByLoading 3).outcome ∧ s.Charted 3 :=
  have h := seeks_agree _ sampleServer chapteredOpened 3 (by decide +kernel)
  ⟨h.2.1.mpr (by decide +kernel), by decide +kernel⟩

/-! ### Where playback starts -/

/-- Some track contains the position, or the last one starts at or before it. -/
def Covered (tracks : List Track) (q : Rat) : Prop :=
  (∃ t ∈ tracks, t.startOffset ≤ q ∧ q < t.stop) ∨ ∃ t ∈ tracks.getLast?, t.startOffset ≤ q

instance (tracks : List Track) (q : Rat) : Decidable (Covered tracks q) := inferInstanceAs (Decidable (_ ∨ _))

/-- The current track has begun by the position, and is to play from there. -/
def Starts (s : PlaybackSession) (q : Rat) : Prop :=
  let start := (s.trackAt s.currentTrack).startOffset
  start ≤ q ∧ 0 ≤ s.heading ∧ start + s.heading = q

instance (s : PlaybackSession) (q : Rat) : Decidable (s.Starts q) := inferInstanceAs (Decidable (_ ∧ _ ∧ _))

/-- The track found has begun by the position, unless it was not found by it. -/
theorem trackIndex_covers (hne : s.tracks ≠ []) (q : Rat) :
    (s.trackAt (s.trackIndexForGlobal q)).startOffset ≤ q ↔ Covered s.tracks q := by
  unfold trackIndexForGlobal
  split
  · next i hi =>
    obtain ⟨hlt, hcontains, -⟩ := List.findIdx?_eq_some_iff_getElem.mp hi
    simp only [Bool.and_eq_true, decide_eq_true_eq] at hcontains
    have htrack : s.trackAt i = s.tracks[i] := by simp [trackAt, hlt]
    rw [htrack]
    exact iff_of_true hcontains.1 (.inl ⟨_, List.getElem_mem hlt, hcontains⟩)
  · next hnone =>
    have hpos := List.length_pos_iff.mpr hne
    have hlast : s.trackAt (s.tracks.length - 1) = s.tracks.getLast hne := by
      have hindex : ((s.tracks.length : Int) - 1).toNat = s.tracks.length - 1 := by omega
      have hlt : s.tracks.length - 1 < s.tracks.length := by omega
      simp [trackAt, hindex, List.getLast_eq_getElem, hlt]
    have hgap : ¬∃ t ∈ s.tracks, t.startOffset ≤ q ∧ q < t.stop := by
      rintro ⟨t, ht, hcontains⟩
      have hno := List.findIdx?_eq_none_iff.mp hnone t ht
      simp [hcontains] at hno
    rw [hlast]
    simp [Covered, hgap, List.getLast?_eq_getLast_of_ne_nil hne]

/-- A session that plays from the place looked up for a position. -/
theorem starts_iff {s' : PlaybackSession} {q : Rat} (hne : s.tracks ≠ []) (htracks : s'.tracks = s.tracks)
    (hcurrent : s'.currentTrack = s.trackIndexForGlobal q)
    (hheading : s'.heading = q - (s.trackAt (s.trackIndexForGlobal q)).startOffset) :
    s'.Starts q ↔ Covered s.tracks q := by
  have htrack : s'.trackAt s'.currentTrack = s.trackAt (s.trackIndexForGlobal q) := by
    unfold trackAt
    rw [htracks, hcurrent]
  unfold Starts
  dsimp only
  rw [htrack, hheading, ← trackIndex_covers hne q]
  exact ⟨And.left, fun hstart => ⟨hstart, sub_nonneg.mpr hstart, add_sub_cancel _ _⟩⟩

/-- A seek lands in the track and at the place its target is looked up to be. -/
theorem seekGlobal_lands (h : s.Playing) (hstream : s.isHls = true → s.tracks.length = 1) (seconds : Rat) :
    (s.seekGlobal seconds).currentTrack = (s.place (s.aim seconds)).1 ∧
      (s.seekGlobal seconds).heading = (s.place (s.aim seconds)).2 := by
  have houtcome := seekGlobal_outcome h hstream seconds
  exact ⟨(congrArg Outcome.track houtcome).trans (by split <;> rfl),
    (congrArg Outcome.target houtcome).trans (by split <;> rfl)⟩

/-- What is loaded for a position of a book that is no stream. -/
theorem loadTrack_starts (hne : s.tracks ≠ []) (hhls : s.isHls = false) (q : Rat) (autoplay : Bool) :
    (s.loadTrackForGlobal q autoplay).Starts q ↔ Covered s.tracks q := by
  obtain ⟨queued, uses, mpv, signals, he, -, hcommands, hpending⟩ := loadTrack_eq hne q autoplay
  rw [he]
  refine starts_iff hne rfl rfl ((heading_pending hcommands).trans (hpending.trans ?_))
  rw [hhls]
  rfl

/-- Where a response says to resume. -/
def resumeAt (response : Json) : Rat :=
  (response.value "currentTime").toDouble ((response.value "startTime").toDouble 0)

/-- **Positions are located** exactly if some track contains them or the last one starts at
or before them. In every run, for every seek within the book of a session that is open and
no stream, and for every response a session opens from. -/
theorem positions_located (env : Env) (server : Endpoints) (es : List Event) (q : Rat) (response : Json) :
    let s := machine.run {env, server} es
    (s.active = true → s.isHls = false → 0 ≤ q → q ≤ s.duration →
      ((machine.step s (.seekGlobal q)).Starts q ↔ Covered s.tracks q)) ∧
    ((s.readPlayResponse response).Usable → (s.readPlayResponse response).isHls = false →
      ((s.applyPlayResponse response).Starts (resumeAt response) ↔
        Covered (s.readPlayResponse response).tracks (resumeAt response))) := by
  have hsteady := steady_run env server es
  dsimp only
  generalize machine.run {env, server} es = s at *
  refine ⟨fun hactive hhls hfrom hto => ?_, fun husable hhls => ?_⟩
  · have hplaying : s.Playing := hsteady.playing hactive
    have hfresh : s.fresh.Playing := hplaying.fresh
    obtain ⟨hcurrent, hheading⟩ := seekGlobal_lands hfresh (hsteady.kept.stream hactive) q
    have hframe := (seekGlobal_course (e := .seekGlobal q) rfl (s := s.fresh) hsteady.stocked q).frame
    have haim : s.fresh.aim q = q := by
      unfold aim
      rw [min_eq_right (show q ≤ s.fresh.duration from hto), max_eq_right hfrom]
    have hplace : s.fresh.place q =
        (s.trackIndexForGlobal q, q - (s.trackAt (s.trackIndexForGlobal q)).startOffset) :=
      if_neg (by simp [fresh, hhls])
    rw [haim, hplace] at hcurrent hheading
    exact starts_iff hplaying.tracks hframe.tracks hcurrent hheading
  · obtain ⟨s', speed, hopen, hcue⟩ := Seeks.openAt_cue (s.readPlayResponse response) (resumeAt response)
    have htracks : s'.tracks = (s.readPlayResponse response).tracks := congrArg Cue.tracks hcue
    have hhls' : s'.isHls = false := (congrArg Cue.isHls hcue).trans hhls
    have happly : s.applyPlayResponse response = s'.loadTrackForGlobal (resumeAt response) true :=
      (if_pos husable).trans hopen
    rw [happly, ← htracks]
    exact loadTrack_starts (htracks ▸ husable.2.1) hhls' _ _

/-- Ten seconds, a gap of ten seconds, and ten seconds more. -/
def gappedBook : Json :=
  .object [("id", .string "s1"), ("duration", .number 30), ("audioTracks", .array
    [sampleTrack "https://a" 0, sampleTrack "https://b" 20])]

def gappedOpened : List Event := [.playItem "book", .reply 0 ⟨200, true, false, gappedBook, "", none⟩]

/-- In the gap the second track is to play from five seconds before its start. -/
theorem gap_misplaced :
    let s := machine.run samplePlayer gappedOpened
    let s' := machine.step s (.seekGlobal 15)
    s.active = true ∧ s.isHls = false ∧ s.duration = 30 ∧ s.tracks.map (·.startOffset) = [0, 20] ∧
      ¬s'.Starts 15 ∧ s'.currentTrack = 1 ∧ s'.heading = -5 ∧ s'.globalPosition = 15 := by
  decide +kernel

theorem positions_located_gapped :
    let s := machine.run samplePlayer gappedOpened
    (machine.step s (.seekGlobal 25)).Starts 25 ∧ (s.applyPlayResponse sampleBook).Starts 0 :=
  have h := positions_located _ sampleServer gappedOpened 25 sampleBook
  ⟨(h.1 (by decide +kernel) (by decide +kernel) (by decide +kernel) (by decide +kernel)).mpr (by decide +kernel),
    (h.2 (by decide +kernel) (by decide +kernel)).mpr (by decide +kernel)⟩

end PlaybackSession

end ShelfRemote.Player
