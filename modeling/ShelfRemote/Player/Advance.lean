import ShelfRemote.Player.Steady

/-! Playing through.

When a file ends on its own, the session goes on to the next track, and after the last
one it closes as completed. While libmpv has the next track queued the session only
follows it. Otherwise that track starts a playlist of its own, and it is looked up by
position, just past where it starts: another track may be found there. -/
namespace ShelfRemote.Player
open Qt Net Runs

/-- The position is in the track. -/
def Track.Contains (t : Track) (q : Rat) : Prop := t.startOffset ≤ q ∧ q < t.stop

instance (t : Track) (q : Rat) : Decidable (t.Contains q) := inferInstanceAs (Decidable (_ ∧ _))

/-- Track `i` is the first to contain the position, or the last one where none does. -/
def FoundAt (tracks : List Track) (i : Nat) (q : Rat) : Prop :=
  (∀ t ∈ tracks.take i, ¬t.Contains q) ∧ ∃ t ∈ tracks[i]?, t.Contains q ∨ i + 1 = tracks.length

instance (tracks : List Track) (i : Nat) (q : Rat) : Decidable (FoundAt tracks i q) :=
  inferInstanceAs (Decidable (_ ∧ _))

namespace PlaybackSession
variable {s s' : PlaybackSession}

theorem trackIndex_found {i : Nat} (hi : i < s.tracks.length) (q : Rat) :
    s.trackIndexForGlobal q = i ↔ FoundAt s.tracks i q := by
  have hhere : (∃ t ∈ s.tracks[i]?, t.Contains q ∨ i + 1 = s.tracks.length) ↔
      s.tracks[i].Contains q ∨ i + 1 = s.tracks.length := by
    simp [hi]
  unfold FoundAt
  rw [hhere]
  unfold trackIndexForGlobal
  split
  · next j hj =>
    obtain ⟨hlt, hcontains, hbefore⟩ := List.findIdx?_eq_some_iff_getElem.mp hj
    have hfound : s.tracks[j].Contains q := by simpa [Track.Contains] using hcontains
    have hearlier : ∀ k, (hk : k < j) → ¬s.tracks[k].Contains q := fun k hk => by
      simpa [Track.Contains] using hbefore k hk
    constructor
    · intro he
      obtain rfl : j = i := by omega
      refine ⟨fun t ht => ?_, .inl hfound⟩
      obtain ⟨k, hk, rfl⟩ := List.mem_take_iff_getElem.mp ht
      exact hearlier k (by omega)
    · rintro ⟨hnone, hlast⟩
      rcases Nat.lt_trichotomy j i with hlt' | rfl | hgt
      · exact absurd hfound (hnone _ (List.mem_take_iff_getElem.mpr ⟨j, by omega, rfl⟩))
      · rfl
      · rcases hlast with hcontains | hlast
        · exact absurd hcontains (hearlier i hgt)
        · omega
  · next hnone =>
    have hno : ∀ t ∈ s.tracks, ¬t.Contains q := fun t ht => by
      simpa [Track.Contains] using List.findIdx?_eq_none_iff.mp hnone t ht
    constructor
    · intro he
      exact ⟨fun t ht => hno t (List.mem_of_mem_take ht), .inr (by omega)⟩
    · rintro ⟨-, hcontains | hlast⟩
      · exact absurd hcontains (hno _ (List.getElem_mem hi))
      · omega

/-! ### One end of a file -/

/-- The last track was playing and the session is closed as completed, or it has gone on
to the next track, which libmpv has been told to load. -/
def Advances (s s' : PlaybackSession) : Prop :=
  s.tracks.length ≤ s.currentTrack + 1 ∧ s'.active = false ∧ s'.completed = true ∨
    s'.active = true ∧ s'.currentTrack = s.currentTrack + 1 ∧
      ∃ entry ∈ s'.mpv.tape.entries, (entry.track : Int) = s.currentTrack + 1

instance (s s' : PlaybackSession) : Decidable (s.Advances s') := inferInstanceAs (Decidable (_ ∨ _))

/-- The next track is queued, or found where it starts, if there is one. -/
def Reaches (s : PlaybackSession) : Prop :=
  s.tracks.length ≤ s.currentTrack + 1 ∨ s.currentTrack + 1 ≤ s.queuedThroughTrack ∨
    FoundAt s.tracks (s.currentTrack + 1).toNat (s.startOf (s.currentTrack + 1))

instance (s : PlaybackSession) : Decidable s.Reaches := inferInstanceAs (Decidable (_ ∨ _ ∨ _))

theorem tape_deck (h : s'.deck = s.deck) : s'.mpv.tape = s.mpv.tape :=
  congrArg (fun d : Deck => Tape.obey {} d.commands) h

/-- Only what the session does with its tracks is asked of it. -/
theorem Advances.congr {s'' : PlaybackSession} (h : s''.deck = s'.deck) : s.Advances s'' ↔ s.Advances s' := by
  have hactive : s''.active = s'.active := congrArg Deck.active h
  have hcurrent : s''.currentTrack = s'.currentTrack := congrArg Deck.currentTrack h
  have hcompleted : s''.completed = s'.completed := congrArg Deck.completed h
  unfold Advances
  rw [tape_deck h, hactive, hcurrent, hcompleted]

theorem sync_trackIndex (q : Rat) : s.sync.trackIndexForGlobal q = s.trackIndexForGlobal q := by
  unfold sync
  split <;> rfl

theorem sync_startOf (track : Int) : s.sync.startOf track = s.startOf track := by
  unfold sync
  split <;> rfl

/-- The next track is in the playlist that is playing. -/
theorem follow_advances (h : s.Playing) (hplays : s.course.Plays)
    (hqueued : s.currentTrack + 1 ≤ s.queuedThroughTrack) (q : Rat) :
    s.Advances ({s.sync with currentTrack := s.currentTrack + 1}.updateChapterForPosition q) := by
  have hfirst := h.first
  have hdeck : s.sync.deck = s.deck := sync_deck
  obtain ⟨entry, hentry, htrack⟩ := hplays.queued (s.currentTrack + 1).toNat
    (show s.currentTrack ≤ _ by omega) (show _ ≤ s.queuedThroughTrack by omega)
  rw [Advances.congr (updateChapter_deck _)]
  refine .inr ⟨(congrArg Deck.active hdeck).trans h.active, rfl, entry, ?_, by omega⟩
  show entry ∈ s.sync.mpv.tape.entries
  rw [tape_deck hdeck]
  exact hentry

/-- What is loaded for a position is the next track if it is found there. -/
theorem load_advances (h : s.Playing) (hmore : s.currentTrack + 1 < s.tracks.length) (q : Rat) :
    s.Advances (s.sync.loadTrackForGlobal q true) ↔ s.trackIndexForGlobal q = s.currentTrack + 1 := by
  have hdeck : s.sync.deck = s.deck := sync_deck
  have htracks : s.sync.tracks = s.tracks := congrArg Deck.tracks hdeck
  obtain ⟨idx, hidx, hlt⟩ := trackIndex_bounds (htracks.symm ▸ h.tracks) q
  obtain ⟨n, halike, hload⟩ := loadTrack_load hidx hlt true
  have hplays := (Course.Loads.load idx n halike).plays
  rw [← hload] at hplays
  rw [sync_trackIndex] at hidx
  generalize s.sync.loadTrackForGlobal q true = loaded at *
  have hcurrent : loaded.currentTrack = idx := congrArg Course.currentTrack hload
  have hopen : loaded.active = true :=
    (congrArg Course.active hload).trans ((congrArg Deck.active hdeck).trans h.active)
  unfold Advances
  rw [or_iff_right (by omega), hcurrent, hidx]
  refine ⟨fun hadvances => hadvances.2.1, fun hsame => ⟨hopen, hsame, ?_⟩⟩
  obtain ⟨entry, hentry, htrack⟩ := hplays.queued idx (le_of_eq hcurrent) (hcurrent ▸ hplays.current)
  exact ⟨entry, hentry, by omega⟩

theorem onEndOfFile_reaches (h : s.Playing) (hhls : s.isHls = false) (hplays : s.course.Plays) :
    s.Advances s.onEndOfFile ↔ s.Reaches := by
  have hactive := h.active
  have hfirst := h.first
  have hqueue : s.sync.queuedThroughTrack = s.queuedThroughTrack := congrArg Deck.queuedThroughTrack sync_deck
  unfold onEndOfFile
  rw [if_neg (by simp [hactive]), if_neg (by simp [hhls])]
  dsimp only
  split
  · next hmore =>
    split
    · next hqueued =>
      rw [hqueue] at hqueued
      exact iff_of_true (follow_advances h hplays hqueued _) (.inr (.inl hqueued))
    · next hbeyond =>
      rw [hqueue] at hbeyond
      have hnext : ((s.currentTrack + 1).toNat : Int) = s.currentTrack + 1 := by omega
      have hin : (s.currentTrack + 1).toNat < s.tracks.length := by omega
      rw [load_advances h hmore, sync_startOf, ← hnext, trackIndex_found hin, hnext]
      unfold Reaches
      rw [or_iff_right (by omega), or_iff_right hbeyond]
  · next hlast =>
    have hend : s.tracks.length ≤ s.currentTrack + 1 := Int.not_lt.mp hlast
    have hdone := stopAndClose_deck (s := {s with completed := true}) hactive
    exact iff_of_true (.inl ⟨hend, congrArg Deck.active hdone, congrArg Deck.completed hdone⟩) (.inl hend)

/-- What an end of a file does in a session that can be reached. -/
theorem Steady.advances (h : s.Steady) (hactive : s.active = true) (hhls : s.isHls = false) :
    s.Advances (machine.step s (.mpv (.endFile .eof))) ↔ s.Reaches := by
  let heard : PlaybackSession := {s.fresh with mpv := s.mpv.handleEvent (.endFile .eof)}
  have hplaying : heard.Playing := {(h.playing hactive).fresh with}
  show s.Advances heard.onEndOfFile.updatePlaying ↔ s.Reaches
  rw [Advances.congr updatePlaying_deck]
  exact onEndOfFile_reaches hplaying hhls (h.kept.plays hactive)

end PlaybackSession

/-! ### Playing through -/

namespace Course
variable {c c' : Course} {e : PlaybackSession.Event}

/-- What neither seeks nor may close the session plays on where it was. -/
theorem Move.still (hmove : Move e c c') (hcloses : e.closes = false)
    (hsilent : c'.signals.any Signal.seeks = false) :
    c.signals.any Signal.seeks = false ∧ c'.active = c.active ∧ c'.currentTrack = c.currentTrack := by
  have hends : e.ends ≠ true := by
    intro hends
    rw [PlaybackSession.Event.ends_eq hends] at hcloses
    cases hcloses
  cases hmove with
  | close _ hmay | abandon hmay => exact absurd (hcloses.symm.trans hmay) (by decide)
  | seek | jump => simp [Course.seek, Signal.seeks] at hsilent
  | turn hend | reload hend => exact absurd hend hends
  | _ => exact ⟨hsilent, rfl, rfl⟩

theorem Moves.still (hmoves : Moves e c c') (hcloses : e.closes = false) :
    c'.signals.any Signal.seeks = false → c'.active = c.active ∧ c'.currentTrack = c.currentTrack := by
  refine hmoves.preserves (P := fun c' => c'.signals.any Signal.seeks = false →
    c'.active = c.active ∧ c'.currentTrack = c.currentTrack) (fun _ hmove ih hsilent => ?_) fun _ => ⟨rfl, rfl⟩
  obtain ⟨hbefore, hactive, hcurrent⟩ := hmove.still hcloses hsilent
  exact ⟨hactive.trans (ih hbefore).1, hcurrent.trans (ih hbefore).2⟩

theorem Step.still (hstep : c.Step e c') (hactive : c.active = true) (hcloses : e.closes = false)
    (hsilent : c'.signals.any Signal.seeks = false) :
    c'.active = true ∧ c'.currentTrack = c.currentTrack := by
  cases hstep with
  | moves hmoves =>
    obtain ⟨hactive', hcurrent⟩ := hmoves.still hcloses hsilent
    exact ⟨hactive'.trans hactive, hcurrent⟩
  | tick | accessToken | baseUrl | dropped => exact ⟨hactive, rfl⟩
  | unusable _ _ hidle => exact absurd (hidle.symm.trans hactive) (by decide)
  | opened _ _ _ hidle => exact absurd (hidle.symm.trans hactive) (by decide)

/-- The book stays the one that is open. -/
theorem Step.book (hstep : c.Step e c') (hactive : c.active = true) :
    c'.tracks = c.tracks ∧ c'.isHls = c.isHls := by
  cases hstep with
  | moves hmoves => exact ⟨hmoves.frame.tracks, hmoves.frame.isHls⟩
  | tick | accessToken | baseUrl | dropped => exact ⟨rfl, rfl⟩
  | unusable _ _ hidle => exact absurd (hidle.symm.trans hactive) (by decide)
  | opened _ _ _ hidle => exact absurd (hidle.symm.trans hactive) (by decide)

end Course

namespace PlaybackSession
variable {s : PlaybackSession}

/-- While the session is open no position is sought, only the end of a file may close it,
and then the next track is reached. -/
def PlaysOn (s : PlaybackSession) (e : Event) : Prop :=
  s.active = true → (machine.step s e).sought = false ∧ (e.closes = true → e.ends = true) ∧
    (e.ends = true → s.Reaches)

instance (s : PlaybackSession) (e : Event) : Decidable (s.PlaysOn e) := inferInstanceAs (Decidable (_ → _))

/-- A book that is no stream is open. -/
structure Underway (s : PlaybackSession) : Prop where
  steady : s.Steady
  active : s.active = true
  isHls : s.isHls = false

/-- Each track yet to end. -/
def remaining (s : PlaybackSession) : Nat := (s.tracks.length - s.currentTrack).toNat

theorem Underway.remaining_pos (h : s.Underway) : 0 < s.remaining := by
  have hlast := (h.steady.playing h.active).last
  unfold remaining
  omega

theorem Underway.step (h : s.Underway) (e : Event) (hrule : s.PlaysOn e) :
    ((machine.step s e).active = false ∧ (machine.step s e).completed = true) ∨
      (machine.step s e).Underway ∧
        (machine.step s e).remaining + (if e.ends then 1 else 0) ≤ s.remaining := by
  obtain ⟨hsilent, hcloses, hreaches⟩ := hrule h.active
  have hstep := h.steady.step e
  obtain ⟨htracks, hhls⟩ := hstep.book h.active
  have hfirst := (h.steady.playing h.active).first
  have hlast := (h.steady.playing h.active).last
  have hsteady := h.steady.next e
  cases hends : e.ends
  · have hopen : e.closes = false := by
      cases hmay : e.closes
      · rfl
      · exact absurd (hends.symm.trans (hcloses hmay)) (by decide)
    obtain ⟨hactive, hcurrent⟩ := hstep.still h.active hopen (by rw [sought_course]; exact hsilent)
    refine .inr ⟨⟨hsteady, hactive, hhls.trans h.isHls⟩, ?_⟩
    have htracks' : (machine.step s e).tracks = s.tracks := htracks
    have hcurrent' : (machine.step s e).currentTrack = s.currentTrack := hcurrent
    unfold remaining
    rw [htracks', hcurrent']
    simp
  · obtain ⟨-, hclosed⟩ | ⟨hactive, hcurrent, -⟩ :=
      Event.ends_eq hends ▸ (h.steady.advances h.active h.isHls).mpr (hreaches hends)
    · exact .inl hclosed
    · refine .inr ⟨⟨hsteady, hactive, hhls.trans h.isHls⟩, ?_⟩
      have htracks' : (machine.step s e).tracks = s.tracks := htracks
      unfold remaining
      rw [htracks', hcurrent]
      simp only [if_true]
      omega

theorem underway_spends :
    Machine.Spends machine PlaysOn Underway (fun s => s.active = false ∧ s.completed = true) Event.ends
      remaining :=
  ⟨fun _ h => h.remaining_pos, fun _ e h hrule => h.step e hrule⟩

/-- **Playing through makes progress**: in every run, an end of a file advances a book that
is open and no stream exactly if the next track is reached; and while nothing is sought or
closed and each is reached, as many ends of files as there are tracks left complete it. -/
theorem files_advance (env : Env) (server : Endpoints) (es : List Event)
    (hactive : (machine.run {env, server} es).active = true)
    (hhls : (machine.run {env, server} es).isHls = false) :
    let s := machine.run {env, server} es
    (s.Advances (machine.step s (.mpv (.endFile .eof))) ↔ s.Reaches) ∧
      ∀ later, machine.Along PlaysOn s later →
        s.tracks.length ≤ s.currentTrack + later.countP Event.ends →
        ∃ before after, later = before ++ after ∧
          s.currentTrack + before.countP Event.ends ≤ s.tracks.length ∧
          (machine.run s before).active = false ∧ (machine.run s before).completed = true := by
  have hsteady := steady_run env server es
  dsimp only
  generalize machine.run {env, server} es = s at *
  refine ⟨hsteady.advances hactive hhls, fun later hlater henough => ?_⟩
  have hfirst := (hsteady.playing hactive).first
  have hlast := (hsteady.playing hactive).last
  have hunderway : s.Underway := ⟨hsteady, hactive, hhls⟩
  obtain ⟨before, after, hsplit, hcount, hclosed⟩ := underway_spends.reaches hunderway hlater
    (by unfold remaining; omega)
  refine ⟨before, after, hsplit, ?_, hclosed⟩
  unfold remaining at hcount
  omega

/-- The second track is elsewhere, and starts while the first one still plays. -/
def overlappingBook : Json :=
  .object [("id", .string "s1"), ("duration", .number 15), ("audioTracks", .array
    [sampleTrack "https://abs" 0, sampleTrack "https://c" 5])]

def overlappingOpened : List Event := [.playItem "book", .reply 0 ⟨200, true, false, overlappingBook, "", none⟩]

def endsOfFile (n : Nat) : List Event := List.replicate n (.mpv (.endFile .eof))

/-- The first track is found where the second one starts, and plays again and again. -/
theorem overlap_loops :
    let s := machine.run samplePlayer overlappingOpened
    s.active = true ∧ s.isHls = false ∧ s.tracks.length = 2 ∧ s.currentTrack = 0 ∧
      ¬s.Advances (machine.step s (.mpv (.endFile .eof))) ∧
      (machine.run s (endsOfFile 1)).currentTrack = 0 ∧
      (machine.run s (endsOfFile 3)).active = true ∧ (machine.run s (endsOfFile 3)).currentTrack = 0 := by
  decide +kernel

def partedBook : Json :=
  .object [("id", .string "s1"), ("duration", .number 20), ("audioTracks", .array
    [sampleTrack "https://abs" 0, sampleTrack "https://c" 10])]

def partedOpened : List Event := [.playItem "book", .reply 0 ⟨200, true, false, partedBook, "", none⟩]

theorem files_advance_parted :
    let s := machine.run samplePlayer partedOpened
    s.Advances (machine.step s (.mpv (.endFile .eof))) ∧
      ∃ before after, endsOfFile 2 = before ++ after ∧
        s.currentTrack + before.countP Event.ends ≤ s.tracks.length ∧
        (machine.run s before).active = false ∧ (machine.run s before).completed = true :=
  have h := files_advance _ sampleServer partedOpened (by decide +kernel) (by decide +kernel)
  ⟨h.1.mpr (by decide +kernel), h.2 (endsOfFile 2) (by decide +kernel) (by decide +kernel)⟩

end PlaybackSession

end ShelfRemote.Player
