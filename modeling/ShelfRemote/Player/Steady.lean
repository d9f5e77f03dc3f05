import ShelfRemote.Player.Moves

/-! What every reachable session satisfies.

While it is open a session has an id and plays one of its tracks, which is in the playlist
libmpv was given; once it is closed no timer runs. `Steady` is kept by every event, and
holds after every run. -/
namespace ShelfRemote.Player
open Qt Net Runs

namespace Course

/-- The current track is in the playlist libmpv was given. -/
def Plays (c : Course) : Prop :=
  ∃ k n : Nat, c.tape.entries.map (·.track) = List.range' k n ∧ k ≤ c.currentTrack ∧
    c.currentTrack ≤ c.queuedThroughTrack ∧ c.queuedThroughTrack + 1 = k + n ∧ k + n ≤ c.tracks.length

/-- What is kept along a run. -/
structure Kept (c : Course) : Prop where
  quiet : c.active = false → c.syncTimer = none ∧ c.seekSyncTimer = none ∧ c.sleepTimer = none
  named : c.active = true → c.sessionId ≠ ""
  going : c.active = true → c.completed = false
  stream : c.active = true → c.isHls = true → c.tracks.length = 1
  plays : c.active = true → c.Plays

variable {c c' : Course} {e : PlaybackSession.Event}

theorem Move.opens (hmove : Move e c c') (h : c.signals.any Signal.opens = false) :
    c'.signals.any Signal.opens = false := by
  cases hmove with
  | seek | close | abandon => simpa [Course.seek, Course.close, Course.post, Signal.opens] using h
  | jump q _ _ hload =>
    cases hload with
    | load => simpa [Course.seek, load, Signal.opens] using h
  | reload _ _ hload =>
    cases hload with
    | load => exact h
  | _ => exact h

/-- Nothing but a reply opens a session. -/
theorem Moves.opens (hmoves : Moves e c c') (h : c.signals.any Signal.opens = false) :
    c'.signals.any Signal.opens = false :=
  hmoves.preserves (fun _ hmove => hmove.opens) h

/-- A session that is open after an event was open before it, or the event opened it. -/
theorem Step.stays (hstep : Step c e c') (hsilent : c'.signals.any Signal.opens = false)
    (hactive : c'.active = true) :
    c.active = true ∧ c'.sessionId = c.sessionId ∧ c'.itemId = c.itemId ∧ c'.episodeId = c.episodeId := by
  cases hstep with
  | moves hmoves => exact hmoves.frame.stays hactive
  | tick | accessToken | baseUrl | dropped => exact ⟨hactive, rfl, rfl, rfl⟩
  | unusable _ _ hidle => exact nomatch hidle.symm.trans hactive
  | opened resume _ _ _ _ hload =>
    cases hload with
    | load => simp [load, opens, Signal.opens] at hsilent

theorem Plays.bounds (h : c.Plays) : 0 ≤ c.currentTrack ∧ c.currentTrack < c.tracks.length := by
  obtain ⟨k, n, -, hfirst, hqueued, hend, hlast⟩ := h
  omega

theorem Plays.current (h : c.Plays) : c.currentTrack ≤ c.queuedThroughTrack := by
  obtain ⟨k, n, -, -, hqueued, -⟩ := h
  exact hqueued

/-- The tracks up to the last one queued are in the playlist. -/
theorem Plays.queued (h : c.Plays) (track : Nat) (hfrom : c.currentTrack ≤ track)
    (hto : track ≤ c.queuedThroughTrack) : ∃ entry ∈ c.tape.entries, entry.track = track := by
  obtain ⟨k, n, hlabels, hfirst, -, hend, -⟩ := h
  have hmem : track ∈ c.tape.entries.map (·.track) := by
    rw [hlabels, List.mem_range'_1]
    omega
  exact List.mem_map.mp hmem

theorem Loads.plays (h : c.Loads c') : c'.Plays := by
  cases h with
  | load idx n halike =>
    have hpos := halike.some
    refine ⟨idx, n, ?_, le_rfl, ?_, ?_, halike.within⟩
    · show ((List.range' idx n).map c.entry).map (·.track) = _
      rw [List.map_map]
      exact List.map_id _
    · show (idx : Int) ≤ idx + n - 1
      omega
    · show (idx + n - 1 + 1 : Int) = idx + n
      omega

theorem Kept.loads (h : c.Kept) (hload : c.Loads c') : c'.Kept := by
  have hplays := hload.plays
  cases hload with
  | load idx n => exact {h with plays := fun _ => hplays}

theorem Kept.post (h : c.Kept) (p : Post) : (c.post p).Kept := {h with}

theorem Kept.seek (h : c.Kept) (hactive : c.active = true) (q : Rat) : (c.seek q).Kept :=
  {h with quiet := fun hidle => nomatch hidle.symm.trans hactive}

theorem Kept.of_idle (hidle : c.active = false)
    (hquiet : c.syncTimer = none ∧ c.seekSyncTimer = none ∧ c.sleepTimer = none) : c.Kept where
  quiet := fun _ => hquiet
  named := fun hactive => nomatch hidle.symm.trans hactive
  going := fun hactive => nomatch hidle.symm.trans hactive
  stream := fun hactive => nomatch hidle.symm.trans hactive
  plays := fun hactive => nomatch hidle.symm.trans hactive

theorem Move.kept (hmove : Move e c c') (h : c.Kept) : c'.Kept := by
  cases hmove with
  | stop hidle => exact .of_idle hidle (h.quiet hidle)
  | interval due hdue =>
    refine {h with quiet := fun hidle => ?_}
    obtain ⟨hsync, hrest⟩ := h.quiet hidle
    refine ⟨by_contra fun hsome => ?_, hrest⟩
    rcases hdue hsome with hactive | hrunning
    · exact nomatch (show c.active = false from hidle).symm.trans hactive
    · exact hrunning hsync
  | countdown due hdue =>
    refine {h with quiet := fun hidle => ?_}
    obtain ⟨hsync, hseek, -⟩ := h.quiet hidle
    exact ⟨hsync, hseek, by_contra fun hsome =>
      nomatch (show c.active = false from hidle).symm.trans (hdue hsome)⟩
  | heard => exact {h with}
  | lapse => exact {h with quiet := fun hidle => ⟨(h.quiet hidle).1, rfl, (h.quiet hidle).2.2⟩}
  | sync p =>
    have hlapsed : ({c with seekSyncTimer := none} : Course).Kept :=
      {h with quiet := fun hidle => ⟨(h.quiet hidle).1, rfl, (h.quiet hidle).2.2⟩}
    exact hlapsed.post p
  | close p => exact Kept.post (.of_idle rfl ⟨rfl, rfl, rfl⟩) p
  | abandon => exact .of_idle rfl ⟨rfl, rfl, rfl⟩
  | request p hasks hidle => exact .of_idle hidle (h.quiet hidle)
  | seek q _ hactive => exact h.seek hactive q
  | jump q _ hactive hload =>
    have hloaded := h.loads hload
    cases hload with
    | load => exact hloaded.seek hactive q
  | turn _ hactive hnext =>
    obtain ⟨k, n, hlabels, hfirst, hqueued, hend, hlast⟩ := h.plays hactive
    exact {h with plays := fun _ =>
      ⟨k, n, hlabels, show (k : Int) ≤ c.currentTrack + 1 by omega, hnext, hend, hlast⟩}
  | reload _ _ hload => exact h.loads hload

theorem Moves.kept (hmoves : Moves e c c') (h : c.Kept) : c'.Kept :=
  hmoves.preserves (fun _ hmove => hmove.kept) h

/-- What every move of a course that is kept preserves. -/
theorem Moves.preserves_kept {P : Course → Prop} (hmoves : Moves e c c') (hkept : c.Kept)
    (hmove : ∀ {a b}, a.Kept → Move e a b → P a → P b) (h : P c) : P c' := by
  have hboth : c'.Kept ∧ P c' := by
    refine hmoves.preserves (P := fun c => c.Kept ∧ P c) (fun _ hnext hc => ?_) ⟨hkept, h⟩
    exact ⟨hnext.kept hc.1, hmove hc.1 hnext hc.2⟩
  exact hboth.2

theorem Step.kept (hstep : c.Step e c') (h : c.Kept) : c'.Kept := by
  cases hstep with
  | moves hmoves => exact hmoves.kept h
  | tick => exact {h with}
  | accessToken token =>
    refine {h with plays := fun hactive => ?_}
    obtain ⟨k, n, hlabels, hrest⟩ := h.plays hactive
    refine ⟨k, n, ?_, hrest⟩
    dsimp only
    split <;> exact hlabels
  | baseUrl => exact {h with}
  | dropped => exact {h with}
  | unusable hpick hp hidle => exact .of_idle hidle (h.quiet hidle)
  | opened resume hpick hp hidle hid hload =>
    have hplays := hload.plays
    cases hload with
    | load idx n =>
      exact {
        quiet := fun hidle => nomatch hidle
        named := fun _ => hid
        going := fun _ => rfl
        stream := fun _ hhls => beq_iff_eq.mp (Bool.and_eq_true_iff.mp hhls).1
        plays := fun _ => hplays }

end Course

namespace PlaybackSession

/-- What every reachable session satisfies. -/
structure Steady (s : PlaybackSession) : Prop where
  asked : s.books.Asked
  kept : s.course.Kept

variable {s : PlaybackSession}

theorem Steady.stocked (h : s.Steady) : s.Stocked := fun hactive hnone => by
  have hbounds := (h.kept.plays hactive).bounds
  rw [show s.course.tracks = [] from hnone, List.length_nil] at hbounds
  omega

/-- One event, from a state in which nothing is emitted yet. -/
theorem Steady.step (h : s.Steady) (e : Event) :
    Course.Step {s.course with signals := []} e (machine.step s e).course :=
  handle_course (s := s.fresh) h.asked h.stocked e

theorem Steady.next (h : s.Steady) (e : Event) : (machine.step s e).Steady where
  asked := (handle_step s.fresh e).asked h.asked
  kept := (h.step e).kept {h.kept with}

theorem steady_start (env : Env) (server : Endpoints) : Steady {env, server} where
  asked := Books.asked_start env server
  kept := .of_idle rfl ⟨rfl, rfl, rfl⟩

theorem steady_keeps : Machine.Keeps machine (fun _ _ => True) Steady := ⟨fun _ e hs _ => hs.next e⟩

/-- Every run from the start. -/
theorem steady_run (env : Env) (server : Endpoints) (es : List Event) :
    (machine.run {env, server} es).Steady :=
  steady_keeps.always (steady_start env server) es

theorem Playing.fresh (h : s.Playing) : s.fresh.Playing := ⟨h.active, h.first, h.last⟩

/-- A reachable session that is open plays one of its tracks. -/
theorem Steady.playing (h : s.Steady) (hactive : s.active = true) : s.Playing :=
  ⟨hactive, (h.kept.plays hactive).bounds.1, (h.kept.plays hactive).bounds.2⟩

end PlaybackSession

end ShelfRemote.Player
