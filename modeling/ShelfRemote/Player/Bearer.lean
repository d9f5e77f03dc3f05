import ShelfRemote.Player.Steady

/-! Where the bearer token goes while a book plays.

libmpv is given one header for a whole playlist, and the tracks of a book may lie on
any origin. The session decides by the first track and queues behind it the tracks of
the same policy; at the first one of the other policy it stops, and loads anew when
libmpv gets there. `bearer_stays_home` is about every load, and about every run from
a session that has just been opened: libmpv never holds the token together with a
track of another origin. -/
namespace ShelfRemote.Player
open Qt Net Runs

namespace PlaybackSession
variable {s : PlaybackSession}

/-- The URL a track's content is fetched from. -/
def contentUrl (s : PlaybackSession) (track : Nat) : QUrl :=
  s.server.resolveContentUrl s.env.text (s.trackAt track).contentUrl

/-- The track lies on the scheme, the host and the effective port of the base URL. -/
def Home (s : PlaybackSession) (track : Nat) : Prop :=
  let url := s.contentUrl track
  let base := s.server.base
  toLower url.scheme = toLower base.scheme ∧ toLower url.host = toLower base.host ∧
    url.effectivePort = base.effectivePort

instance (s : PlaybackSession) (track : Nat) : Decidable (s.Home track) :=
  inferInstanceAs (Decidable (_ ∧ _ ∧ _))

theorem home_iff (s : PlaybackSession) (track : Nat) : s.course.home track = true ↔ s.Home track := by
  show sameOrigin (s.contentUrl track) s.server.base = true ↔ _
  simp [sameOrigin, Home, and_assoc]

/-- `s'` has given libmpv the tracks from `idx` to the last one queued, which share a
policy that the next one does not share, and the token if and only if all are at home. -/
structure Sorts (s : PlaybackSession) (idx : Nat) (s' : PlaybackSession) : Prop where
  playlist : ∃ n : Nat, s'.queuedThroughTrack + 1 = idx + n ∧
    s'.mpv.tape.entries = (List.range' idx n).map fun i => ⟨s.env.text.toString (s.contentUrl i), i⟩
  current : s'.currentTrack = idx
  bearer : s'.mpv.tape.header ≠ "" ↔
    ∀ i : Nat, idx ≤ i → i ≤ s'.queuedThroughTrack → s.Home i
  none : s'.mpv.tape.header = "" ↔
    ∀ i : Nat, idx ≤ i → i ≤ s'.queuedThroughTrack → ¬s.Home i
  next : ∀ i : Nat, s'.queuedThroughTrack + 1 = i → i < s.tracks.length → (s.Home i ↔ ¬s.Home idx)

theorem trackIndex_lt {q : Rat} {idx : Nat} (hidx : s.trackIndexForGlobal q = idx) : idx < s.tracks.length := by
  have hne : s.tracks ≠ [] := by
    intro hnone
    simp [trackIndexForGlobal, hnone] at hidx
  obtain ⟨i, hi, hlt⟩ := trackIndex_bounds hne q
  obtain rfl : idx = i := Int.ofNat_inj.mp (hidx.symm.trans hi)
  exact hlt

theorem loadTrack_sorts (s : PlaybackSession) (q : Rat) (autoplay : Bool) {idx : Nat}
    (hidx : s.trackIndexForGlobal q = idx) : Sorts s idx (s.loadTrackForGlobal q autoplay) := by
  have hlt := trackIndex_lt hidx
  obtain ⟨n, halike, hload⟩ := loadTrack_load hidx hlt autoplay
  have hpos := halike.some
  have hwithin := halike.within
  generalize s.loadTrackForGlobal q autoplay = loaded at *
  have hqueued : loaded.queuedThroughTrack = idx + n - 1 := congrArg Course.queuedThroughTrack hload
  have hcurrent : loaded.currentTrack = idx := congrArg Course.currentTrack hload
  have htape : loaded.mpv.tape = (s.course.load idx n).tape := congrArg Course.tape hload
  -- All that is queued has the policy of the first track.
  have hsame : ∀ i : Nat, idx ≤ i → i ≤ (idx + n - 1 : Int) → (s.Home i ↔ s.Home idx) := by
    intro i hfrom hto
    have halike := halike.same (i - idx) (by omega)
    rw [show idx + (i - idx) = i by omega] at halike
    rw [← home_iff, ← home_iff, halike]
  have hbearer : loaded.mpv.tape.header ≠ "" ↔ s.Home idx := by
    rw [htape, Course.load_header, home_iff]
  have hnone : loaded.mpv.tape.header = "" ↔ ¬s.Home idx := by
    rw [← hbearer, not_ne_iff]
  refine ⟨⟨n, ?_, ?_⟩, hcurrent, ?_, ?_, ?_⟩
  · omega
  · rw [htape]
    rfl
  · rw [hbearer, hqueued]
    exact ⟨fun h i hfrom hto => (hsame i hfrom hto).mpr h, fun h => h idx le_rfl (by omega)⟩
  · rw [hnone, hqueued]
    refine ⟨fun h i hfrom hto => ?_, fun h => h idx le_rfl (by omega)⟩
    rw [hsame i hfrom hto]
    exact h
  · intro i hi hmore
    have hother := halike.next (show idx + n < s.tracks.length by omega)
    rw [show idx + n = i by omega] at hother
    rw [← home_iff, ← home_iff]
    cases hfirst : s.course.home idx <;> cases hnext : s.course.home i <;> simp_all

end PlaybackSession

/-! ### Runs within a session -/

namespace Course
variable {c c' : Course} {e : PlaybackSession.Event}

/-- The token is held, or will be renewed, only where all that is queued is at home; and no
answer is awaited that would open another session. -/
structure Guarded (c : Course) : Prop where
  settled : ∀ p ∈ c.inFlight, p.closure ≠ .play c.asked
  held : c.tape.header ≠ "" → ∀ entry ∈ c.tape.entries, c.home entry.track = true
  renewed : c.active = true → c.usesAuth = true → ∀ entry ∈ c.tape.entries, c.home entry.track = true

/-- All tracks of a playlist have the policy of the first one. -/
theorem Alike.entries {idx n : Nat} (h : c.Alike idx n) :
    ∀ entry ∈ (c.load idx n).tape.entries, c.home entry.track = c.home idx := by
  intro entry hentry
  obtain ⟨i, hi, rfl⟩ := List.mem_map.mp hentry
  obtain ⟨j, hj, rfl⟩ := List.mem_range'.mp hi
  rw [entry_track, one_mul]
  exact h.same j hj

theorem Guarded.loads (hsettled : ∀ p ∈ c.inFlight, p.closure ≠ .play c.asked) (hload : c.Loads c') :
    c'.Guarded := by
  cases hload with
  | load idx n halike =>
    refine ⟨hsettled, fun hheader entry hentry => ?_, fun _ huses entry hentry => ?_⟩
    · rw [load_header] at hheader
      rw [load_home, halike.entries entry hentry, hheader]
    · rw [load_usesAuth] at huses
      rw [load_home, halike.entries entry hentry, huses]

theorem Guarded.post (h : c.Guarded) {p : Post} (hp : ∀ gen, p.closure ≠ .play gen) : (c.post p).Guarded where
  settled := List.forall_mem_cons.mpr ⟨hp _, h.settled⟩
  held := h.held
  renewed := h.renewed

theorem Guarded.close (h : c.Guarded) (completed : Bool) : (c.close completed).Guarded where
  settled := h.settled
  held := h.held
  renewed := fun hopen => nomatch hopen

theorem Move.guarded (hmove : Move e c c') (hasks : e.asks c.server = none) (h : c.Guarded) :
    c'.Guarded := by
  cases hmove with
  | stop =>
    exact ⟨h.settled, (fun _ _ hentry => nomatch hentry), fun _ _ _ hentry => nomatch hentry⟩
  | sync p _ _ _ hp =>
    have hlapsed : Guarded {c with seekSyncTimer := none} := {h with}
    exact hlapsed.post hp.closure
  | close p _ _ _ hp => exact (h.close _).post hp.closure
  | abandon => exact h.close _
  | request p hsome => exact nomatch hasks.symm.trans hsome
  | jump q _ _ hload =>
    have hloaded := Guarded.loads h.settled hload
    exact {hloaded with}
  | reload _ _ hload => exact Guarded.loads h.settled hload
  | _ => exact {h with}

theorem Moves.guarded (hmoves : Moves e c c') (hasks : e.asks c.server = none) (h : c.Guarded) :
    c'.Guarded :=
  hmoves.preserves (fun hframe hmove => hmove.guarded (hframe.server.symm ▸ hasks)) h

/-- A new token is given to libmpv in place of the old one only. -/
theorem Guarded.accessToken (h : c.Guarded) (token : String) :
    Guarded {c with
      accessToken := token
      tape := if c.active && c.usesAuth then {c.tape with header := "Authorization: Bearer " ++ token}
        else c.tape} := by
  by_cases hrenew : (c.active && c.usesAuth) = true
  · rw [if_pos hrenew]
    obtain ⟨hactive, huses⟩ := Bool.and_eq_true_iff.mp hrenew
    exact ⟨h.settled, fun _ => h.renewed hactive huses, h.renewed⟩
  · rw [if_neg hrenew]
    exact {h with}

end Course

namespace PlaybackSession

/-- No other book is asked for, and the base URL stays. -/
def Event.within : Event → Bool
  | .playItem _ | .playEpisode _ _ | .baseUrl _ => false
  | _ => true

theorem Event.within_asks {e : Event} (h : e.within = true) (server : Endpoints) : e.asks server = none := by
  cases e <;> first | rfl | cases h

end PlaybackSession

theorem Course.Step.guarded {c c' : Course} {e : PlaybackSession.Event} (hstep : c.Step e c')
    (hwithin : e.within = true) (h : c.Guarded) : c'.Guarded := by
  cases hstep with
  | moves hmoves => exact hmoves.guarded (PlaybackSession.Event.within_asks hwithin _) h
  | tick => exact {h with}
  | accessToken token => exact h.accessToken token
  | baseUrl => cases hwithin
  | dropped rest hsub => exact {h with settled := fun p hp => h.settled p (hsub.mem hp)}
  | unusable hpick hp => exact absurd hp (h.settled _ (pick_mem hpick))
  | opened _ hpick hp => exact absurd hp (h.settled _ (pick_mem hpick))

namespace PlaybackSession

/-- libmpv holds no token together with a track of another origin. -/
def Held (s : PlaybackSession) : Prop :=
  s.mpv.tape.header ≠ "" → ∀ entry ∈ s.mpv.tape.entries, s.Home entry.track

instance (s : PlaybackSession) : Decidable s.Held := inferInstanceAs (Decidable (_ → _))

theorem guarded_keeps :
    Machine.Keeps machine (fun _ e => e.within = true) fun s => s.Steady ∧ s.course.Guarded where
  step _ e hs he :=
    ⟨hs.1.next e, (hs.1.step e).guarded he {hs.2 with}⟩

/-- A session that has just been opened. -/
theorem Steady.opened {s : PlaybackSession} (h : s.Steady) {e : Event}
    (hopens : (machine.step s e).opens = true) : (machine.step s e).course.Guarded := by
  have hanswered := (h.next e).asked.answered
  have hstep := h.step e
  change (machine.step s e).course.active = true →
    ∀ p ∈ (machine.step s e).course.inFlight, p.closure ≠ .play (machine.step s e).course.asked at hanswered
  rw [← opens_course] at hopens
  generalize (machine.step s e).course = c at *
  cases hstep with
  | moves hmoves => exact nomatch (hmoves.opens rfl).symm.trans hopens
  | tick | accessToken | baseUrl | dropped | unusable => cases hopens
  | opened _ _ _ _ _ hload =>
    cases hload with
    | load idx n halike =>
      refine Course.Guarded.loads ?_ (Course.Loads.load idx n halike)
      exact hanswered rfl

theorem opened_guarded (env : Env) (server : Endpoints) (before : List Event)
    (hopens : (machine.run {env, server} before).opens = true) :
    (machine.run {env, server} before).Steady ∧ (machine.run {env, server} before).course.Guarded := by
  refine ⟨steady_run env server before, ?_⟩
  obtain rfl | ⟨init, e, rfl⟩ := before.eq_nil_or_concat
  · cases hopens
  · rw [List.concat_eq_append, Machine.run_append] at hopens ⊢
    exact (steady_run env server init).opened hopens

/-- **The bearer token stays at home.** What is loaded is the tracks from the one picked
to the last one queued, with the token if and only if all of them lie on the origin of
the base URL and without it if and only if none does, and the next track is of the other
kind. From a session that has just been opened on, in every run in which no other book is
asked for and the base URL stays, libmpv never holds the token while a track of another
origin is in its playlist. -/
theorem bearer_stays_home (env : Env) (server : Endpoints) (before after : List Event) :
    (∀ (s : PlaybackSession) (q : Rat) (autoplay : Bool) (idx : Nat), s.trackIndexForGlobal q = idx →
      Sorts s idx (s.loadTrackForGlobal q autoplay)) ∧
    ((machine.run {env, server} before).opens = true → (∀ e ∈ after, e.within = true) →
      (machine.run (machine.run {env, server} before) after).Held) := by
  refine ⟨fun s q autoplay idx hidx => loadTrack_sorts s q autoplay hidx, fun hopens hafter => ?_⟩
  have hstart := opened_guarded env server before hopens
  have hkept := guarded_keeps.run hstart (Machine.along_of_mem hafter _)
  exact fun hheader entry hentry => (home_iff _ _).mp (hkept.2.held hheader entry hentry)

/-- Two tracks at home, one abroad, and one at home again. -/
def mixedBook : Json :=
  .object [("id", .string "s1"), ("duration", .number 40), ("audioTracks", .array
    [sampleTrack "https://abs" 0, sampleTrack "https://abs" 10, sampleTrack "https://c" 20,
      sampleTrack "https://abs" 30])]

def mixedOpened : List Event := [.playItem "book", .reply 0 ⟨200, true, false, mixedBook, "", none⟩]

/-- Into the second track, a new token, on to the track abroad, another token, and back. -/
def mixedRun : List Event :=
  [.mpv (.endFile .eof), .accessToken "new", .mpv (.endFile .eof), .accessToken "newer", .seekGlobal 5,
    .seekGlobal 35, .accessToken "newest"]

theorem bearer_stays_home_mixed :
    let s := machine.run samplePlayer mixedOpened
    Sorts s 1 (s.loadTrackForGlobal 12 true) ∧ (machine.run s mixedRun).Held ∧
      (machine.run s mixedRun).mpv.tape.header = "Authorization: Bearer newest" ∧
      (machine.run s (mixedRun.take 4)).mpv.tape.header = "" :=
  have h := bearer_stays_home _ sampleServer mixedOpened mixedRun
  ⟨h.1 _ 12 true 1 (by decide +kernel), h.2 (by decide +kernel) (by decide +kernel), by decide +kernel,
    by decide +kernel⟩

end PlaybackSession

end ShelfRemote.Player
