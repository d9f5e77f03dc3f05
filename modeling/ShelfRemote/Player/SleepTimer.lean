import ShelfRemote.Player.Pulse

/-! The sleep timer measures listening.

The time left is in a timer that runs or in a value that is held, and the two swap with
every report. `Mode` says which of the six fields are set in any reachable state.
`sleep_timer_measures` follows a countdown from the moment it is set: what is left and what
was listened to always add up, but for a millisecond each time a countdown held at nothing
is started again. -/
namespace ShelfRemote.Player
open Qt Net Runs

namespace Hearing

/-! ### One mode at a time -/

/-- The sleep timer is off, counts minutes, or waits for the end of a chapter. -/
inductive Mode (h : Hearing) : Prop where
  | off (hsleep : h.sleep = {})
  | counting (timer : Option Nat) (minutes remainingMs : Int) (hactive : h.active = true) (hminutes : 0 < minutes)
      (hruns : timer.isSome = h.playing)
      (hsleep : h.sleep = {timer, tick := timer.isSome, minutes, remainingMs})
  | waiting (chapterEnd : Rat) (hactive : h.active = true) (hsleep : h.sleep = {atChapterEnd := true, chapterEnd})

variable {h h' : Hearing} {e : PlaybackSession.Event}

/-- A mode that is on needs the session to be open. -/
theorem Mode.idle (hmode : h.Mode) (hidle : h.active = false) : h.sleep = {} := by
  cases hmode with
  | off hsleep => exact hsleep
  | counting _ _ _ hactive => exact nomatch hidle.symm.trans hactive
  | waiting _ hactive => exact nomatch hidle.symm.trans hactive

/-- A mode is about these fields only. -/
theorem Mode.same (hmode : h.Mode) (hactive : h'.active = h.active) (hplaying : h'.playing = h.playing)
    (hsleep : h'.sleep = h.sleep) : h'.Mode := by
  cases hmode with
  | off hoff => exact .off (hsleep.trans hoff)
  | counting timer minutes remainingMs hopen hminutes hruns hcounts =>
    exact .counting timer minutes remainingMs (hactive.trans hopen) hminutes (hruns.trans hplaying.symm)
      (hsleep.trans hcounts)
  | waiting chapterEnd hopen hwaits => exact .waiting chapterEnd (hactive.trans hopen) (hsleep.trans hwaits)

theorem resume_off {h : Hearing} (hsleep : h.sleep = {}) : h.resume = h := if_pos (.inl (by simp [hsleep]))

theorem hold_off (hsleep : h.sleep.timer = none) : h.hold = h := by
  unfold hold
  rw [hsleep]

/-- A countdown is started with what is left of it, and a millisecond at least. -/
theorem resume_counting (hminutes : 0 < h.sleep.minutes) (htimer : h.sleep.timer = none) :
    h.resume = {h with sleep := {h.sleep with
      timer := some (h.now + (PlaybackSession.toInt (max 1 h.sleep.remainingMs)).toNat)
      tick := true}} :=
  if_neg (by simp [htimer, hminutes])

theorem resume_running {due : Nat} (htimer : h.sleep.timer = some due) : h.resume = h := if_pos (.inr (by simp [htimer]))

theorem hold_running {h : Hearing} {d : Nat} (htimer : h.sleep.timer = some d) :
    h.hold = {h with sleep := {h.sleep with remainingMs := ↑(d - h.now), timer := none, tick := false}} := by
  unfold hold
  rw [htimer]

/-- No minutes are no timer. -/
theorem setTimer_off (h : Hearing) {minutes : Int} (hminutes : minutes ≤ 0) : (h.setTimer minutes).sleep = {} := by
  have hnone : max 0 minutes = 0 := by omega
  unfold setTimer
  dsimp only
  rw [hnone]
  split_ifs
  · rfl
  · exact congrArg sleep (resume_off rfl)
  · rfl

/-- Minutes are counted from now on if audio plays, else from the next report on. -/
theorem setTimer_counting {minutes : Int} (hactive : h.active = true) (hminutes : 0 < minutes) :
    h.setTimer minutes = {h with sleep :=
      { timer := if h.playing then some (h.now + (PlaybackSession.toInt (minutes * 60 * 1000)).toNat) else none
        tick := h.playing
        minutes
        remainingMs := minutes * 60 * 1000 }} := by
  have hmax : max 0 minutes = minutes := by omega
  have hleft : max 1 (minutes * 60 * 1000) = minutes * 60 * 1000 := by omega
  unfold setTimer
  rw [if_neg (by simp [hactive])]
  dsimp only
  rw [hmax]
  cases hplaying : h.playing
  · simp
  · simp only [if_true]
    rw [resume_counting hminutes rfl]
    dsimp only
    rw [hleft]

theorem setTimer_mode (h : Hearing) (minutes : Int) : (h.setTimer minutes).Mode := by
  by_cases hpos : 0 < minutes
  · by_cases hactive : h.active = true
    · rw [setTimer_counting hactive hpos]
      cases h.playing
      · exact .counting none minutes (minutes * 60 * 1000) hactive hpos rfl rfl
      · exact .counting (some _) minutes (minutes * 60 * 1000) hactive hpos rfl rfl
    · exact .off (by simp [setTimer, hactive, clear])
  · exact .off (setTimer_off h (by omega))

theorem setChapterEnd_mode (h : Hearing) : h.setChapterEnd.Mode := by
  unfold setChapterEnd
  split
  · next hopen => exact .waiting _ hopen.1 rfl
  · exact .off rfl

theorem Mode.seek (hmode : h.Mode) (q : Rat) : (h.seek q).Mode := by
  cases hmode with
  | off hsleep => exact .off (by simp [Hearing.seek, hsleep])
  | counting timer minutes remainingMs hactive hminutes hruns hsleep =>
    exact .counting timer minutes remainingMs hactive hminutes hruns (by simp [Hearing.seek, hsleep])
  | waiting chapterEnd hactive hsleep =>
    exact .waiting (h.chapterEndFor q) hactive (by simp [Hearing.seek, hsleep])

theorem Mode.update (hmode : h.Mode) (q : Rat) : (h.update q).Mode := by
  obtain ⟨signals, he⟩ := h.update_eq q
  rw [he]
  exact hmode.same rfl rfl rfl

theorem Sought.mode {q : Rat} (hsought : h.Sought q h') (hmode : h.Mode) : h'.Mode := by
  cases hsought with
  | stay => exact hmode.seek q
  | jump => exact (hmode.update q).seek q

/-- What stopped for the end of a chapter waits for nothing. -/
theorem Stopped.mode {q : Rat} (hstopped : h.Stopped q h') : h'.Mode := by
  have hhalted : (h.halt q).Mode := .off rfl
  cases hstopped with
  | within _ hsought => exact hsought.mode hhalted
  | last => exact hhalted

theorem Act.mode (hact : Act e h h') (hmode : h.Mode) : h'.Mode := by
  cases hact with
  | same => exact hmode
  | wait | press => exact hmode.same rfl rfl rfl
  | setTimer minutes => exact setTimer_mode h minutes
  | setChapterEnd => exact setChapterEnd_mode h
  | seek q _ _ hsought => exact hsought.mode hmode
  | hear q => exact Mode.update (h := {h with position := q}) (hmode.same rfl rfl rfl) q
  | stop q _ _ _ hstopped => exact hstopped.mode
  | turn q => exact hmode.update q
  | reload q => exact Mode.update (h := {h with paused := false}) (hmode.same rfl rfl rfl) q
  | close | expire => exact .off rfl

/-- A countdown runs on while audio plays. -/
theorem Mode.resume {g : Hearing} (hmode : h.Mode) (hactive : g.active = true) (hplaying : g.playing = true)
    (hsleep : g.sleep = h.sleep) : g.resume.Mode := by
  cases hmode with
  | off hoff =>
    rw [resume_off (hsleep.trans hoff)]
    exact .off (hsleep.trans hoff)
  | waiting chapterEnd _ hwaits =>
    rw [show g.resume = g from if_pos (.inl (by simp [hsleep, hwaits]))]
    exact .waiting chapterEnd hactive (hsleep.trans hwaits)
  | counting timer minutes remainingMs _ hminutes _ hcounts =>
    rw [hcounts] at hsleep
    cases timer with
    | none =>
      rw [resume_counting (by simpa [hsleep] using hminutes) (by simp [hsleep]), hsleep]
      exact .counting (some _) minutes remainingMs hactive hminutes hplaying.symm rfl
    | some due =>
      rw [resume_running (show g.sleep.timer = some due by rw [hsleep])]
      exact .counting (some due) minutes remainingMs hactive hminutes hplaying.symm hsleep

/-- It is held while none does. -/
theorem Mode.hold {g : Hearing} (hmode : h.Mode) (hactive : g.active = true) (hplaying : g.playing = false)
    (hsleep : g.sleep = h.sleep) : g.hold.Mode := by
  cases hmode with
  | off hoff =>
    rw [hold_off (by simp [hsleep, hoff])]
    exact .off (hsleep.trans hoff)
  | waiting chapterEnd _ hwaits =>
    rw [hold_off (by simp [hsleep, hwaits])]
    exact .waiting chapterEnd hactive (hsleep.trans hwaits)
  | counting timer minutes remainingMs _ hminutes _ hcounts =>
    rw [hcounts] at hsleep
    cases timer with
    | none =>
      rw [hold_off (by simp [hsleep])]
      exact .counting none minutes remainingMs hactive hminutes hplaying.symm hsleep
    | some due =>
      rw [hold_running (show g.sleep.timer = some due by rw [hsleep]), hsleep]
      exact .counting none minutes _ hactive hminutes hplaying.symm rfl

theorem Mode.report (hmode : h.Mode) (playing : Bool) : (h.report playing).Mode := by
  unfold Hearing.report
  dsimp only
  split
  · next hidle => exact .off (hmode.idle (by simpa using hidle))
  · next hopen =>
    have hactive : h.active = true := by simpa using hopen
    cases playing
    · exact hmode.hold hactive rfl rfl
    · exact hmode.resume hactive rfl rfl

theorem Step.mode (hstep : Step e h h') (hmode : h.Mode) : h'.Mode := by
  cases hstep with
  | act hact => exact hact.mode hmode
  | report playing hact => exact (hact.mode hmode).report playing

end Hearing

/-! ### What a countdown adds up to -/

/-- What is counted while a countdown is on. -/
structure Tally where
  /-- The milliseconds that passed while the last report said playing. -/
  listened : Nat := 0
  /-- How often the countdown was held. -/
  holds : Nat := 0
  /-- How often it was held at nothing and started again with a millisecond. -/
  extra : Nat := 0

def Tally.follow (t : Tally) (h h' : Hearing) : Tally :=
  { listened := t.listened + if h.playing then h'.now - h.now else 0
    holds := t.holds + if h.sleep.timer.isSome && h'.sleep.timer.isNone then 1 else 0
    extra := t.extra + if h.sleep.timer.isNone && h'.sleep.timer.isSome && h.sleep.remainingMs == 0 then 1 else 0 }

namespace Hearing
variable {h h' : Hearing} {e : PlaybackSession.Event} {minutes : Int} {t : Tally} {ms : Nat}

/-- A countdown of so many minutes is on: it runs while audio plays and is held while none
does, and what is left and what was listened to add up. -/
inductive Counts (minutes : Int) (h : Hearing) (t : Tally) : Prop where
  | running (due : Nat) (remainingMs : Int) (hplaying : h.playing = true)
      (hsleep : h.sleep = {timer := some due, tick := true, minutes, remainingMs}) (hdue : h.now ≤ due)
      (hsum : ((due - h.now : Nat) : Int) + t.listened = 60000 * minutes + t.extra)
      (hleft : ((due - h.now : Nat) : Int) ≤ 60000 * minutes) (hspare : t.extra ≤ t.holds)
  | held (left : Nat) (hplaying : h.playing = false) (hsleep : h.sleep = {minutes, remainingMs := left})
      (hsum : (left : Int) + t.listened = 60000 * minutes + t.extra) (hleft : (left : Int) ≤ 60000 * minutes)
      (hspare : t.extra + (if left = 0 then 1 else 0) ≤ t.holds)

/-- An event that leaves the countdown alone; time may pass. -/
structure Rests (h h' : Hearing) (ms : Nat) : Prop where
  sleep : h'.sleep = h.sleep
  playing : h'.playing = h.playing
  reported : h'.reported = h.reported
  now : h'.now = h.now + ms

theorem Rests.follow (hrests : h.Rests h' ms) : t.follow h h' =
    {t with listened := t.listened + if h.playing then ms else 0} := by
  unfold Tally.follow
  rw [hrests.sleep, hrests.now, Nat.add_sub_cancel_left]
  cases h.sleep.timer <;> rfl

/-- Time that passes is listened to or not, and the sum stays. -/
theorem Counts.rest (hcounts : h.Counts minutes t) (hrests : h.Rests h' ms)
    (hideal : ∀ due ∈ h.sleep.timer, h.now + ms ≤ due) : h'.Counts minutes (t.follow h h') := by
  rw [hrests.follow]
  cases hcounts with
  | running due remainingMs hplaying hsleep hdue hsum hleft hspare =>
    have hbefore : h.now + ms ≤ due := hideal due (by simp [hsleep])
    have hnow := hrests.now
    refine .running due remainingMs (hrests.playing.trans hplaying) (hrests.sleep.trans hsleep) (by omega) ?_
      (by omega) hspare
    rw [if_pos hplaying]
    push_cast
    omega
  | held left hplaying hsleep hsum hleft hspare =>
    refine .held left (hrests.playing.trans hplaying) (hrests.sleep.trans hsleep) ?_ hleft hspare
    rw [if_neg (by simp [hplaying])]
    exact hsum

theorem toInt_fits {ms : Int} (hpos : 0 ≤ ms) (hfits : ms < 2 ^ 31) : PlaybackSession.toInt ms = ms := by
  unfold PlaybackSession.toInt
  exact Int.bmod_eq_of_le (by omega) (by omega)

theorem report_open (hactive : h.active = true) (playing : Bool) :
    h.report playing =
      if playing then ({h with playing, reported := playing, listening := playing, interval := playing} : Hearing).resume
      else ({h with playing, reported := playing, listening := playing, interval := playing} : Hearing).hold :=
  if_neg (by simp [hactive])

/-- A report swaps the timer that runs and the value that is held. -/
theorem Counts.report (hcounts : h.Counts minutes t) (hactive : h.active = true) (hpos : 1 ≤ minutes)
    (hfits : minutes ≤ 35791) (hcurrent : h.playing = h.reported) {playing : Bool} (hchange : playing ≠ h.reported) :
    (h.report playing).Counts minutes (t.follow h (h.report playing)) := by
  rw [report_open hactive]
  cases hcounts with
  | running due remainingMs hplaying hsleep hdue hsum hleft hspare =>
    obtain rfl : playing = false := by simpa [← hcurrent, hplaying] using hchange
    rw [if_neg Bool.false_ne_true, hold_running (d := due) (by simp [hsleep]), hsleep]
    have hfollow : t.follow h {h with
        playing := false
        reported := false
        listening := false
        interval := false
        sleep := {minutes, remainingMs := ↑(due - h.now)}} = {t with holds := t.holds + 1} := by
      simp [Tally.follow, hsleep]
    refine .held (due - h.now) rfl rfl ?_ hleft ?_
    · exact hfollow ▸ hsum
    · rw [hfollow]
      dsimp only
      split <;> omega
  | held left hplaying hsleep hsum hleft hspare =>
    obtain rfl : playing = true := by simpa [← hcurrent, hplaying] using hchange
    have hmax : (PlaybackSession.toInt (max 1 (left : Int))).toNat = max 1 left := by
      rw [toInt_fits]
      all_goals omega
    rw [if_pos rfl, resume_counting (by simp [hsleep]; omega) (by simp [hsleep]), hsleep]
    dsimp only
    rw [hmax]
    have hfollow : t.follow h {h with
        playing := true
        reported := true
        listening := true
        interval := true
        sleep := {timer := some (h.now + max 1 left), tick := true, minutes, remainingMs := left}} =
          {t with extra := t.extra + if left = 0 then 1 else 0} := by
      simp [Tally.follow, hsleep]
    rw [hfollow]
    refine .running (h.now + max 1 left) left rfl rfl ?_ ?_ ?_ hspare
    · exact Nat.le_add_right _ _
    · dsimp only
      split <;> omega
    · dsimp only
      omega

theorem report_clock (h : Hearing) (playing : Bool) :
    (h.report playing).active = h.active ∧ (h.report playing).now = h.now := by
  unfold report resume hold
  dsimp only
  split_ifs
  · exact ⟨rfl, rfl⟩
  · exact ⟨rfl, rfl⟩
  · exact ⟨rfl, rfl⟩
  · split <;> exact ⟨rfl, rfl⟩

theorem Rests.follow_trans {h'' : Hearing} (hrests : h.Rests h' ms) (hnow : h''.now = h'.now) :
    t.follow h h'' = (t.follow h h').follow h' h'' := by
  rw [hrests.follow]
  unfold Tally.follow
  rw [hrests.sleep, hrests.playing, hnow, hrests.now, Nat.sub_self, Nat.add_sub_cancel_left, ite_self]
  rfl

/-- What may be left alone while the countdown is on and the session open. -/
theorem Act.rests (hact : Act e h h') (hat : h.sleep.atChapterEnd = false) (hsets : e.sets = false)
    (hfires : e ≠ .sleepTimeout) (hactive : h'.active = true) :
    ∃ ms, h.Rests h' ms ∧ (ms = 0 ∨ e = .tick ms) := by
  have hseek : ∀ (g : Hearing) (q : Rat), g.sleep.atChapterEnd = false → (g.seek q).sleep = g.sleep := by
    intro g q hg
    simp [Hearing.seek, hg]
  cases hact with
  | same => exact ⟨0, ⟨rfl, rfl, rfl, rfl⟩, .inl rfl⟩
  | press => exact ⟨0, ⟨rfl, rfl, rfl, rfl⟩, .inl rfl⟩
  | wait ms he => exact ⟨ms, ⟨rfl, rfl, rfl, rfl⟩, .inr he⟩
  | setTimer _ he => exact nomatch hsets.symm.trans he
  | setChapterEnd he => exact nomatch hsets.symm.trans he
  | seek q _ _ hsought =>
    cases hsought with
    | stay => exact ⟨0, ⟨hseek h q hat, rfl, rfl, rfl⟩, .inl rfl⟩
    | jump =>
      obtain ⟨signals, he⟩ := h.update_eq q
      rw [he]
      exact ⟨0, ⟨hseek _ q hat, rfl, rfl, rfl⟩, .inl rfl⟩
  | hear q =>
    unfold Hearing.hear
    obtain ⟨signals, he⟩ := update_eq {h with position := q} q
    rw [he]
    exact ⟨0, ⟨rfl, rfl, rfl, rfl⟩, .inl rfl⟩
  | stop _ _ _ hreach => exact nomatch hat.symm.trans hreach.1
  | turn q =>
    obtain ⟨signals, he⟩ := h.update_eq q
    rw [he]
    exact ⟨0, ⟨rfl, rfl, rfl, rfl⟩, .inl rfl⟩
  | reload q =>
    obtain ⟨signals, he⟩ := update_eq {h with paused := false} q
    rw [he]
    exact ⟨0, ⟨rfl, rfl, rfl, rfl⟩, .inl rfl⟩
  | close => exact nomatch hactive
  | expire he => exact absurd he hfires

theorem Counts.same (hcounts : h.Counts minutes t) (hsleep : h'.sleep = h.sleep) (hplaying : h'.playing = h.playing)
    (hnow : h'.now = h.now) : h'.Counts minutes t := by
  cases hcounts with
  | running due remainingMs hplays hruns hdue hsum hleft hspare =>
    rw [← hnow] at hdue hsum hleft
    exact .running due remainingMs (hplaying.trans hplays) (hsleep.trans hruns) hdue hsum hleft hspare
  | held left hquiet hheld hsum hleft hspare =>
    exact .held left (hplaying.trans hquiet) (hsleep.trans hheld) hsum hleft hspare

theorem Counts.runs (hcounts : h.Counts minutes t) : h.sleep.timer.isSome = h.playing := by
  cases hcounts with
  | running _ _ hplaying hsleep => rw [hsleep, hplaying]; rfl
  | held _ hplaying hsleep => rw [hsleep, hplaying]; rfl

theorem Counts.minutes_eq (hcounts : h.Counts minutes t) : h.sleep.minutes = minutes := by
  cases hcounts with
  | running _ _ _ hsleep => rw [hsleep]
  | held _ _ hsleep => rw [hsleep]

theorem Counts.spare (hcounts : h.Counts minutes t) : t.extra ≤ t.holds := by
  cases hcounts with
  | running _ _ _ _ _ _ _ hspare => exact hspare
  | held _ _ _ _ _ hspare => omega

theorem Counts.atChapterEnd (hcounts : h.Counts minutes t) : h.sleep.atChapterEnd = false := by
  cases hcounts with
  | running _ _ _ hsleep => rw [hsleep]
  | held _ _ hsleep => rw [hsleep]

theorem report_off (hsleep : h.sleep = {}) (playing : Bool) : (h.report playing).sleep = {} := by
  have hswap : ∀ g : Hearing, g.sleep = {} → g.resume.sleep = {} ∧ g.hold.sleep = {} := by
    intro g hg
    rw [resume_off hg, hold_off (congrArg Sleep.timer hg)]
    exact ⟨hg, hg⟩
  unfold report
  dsimp only
  split_ifs
  · exact hsleep
  · refine (hswap _ ?_).1
    exact hsleep
  · refine (hswap _ ?_).2
    exact hsleep

/-- Nothing sets a timer that is off. -/
theorem Step.off (hstep : Step e h h') (hsleep : h.sleep = {}) (hsets : e.sets = false)
    (hfires : e ≠ .sleepTimeout) (hactive : h'.active = true) : h'.sleep = {} := by
  have hrest : ∀ {g : Hearing}, Act e h g → g.active = true → g.sleep = {} := by
    intro g hact hopen
    obtain ⟨ms, hrests, -⟩ := hact.rests (by simp [hsleep]) hsets hfires hopen
    exact hrests.sleep.trans hsleep
  cases hstep with
  | act hact => exact hrest hact hactive
  | report playing hact =>
    rw [(report_clock _ _).1] at hactive
    exact report_off (hrest hact hactive) playing

/-- Until its timer fires a countdown stays on, and what it adds up to is kept. -/
theorem Step.counts (hstep : Step e h h') (hcounts : h.Counts minutes t) (hpos : 1 ≤ minutes)
    (hfits : minutes ≤ 35791) (hcurrent : h.playing = h.reported) (hsets : e.sets = false)
    (hfires : e ≠ .sleepTimeout) (hactive : h'.active = true)
    (hideal : ∀ ms, e = .tick ms → ∀ due ∈ h.sleep.timer, h.now + ms ≤ due) :
    h'.Counts minutes (t.follow h h') := by
  have hrest : ∀ {g : Hearing}, Act e h g → g.active = true →
      ∃ ms, h.Rests g ms ∧ g.Counts minutes (t.follow h g) := by
    intro g hact hopen
    obtain ⟨ms, hrests, hpassed⟩ := hact.rests hcounts.atChapterEnd hsets hfires hopen
    refine ⟨ms, hrests, hcounts.rest hrests ?_⟩
    obtain rfl | he := hpassed
    · intro due hdue
      cases hcounts with
      | running due' _ _ hsleep hbefore =>
        obtain rfl : due' = due := by simpa [hsleep] using hdue
        exact hbefore
      | held _ _ hsleep => simp [hsleep] at hdue
    · exact hideal ms he
  cases hstep with
  | act hact =>
    obtain ⟨ms, -, hkept⟩ := hrest hact hactive
    exact hkept
  | report playing hact hchange =>
    rw [(report_clock _ _).1] at hactive
    obtain ⟨ms, hrests, hkept⟩ := hrest hact hactive
    rw [hrests.follow_trans (report_clock _ _).2]
    exact hkept.report hactive hpos hfits
      (hrests.playing.trans (hcurrent.trans hrests.reported.symm)) hchange

end Hearing

/-! ### Runs with a countdown -/

namespace PlaybackSession

/-- Nothing of either mode is left. -/
structure Unset (s : PlaybackSession) : Prop where
  timer : s.sleepTimer = none
  tick : s.sleepTick = false
  minutes : s.sleepMinutes = 0
  remainingMs : s.sleepRemainingMs = 0
  atChapterEnd : s.sleepAtChapterEnd = false
  chapterEnd : s.sleepChapterEnd = 0

theorem unset_iff (s : PlaybackSession) : s.Unset ↔ s.hearing.sleep = {} := by
  constructor
  · intro h
    simp only [hearing, h.timer, h.tick, h.minutes, h.remainingMs, h.atChapterEnd, h.chapterEnd]
  · intro h
    exact ⟨congrArg Sleep.timer h, congrArg Sleep.tick h, congrArg Sleep.minutes h, congrArg Sleep.remainingMs h,
      congrArg Sleep.atChapterEnd h, congrArg Sleep.chapterEnd h⟩

/-- How much time passes. -/
def Event.lasts : Event → Nat
  | .tick ms => ms
  | _ => 0

def Event.fires : Event → Bool
  | .sleepTimeout => true
  | _ => false

theorem Event.fires_eq {e : Event} (h : e.fires = true) : e = .sleepTimeout := by
  unfold fires at h
  split at h
  · rfl
  · cases h

/-- Timers are ideal: time does not pass the moment a timer is due without it firing, and it
does not fire before. -/
def Ideal (s : PlaybackSession) (e : Event) : Prop :=
  (∀ due ∈ s.sleepTimer, s.now + e.lasts ≤ due) ∧ (e.fires = true → ∃ due ∈ s.sleepTimer, due ≤ s.now)

instance (s : PlaybackSession) (e : Event) : Decidable (s.Ideal e) := inferInstanceAs (Decidable (_ ∧ (_ → _)))

/-- Timers are ideal, the session stays open, and the sleep timer is not set again. -/
def Dozes (s : PlaybackSession) (e : Event) : Prop :=
  s.Ideal e ∧ (machine.step s e).active = true ∧ e.sets = false

instance (s : PlaybackSession) (e : Event) : Decidable (s.Dozes e) := inferInstanceAs (Decidable (_ ∧ _ ∧ _))

/-- The timer fires, if it runs, and leaves nothing. -/
theorem expire_hearing (s : PlaybackSession) :
    (machine.step s .sleepTimeout).hearing =
      if s.sleepTimer.isSome then {s.hearing.expire with signals := []} else {s.hearing with signals := []} :=
  onSleepTimeout_hearing s.fresh

/-- A session, what was counted since its sleep timer was set, and whether that ran out. -/
structure Nap where
  session : PlaybackSession
  tally : Tally := {}
  expired : Bool := false

namespace Nap

/-- Nothing is counted any more once the countdown has run out. -/
def step (n : Nap) (e : Event) : Nap :=
  let s := machine.step n.session e
  let expired := n.expired || e.fires && n.session.sleepTimer.isSome
  { session := s
    tally := if expired then n.tally else n.tally.follow n.session.hearing s.hearing
    expired }

/-- The milliseconds still to be listened to. -/
def left (n : Nap) (minutes : Int) : Int := 60000 * minutes + n.tally.extra - n.tally.listened

/-- What a countdown of so many minutes keeps. -/
structure Kept (minutes : Int) (n : Nap) : Prop where
  followed : n.session.Followed
  stays : n.session.active = true
  counts : n.expired = false → n.session.hearing.Counts minutes n.tally
  done : n.expired = true → n.session.hearing.sleep = {} ∧ n.left minutes = 0 ∧ n.tally.extra ≤ n.tally.holds

variable {n : Nap} {minutes : Int}

/-- When time may pass, and when the timer may fire. -/
theorem Kept.ideal (h : n.Kept minutes) (hexpired : n.expired = false) (e : Event) :
    n.session.Ideal e ↔ (n.session.playing = true → e.lasts ≤ n.left minutes) ∧
      (e.fires = true → n.session.playing = true ∧ n.left minutes = 0) := by
  unfold Ideal left
  cases h.counts hexpired with
  | running due _ hplaying hsleep hdue hsum =>
    have hplays : n.session.playing = true := hplaying
    have htimer : n.session.sleepTimer = some due := congrArg Sleep.timer hsleep
    have hnow : n.session.now ≤ due := hdue
    have hleft : ((due - n.session.now : Nat) : Int) + n.tally.listened = 60000 * minutes + n.tally.extra := hsum
    simp only [htimer, hplays, Option.mem_some_iff, forall_eq', exists_eq_left', true_imp_iff, true_and]
    refine and_congr ⟨fun h => by omega, fun h => by omega⟩ (imp_congr_right fun _ => ?_)
    exact ⟨fun h => by omega, fun h => by omega⟩
  | held _ hplaying hsleep =>
    have hquiet : n.session.playing = false := hplaying
    have htimer : n.session.sleepTimer = none := congrArg Sleep.timer hsleep
    simp [htimer, hquiet]

theorem Kept.step (h : n.Kept minutes) (hpos : 1 ≤ minutes) (hfits : minutes ≤ 35791) {e : Event}
    (hdozes : n.session.Dozes e) : (n.step e).Kept minutes := by
  obtain ⟨hideal, hactive, hsets⟩ := hdozes
  have hreads : n.session.response e = none := h.followed.steady.response_none h.stays e
  have hstep := h.followed.steady.hearing hreads
  cases hexpired : n.expired
  · cases hfires : e.fires
    · -- The countdown stays on.
      have hcounts : ({n.session.hearing with signals := []} : Hearing).Counts minutes n.tally :=
        (h.counts hexpired).same rfl rfl rfl
      have hnext := hstep.counts hcounts hpos hfits h.followed.current.playing hsets
        (fun he => by simp [he, Event.fires] at hfires) hactive (fun ms he => by subst he; exact hideal.1)
      have he : n.step e = ⟨machine.step n.session e,
          n.tally.follow n.session.hearing (machine.step n.session e).hearing, false⟩ := by
        simp [Nap.step, hexpired, hfires]
      rw [he]
      exact ⟨h.followed.next e, hactive, fun _ => hnext, fun hdone => nomatch hdone⟩
    · -- The timer fires.
      obtain rfl := Event.fires_eq hfires
      obtain ⟨hplaying, hleft⟩ := ((h.ideal hexpired _).mp hideal).2 hfires
      have hruns : n.session.sleepTimer.isSome = true := (h.counts hexpired).runs.trans hplaying
      have he : n.step .sleepTimeout = ⟨machine.step n.session .sleepTimeout, n.tally, true⟩ := by
        simp [Nap.step, Event.fires, hruns]
      have hoff := expire_hearing n.session
      rw [if_pos hruns] at hoff
      rw [he]
      exact ⟨h.followed.next .sleepTimeout, hactive, fun hcounting => (nomatch hcounting),
        fun _ => ⟨congrArg Hearing.sleep hoff, hleft, (h.counts hexpired).spare⟩⟩
  · -- Nothing is left to fire.
    obtain ⟨hoff, hrest⟩ := h.done hexpired
    have he : n.step e = ⟨machine.step n.session e, n.tally, true⟩ := by simp [Nap.step, hexpired]
    rw [he]
    refine ⟨h.followed.next e, hactive, fun hcounting => (nomatch hcounting), fun _ => ⟨?_, hrest⟩⟩
    refine hstep.off hoff hsets (fun hfires => ?_) hactive
    subst hfires
    obtain ⟨due, hdue, -⟩ := hideal.2 rfl
    have hnone : n.session.sleepTimer = none := congrArg Sleep.timer hoff
    simp [hnone] at hdue

/-- The countdown that is set. -/
theorem setSleepTimer_kept {s : PlaybackSession} (h : s.Followed) (hactive : s.active = true) (hpos : 1 ≤ minutes)
    (hfits : minutes ≤ 35791) : Kept minutes {session := machine.step s (.setSleepTimer minutes)} := by
  have he : (machine.step s (.setSleepTimer minutes)).hearing = _ :=
    (setSleepTimer_hearing s.fresh minutes).trans (Hearing.setTimer_counting hactive hpos)
  refine ⟨h.next (.setSleepTimer minutes), (congrArg Hearing.active he).trans hactive, fun _ => ?_, fun hdone => nomatch hdone⟩
  have hms : Hearing.Counts minutes {s.fresh.hearing with sleep :=
      { timer := if s.playing then some (s.now + (minutes * 60 * 1000).toNat) else none
        tick := s.playing
        minutes
        remainingMs := minutes * 60 * 1000 }} {} := by
    cases hplaying : s.playing
    · refine .held (minutes * 60 * 1000).toNat hplaying ?_ ?_ ?_ ?_
      · simp only [Bool.false_eq_true, if_false, Sleep.mk.injEq, true_and, and_true]
        omega
      · dsimp only
        omega
      · omega
      · dsimp only
        split <;> omega
    · refine .running (s.now + (minutes * 60 * 1000).toNat) (minutes * 60 * 1000) hplaying ?_ ?_ ?_ ?_ le_rfl
      · simp
      · exact Nat.le_add_right _ _
      · show ((s.now + (minutes * 60 * 1000).toNat - s.now : Nat) : Int) + (0 : Nat) = _
        dsimp only
        omega
      · show ((s.now + (minutes * 60 * 1000).toNat - s.now : Nat) : Int) ≤ _
        omega
  rw [he, Hearing.toInt_fits (by omega) (by omega)]
  exact hms

end Nap

/-- Runs with a countdown. -/
def naps : Machine Nap Event := ⟨Nap.step⟩

theorem naps_keep {minutes : Int} (hpos : 1 ≤ minutes) (hfits : minutes ≤ 35791) :
    naps.Keeps (fun n e => n.session.Dozes e) (Nap.Kept minutes) :=
  ⟨fun _ _ hkept hdozes => hkept.step hpos hfits hdozes⟩

theorem next_mode {s : PlaybackSession} (h : s.Followed) (hmode : s.hearing.Mode) (e : Event) :
    (machine.step s e).hearing.Mode := by
  cases hreads : s.response e with
  | none => exact (h.steady.hearing hreads).mode (hmode.same rfl rfl rfl)
  | some obj =>
    obtain ⟨hidle, he⟩ := h.steady.reads hreads
    have hoff : s.hearing.sleep = {} := hmode.idle hidle
    rw [he]
    split
    · exact Hearing.Mode.update (h := {(s.readPlayResponse obj).hearing with
        active := true
        position := resumeAt obj
        listening := false
        paused := false
        signals := []}) (.off hoff) _
    · exact .off hoff

theorem modes_keep : machine.Keeps (fun _ _ => True) (fun s => s.Followed ∧ s.hearing.Mode) :=
  ⟨fun _ e hs _ => ⟨hs.1.next e, next_mode hs.1 hs.2 e⟩⟩

/-- Seconds are milliseconds rounded up. -/
def RoundsUp (ms seconds : Int) : Prop := ms ≤ 1000 * seconds ∧ 1000 * seconds < ms + 1000

theorem roundsUp_toInt {ms : Int} (hpos : 0 ≤ ms) (hfits : ms ≤ 60000 * 35791) :
    RoundsUp ms (toInt ((max 0 ms + 999) / 1000)) := by
  unfold RoundsUp
  rw [Hearing.toInt_fits (by omega) (by omega)]
  omega

/-- Whole seconds are what is left, rounded up. -/
theorem Nap.Kept.sleepRemaining {n : Nap} {minutes : Int} (h : n.Kept minutes) (hfits : minutes ≤ 35791) :
    RoundsUp (n.left minutes) n.session.sleepRemaining := by
  unfold PlaybackSession.sleepRemaining
  cases hexpired : n.expired
  · cases h.counts hexpired with
    | running due _ hplaying hsleep hdue hsum hleft =>
      have htimer : n.session.sleepTimer = some due := congrArg Sleep.timer hsleep
      have he : n.left minutes = ((due - n.session.now : Nat) : Int) := by
        show 60000 * minutes + n.tally.extra - n.tally.listened = ((due - n.session.hearing.now : Nat) : Int)
        omega
      rw [htimer, he]
      refine roundsUp_toInt (by omega) ?_
      show ((due - n.session.hearing.now : Nat) : Int) ≤ _
      omega
    | held left hplaying hsleep hsum hleft =>
      have htimer : n.session.sleepTimer = none := congrArg Sleep.timer hsleep
      have hremaining : n.session.sleepRemainingMs = left := congrArg Sleep.remainingMs hsleep
      have he : n.left minutes = left := by
        show 60000 * minutes + n.tally.extra - n.tally.listened = (left : Int)
        omega
      rw [htimer, hremaining, he]
      exact roundsUp_toInt (by omega) (by omega)
  · obtain ⟨hoff, hleft, -⟩ := h.done hexpired
    have hunset := (unset_iff n.session).mpr hoff
    rw [hunset.timer, hunset.remainingMs, hleft]
    exact roundsUp_toInt le_rfl (by omega)

theorem expire_off {s : PlaybackSession} (hruns : s.sleepTimer ≠ none) :
    (machine.step s .sleepTimeout).hearing.sleep = {} := by
  have he := expire_hearing s
  rw [if_pos (Option.isSome_iff_ne_none.mpr hruns)] at he
  exact congrArg Hearing.sleep he

theorem Nap.Kept.left_nonneg {n : Nap} {minutes : Int} (h : n.Kept minutes) (hexpired : n.expired = false) :
    0 ≤ n.left minutes := by
  unfold Nap.left
  cases h.counts hexpired with
  | running _ _ _ _ _ hsum => omega
  | held _ _ _ hsum => omega

/-- **The sleep timer measures listening.** In every reachable session minutes and the end of
a chapter are never waited for both, and a session that is closed, a timer that is set to no
minutes and one that runs out leave nothing of either. With ideal timers, from every
reachable session that is open: what is left and what was listened to add up to the minutes
set, but for a millisecond a hold at most; time passes only as far as something is left, and
the timer fires when nothing is, while audio plays. -/
theorem sleep_timer_measures (env : Env) (server : Endpoints) (es : List Event) :
    let s := machine.run {env, server} es
    ((s.sleepMinutes = 0 ∨ s.sleepAtChapterEnd = false) ∧ (s.active = false → s.Unset) ∧
      (∀ minutes ≤ 0, (machine.step s (.setSleepTimer minutes)).Unset) ∧
      (s.sleepTimer ≠ none → (machine.step s .sleepTimeout).Unset)) ∧
    ∀ minutes es', s.active = true → 1 ≤ minutes → minutes ≤ 35791 →
      naps.Along (fun n e => n.session.Dozes e) {session := machine.step s (.setSleepTimer minutes)} es' →
        let n := naps.run {session := machine.step s (.setSleepTimer minutes)} es'
        n.tally.extra ≤ n.tally.holds ∧ RoundsUp (n.left minutes) n.session.sleepRemaining ∧
        (n.expired = true → n.left minutes = 0 ∧ n.session.Unset) ∧
        (n.expired = false → n.session.sleepMinutes = minutes ∧ 0 ≤ n.left minutes ∧
          (∀ ms, n.session.Ideal (.tick ms) ↔ (n.session.playing = true → ms ≤ n.left minutes)) ∧
          (n.session.Ideal .sleepTimeout ↔ n.session.playing = true ∧ n.left minutes = 0) ∧
          (n.session.Ideal .sleepTimeout → (naps.step n .sleepTimeout).expired = true ∧
            (machine.step n.session .sleepTimeout).Unset ∧
            (machine.step n.session .sleepTimeout).mpv.paused = true)) := by
  obtain ⟨hfollowed, hmode⟩ := modes_keep.always ⟨followed_start env server, .off rfl⟩ es
  dsimp only
  generalize machine.run {env, server} es = s at *
  refine ⟨⟨?_, fun hidle => (unset_iff s).mpr (hmode.idle hidle), fun minutes hnone => ?_, fun hruns => ?_⟩,
    fun minutes es' hactive hpos hfits hes' => ?_⟩
  · cases hmode with
    | off hsleep => exact .inr (congrArg Sleep.atChapterEnd hsleep)
    | counting _ _ _ _ _ _ hsleep => exact .inr (congrArg Sleep.atChapterEnd hsleep)
    | waiting _ _ hsleep => exact .inl (congrArg Sleep.minutes hsleep)
  · have he : (machine.step s (.setSleepTimer minutes)).hearing = _ := setSleepTimer_hearing s.fresh minutes
    exact (unset_iff _).mpr ((congrArg Hearing.sleep he).trans (Hearing.setTimer_off _ hnone))
  · exact (unset_iff _).mpr (expire_off hruns)
  · have hkept := (naps_keep hpos hfits).run (Nap.setSleepTimer_kept hfollowed hactive hpos hfits) hes'
    generalize naps.run {session := machine.step s (.setSleepTimer minutes)} es' = n at *
    have hspare : n.tally.extra ≤ n.tally.holds := by
      cases hexpired : n.expired
      · exact (hkept.counts hexpired).spare
      · exact (hkept.done hexpired).2.2
    refine ⟨hspare, hkept.sleepRemaining hfits, fun hexpired => ?_, fun hcounting => ?_⟩
    · obtain ⟨hoff, hleft, -⟩ := hkept.done hexpired
      exact ⟨hleft, (unset_iff _).mpr hoff⟩
    · have hideal := hkept.ideal hcounting
      refine ⟨(hkept.counts hcounting).minutes_eq, hkept.left_nonneg hcounting, fun ms => ?_, ?_, fun hfires => ?_⟩
      · exact (hideal (.tick ms)).trans (and_iff_left fun h => nomatch h)
      · refine (hideal .sleepTimeout).trans ⟨fun h => h.2 rfl, fun h => ⟨fun _ => ?_, fun _ => h⟩⟩
        rw [h.2]
        exact le_rfl
      · obtain ⟨due, hdue, -⟩ := hfires.2 rfl
        have hruns : n.session.sleepTimer ≠ none := by
          rw [Option.mem_def.mp hdue]
          exact Option.some_ne_none due
        have hexpire := expire_hearing n.session
        rw [if_pos (Option.isSome_iff_ne_none.mpr hruns)] at hexpire
        refine ⟨by simp [naps, Nap.step, Event.fires, Option.isSome_iff_ne_none.mpr hruns],
          (unset_iff _).mpr (expire_off hruns), ?_⟩
        have hpaused : (machine.step n.session .sleepTimeout).mpv.paused =
            (n.session.active || n.session.mpv.paused) := congrArg Hearing.paused hexpire
        rw [hpaused, hkept.stays, Bool.true_or]

/-- A book plays. -/
def dozing : List Event :=
  [.playItem "book", .reply 0 ⟨200, true, false, sampleBook, "", none⟩, .mpv (.coreIdle false)]

/-- Half a minute of listening, a pause, and half a minute more. -/
def night : List Event :=
  [.tick 30000, .mpv (.coreIdle true), .tick 5000, .mpv (.coreIdle false), .tick 30000, .sleepTimeout]

theorem sleep_timer_night :
    let n := naps.run {session := machine.step (machine.run samplePlayer dozing) (.setSleepTimer 1)} night
    n.tally.listened = 60000 ∧ n.tally.holds = 1 ∧ n.expired = true ∧ n.session.Unset ∧
      RoundsUp (n.left 1) n.session.sleepRemaining :=
  have h := (sleep_timer_measures _ sampleServer dozing).2 1 night (by decide +kernel) (by decide) (by decide)
    (by decide +kernel)
  ⟨by decide +kernel, by decide +kernel, by decide +kernel, (h.2.2.1 (by decide +kernel)).2, h.2.1⟩

end PlaybackSession

end ShelfRemote.Player
