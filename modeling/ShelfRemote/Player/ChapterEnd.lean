import ShelfRemote.Player.SleepTimer

/-! Sleep at the end of a chapter.

`chapterEndFor` looks for the end of the chapter a position is in, `chapterAt` for the
chapter, and the two agree. From the moment the mode is set the end waited for is that of
the last position sought; the first report that comes within a twentieth of a second of it
stops playback, steps back onto it and ends the mode. `chapter_end_stops` follows a run
through all of it. -/
namespace ShelfRemote.Player
open Qt Net Runs

/-- The position that was sought. -/
def Signal.target? : Signal → Option Rat
  | .seeked q => some q
  | .activeChanged .. | .positionChanged _ | .chapterChanged .. | .playbackError _ => none

namespace Hearing
variable {h h' : Hearing} {e : PlaybackSession.Event} {q : Rat}

/-! ### The end of a chapter -/

theorem chapterEnd_after (chapters : List Chapter) {q next : Rat} (hnext : q < next) :
    q < PlaybackSession.chapterEndFor.go q chapters next := by
  induction chapters generalizing next with
  | nil => exact hnext
  | cons c rest ih =>
    unfold PlaybackSession.chapterEndFor.go
    split
    · next hin => exact hin.2
    · apply ih
      split
      · next hlater => exact lt_min hnext hlater
      · exact hnext

/-- The end found is that of the first chapter that contains the position. -/
theorem chapterEnd_found {chapters : List Chapter} {c : Chapter}
    (hfound : chapters.find? (fun c => c.start ≤ q && q < c.stop) = some c) (next : Rat) :
    PlaybackSession.chapterEndFor.go q chapters next = c.stop := by
  induction chapters generalizing next with
  | nil => cases hfound
  | cons d rest ih =>
    unfold PlaybackSession.chapterEndFor.go
    rw [List.find?_cons] at hfound
    by_cases hin : d.start ≤ q ∧ q < d.stop
    · rw [if_pos hin]
      simp only [hin, decide_true, Bool.and_self, Option.some.injEq] at hfound
      rw [hfound]
    · rw [if_neg hin]
      have hout : (decide (d.start ≤ q) && decide (q < d.stop)) = false := by simpa using hin
      rw [hout] at hfound
      exact ih hfound _

/-- The chapter shown for a position and the end found for it are of one chapter. -/
theorem chapterEndFor_at (h : Hearing) {i : Nat} (hat : h.chapterAt q = i) :
    ∃ c, h.chapters[i]? = some c ∧ h.chapterEndFor q = c.stop := by
  unfold chapterAt at hat
  split at hat
  · next j hj =>
    obtain rfl : j = i := by omega
    obtain ⟨hlt, hin, hbefore⟩ := List.findIdx?_eq_some_iff_getElem.mp hj
    refine ⟨h.chapters[j], List.getElem?_eq_getElem hlt, chapterEnd_found ?_ _⟩
    refine List.find?_eq_some_iff_getElem.mpr ⟨hin, j, hlt, rfl, fun k hk => ?_⟩
    rw [Bool.not_eq_true', Bool.eq_false_iff]
    exact hbefore k hk
  · omega

/-! ### While the end is waited for -/

/-- Where the position was sought last. -/
def lastSought (signals : List Signal) (otherwise : Rat) : Rat :=
  ((signals.filterMap Signal.target?).getLast?).getD otherwise

/-- Nothing touches the book, the mode, the pause that is asked for or the position sought. -/
structure Undisturbed (h h' : Hearing) : Prop where
  active : h'.active = h.active
  duration : h'.duration = h.duration
  chapters : h'.chapters = h.chapters
  paused : h'.paused = h.paused
  sleep : h'.sleep = h.sleep
  targets : h'.signals.filterMap Signal.target? = h.signals.filterMap Signal.target?

theorem Undisturbed.refl (h : Hearing) : h.Undisturbed h := ⟨rfl, rfl, rfl, rfl, rfl, rfl⟩

theorem Undisturbed.trans {h'' : Hearing} (hcalm : h.Undisturbed h') (hcalm' : h'.Undisturbed h'') :
    h.Undisturbed h'' where
  active := hcalm'.active.trans hcalm.active
  duration := hcalm'.duration.trans hcalm.duration
  chapters := hcalm'.chapters.trans hcalm.chapters
  paused := hcalm'.paused.trans hcalm.paused
  sleep := hcalm'.sleep.trans hcalm.sleep
  targets := hcalm'.targets.trans hcalm.targets

theorem Undisturbed.chapterEndFor (hcalm : h.Undisturbed h') (q : Rat) : h'.chapterEndFor q = h.chapterEndFor q := by
  unfold Hearing.chapterEndFor
  rw [hcalm.duration, hcalm.chapters]

theorem update_undisturbed (h : Hearing) (q : Rat) : h.Undisturbed (h.update q) := by
  unfold update
  split
  · exact .refl h
  · exact ⟨rfl, rfl, rfl, rfl, rfl, by simp [Signal.target?]⟩

theorem hear_undisturbed (h : Hearing) (q : Rat) : h.Undisturbed (h.hear q) := by
  have hmoved : h.Undisturbed {h with position := q} := ⟨rfl, rfl, rfl, rfl, rfl, rfl⟩
  exact hmoved.trans (update_undisturbed _ q)

/-- With no minutes to count, a report leaves the sleep timer alone. -/
theorem report_undisturbed (hminutes : h.sleep.minutes = 0) (htimer : h.sleep.timer = none) (playing : Bool) :
    h.Undisturbed (h.report playing) := by
  have hswap : ∀ g : Hearing, h.Undisturbed g → h.Undisturbed g.resume ∧ h.Undisturbed g.hold := by
    intro g hcalm
    have hresume : g.resume = g := if_pos (.inl (by simp [hcalm.sleep, hminutes]))
    have hhold : g.hold = g := hold_off (by simp [hcalm.sleep, htimer])
    rw [hresume, hhold]
    exact ⟨hcalm, hcalm⟩
  unfold report
  dsimp only
  split_ifs
  · exact ⟨rfl, rfl, rfl, rfl, rfl, rfl⟩
  · refine (hswap _ ?_).1
    exact ⟨rfl, rfl, rfl, rfl, rfl, rfl⟩
  · refine (hswap _ ?_).2
    exact ⟨rfl, rfl, rfl, rfl, rfl, rfl⟩

/-- A position is sought, and nothing else happens. -/
def Seeks (h : Hearing) (q : Rat) (h' : Hearing) : Prop :=
  ∃ g, h.Undisturbed g ∧ (g.seek q).Undisturbed h'

theorem Sought.seeks (hsought : h.Sought q h') : h.Seeks q h' := by
  cases hsought with
  | stay => exact ⟨h, .refl h, .refl _⟩
  | jump => exact ⟨h.update q, update_undisturbed h q, .refl _⟩

theorem Act.calm (hact : Act e h h') (htimer : h.sleep.timer = none) (hsets : e.sets = false)
    (hends : e.ends = false) (hpresses : e.presses = false) (hhears : e.hears = false) (hactive : h'.active = true) :
    h.Undisturbed h' ∨ ∃ q, h.Seeks q h' := by
  cases hact with
  | same => exact .inl (.refl h)
  | wait => exact .inl ⟨rfl, rfl, rfl, rfl, rfl, rfl⟩
  | press _ he => exact nomatch hpresses.symm.trans he
  | setTimer _ he => exact nomatch hsets.symm.trans he
  | setChapterEnd he => exact nomatch hsets.symm.trans he
  | seek q _ _ hsought => exact .inr ⟨q, hsought.seeks⟩
  | hear _ he => exact nomatch hhears.symm.trans he
  | stop _ he => exact nomatch hhears.symm.trans he
  | turn _ he => exact nomatch hends.symm.trans he
  | reload _ he => exact nomatch hends.symm.trans he
  | close => exact nomatch hactive
  | expire _ hruns => exact absurd htimer hruns

theorem Step.calm (hstep : Step e h h') (hminutes : h.sleep.minutes = 0) (htimer : h.sleep.timer = none)
    (hsets : e.sets = false) (hends : e.ends = false) (hpresses : e.presses = false) (hhears : e.hears = false)
    (hactive : h'.active = true) : h.Undisturbed h' ∨ ∃ q, h.Seeks q h' := by
  cases hstep with
  | act hact => exact hact.calm htimer hsets hends hpresses hhears hactive
  | report playing hact =>
    rw [(report_clock _ _).1] at hactive
    obtain hcalm | ⟨q, g, hcalm, hcalm'⟩ := hact.calm htimer hsets hends hpresses hhears hactive
    · refine .inl (hcalm.trans (report_undisturbed ?_ ?_ playing))
      · rw [hcalm.sleep, hminutes]
      · rw [hcalm.sleep, htimer]
    · have hseek : (g.seek q).sleep.minutes = 0 ∧ (g.seek q).sleep.timer = none := by
        unfold seek
        dsimp only
        rw [hcalm.sleep]
        split <;> exact ⟨hminutes, htimer⟩
      refine .inr ⟨q, g, hcalm, hcalm'.trans (report_undisturbed ?_ ?_ playing)⟩
      · rw [hcalm'.sleep, hseek.1]
      · rw [hcalm'.sleep, hseek.2]

/-! ### Until it is reached, and after -/

/-- The end of the chapter the anchor is in is waited for. -/
structure Waits (h : Hearing) (anchor : Rat) : Prop where
  active : h.active = true
  sleep : h.sleep = {atChapterEnd := true, chapterEnd := h.chapterEndFor anchor}
  first : 0 ≤ anchor
  last : anchor < h.duration

/-- Playback has stopped for it. -/
structure Rested (h : Hearing) : Prop where
  active : h.active = true
  sleep : h.sleep = {}
  paused : h.paused = true

theorem Waits.undisturbed {anchor : Rat} (hwaits : h.Waits anchor) (hcalm : h.Undisturbed h') : h'.Waits anchor := by
  refine ⟨hcalm.active.trans hwaits.active, ?_, hwaits.first, ?_⟩
  · rw [hcalm.chapterEndFor]
    exact hcalm.sleep.trans hwaits.sleep
  · rw [hcalm.duration]
    exact hwaits.last

/-- The end waited for follows a seek. -/
theorem Waits.seek {anchor : Rat} (hwaits : h.Waits anchor) (hfirst : 0 ≤ q) (hlast : q < h.duration) :
    (h.seek q).Waits q := by
  refine ⟨hwaits.active, ?_, hfirst, hlast⟩
  unfold Hearing.seek
  rw [if_pos (by simp [hwaits.sleep]), hwaits.sleep]
  rfl

theorem Rested.undisturbed (hrested : h.Rested) (hcalm : h.Undisturbed h') : h'.Rested :=
  ⟨hcalm.active.trans hrested.active, hcalm.sleep.trans hrested.sleep, hcalm.paused.trans hrested.paused⟩

theorem Rested.seek (hrested : h.Rested) (q : Rat) : (h.seek q).Rested := by
  refine ⟨hrested.active, ?_, hrested.paused⟩
  unfold Hearing.seek
  rw [if_neg (by simp [hrested.sleep])]
  exact hrested.sleep

/-- What is left when playback stops for the end of the chapter. -/
theorem Stopped.rested {anchor : Rat} (hstopped : h.Stopped q h') (hwaits : h.Waits anchor) :
    h'.Rested ∧ h'.duration = h.duration ∧
      (h.chapterEndFor anchor < h.duration → h'.position = h.chapterEndFor anchor) := by
  have hhalted : (h.halt q).Rested := ⟨(update_active _ _).trans hwaits.active, rfl, rfl⟩
  have hduration : (h.halt q).duration = h.duration := update_duration _ _
  have hend : h.sleep.chapterEnd = h.chapterEndFor anchor := by rw [hwaits.sleep]
  cases hstopped with
  | within hbefore hsought =>
    have hafter : anchor < h.chapterEndFor anchor := chapterEnd_after h.chapters hwaits.last
    have haim : h.aim h.sleep.chapterEnd = h.chapterEndFor anchor := by
      unfold aim
      rw [min_eq_right hbefore.le, hend]
      exact max_eq_right (hwaits.first.trans hafter.le)
    rw [haim] at hsought
    cases hsought with
    | stay => exact ⟨hhalted.seek _, hduration, fun _ => rfl⟩
    | jump =>
      have hcalm := update_undisturbed (h.halt q) (h.chapterEndFor anchor)
      exact ⟨(hhalted.undisturbed hcalm).seek _, hcalm.duration.trans hduration, fun _ => rfl⟩
  | last hlast => exact ⟨hhalted, hduration, fun hbefore => absurd (hend ▸ hbefore) hlast⟩

end Hearing

/-! ### Runs with the mode set -/

namespace PlaybackSession
open Hearing (lastSought)

/-- A session, the position the mode was set at or that was sought since, and how often the
mode has ended. -/
structure Watch where
  session : PlaybackSession
  anchor : Rat
  stops : Nat := 0

namespace Watch

/-- The anchor follows the seeks until the mode has ended. -/
def step (w : Watch) (e : Event) : Watch :=
  let s := machine.step w.session e
  let stops := w.stops + if w.session.sleepAtChapterEnd && !s.sleepAtChapterEnd then 1 else 0
  {session := s, anchor := if stops = 0 then lastSought s.signals w.anchor else w.anchor, stops}

/-- Positions are sought within the book or reported; no file ends, nothing is closed or set,
and nobody else plays or pauses. -/
def Allows (w : Watch) (e : Event) : Prop :=
  e.sets = false ∧ e.ends = false ∧ e.presses = false ∧ (machine.step w.session e).active = true ∧
    ∀ q ∈ (machine.step w.session e).signals.filterMap Signal.target?, 0 ≤ q ∧ q < w.session.duration

instance (w : Watch) (e : Event) : Decidable (w.Allows e) := inferInstanceAs (Decidable (_ ∧ _ ∧ _ ∧ _ ∧ _))

/-- The end of the chapter the anchor is in. -/
def goal (w : Watch) : Rat := w.session.chapterEndFor w.anchor

/-- The position a report is about. -/
def report? (w : Watch) : Event → Option Rat
  | .mpv (.timePos place) => some (w.session.globalOf place)
  | _ => none

/-- A report within a twentieth of a second of the end, or beyond it. -/
def Reaches (w : Watch) (e : Event) : Prop := ∃ q ∈ w.report? e, w.goal - 1 / 20 ≤ q

instance (w : Watch) (e : Event) : Decidable (w.Reaches e) :=
  inferInstanceAs (Decidable (∃ q ∈ w.report? e, w.goal - 1 / 20 ≤ q))

/-- What is kept while the end is waited for, and after. -/
structure Kept (w : Watch) : Prop where
  steady : w.session.Steady
  first : 0 ≤ w.anchor
  last : w.anchor < w.session.duration
  once : w.stops ≤ 1
  waits : w.stops = 0 → w.session.hearing.Waits w.anchor
  rested : w.stops = 1 → w.session.hearing.Rested

/-- What an event does. -/
structure Follows (w : Watch) (e : Event) : Prop where
  kept : (w.step e).Kept
  stops : (w.step e).stops = if w.stops = 0 ∧ w.Reaches e then 1 else w.stops
  paused : (w.step e).session.mpv.paused = if w.stops = 0 ∧ w.Reaches e then true else w.session.mpv.paused
  lands : w.stops = 0 → w.Reaches e → w.goal < w.session.duration →
    (w.step e).session.globalPosition = w.goal

theorem targets_hearing (s : PlaybackSession) :
    s.hearing.signals.filterMap Signal.target? = s.signals.filterMap Signal.target? := by
  show (s.signals.filter Signal.heard).filterMap Signal.target? = _
  rw [List.filterMap_filter]
  congr 1
  funext signal
  cases signal <;> rfl

variable {w : Watch} {e : Event}

theorem Kept.stops_cases (h : w.Kept) : w.stops = 0 ∨ w.stops = 1 := by
  have honce := h.once
  omega

theorem Kept.active (h : w.Kept) : w.session.active = true := by
  obtain hnone | hone := h.stops_cases
  · exact (h.waits hnone).active
  · exact (h.rested hone).active

theorem Kept.waits_iff (h : w.Kept) : w.stops = 0 ↔ w.session.sleepAtChapterEnd = true := by
  obtain hnone | hone := h.stops_cases
  · exact iff_of_true hnone (congrArg Sleep.atChapterEnd (h.waits hnone).sleep)
  · have hoff : w.session.sleepAtChapterEnd = false := congrArg Sleep.atChapterEnd (h.rested hone).sleep
    simp [hone, hoff]

/-- No minutes are counted meanwhile. -/
theorem Kept.uncounted (h : w.Kept) :
    w.session.hearing.sleep.minutes = 0 ∧ w.session.hearing.sleep.timer = none := by
  obtain hnone | hone := h.stops_cases
  · rw [(h.waits hnone).sleep]
    exact ⟨rfl, rfl⟩
  · rw [(h.rested hone).sleep]
    exact ⟨rfl, rfl⟩

theorem step_waits (hnone : w.stops = 0) (hnext : (machine.step w.session e).sleepAtChapterEnd = true) :
    w.step e = ⟨machine.step w.session e, lastSought (machine.step w.session e).signals w.anchor, 0⟩ := by
  simp [step, hnone, hnext]

theorem step_stops (hnone : w.stops = 0) (hwaits : w.session.sleepAtChapterEnd = true)
    (hnext : (machine.step w.session e).sleepAtChapterEnd = false) :
    w.step e = ⟨machine.step w.session e, w.anchor, 1⟩ := by
  simp [step, hnone, hwaits, hnext]

theorem step_rests (hone : w.stops = 1) (hrested : w.session.sleepAtChapterEnd = false) :
    w.step e = ⟨machine.step w.session e, w.anchor, 1⟩ := by
  simp [step, hone, hrested]

/-- An event that stops nothing: the end waited for follows a seek. -/
theorem Kept.calm (h : w.Kept) (hallows : w.Allows e) (hreach : ¬(w.stops = 0 ∧ w.Reaches e))
    (hcalm : ({w.session.hearing with signals := []} : Hearing).Undisturbed (machine.step w.session e).hearing ∨
      ∃ q, ({w.session.hearing with signals := []} : Hearing).Seeks q (machine.step w.session e).hearing) :
    w.Follows e := by
  have hrange := hallows.2.2.2.2
  have htargets := targets_hearing (machine.step w.session e)
  have hnext := h.steady.next e
  obtain hnone | hone := h.stops_cases
  · have hwaits : ({w.session.hearing with signals := []} : Hearing).Waits w.anchor :=
      {h.waits hnone with}
    have hmoved : ∃ q, lastSought (machine.step w.session e).signals w.anchor = q ∧
        (machine.step w.session e).hearing.Waits q ∧
        (machine.step w.session e).hearing.paused = w.session.hearing.paused := by
      obtain hcalm | ⟨q, g, hcalm, hcalm'⟩ := hcalm
      · refine ⟨w.anchor, ?_, hwaits.undisturbed hcalm, hcalm.paused⟩
        unfold lastSought
        rw [← htargets, hcalm.targets]
        rfl
      · have hsought : (machine.step w.session e).signals.filterMap Signal.target? = [q] := by
          rw [← htargets, hcalm'.targets]
          unfold Hearing.seek
          rw [List.filterMap_append, hcalm.targets]
          rfl
        obtain ⟨hfirst, hlast⟩ := hrange q (by simp [hsought])
        refine ⟨q, ?_, ((hwaits.undisturbed hcalm).seek hfirst ?_).undisturbed hcalm', ?_⟩
        · unfold lastSought
          rw [hsought]
          rfl
        · rw [hcalm.duration]
          exact hlast
        · exact hcalm'.paused.trans hcalm.paused
    obtain ⟨q, hq, hkept, hpaused⟩ := hmoved
    have he := step_waits hnone (congrArg Sleep.atChapterEnd hkept.sleep)
    rw [hq] at he
    refine ⟨?_, ?_, ?_, fun _ hr => absurd ⟨hnone, hr⟩ hreach⟩
    · rw [he]
      exact ⟨hnext, hkept.first, hkept.last, Nat.zero_le 1, fun _ => hkept, fun hone => nomatch hone⟩
    · rw [he, if_neg hreach, hnone]
    · rw [he, if_neg hreach]
      exact hpaused
  · have hrested : ({w.session.hearing with signals := []} : Hearing).Rested := {h.rested hone with}
    have hoff : w.session.sleepAtChapterEnd = false := congrArg Sleep.atChapterEnd hrested.sleep
    have hmoved : (machine.step w.session e).hearing.Rested ∧
        (machine.step w.session e).hearing.duration = w.session.hearing.duration := by
      obtain hcalm | ⟨q, g, hcalm, hcalm'⟩ := hcalm
      · exact ⟨hrested.undisturbed hcalm, hcalm.duration⟩
      · exact ⟨((hrested.undisturbed hcalm).seek q).undisturbed hcalm', hcalm'.duration.trans hcalm.duration⟩
    obtain ⟨hkept, hduration⟩ := hmoved
    have he := step_rests (e := e) hone hoff
    refine ⟨?_, ?_, ?_, fun hnone => nomatch hone.symm.trans hnone⟩
    · rw [he]
      refine ⟨hnext, h.first, ?_, le_rfl, fun hnone => (nomatch hnone), fun _ => hkept⟩
      show w.anchor < (machine.step w.session e).hearing.duration
      rw [hduration]
      exact h.last
    · rw [he, if_neg hreach, hone]
    · rw [he, if_neg hreach]
      exact hkept.paused.trans hrested.paused.symm

/-- The report that reaches the end. -/
theorem Kept.stop (h : w.Kept) {place : Rat} (hnone : w.stops = 0)
    (hstopped : ({w.session.hearing with signals := []} : Hearing).Stopped (w.session.globalOf place)
      (machine.step w.session (.mpv (.timePos place))).hearing)
    (hreach : w.Reaches (.mpv (.timePos place))) : w.Follows (.mpv (.timePos place)) := by
  have hwaits : ({w.session.hearing with signals := []} : Hearing).Waits w.anchor := {h.waits hnone with}
  obtain ⟨hrested, hduration, hlands⟩ := hstopped.rested hwaits
  have he := step_stops hnone (congrArg Sleep.atChapterEnd hwaits.sleep) (congrArg Sleep.atChapterEnd hrested.sleep)
  refine ⟨?_, ?_, ?_, fun _ _ hbefore => ?_⟩
  · rw [he]
    refine ⟨h.steady.next (.mpv (.timePos place)), h.first, ?_, le_rfl, fun hnone => (nomatch hnone), fun _ => hrested⟩
    show w.anchor < (machine.step w.session (.mpv (.timePos place))).hearing.duration
    rw [hduration]
    exact h.last
  · rw [he, if_pos ⟨hnone, hreach⟩]
  · rw [he, if_pos ⟨hnone, hreach⟩]
    exact hrested.paused
  · rw [he]
    exact hlands hbefore

theorem Kept.follows (h : w.Kept) (hallows : w.Allows e) : w.Follows e := by
  have hactive := h.active
  cases hhears : e.hears
  · have hsilent : ¬(w.stops = 0 ∧ w.Reaches e) := by
      rintro ⟨-, q, hq, -⟩
      unfold report? at hq
      split at hq
      · cases hhears
      · cases hq
    have hreads : w.session.response e = none := h.steady.response_none hactive e
    obtain ⟨hsets, hends, hpresses, hstays, -⟩ := id hallows
    exact h.calm hallows hsilent ((h.steady.hearing hreads).calm h.uncounted.1 h.uncounted.2 hsets hends hpresses
      hhears hstays)
  · obtain ⟨place, rfl⟩ := Event.hears_eq hhears
    have hreaches : w.stops = 0 → (w.session.hearing.Reaches (w.session.globalOf place) ↔
        w.Reaches (.mpv (.timePos place))) := by
      intro hnone
      have hend : w.session.hearing.sleep.chapterEnd = w.goal := congrArg Sleep.chapterEnd (h.waits hnone).sleep
      have hat : w.session.hearing.sleep.atChapterEnd = true := congrArg Sleep.atChapterEnd (h.waits hnone).sleep
      unfold Hearing.Reaches Reaches
      rw [hend]
      exact ⟨fun hreach => ⟨_, rfl, hreach.2⟩, fun ⟨q, hq, hreach⟩ => ⟨hat, Option.some.inj hq ▸ hreach⟩⟩
    obtain ⟨hshort, he⟩ | ⟨hreach, hstopped⟩ := h.steady.hears hactive place
    · refine h.calm hallows (fun hstop => hshort ((hreaches hstop.1).mpr hstop.2)) (.inl ?_)
      rw [he]
      exact Hearing.hear_undisturbed _ _
    · obtain hnone | hone := h.stops_cases
      · exact h.stop hnone hstopped ((hreaches hnone).mp hreach)
      · have hoff : w.session.hearing.sleep.atChapterEnd = false := congrArg Sleep.atChapterEnd (h.rested hone).sleep
        exact nomatch hoff.symm.trans hreach.1

end Watch

/-- Runs with the mode set. -/
def watches : Machine Watch Event := ⟨Watch.step⟩

theorem watches_keep : watches.Keeps Watch.Allows Watch.Kept :=
  ⟨fun _ _ hkept hallows => (hkept.follows hallows).kept⟩

/-- The mode is set. -/
theorem setSleepAtChapterEnd_kept {s : PlaybackSession} (h : s.Steady) (hactive : s.active = true)
    (hchapters : s.chapters ≠ []) (hfirst : 0 ≤ s.globalPosition) (hlast : s.globalPosition < s.duration) :
    Watch.Kept {session := machine.step s .setSleepAtChapterEnd, anchor := s.globalPosition} := by
  have he : (machine.step s .setSleepAtChapterEnd).hearing =
      {s.hearing with
        sleep := {atChapterEnd := true, chapterEnd := s.hearing.chapterEndFor s.globalPosition}
        signals := []} :=
    (setSleepAtChapterEnd_hearing s.fresh).trans (if_pos ⟨hactive, hchapters⟩)
  refine ⟨h.next .setSleepAtChapterEnd, hfirst, ?_, Nat.zero_le 1, fun _ => ?_, fun hone => nomatch hone⟩
  · show s.globalPosition < (machine.step s .setSleepAtChapterEnd).hearing.duration
    rw [he]
    exact hlast
  · show (machine.step s .setSleepAtChapterEnd).hearing.Waits s.globalPosition
    rw [he]
    exact ⟨hactive, rfl, hfirst, hlast⟩

/-- **Sleep at the end of a chapter stops once, at the right boundary.** From every reachable
session that is open, has chapters and is within its book, at every moment of a run in which
positions are sought within the book or reported: the end waited for lies after the last
position sought, and is that of its chapter where it has one. The first report within a
twentieth of a second of it, or beyond, asks for a pause, ends the mode and steps back onto
the end; no other event does any of it. -/
theorem chapter_end_stops (env : Env) (server : Endpoints) (es es' : List Event) :
    let s := machine.run {env, server} es
    s.active = true → s.chapters ≠ [] → 0 ≤ s.globalPosition → s.globalPosition < s.duration →
      let armed : Watch := {session := machine.step s .setSleepAtChapterEnd, anchor := s.globalPosition}
      watches.Along Watch.Allows armed es' →
        let w := watches.run armed es'
        w.anchor < w.goal ∧
        (∀ i : Nat, w.session.chapterAt w.anchor = i → ∃ c, w.session.chapters[i]? = some c ∧ w.goal = c.stop) ∧
        w.stops ≤ 1 ∧ (w.stops = 0 ↔ w.session.sleepAtChapterEnd = true) ∧
        (w.stops = 1 → w.session.Unset ∧ w.session.mpv.paused = true) ∧
        ∀ e, w.Allows e →
          let w' := watches.step w e
          w'.stops = (if w.stops = 0 ∧ w.Reaches e then 1 else w.stops) ∧
          w'.session.mpv.paused = (if w.stops = 0 ∧ w.Reaches e then true else w.session.mpv.paused) ∧
          (w.stops = 0 → w.Reaches e → w.goal < w.session.duration → w'.session.globalPosition = w.goal) := by
  intro s hactive hchapters hfirst hlast armed hes' w
  have harmed : armed.Kept := setSleepAtChapterEnd_kept (steady_run env server es) hactive hchapters hfirst hlast
  have hkept : w.Kept := watches_keep.run harmed hes'
  refine ⟨Hearing.chapterEnd_after _ hkept.last, fun i hat => w.session.hearing.chapterEndFor_at hat, hkept.once,
    hkept.waits_iff, fun hone => ?_, fun e hallows => ?_⟩
  · exact ⟨(unset_iff _).mpr (hkept.rested hone).sleep, (hkept.rested hone).paused⟩
  · have hfollows := hkept.follows hallows
    exact ⟨hfollows.stops, hfollows.paused, hfollows.lands⟩

/-- The book with two chapters plays. -/
def chapteredPlaying : List Event := chapteredOpened ++ [.mpv (.coreIdle false)]

/-- Within the first chapter, which ends at four seconds. -/
def chapteredNight : List Event := [.seekGlobal 1, .mpv (.timePos 3)]

theorem chapter_end_stops_chaptered :
    let s := machine.run samplePlayer chapteredPlaying
    let w := watches.run {session := machine.step s .setSleepAtChapterEnd, anchor := s.globalPosition} chapteredNight
    let w' := watches.step w (.mpv (.timePos 4))
    w.anchor = 1 ∧ w.anchor < w.goal ∧ w.stops = 0 ∧ w'.stops = 1 ∧ w'.session.globalPosition = w.goal :=
  have h := chapter_end_stops samplePlayer.env sampleServer chapteredPlaying chapteredNight (by decide +kernel)
    (by decide +kernel) (by decide +kernel) (by decide +kernel) (by decide +kernel)
  have h' := h.2.2.2.2.2 (.mpv (.timePos 4)) (by decide +kernel)
  ⟨by decide +kernel, h.1, by decide +kernel, h'.1.trans (if_pos (by decide +kernel)),
    h'.2.2 (by decide +kernel) (by decide +kernel) (by decide +kernel)⟩

end PlaybackSession

end ShelfRemote.Player
