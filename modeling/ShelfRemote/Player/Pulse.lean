import ShelfRemote.Player.Hearing

/-! The clocks that follow what libmpv reports.

While a session is open the listening clock and the interval timer are to run exactly while
the last report said playing. Each report sets both. Opening a session resets the clock and
starts neither, so a report that still stands from the stream before is not followed:
`clocks_follow` says that this is the one way out of step. -/
namespace ShelfRemote.Player
open Qt Net Runs

/-- The copies of the last report, and what runs while it says playing. -/
structure Pulse where
  active : Bool
  playing : Bool
  reported : Bool
  listening : Bool
  interval : Bool

namespace Pulse

def report (p : Pulse) (playing : Bool) : Pulse :=
  if p.active then {p with playing, reported := playing, listening := playing, interval := playing}
  else {p with playing, reported := playing}

def close (p : Pulse) : Pulse := {p with active := false, listening := false, interval := false}

def start (p : Pulse) : Pulse := {p with active := true, listening := false}

/-- The session has heard the last report, and a closed one leaves no timer behind. -/
structure Current (p : Pulse) : Prop where
  playing : p.playing = p.reported
  quiet : p.active = false → p.interval = false

/-- Both clocks of a session that is open run exactly while the last report says playing. -/
def Clocked (p : Pulse) : Prop := p.active = true → p.listening = p.reported ∧ p.interval = p.reported

instance (p : Pulse) : Decidable p.Clocked := inferInstanceAs (Decidable (_ → _ ∧ _))

variable {p : Pulse}

theorem Current.report (h : p.Current) (playing : Bool) : (p.report playing).Current := by
  unfold Pulse.report
  split
  · next hactive => exact ⟨rfl, fun hidle => nomatch hidle.symm.trans hactive⟩
  · exact ⟨rfl, h.quiet⟩

theorem Current.close (h : p.Current) : p.close.Current := ⟨h.playing, fun _ => rfl⟩

theorem Current.start (h : p.Current) : p.start.Current := ⟨h.playing, fun hidle => nomatch hidle⟩

/-- A report sets both clocks. -/
theorem report_clocked (p : Pulse) (playing : Bool) : (p.report playing).Clocked := by
  unfold Pulse.report
  split
  · exact fun _ => ⟨rfl, rfl⟩
  · next hidle => exact fun hactive => absurd hactive hidle

/-- An opened session is in step if the report that stands is not that audio plays. -/
theorem start_clocked (h : p.Current) (hidle : p.active = false) : p.start.Clocked ↔ p.playing = false := by
  have hquiet := h.quiet hidle
  unfold Clocked start
  simp only [hquiet, h.playing, true_imp_iff, and_self]
  exact eq_comm

end Pulse

namespace Hearing

def pulse (h : Hearing) : Pulse :=
  { active := h.active
    playing := h.playing
    reported := h.reported
    listening := h.listening
    interval := h.interval }

variable {h h' : Hearing} {e : PlaybackSession.Event}

@[simp] theorem resume_pulse (h : Hearing) : h.resume.pulse = h.pulse := by
  unfold resume
  split <;> rfl

@[simp] theorem hold_pulse (h : Hearing) : h.hold.pulse = h.pulse := by
  unfold hold
  split <;> rfl

@[simp] theorem update_pulse (h : Hearing) (q : Rat) : (h.update q).pulse = h.pulse := by
  unfold update
  split <;> rfl

theorem setTimer_pulse (h : Hearing) (minutes : Int) : (h.setTimer minutes).pulse = h.pulse := by
  unfold setTimer
  dsimp only
  split_ifs
  · rfl
  · rw [resume_pulse]
    rfl
  · rfl

theorem setChapterEnd_pulse (h : Hearing) : h.setChapterEnd.pulse = h.pulse := by
  unfold setChapterEnd
  split <;> rfl

theorem Sought.pulse {q : Rat} (hsought : h.Sought q h') : h'.pulse = h.pulse := by
  cases hsought with
  | stay => rfl
  | jump => exact update_pulse h q

theorem halt_pulse (h : Hearing) (q : Rat) : (h.halt q).pulse = h.pulse := update_pulse {h with position := q} q

theorem Stopped.pulse {q : Rat} (hstopped : h.Stopped q h') : h'.pulse = h.pulse := by
  cases hstopped with
  | within _ hsought => exact hsought.pulse.trans (halt_pulse h q)
  | last => exact halt_pulse h q

theorem report_pulse (h : Hearing) (playing : Bool) : (h.report playing).pulse = h.pulse.report playing := by
  unfold report Pulse.report
  dsimp only
  cases hactive : h.active
  · simp [pulse, hactive]
  · cases playing
    · simp only [Bool.not_true, Bool.false_eq_true, if_false, hold_pulse]
      simp [pulse, hactive]
    · simp only [Bool.not_true, Bool.false_eq_true, if_false, if_true, resume_pulse]
      simp [pulse, hactive]

theorem start_pulse (h : Hearing) (resume : Rat) : (h.start resume).pulse = h.pulse.start := by
  unfold start
  rw [update_pulse]
  rfl

/-- Apart from reports, only the end of a session touches the clocks. -/
theorem Act.pulse (hact : Act e h h') : h'.pulse = h.pulse ∨ h'.pulse = h.pulse.close := by
  cases hact with
  | same | wait | press | expire => exact .inl rfl
  | setTimer minutes => exact .inl (setTimer_pulse h minutes)
  | setChapterEnd => exact .inl (setChapterEnd_pulse h)
  | seek q _ _ hsought => exact .inl hsought.pulse
  | hear q => exact .inl (update_pulse {h with position := q} q)
  | stop q _ _ _ hstopped => exact .inl hstopped.pulse
  | turn q => exact .inl (update_pulse h q)
  | reload q => exact .inl (update_pulse {h with paused := false} q)
  | close => exact .inr rfl

theorem Act.current (hact : Act e h h') (hcurrent : h.pulse.Current) : h'.pulse.Current := by
  obtain hsame | hclosed := hact.pulse
  · exact hsame ▸ hcurrent
  · exact hclosed ▸ hcurrent.close

theorem Step.current (hstep : Step e h h') (hcurrent : h.pulse.Current) : h'.pulse.Current := by
  cases hstep with
  | act hact => exact hact.current hcurrent
  | report playing hact => exact report_pulse _ playing ▸ (hact.current hcurrent).report playing

theorem Step.clocked (hstep : Step e h h') (hclocked : h.pulse.Clocked) : h'.pulse.Clocked := by
  cases hstep with
  | act hact =>
    obtain hsame | hclosed := hact.pulse
    · exact hsame ▸ hclocked
    · rw [hclosed]
      exact fun hactive => nomatch hactive
  | report playing => exact report_pulse _ playing ▸ Pulse.report_clocked _ playing

end Hearing

namespace PlaybackSession
variable {s : PlaybackSession}

/-- A play response is read, and a session opens. -/
def Opens (s : PlaybackSession) (e : Event) : Prop := ∃ obj ∈ s.response e, (s.readPlayResponse obj).Usable

instance (s : PlaybackSession) (e : Event) : Decidable (s.Opens e) :=
  inferInstanceAs (Decidable (∃ obj ∈ s.response e, (s.readPlayResponse obj).Usable))

/-- A reachable session, and what it heard last. -/
structure Followed (s : PlaybackSession) : Prop where
  steady : s.Steady
  current : s.hearing.pulse.Current

theorem Followed.opens (h : s.Followed) {e : Event} (hopens : s.Opens e) :
    s.active = false ∧ (machine.step s e).hearing.pulse = s.hearing.pulse.start := by
  obtain ⟨obj, hreads, husable⟩ := hopens
  obtain ⟨hidle, he⟩ := h.steady.reads hreads
  rw [he, if_pos husable, Hearing.start_pulse]
  exact ⟨hidle, rfl⟩

theorem Followed.next (h : s.Followed) (e : Event) : (machine.step s e).Followed := by
  refine ⟨h.steady.next e, ?_⟩
  cases hreads : s.response e with
  | none => exact (h.steady.hearing hreads).current h.current
  | some obj =>
    obtain ⟨-, he⟩ := h.steady.reads hreads
    rw [he]
    split
    · exact Hearing.start_pulse _ _ ▸ h.current.start
    · exact h.current

/-- In step before the event, in step after it, unless a session opens while the last
report says playing. -/
theorem Followed.clocked (h : s.Followed) (hclocked : s.hearing.pulse.Clocked) (e : Event) :
    (machine.step s e).hearing.pulse.Clocked ↔ (s.Opens e → s.playing = false) := by
  by_cases hopens : s.Opens e
  · obtain ⟨hidle, he⟩ := h.opens hopens
    rw [he, Pulse.start_clocked h.current hidle]
    exact ⟨fun hquiet _ => hquiet, fun hquiet => hquiet hopens⟩
  · refine iff_of_true ?_ fun hopened => absurd hopened hopens
    cases hreads : s.response e with
    | none => exact (h.steady.hearing hreads).clocked hclocked
    | some obj =>
      obtain ⟨hidle, he⟩ := h.steady.reads hreads
      rw [he, if_neg fun husable => hopens ⟨obj, hreads, husable⟩]
      exact fun hactive => nomatch hidle.symm.trans hactive

theorem followed_start (env : Env) (server : Endpoints) : Followed {env, server} :=
  ⟨steady_start env server, ⟨rfl, fun _ => rfl⟩⟩

theorem followed_keeps : Machine.Keeps machine (fun _ _ => True) Followed := ⟨fun _ e hs _ => hs.next e⟩

/-- The listening clock and the interval timer of a session that is open run exactly while
the last report says playing. -/
def InStep (s : PlaybackSession) : Prop :=
  s.active = true →
    (s.listen.playing = true ↔ s.mpv.playing = true) ∧ (s.syncTimer.isSome = true ↔ s.mpv.playing = true)

instance (s : PlaybackSession) : Decidable s.InStep := inferInstanceAs (Decidable (_ → _ ∧ _))

theorem inStep_iff (s : PlaybackSession) : s.InStep ↔ s.hearing.pulse.Clocked :=
  imp_congr_right fun _ => and_congr Bool.coe_iff_coe Bool.coe_iff_coe

/-- **The clocks follow the reports** in every run in which a play response opens a session
only while the last report is not that audio plays. From every state of such a run, one
event leaves them in step if and only if it meets this condition. -/
theorem clocks_follow (env : Env) (server : Endpoints) (es : List Event)
    (hes : machine.Along (fun s e => s.Opens e → s.playing = false) {env, server} es) :
    let s := machine.run {env, server} es
    s.InStep ∧ s.playing = s.mpv.playing ∧
      ∀ e, (machine.step s e).InStep ↔ (s.Opens e → s.playing = false) := by
  have hgood (s : PlaybackSession) (e : Event) (hs : s.Followed) (hstep : s.InStep) :
      (machine.step s e).InStep ↔ (s.Opens e → s.playing = false) := by
    rw [inStep_iff] at hstep ⊢
    exact hs.clocked hstep e
  obtain ⟨hfollowed, hstep, hnext⟩ :=
    followed_keeps.exactly hgood (followed_start env server) (fun hactive => nomatch hactive) hes
  exact ⟨hstep, hfollowed.current.playing, hnext⟩

/-- A book plays, another one is asked for, and its response comes before libmpv reports
that the first one stopped. -/
def switched : List Event :=
  [.playItem "book", .reply 0 ⟨200, true, false, sampleBook, "", none⟩, .mpv (.coreIdle false),
    .playItem "book2"]

def switchedReply : Event := .reply 2 ⟨200, true, false, sampleBook, "", none⟩

/-- The second session is heard, and its time is not counted. -/
theorem clocks_stand :
    let s := machine.run samplePlayer (switched ++ [switchedReply])
    s.active = true ∧ s.mpv.playing = true ∧ s.listen.playing = false ∧ s.syncTimer = none ∧ ¬s.InStep := by
  decide +kernel

theorem clocks_follow_switched :
    let s := machine.run samplePlayer switched
    s.InStep ∧ ((machine.step s (.mpv (.coreIdle true))).InStep ∧ ¬(machine.step s switchedReply).InStep) :=
  have h := clocks_follow _ sampleServer switched (by decide +kernel)
  ⟨h.1, (h.2.2 _).mpr (by decide +kernel), fun hinStep => absurd ((h.2.2 switchedReply).mp hinStep)
    (by decide +kernel)⟩

end PlaybackSession

end ShelfRemote.Player
