import Mathlib.Data.List.Pairwise
import Mathlib.Data.List.Sort
import Mathlib.Tactic.Linarith
import ShelfRemote.Lib.Scans
import ShelfRemote.Player.Hearing

/-! Stepping through the chapters.

The next chapter is the least start ahead of the position by more than half a second, the
current one the greatest start up to half a second ahead, the previous one the greatest
start before that. With starts more than half a second apart, repeated steps forward visit
the starts ahead in their order, and a step back undoes one forward: `chapters_step`. -/
namespace ShelfRemote.Player
open Qt Net Runs

/-- More than half a second apart. -/
def Apart (a b : Rat) : Prop := a + 1 / 2 < b ∨ b + 1 / 2 < a

instance : DecidableRel Apart := fun _ _ => inferInstanceAs (Decidable (_ ∨ _))

instance : Std.Symm Apart := ⟨fun _ _ h => h.symm⟩

/-- A chapter list to step through. -/
structure Steppable (chapters : List Chapter) (duration : Rat) : Prop where
  some : chapters ≠ []
  within : ∀ c ∈ chapters, 0 ≤ c.start ∧ c.start ≤ duration
  apart : (chapters.map Chapter.start).Pairwise Apart

/-- The starts ahead of a position, in their order. -/
def ahead (chapters : List Chapter) (position : Rat) : List Rat :=
  ((chapters.map Chapter.start).filter fun start => position + 1 / 2 < start).insertionSort (· ≤ ·)

section Ahead
variable {chapters : List Chapter} {duration : Rat}

theorem mem_ahead {position q : Rat} :
    q ∈ ahead chapters position ↔ (∃ c ∈ chapters, c.start = q) ∧ position + 1 / 2 < q := by
  unfold ahead
  rw [List.mem_insertionSort, List.mem_filter, List.mem_map, decide_eq_true_eq]

/-- Starts that are apart are in strict order. -/
theorem ahead_sorted (h : (chapters.map Chapter.start).Pairwise Apart) (position : Rat) :
    (ahead chapters position).Pairwise (· < ·) := by
  have hnodup : (chapters.map Chapter.start).Nodup := h.imp fun {a b} hapart heq => by
    subst heq
    obtain hless | hless := hapart <;> linarith
  have hsorted : (ahead chapters position).Nodup :=
    (List.perm_insertionSort _ _).nodup_iff.mpr (hnodup.filter _)
  exact ((List.pairwise_insertionSort _ _).and hsorted).imp fun h => lt_of_le_of_ne h.1 h.2

/-- A later start is later by more than half a second. -/
theorem Steppable.apart_of_lt (h : Steppable chapters duration) {c d : Chapter} (hc : c ∈ chapters)
    (hd : d ∈ chapters) (hlt : c.start < d.start) : c.start + 1 / 2 < d.start := by
  have hapart : Apart c.start d.start :=
    h.apart.forall (List.mem_map_of_mem hc) (List.mem_map_of_mem hd) hlt.ne
  refine hapart.resolve_right fun hbefore => ?_
  linarith

end Ahead

namespace PlaybackSession
variable {s s' : PlaybackSession}

/-! ### Where a step goes -/

/-- The position is moved, and the book stays open. -/
structure Lands (s s' : PlaybackSession) (q : Rat) : Prop where
  active : s'.active = true
  chapters : s'.chapters = s.chapters
  duration : s'.duration = s.duration
  position : s'.globalPosition = q

theorem seekGlobal_lands_at (h : s.Playing) {q : Rat} (hfirst : 0 ≤ q) (hlast : q ≤ s.duration) :
    s.Lands (s.seekGlobal q) q := by
  have haim : s.aim q = q := by
    unfold aim
    rw [min_eq_right hlast, max_eq_right hfirst]
  have hsought := seekGlobal_hearing h q
  rw [haim] at hsought
  generalize s.seekGlobal q = s' at *
  generalize hnext : s'.hearing = after at hsought
  cases hsought with
  | stay =>
    exact ⟨(congrArg Hearing.active hnext).trans h.active, congrArg Hearing.chapters hnext,
      congrArg Hearing.duration hnext, congrArg Hearing.position hnext⟩
  | jump =>
    exact ⟨(congrArg Hearing.active hnext).trans ((Hearing.update_active _ _).trans h.active),
      (congrArg Hearing.chapters hnext).trans (Hearing.update_chapters _ _),
      (congrArg Hearing.duration hnext).trans (Hearing.update_duration _ _), congrArg Hearing.position hnext⟩

/-- The starts a step forward may go to. -/
def Ahead (s : PlaybackSession) (c : Chapter) : Prop := s.globalPosition + 1 / 2 < c.start

instance (s : PlaybackSession) : DecidablePred s.Ahead := fun c => inferInstanceAs (Decidable (_ < c.start))

theorem nextChapter_eq (hactive : s.active = true) (hchapters : s.chapters ≠ []) :
    s.nextChapter =
      if 0 ≤ Scans.least Chapter.start s.Ahead 0 (-1) s.chapters then
        s.seekGlobal (Scans.least Chapter.start s.Ahead 0 (-1) s.chapters)
      else s := by
  unfold nextChapter
  rw [if_neg (by simp [hactive]), if_neg hchapters]
  rfl

/-- The least start ahead is where a step forward goes. -/
theorem nextChapter_lands (h : s.Playing) (hsteps : Steppable s.chapters s.duration) {c : Chapter}
    (hc : c ∈ s.chapters) (hahead : s.Ahead c) (hleast : ∀ d ∈ s.chapters, s.Ahead d → c.start ≤ d.start) :
    s.Lands s.nextChapter c.start := by
  have hfound : Scans.least Chapter.start s.Ahead 0 (-1) s.chapters = c.start :=
    Scans.least_eq _ _ _ hc hahead (fun d hd => (hsteps.within d hd).1) hleast (.inl (by linarith))
  obtain ⟨hfirst, hlast⟩ := hsteps.within c hc
  rw [nextChapter_eq h.active hsteps.some, hfound, if_pos hfirst]
  exact seekGlobal_lands_at h hfirst hlast

/-- With no start ahead it goes nowhere. -/
theorem nextChapter_stays (hactive : s.active = true) (hsteps : Steppable s.chapters s.duration)
    (hnone : ∀ c ∈ s.chapters, ¬s.Ahead c) : s.nextChapter = s := by
  have hsentinel : Scans.least Chapter.start s.Ahead 0 (-1) s.chapters = -1 := Scans.least_none _ _ _ hnone _
  rw [nextChapter_eq hactive hsteps.some, hsentinel]
  exact if_neg (by linarith)

/-- The start of the chapter being heard. -/
def currentStart (s : PlaybackSession) : Rat :=
  Scans.greatest Chapter.start (fun c => c.start ≤ s.globalPosition + 1 / 2) 0 s.chapters

/-- The one before it, or less than any start. -/
def previousStart (s : PlaybackSession) : Rat :=
  Scans.greatest Chapter.start (fun c => c.start < s.currentStart) (-1) s.chapters

theorem previousChapter_eq (hactive : s.active = true) (hchapters : s.chapters ≠ []) :
    s.previousChapter =
      if 3 < s.globalPosition - s.currentStart ∨ s.previousStart < 0 then s.seekGlobal s.currentStart
      else s.seekGlobal s.previousStart := by
  unfold previousChapter
  rw [if_neg (by simp [hactive]), if_neg hchapters]
  rfl

/-- From a start, a step back goes to the greatest start before it. -/
theorem previousChapter_lands (h : s.Playing) (hsteps : Steppable s.chapters s.duration) {c d : Chapter}
    (hc : c ∈ s.chapters) (hd : d ∈ s.chapters) (hat : s.globalPosition = d.start) (hlt : c.start < d.start)
    (hgreatest : ∀ b ∈ s.chapters, b.start < d.start → b.start ≤ c.start) :
    s.Lands s.previousChapter c.start := by
  obtain ⟨hfirst, hlast⟩ := hsteps.within c hc
  have hcurrent : s.currentStart = d.start := by
    refine Scans.greatest_eq _ _ hd ?_ (hsteps.within d hd).1 fun b hb hnear => ?_
    · rw [hat]
      linarith
    · rw [hat] at hnear
      refine le_of_not_gt fun hlater => ?_
      have hapart := hsteps.apart_of_lt hd hb hlater
      linarith
  have hprevious : s.previousStart = c.start := by
    unfold previousStart
    rw [hcurrent]
    exact Scans.greatest_eq _ _ hc hlt (by linarith) hgreatest
  rw [previousChapter_eq h.active hsteps.some, hcurrent, hprevious, hat, if_neg]
  · exact seekGlobal_lands_at h hfirst hlast
  · rintro (hfar | hnone) <;> linarith

/-! ### Runs of steps -/

/-- One step forward moves on by one of the starts ahead. -/
theorem nextChapter_ahead (h : s.Steady) (hactive : s.active = true) (hsteps : Steppable s.chapters s.duration)
    {l : List Rat} (hl : ahead s.chapters s.globalPosition = l) :
    s.Lands (machine.step s .nextChapter) (l.headD s.globalPosition) ∧
      ahead s.chapters (l.headD s.globalPosition) = l.tail := by
  have hplaying : s.fresh.Playing := (h.playing hactive).fresh
  have hsorted : l.Pairwise (· < ·) := hl ▸ ahead_sorted hsteps.apart s.globalPosition
  cases l with
  | nil =>
    have hnone : ∀ c ∈ s.chapters, ¬s.Ahead c := by
      intro c hc hahead
      have hmem : c.start ∈ ahead s.chapters s.globalPosition := mem_ahead.mpr ⟨⟨c, hc, rfl⟩, hahead⟩
      rw [hl] at hmem
      cases hmem
    have hstays : machine.step s .nextChapter = s.fresh := nextChapter_stays (s := s.fresh) hactive hsteps hnone
    rw [hstays]
    exact ⟨⟨hactive, rfl, rfl, rfl⟩, hl⟩
  | cons a rest =>
    obtain ⟨hless, hrest⟩ := List.pairwise_cons.mp hsorted
    obtain ⟨⟨c, hc, rfl⟩, hahead⟩ := mem_ahead.mp (hl ▸ List.mem_cons_self ..)
    have hleast : ∀ d ∈ s.chapters, s.Ahead d → c.start ≤ d.start := by
      intro d hd hd'
      have hmem : d.start ∈ ahead s.chapters s.globalPosition := mem_ahead.mpr ⟨⟨d, hd, rfl⟩, hd'⟩
      rw [hl] at hmem
      obtain heq | hmem := List.mem_cons.mp hmem
      · exact heq.ge
      · exact (hless _ hmem).le
    have hlands : s.fresh.Lands s.fresh.nextChapter c.start :=
      nextChapter_lands hplaying hsteps hc hahead hleast
    refine ⟨⟨hlands.active, hlands.chapters, hlands.duration, hlands.position⟩, ?_⟩
    refine (ahead_sorted hsteps.apart c.start).eq_of_mem_iff hrest fun q => ?_
    rw [mem_ahead]
    constructor
    · -- What is ahead of the new position is ahead of the old one, and not the new one.
      rintro ⟨⟨d, hd, rfl⟩, hlater⟩
      have hmem : d.start ∈ ahead s.chapters s.globalPosition :=
        mem_ahead.mpr ⟨⟨d, hd, rfl⟩, by linarith⟩
      rw [hl] at hmem
      obtain heq | hmem := List.mem_cons.mp hmem
      · linarith
      · exact hmem
    · intro hmem
      obtain ⟨⟨d, hd, rfl⟩, -⟩ := mem_ahead.mp (hl ▸ List.mem_cons_of_mem _ hmem)
      exact ⟨⟨d, hd, rfl⟩, hsteps.apart_of_lt hc hd (hless _ hmem)⟩

/-- Steps forward. -/
theorem nextChapters (k : Nat) (h : s.Steady) (hactive : s.active = true)
    (hsteps : Steppable s.chapters s.duration) :
    (machine.run s (List.replicate k .nextChapter)).globalPosition =
      ((ahead s.chapters s.globalPosition).take k).getLastD s.globalPosition := by
  induction k generalizing s with
  | zero => rfl
  | succ k ih =>
    obtain ⟨hlands, htail⟩ := nextChapter_ahead h hactive hsteps rfl
    have hnext := ih (h.next .nextChapter) hlands.active (by
      rw [hlands.chapters, hlands.duration]
      exact hsteps)
    rw [hlands.chapters, hlands.position, htail] at hnext
    refine Eq.trans hnext ?_
    cases ahead s.chapters s.globalPosition with
    | nil => simp
    | cons a rest => rw [List.take_succ_cons, List.getLastD_cons, List.headD_cons, List.tail_cons]

/-- A step forward from a start, and one back. -/
theorem next_previous (h : s.Steady) (hactive : s.active = true) (hsteps : Steppable s.chapters s.duration)
    {c d : Chapter} (hc : c ∈ s.chapters) (hat : c.start = s.globalPosition) (hd : d ∈ s.chapters)
    (hlater : s.globalPosition < d.start) :
    (machine.run s [.nextChapter, .previousChapter]).globalPosition = s.globalPosition := by
  have hmem : d.start ∈ ahead s.chapters s.globalPosition :=
    mem_ahead.mpr ⟨⟨d, hd, rfl⟩, hat ▸ hsteps.apart_of_lt hc hd (hat ▸ hlater)⟩
  cases hl : ahead s.chapters s.globalPosition with
  | nil =>
    rw [hl] at hmem
    cases hmem
  | cons a rest =>
    obtain ⟨hlands, -⟩ := nextChapter_ahead h hactive hsteps hl
    have hless := (List.pairwise_cons.mp (hl ▸ ahead_sorted hsteps.apart s.globalPosition)).1
    obtain ⟨⟨b, hb, rfl⟩, hahead⟩ := mem_ahead.mp (hl ▸ List.mem_cons_self ..)
    have hnext := (h.next .nextChapter).playing hlands.active
    have hchapters : (machine.step s .nextChapter).chapters = s.chapters := hlands.chapters
    have hposition : (machine.step s .nextChapter).globalPosition = b.start := hlands.position
    have hsteps' : Steppable (machine.step s .nextChapter).chapters (machine.step s .nextChapter).duration := by
      rw [hchapters, hlands.duration]
      exact hsteps
    have hback := previousChapter_lands (s := (machine.step s .nextChapter).fresh) (c := c) (d := b) hnext.fresh
      hsteps' (hchapters ▸ hc) (hchapters ▸ hb) hposition (by linarith) fun g hg hbefore => ?_
    · exact hback.position.trans hat
    · refine le_of_not_gt fun hlate => ?_
      have hg' : g ∈ s.chapters := hchapters ▸ hg
      have hmem : g.start ∈ ahead s.chapters s.globalPosition :=
        mem_ahead.mpr ⟨⟨g, hg', rfl⟩, hat ▸ hsteps.apart_of_lt hc hg' hlate⟩
      rw [hl] at hmem
      obtain heq | hmem := List.mem_cons.mp hmem
      · linarith
      · exact absurd (hless _ hmem) hbefore.not_gt

/-- **Chapter stepping is complete and reversible.** In every reachable session that is open,
for every list of chapters whose starts lie in the book and are more than half a second
apart: `k` steps forward lead to the `k`-th of the starts ahead, in their order, or the last
one; and from the start of a chapter that has a later one, a step forward and one back
return to it. -/
theorem chapters_step (env : Env) (server : Endpoints) (es : List Event)
    (hactive : (machine.run {env, server} es).active = true)
    (hsteps : Steppable (machine.run {env, server} es).chapters (machine.run {env, server} es).duration) :
    let s := machine.run {env, server} es
    (ahead s.chapters s.globalPosition).Pairwise (· < ·) ∧
    (∀ q, q ∈ ahead s.chapters s.globalPosition ↔ (∃ c ∈ s.chapters, c.start = q) ∧ s.globalPosition + 1 / 2 < q) ∧
    (∀ k, (machine.run s (List.replicate k .nextChapter)).globalPosition =
      ((ahead s.chapters s.globalPosition).take k).getLastD s.globalPosition) ∧
    ((∃ c ∈ s.chapters, c.start = s.globalPosition) → (∃ d ∈ s.chapters, s.globalPosition < d.start) →
      (machine.run s [.nextChapter, .previousChapter]).globalPosition = s.globalPosition) := by
  have hsteady := steady_run env server es
  dsimp only
  generalize machine.run {env, server} es = s at *
  refine ⟨ahead_sorted hsteps.apart _, fun q => mem_ahead, fun k => nextChapters k hsteady hactive hsteps, ?_⟩
  rintro ⟨c, hc, hat⟩ ⟨d, hd, hlater⟩
  exact next_previous hsteady hactive hsteps hc hat hd hlater

instance (chapters : List Chapter) (duration : Rat) : Decidable (Steppable chapters duration) :=
  decidable_of_iff (chapters ≠ [] ∧ (∀ c ∈ chapters, 0 ≤ c.start ∧ c.start ≤ duration) ∧
    (chapters.map Chapter.start).Pairwise Apart)
    ⟨fun h => ⟨h.1, h.2.1, h.2.2⟩, fun h => ⟨h.some, h.within, h.apart⟩⟩

/-- Forward to the second chapter, and back. -/
theorem chapters_step_chaptered :
    let s := machine.run samplePlayer chapteredOpened
    (machine.run s (List.replicate 2 .nextChapter)).globalPosition = 4 ∧
      (machine.run s [.nextChapter, .previousChapter]).globalPosition = 0 :=
  have h := chapters_step samplePlayer.env sampleServer chapteredOpened (by decide +kernel) (by decide +kernel)
  ⟨(h.2.2.1 2).trans (by decide +kernel),
    (h.2.2.2 (by decide +kernel) (by decide +kernel)).trans (by decide +kernel)⟩

end PlaybackSession

end ShelfRemote.Player
