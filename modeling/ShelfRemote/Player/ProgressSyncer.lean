/-! The listening clock.

It counts wall-clock time while audio plays, whatever the speed, in whole
milliseconds. A span runs from the moment playing starts; it is folded into the
accumulator when it ends and whenever the accumulator is taken. Taking reserves:
what was taken is gone from here until it is rolled back. -/
namespace ShelfRemote.Player

structure ProgressSyncer where
  playing : Bool := false
  /-- Milliseconds not yet taken. -/
  accumulated : Nat := 0
  /-- When the span that runs now was started. -/
  timer : Option Nat := none

namespace ProgressSyncer

def reset (_ : ProgressSyncer) : ProgressSyncer := {}

/-- How long the current span has run. -/
def elapsed (p : ProgressSyncer) (now : Nat) : Nat :=
  if p.playing then
    match p.timer with
    | some start => now - start
    | none => 0
  else 0

/-- Folds the current span into the accumulator and starts another. -/
def flushInto (p : ProgressSyncer) (now : Nat) : ProgressSyncer :=
  if p.playing && p.timer.isSome then
    {p with accumulated := p.accumulated + p.elapsed now, timer := some now}
  else p

def setPlaying (p : ProgressSyncer) (now : Nat) (playing : Bool) : ProgressSyncer :=
  if playing = p.playing then p
  else if playing then {p with timer := some now, playing := true}
  else {p.flushInto now with playing := false, timer := none}

def pendingListened (p : ProgressSyncer) (now : Nat) : Nat := p.accumulated + p.elapsed now

def takeListened (p : ProgressSyncer) (now : Nat) : ProgressSyncer × Nat :=
  let p := p.flushInto now
  ({p with accumulated := 0}, p.accumulated)

def rollback (p : ProgressSyncer) (listened : Nat) : ProgressSyncer :=
  if 0 < listened then {p with accumulated := p.accumulated + listened} else p

/-- The clock has a span exactly while it plays, and none that starts later than now. -/
structure Sound (p : ProgressSyncer) (now : Nat) : Prop where
  span : p.playing = p.timer.isSome
  past : ∀ start ∈ p.timer, start ≤ now

variable {p : ProgressSyncer} {now : Nat}

theorem reset_sound (p : ProgressSyncer) (now : Nat) : p.reset.Sound now :=
  ⟨rfl, fun start h => by cases h⟩

theorem Sound.flushInto (h : p.Sound now) : (p.flushInto now).Sound now := by
  unfold ProgressSyncer.flushInto
  split
  · next hp =>
    have hp : p.playing = true := by simp_all
    refine ⟨hp, fun start hs => ?_⟩
    cases hs
    exact Nat.le_refl now
  · exact h

theorem Sound.setPlaying (h : p.Sound now) (playing : Bool) : (p.setPlaying now playing).Sound now := by
  unfold ProgressSyncer.setPlaying
  split
  · exact h
  · split
    · refine ⟨rfl, fun start hs => ?_⟩
      cases hs
      exact Nat.le_refl now
    · exact ⟨rfl, fun start hs => by cases hs⟩

theorem Sound.takeListened (h : p.Sound now) : (p.takeListened now).1.Sound now :=
  ⟨h.flushInto.span, h.flushInto.past⟩

theorem Sound.rollback (h : p.Sound now) (listened : Nat) : (p.rollback listened).Sound now := by
  unfold ProgressSyncer.rollback
  split
  · exact ⟨h.span, h.past⟩
  · exact h

theorem Sound.later (h : p.Sound now) (ms : Nat) : p.Sound (now + ms) :=
  ⟨h.span, fun start hs => Nat.le_add_right_of_le (h.past start hs)⟩

/-! ### The pending time -/

/-- Folding a span moves time within the pending total. -/
theorem pending_flushInto (p : ProgressSyncer) (now : Nat) :
    (p.flushInto now).accumulated = p.pendingListened now ∧
      (p.flushInto now).pendingListened now = p.pendingListened now := by
  unfold flushInto pendingListened elapsed
  cases hp : p.playing <;> cases ht : p.timer <;> simp [hp, ht]

theorem pending_setPlaying (p : ProgressSyncer) (now : Nat) (playing : Bool) :
    (p.setPlaying now playing).pendingListened now = p.pendingListened now := by
  unfold setPlaying
  split
  · rfl
  · next hne =>
    split
    · next hplays =>
      have hidle : p.playing = false := by simp_all
      simp [pendingListened, elapsed, hidle]
    · exact (pending_flushInto p now).1

theorem pending_takeListened (p : ProgressSyncer) (now : Nat) :
    (p.takeListened now).2 = p.pendingListened now ∧
      (p.takeListened now).1.pendingListened now = 0 := by
  refine ⟨(pending_flushInto p now).1, ?_⟩
  unfold takeListened flushInto pendingListened elapsed
  cases hp : p.playing <;> cases ht : p.timer <;> simp [hp, ht]

theorem pending_rollback (p : ProgressSyncer) (now listened : Nat) :
    (p.rollback listened).pendingListened now = p.pendingListened now + listened := by
  unfold rollback
  split
  · simp only [pendingListened, elapsed]
    omega
  · omega

/-- While it plays, the pending time grows with the clock. -/
theorem pending_later (h : p.Sound now) (ms : Nat) :
    p.pendingListened (now + ms) = p.pendingListened now + if p.playing then ms else 0 := by
  have hspan := h.span
  unfold pendingListened elapsed
  cases hp : p.playing
  · simp
  · cases ht : p.timer with
    | none => rw [hp, ht] at hspan; cases hspan
    | some start =>
      have := h.past start ht
      simp only [if_true]
      omega

end ProgressSyncer

end ShelfRemote.Player
