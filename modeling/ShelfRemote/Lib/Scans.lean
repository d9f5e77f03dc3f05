import Mathlib.Order.Lattice
import Mathlib.Order.Defs.LinearOrder

/-! Scans of a list for an extremum.

A loop that keeps the best value so far starts from a value of its own: a bound that
counts (`greatest`), or a sentinel below every value that stands for none (`least`). The
lemmas say what the loop ends with, whatever order the list is in. -/
namespace Scans
variable {α β : Type} [LinearOrder α]

section Greatest
variable (f : β → α) (P : β → Prop) [DecidablePred P]

/-- The greatest value of the elements `P` holds of, the start included. -/
def greatest (start : α) (l : List β) : α := l.foldl (fun best b => if P b then max best (f b) else best) start

theorem start_le_greatest (start : α) (l : List β) : start ≤ greatest f P start l := by
  induction l generalizing start with
  | nil => exact le_rfl
  | cons b rest ih =>
    refine le_trans ?_ (ih _)
    dsimp only
    split
    · exact le_max_left _ _
    · exact le_rfl

theorem le_greatest {l : List β} {b : β} (hb : b ∈ l) (hP : P b) (start : α) : f b ≤ greatest f P start l := by
  induction l generalizing start with
  | nil => cases hb
  | cons c rest ih =>
    obtain rfl | hb := List.mem_cons.mp hb
    · refine le_trans ?_ (start_le_greatest f P _ rest)
      dsimp only
      rw [if_pos hP]
      exact le_max_right _ _
    · exact ih hb _

/-- It is no more than any bound of them all. -/
theorem greatest_le {l : List β} {start bound : α} (hstart : start ≤ bound) (hl : ∀ b ∈ l, P b → f b ≤ bound) :
    greatest f P start l ≤ bound := by
  induction l generalizing start with
  | nil => exact hstart
  | cons c rest ih =>
    apply ih
    · dsimp only
      split
      · next hP => exact max_le hstart (hl c (List.mem_cons_self ..) hP)
      · exact hstart
    · exact fun b hb => hl b (List.mem_cons_of_mem _ hb)

/-- An element that bounds the others and the start is what is found. -/
theorem greatest_eq {l : List β} {b : β} {start : α} (hb : b ∈ l) (hP : P b) (hstart : start ≤ f b)
    (hl : ∀ c ∈ l, P c → f c ≤ f b) : greatest f P start l = f b :=
  le_antisymm (greatest_le f P hstart hl) (le_greatest f P hb hP start)

end Greatest

section Least
variable (f : β → α) (P : β → Prop) (zero : α) [∀ best b, Decidable (P b ∧ (best < zero ∨ f b < best))]

/-- The least value of the elements `P` holds of; a value below `zero` stands for none. -/
def least (start : α) (l : List β) : α :=
  l.foldl (fun best b => if P b ∧ (best < zero ∨ f b < best) then f b else best) start

/-- With no such element the sentinel is left. -/
theorem least_none {l : List β} (hl : ∀ b ∈ l, ¬P b) (start : α) : least f P zero start l = start := by
  induction l with
  | nil => rfl
  | cons b rest ih =>
    show least f P zero (if P b ∧ (start < zero ∨ f b < start) then f b else start) rest = start
    rw [if_neg fun h => hl b (List.mem_cons_self ..) h.1]
    exact ih fun c hc => hl c (List.mem_cons_of_mem _ hc)

/-- A value that none is below stays. -/
theorem least_stays {l : List β} {start : α} (hstart : zero ≤ start) (hl : ∀ b ∈ l, P b → start ≤ f b) :
    least f P zero start l = start := by
  induction l with
  | nil => rfl
  | cons b rest ih =>
    have hless : ¬(P b ∧ (start < zero ∨ f b < start)) := by
      rintro ⟨hP, hless | hless⟩
      · exact hstart.not_gt hless
      · exact (hl b (List.mem_cons_self ..) hP).not_gt hless
    show least f P zero (if P b ∧ (start < zero ∨ f b < start) then f b else start) rest = start
    rw [if_neg hless]
    exact ih fun c hc => hl c (List.mem_cons_of_mem _ hc)

/-- An element that none is below is what is found. -/
theorem least_eq {l : List β} {b : β} {start : α} (hb : b ∈ l) (hP : P b) (hzero : ∀ c ∈ l, zero ≤ f c)
    (hl : ∀ c ∈ l, P c → f b ≤ f c) (hstart : start < zero ∨ f b ≤ start) : least f P zero start l = f b := by
  induction l generalizing start with
  | nil => cases hb
  | cons c rest ih =>
    have hrest : ∀ d ∈ rest, P d → f b ≤ f d := fun d hd => hl d (List.mem_cons_of_mem _ hd)
    show least f P zero (if P c ∧ (start < zero ∨ f c < start) then f c else start) rest = f b
    obtain rfl | hb := List.mem_cons.mp hb
    · have hbest : (if P b ∧ (start < zero ∨ f b < start) then f b else start) = f b := by
        split
        · rfl
        · next hkept =>
          simp only [hP, true_and, not_or, not_lt] at hkept
          exact hkept.2.antisymm (hstart.resolve_left hkept.1.not_gt)
      rw [hbest]
      exact least_stays f P zero (hzero b (List.mem_cons_self ..)) hrest
    · apply ih hb (fun d hd => hzero d (List.mem_cons_of_mem _ hd)) hrest
      split
      · next hless => exact .inr (hl c (List.mem_cons_self ..) hless.1)
      · exact hstart

end Least

end Scans
