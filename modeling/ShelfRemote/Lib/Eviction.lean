import Mathlib.Algebra.BigOperators.Group.List.Basic
import Mathlib.Algebra.Order.Ring.Int
import Mathlib.Data.List.Perm.Basic

/-! Eviction from a list until what is left fits.

The list is walked from the front with a running total. An element that can be removed is
evicted and its size taken off the total; one that cannot is passed over; the walk stops as
soon as the total fits (`walk`). Where the list is in the order of eviction, no element that
could have been removed stays behind one that was (`walk_evicts`). -/
namespace Eviction

structure Outcome (α : Type) where
  evicted : List α
  kept : List α

variable {α : Type} (size : α → Int) (removable : α → Bool)

def total (l : List α) : Int := (l.map size).sum

@[simp] theorem total_cons (a : α) (l : List α) : total size (a :: l) = size a + total size l := rfl

@[simp] theorem total_append (l l' : List α) : total size (l ++ l') = total size l + total size l' := by
  unfold total
  rw [List.map_append, List.sum_append]

theorem total_perm {l l' : List α} (h : l.Perm l') : total size l = total size l' := (h.map size).sum_eq

def walk (limit : Int) : Int → List α → Outcome α
  | _, [] => ⟨[], []⟩
  | running, a :: rest =>
    if running ≤ limit then ⟨[], a :: rest⟩
    else if removable a then
      let o := walk limit (running - size a) rest
      ⟨a :: o.evicted, o.kept⟩
    else
      let o := walk limit running rest
      ⟨o.evicted, a :: o.kept⟩

/-- What is owed of an eviction: nothing is lost, the first go first, no more go than have
to, and enough of them. -/
structure Evicts (older : α → α → Prop) (limit : Int) (l : List α) (o : Outcome α) : Prop where
  perm : (o.evicted ++ o.kept).Perm l
  could : ∀ a ∈ o.evicted, removable a = true
  ordered : o.evicted.Pairwise older
  oldest : ∀ a ∈ o.evicted, ∀ b ∈ o.kept, removable b = true → older a b
  /-- Had the eviction stopped before any one of its elements, the rest would not fit. -/
  needed : ∀ earlier a later, o.evicted = earlier ++ a :: later → limit < total size (a :: later ++ o.kept)
  enough : total size o.kept ≤ limit ∨ ∀ a ∈ o.kept, removable a = false

variable {size removable} {limit : Int} {l : List α} {older : α → α → Prop}

theorem walk_perm (running : Int) (l : List α) :
    ((walk size removable limit running l).evicted ++ (walk size removable limit running l).kept).Perm l := by
  induction l generalizing running with
  | nil => rfl
  | cons a rest ih =>
    unfold walk
    split_ifs
    · rfl
    · exact (ih _).cons a
    · exact List.perm_middle.trans ((ih _).cons a)

theorem walk_removable (running : Int) (l : List α) :
    ∀ a ∈ (walk size removable limit running l).evicted, removable a = true := by
  induction l generalizing running with
  | nil => exact fun _ ha => nomatch ha
  | cons a rest ih =>
    unfold walk
    split_ifs with hfits hremovable
    · exact fun _ ha => nomatch ha
    · exact List.forall_mem_cons.mpr ⟨hremovable, ih _⟩
    · exact ih _

theorem walk_sublist (running : Int) (l : List α) : (walk size removable limit running l).evicted.Sublist l := by
  induction l generalizing running with
  | nil => exact .slnil
  | cons a rest ih =>
    unfold walk
    split_ifs
    · exact List.nil_sublist _
    · exact (ih _).cons_cons a
    · exact (ih _).cons a

theorem walk_oldest (running : Int) (hl : l.Pairwise older) :
    ∀ a ∈ (walk size removable limit running l).evicted, ∀ b ∈ (walk size removable limit running l).kept,
      removable b = true → older a b := by
  induction l generalizing running with
  | nil => exact fun _ ha => nomatch ha
  | cons first rest ih =>
    obtain ⟨hfirst, hrest⟩ := List.pairwise_cons.mp hl
    unfold walk
    split_ifs with hfits hremovable
    · exact fun _ ha => nomatch ha
    · intro a ha b hb
      rcases List.mem_cons.mp ha with rfl | ha
      · exact fun _ => hfirst b ((walk_perm _ rest).subset (List.mem_append_right _ hb))
      · exact ih _ hrest a ha b hb
    · intro a ha b hb hb'
      rcases List.mem_cons.mp hb with rfl | hb
      · exact absurd hb' hremovable
      · exact ih _ hrest a ha b hb hb'

/-- Before every eviction the running total does not fit. -/
theorem walk_needed (running : Int) (l : List α) (earlier : List α) (a : α) (later : List α)
    (h : (walk size removable limit running l).evicted = earlier ++ a :: later) :
    limit < running - total size earlier := by
  induction l generalizing running earlier with
  | nil => simp [walk] at h
  | cons first rest ih =>
    unfold walk at h
    split_ifs at h with hfits hremovable
    · simp at h
    · cases earlier with
      | nil => exact (Int.not_le.mp hfits).trans_eq (sub_zero running).symm
      | cons b earlier =>
        simp only [List.cons_append, List.cons.injEq] at h
        obtain ⟨rfl, h⟩ := h
        have hrest := ih _ earlier h
        rwa [sub_sub, ← total_cons] at hrest
    · exact ih _ earlier h

/-- In the end it fits, or nothing that could be removed is left. -/
theorem walk_enough (running : Int) (l : List α) :
    running - total size (walk size removable limit running l).evicted ≤ limit ∨
      ∀ a ∈ (walk size removable limit running l).kept, removable a = false := by
  induction l generalizing running with
  | nil => exact .inr fun _ ha => nomatch ha
  | cons first rest ih =>
    unfold walk
    split_ifs with hfits hremovable
    · exact .inl ((sub_zero running).trans_le hfits)
    · rw [total_cons, ← sub_sub]
      exact ih _
    · exact (ih _).imp id fun hrest => List.forall_mem_cons.mpr ⟨by simpa using hremovable, hrest⟩

/-- **A walk evicts** from the front of an ordered list, as much as it has to. -/
theorem walk_evicts (hl : l.Pairwise older) :
    Evicts size removable older limit l (walk size removable limit (total size l) l) := by
  have hperm : (_ ++ (walk size removable limit (total size l) l).kept).Perm l := walk_perm _ l
  have htotal := total_perm size hperm
  rw [total_append] at htotal
  refine ⟨hperm, walk_removable _ l, hl.sublist (walk_sublist _ l), walk_oldest _ hl, ?_, ?_⟩
  · intro earlier a later h
    have hneeded := walk_needed _ l earlier a later h
    rw [h, total_append] at htotal
    rw [total_append]
    omega
  · refine (walk_enough _ l).imp (fun hfits => ?_) id
    omega

/-- What is evicted from counts up to order. -/
theorem Evicts.of_perm {l' : List α} {o : Outcome α} (h : Evicts size removable older limit l o) (hl : l.Perm l') :
    Evicts size removable older limit l' o :=
  {h with perm := h.perm.trans hl}

/-- So does what is kept. -/
theorem Evicts.keep {evicted kept kept' : List α} (h : Evicts size removable older limit l ⟨evicted, kept⟩)
    (hkept : kept.Perm kept') : Evicts size removable older limit l ⟨evicted, kept'⟩ where
  perm := (hkept.symm.append_left evicted).trans h.perm
  could := h.could
  ordered := h.ordered
  oldest := fun a ha b hb => h.oldest a ha b (hkept.mem_iff.mpr hb)
  needed := by
    intro earlier a later hevicted
    rw [total_perm size (hkept.symm.append_left (a :: later))]
    exact h.needed earlier a later hevicted
  enough := by
    rw [total_perm size hkept.symm]
    exact h.enough.imp id fun hnone a ha => hnone a (hkept.mem_iff.mpr ha)

end Eviction
