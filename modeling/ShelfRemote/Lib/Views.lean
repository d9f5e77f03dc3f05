import Mathlib.Data.List.Forall2

/-! List models and the views that follow them.

A model shows rows through `data`, role by role, and announces what changes in it. A view
keeps rows of its own and does no more than what is announced (`follow`). A notice that
tells the change as it is (`Tells`) takes a view that held the rows before it to the rows
after it, whatever the model is. -/
namespace Views
variable {ρ δ : Type}

/-- What a model shows: the number of its rows, and of each the data in every role. -/
structure Source (ρ δ : Type) where
  rowCount : Nat
  data : Nat → ρ → δ

namespace Source

/-- Some rows, read one after another. -/
def read (s : Source ρ δ) (first count : Nat) : List (ρ → δ) := (List.range' first count).map s.data

def rows (s : Source ρ δ) : List (ρ → δ) := s.read 0 s.rowCount

@[simp] theorem rows_length (s : Source ρ δ) : s.rows.length = s.rowCount := by simp [rows, read]

/-- Rows in the middle are read as what they are. -/
theorem read_of_rows {s : Source ρ δ} {head mid tail : List (ρ → δ)} (h : s.rows = head ++ mid ++ tail) :
    s.read head.length mid.length = mid := by
  have hlength : head.length + mid.length + tail.length = s.rowCount := by
    rw [← s.rows_length, h, List.length_append, List.length_append]
  have hmid : (s.rows.drop head.length).take mid.length = mid := by
    rw [h, List.append_assoc, List.drop_left, List.take_left]
  rw [← hmid]
  unfold rows read
  rw [List.map_drop.symm, List.map_take.symm, List.drop_range', List.take_range'_of_length_ge (by simp; omega)]
  simp

end Source

/-- What a model announces; no roles stand for all of them. -/
inductive Notice (ρ : Type) where
  | reset
  | inserted (first last : Int)
  | removed (first last : Int)
  | changed (first last : Int) (roles : List ρ)
  deriving DecidableEq

variable [DecidableEq ρ]

/-- A row of which only some roles are read again. -/
def refresh (roles : List ρ) (old new : ρ → δ) : ρ → δ := fun role =>
  if roles = [] ∨ role ∈ roles then new role else old role

/-- How many rows are announced. -/
def count (first last : Int) : Nat := (last + 1 - first).toNat

/-- What a view does: it reads the rows that are announced, and no others. -/
def follow (s : Source ρ δ) (view : List (ρ → δ)) : Notice ρ → List (ρ → δ)
  | .reset => s.rows
  | .inserted first last =>
    view.take first.toNat ++ s.read first.toNat (count first last) ++ view.drop first.toNat
  | .removed first last => view.take first.toNat ++ view.drop (last + 1).toNat
  | .changed first last roles =>
    view.take first.toNat ++
      List.zipWith (refresh roles) ((view.drop first.toNat).take (count first last))
        (s.read first.toNat (count first last)) ++
      view.drop (last + 1).toNat

/-- The notice is about just the rows that changed. -/
inductive Tells (before after : Source ρ δ) : Notice ρ → Prop where
  | reset : Tells before after .reset
  | inserted (head mid tail : List (ρ → δ)) (hmid : mid ≠ []) (hbefore : before.rows = head ++ tail)
      (hafter : after.rows = head ++ mid ++ tail) :
      Tells before after (.inserted head.length (head.length + mid.length - 1))
  | removed (head mid tail : List (ρ → δ)) (hmid : mid ≠ []) (hbefore : before.rows = head ++ mid ++ tail)
      (hafter : after.rows = head ++ tail) :
      Tells before after (.removed head.length (head.length + mid.length - 1))
  | changed (head old new tail : List (ρ → δ)) (roles : List ρ) (hold : old ≠ [])
      (hbefore : before.rows = head ++ old ++ tail) (hafter : after.rows = head ++ new ++ tail)
      (hothers : List.Forall₂ (fun o n => ∀ role, ¬(roles = [] ∨ role ∈ roles) → o role = n role) old new) :
      Tells before after (.changed head.length (head.length + old.length - 1) roles)

theorem count_range (n k : Nat) : count n (n + k - 1) = k := by
  unfold count
  omega

theorem refresh_all {roles : List ρ} {old new : List (ρ → δ)}
    (h : List.Forall₂ (fun o n => ∀ role, ¬(roles = [] ∨ role ∈ roles) → o role = n role) old new) :
    List.zipWith (refresh roles) old new = new := by
  induction h with
  | nil => rfl
  | cons hrow _ ih =>
    rw [List.zipWith_cons_cons, ih]
    congr 1
    funext role
    unfold refresh
    split
    · rfl
    · next hother => exact hrow role hother

/-- **A view that held the rows holds them again** when it has done what a true notice says. -/
theorem Tells.follow {before after : Source ρ δ} {notice : Notice ρ} (h : Tells before after notice) :
    follow after before.rows notice = after.rows := by
  cases h with
  | reset => rfl
  | inserted head mid tail _ hbefore hafter =>
    unfold Views.follow
    dsimp only
    rw [count_range, Int.toNat_natCast, Source.read_of_rows hafter, hbefore, List.take_left, List.drop_left, hafter]
  | removed head mid tail _ hbefore hafter =>
    have hlast : ((head.length : Int) + mid.length - 1 + 1).toNat = (head ++ mid).length := by
      rw [List.length_append]
      omega
    unfold Views.follow
    dsimp only
    rw [Int.toNat_natCast, hlast, hbefore, List.drop_left, List.append_assoc, List.take_left, hafter]
  | changed head old new tail roles _ hbefore hafter hothers =>
    have hlength := hothers.length_eq
    have hlast : ((head.length : Int) + old.length - 1 + 1).toNat = (head ++ old).length := by
      rw [List.length_append]
      omega
    have hold : ((head ++ old ++ tail).drop head.length).take old.length = old := by
      rw [List.append_assoc, List.drop_left, List.take_left]
    have hread := Source.read_of_rows hafter
    unfold Views.follow
    dsimp only
    rw [count_range, Int.toNat_natCast, hlast, hbefore, hold, hlength, hread, refresh_all hothers, List.drop_left,
      List.append_assoc head old, List.take_left, hafter]

end Views
