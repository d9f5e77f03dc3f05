import Mathlib.Data.List.Nodup

/-! Keyed tables.

A table is a list of rows no two of which have the same key. A row is written by its key
(`upsert`), and rows are deleted by a condition on them (`deleteWhere`). Deleting is meant to
purge the rows of one owner and no others (`Purged`); it does so exactly when the condition
and the ownership agree on the rows there are. -/
namespace Tables

structure Table {ρ κ : Type} (key : ρ → κ) where
  rows : List ρ := []
  unique : (rows.map key).Nodup := by exact List.nodup_nil

namespace Table
variable {ρ κ : Type} {key : ρ → κ}

def deleteWhere (t : Table key) (p : ρ → Bool) : Table key where
  rows := t.rows.filter fun r => !p r
  unique := t.unique.sublist (List.filter_sublist.map key)

/-- A row that is written over keeps its key. -/
theorem map_key_update [DecidableEq κ] (rows : List ρ) {new : ρ} {update : ρ → ρ}
    (hupdate : ∀ r, key r = key new → key (update r) = key new) :
    (rows.map fun r => if key r = key new then update r else r).map key = rows.map key := by
  rw [List.map_map]
  refine List.map_congr_left fun r _ => ?_
  show key (if key r = key new then update r else r) = key r
  split
  · next hkey => rw [hupdate r hkey, hkey]
  · rfl

/-- A new row, or what becomes of the row that has its key. -/
def upsert [DecidableEq κ] (t : Table key) (new : ρ) (update : ρ → ρ)
    (hupdate : ∀ r, key r = key new → key (update r) = key new) : Table key :=
  if h : key new ∈ t.rows.map key then
    { rows := t.rows.map fun r => if key r = key new then update r else r
      unique := by
        rw [map_key_update t.rows hupdate]
        exact t.unique }
  else
    { rows := t.rows ++ [new]
      unique := by
        rw [List.map_append, List.nodup_append]
        refine ⟨t.unique, List.nodup_singleton _, fun k hk k' hk' => ?_⟩
        rw [List.map_singleton, List.mem_singleton] at hk'
        exact fun he => h (hk' ▸ he ▸ hk) }

/-- The row that `upsert` writes. -/
def written [DecidableEq κ] (t : Table key) (new : ρ) (update : ρ → ρ) : ρ :=
  match t.rows.find? fun r => key r = key new with
  | some old => update old
  | none => new

theorem filter_key [DecidableEq κ] {rows : List ρ} (hrows : (rows.map key).Nodup) {old : ρ} (hold : old ∈ rows) :
    rows.filter (key · = key old) = [old] := by
  induction rows with
  | nil => cases hold
  | cons r rows ih =>
    rw [List.map_cons, List.nodup_cons] at hrows
    rcases List.mem_cons.mp hold with rfl | hold
    · rw [List.filter_cons_of_pos (by simp), List.filter_eq_nil_iff.mpr]
      intro r hr he
      exact hrows.1 (of_decide_eq_true he ▸ List.mem_map_of_mem hr)
    · have hne : key r ≠ key old := fun he => hrows.1 (he ▸ List.mem_map_of_mem hold)
      rw [List.filter_cons_of_neg (by simpa using hne), ih hrows.2 hold]

/-- After a write there is the row written, and every row of another key. -/
theorem upsert_perm [DecidableEq κ] (t : Table key) {new : ρ} {update : ρ → ρ}
    (hupdate : ∀ r, key r = key new → key (update r) = key new) :
    (t.upsert new update hupdate).rows.Perm (t.written new update :: t.rows.filter (key · ≠ key new)) := by
  unfold upsert written
  cases hfound : t.rows.find? fun r => key r = key new with
  | none =>
    have hnone := List.find?_eq_none.mp hfound
    have hkey : key new ∉ t.rows.map key := by
      intro hmem
      obtain ⟨r, hr, hr'⟩ := List.mem_map.mp hmem
      exact hnone r hr (by simpa using hr')
    rw [dif_neg hkey, List.filter_eq_self.mpr fun r hr => by simpa using hnone r hr]
    exact List.perm_append_singleton new t.rows
  | some old =>
    have hold := List.mem_of_find?_eq_some hfound
    have hkey : key old = key new := by simpa using List.find?_some hfound
    rw [dif_pos (hkey ▸ List.mem_map_of_mem hold)]
    dsimp only
    have hsplit : (old :: t.rows.filter (key · ≠ key new)).Perm t.rows := by
      have hperm := List.filter_append_perm (fun r => decide (key r = key new)) t.rows
      rw [show t.rows.filter (key · = key new) = [old] from hkey ▸ filter_key t.unique hold] at hperm
      simpa using hperm
    refine (hsplit.symm.map _).trans ?_
    rw [List.map_cons, if_pos hkey]
    refine List.Perm.of_eq (congrArg (update old :: ·) ?_)
    refine (List.map_congr_left fun r hr => ?_).trans (List.map_id _)
    exact if_neg (of_decide_eq_true (List.mem_filter.mp hr).2)

/-! ### Keys -/

def keys (t : Table key) : List κ := t.rows.map key

theorem mem_keys_upsert [DecidableEq κ] (t : Table key) {new : ρ} {update : ρ → ρ}
    (hupdate : ∀ r, key r = key new → key (update r) = key new) (k : κ) :
    k ∈ (t.upsert new update hupdate).keys ↔ k = key new ∨ k ∈ t.keys := by
  unfold upsert keys
  split
  · next h =>
    dsimp only
    rw [map_key_update t.rows hupdate]
    exact ⟨.inr, fun hk => hk.elim (fun he => he ▸ h) id⟩
  · dsimp only
    rw [List.map_append, List.mem_append, List.map_singleton, List.mem_singleton]
    exact or_comm

/-- What is deleted takes its key along. -/
theorem mem_keys_deleteWhere (t : Table key) {p : ρ → Bool} {k : κ} (h : k ∈ (t.deleteWhere p).keys) : k ∈ t.keys :=
  (List.filter_sublist.map key).subset h

theorem mem_keys_deleteKey [BEq κ] [LawfulBEq κ] (t : Table key) (k k' : κ) :
    k ∈ (t.deleteWhere (key · == k')).keys ↔ k ∈ t.keys ∧ k ≠ k' := by
  unfold keys deleteWhere
  simp only [List.mem_map, List.mem_filter, Bool.not_eq_true', beq_eq_false_iff_ne]
  constructor
  · rintro ⟨r, ⟨hr, hne⟩, rfl⟩
    exact ⟨⟨r, hr, rfl⟩, hne⟩
  · rintro ⟨⟨r, hr, rfl⟩, hne⟩
    exact ⟨r, ⟨hr, hne⟩, rfl⟩

/-! ### Purging -/

variable {p : ρ → Bool} {owned : ρ → Prop} [DecidablePred owned]

/-- No row of the owner is left, and every other row is as it was. -/
structure Purged (owned : ρ → Prop) [DecidablePred owned] (t t' : Table key) : Prop where
  gone : ∀ r ∈ t'.rows, ¬owned r
  others : t'.rows.filter (¬owned ·) = t.rows.filter (¬owned ·)

/-- **A deletion purges an owner** if and only if it is of just the owner's rows. -/
theorem purged_iff (t : Table key) : Purged owned t (t.deleteWhere p) ↔ ∀ r ∈ t.rows, (p r = true ↔ owned r) := by
  constructor
  · rintro ⟨hgone, hothers⟩ r hr
    constructor
    · intro hp
      by_contra hown
      have hmem : r ∈ (t.deleteWhere p).rows.filter (¬owned ·) := by
        rw [hothers, List.mem_filter]
        exact ⟨hr, by simpa using hown⟩
      have hkept := (List.mem_filter.mp (List.mem_filter.mp hmem).1).2
      rw [hp] at hkept
      cases hkept
    · intro hown
      by_contra hp
      exact hgone r (List.mem_filter.mpr ⟨hr, by simpa using hp⟩) hown
  · intro h
    constructor
    · intro r hr hown
      obtain ⟨hr, hp⟩ := List.mem_filter.mp hr
      rw [(h r hr).mpr hown] at hp
      cases hp
    · show (t.rows.filter _).filter _ = _
      rw [List.filter_filter]
      refine List.filter_congr fun r hr => ?_
      by_cases hown : owned r
      · simp [hown]
      · have hp : p r = false := by
          by_contra hp
          exact hown ((h r hr).mp (by simpa using hp))
        simp [hown, hp]

end Table

end Tables
