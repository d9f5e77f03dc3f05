import Mathlib.Data.List.Basic

/-! Ledgers of tentative changes.

A ledger is a list of entries, newest first, each of which gives a key a value. The
value of a key is that of its newest entry, or the value it had before there were
any (`value`). Entries are taken out again when a change is taken back, or left out
when only the settled ones count; both are filters, and the lemmas say which filters
a key does not notice. -/
namespace Ledger

structure Entry (K V : Type) where
  id : Nat
  key : K
  value : V

variable {K V : Type} [DecidableEq K]

def newest (l : List (Entry K V)) (k : K) : Option (Entry K V) := l.find? fun e => e.key = k

def value (base : K → V) (l : List (Entry K V)) (k : K) : V :=
  match newest l k with
  | some e => e.value
  | none => base k

variable {l : List (Entry K V)} {e : Entry K V} {k : K} {base : K → V} {q : Entry K V → Bool}

theorem newest_mem (h : newest l k = some e) : e ∈ l := List.mem_of_find?_eq_some h

theorem newest_none (h : newest l k = none) : ∀ e ∈ l, e.key ≠ k := by
  intro e he
  simpa using List.find?_eq_none.mp h e he

theorem value_cons (base : K → V) (e : Entry K V) (l : List (Entry K V)) (k : K) :
    value base (e :: l) k = if e.key = k then e.value else value base l k := by
  unfold value newest
  rw [List.find?_cons]
  by_cases h : e.key = k <;> simp [h]

theorem value_of_newest (h : newest l k = some e) : value base l k = e.value := by
  unfold value
  rw [h]

/-- A filter that keeps every entry of a key keeps its value. -/
theorem value_filter (h : ∀ e ∈ l, e.key = k → q e = true) :
    value base (l.filter q) k = value base l k := by
  induction l with
  | nil => rfl
  | cons e l ih =>
    have hrest := ih fun e he => h e (List.mem_cons_of_mem _ he)
    cases hq : q e
    · have hkey : e.key ≠ k := fun hk =>
        absurd ((h e (List.mem_cons_self ..) hk).symm.trans hq) Bool.false_ne_true.symm
      rw [List.filter_cons_of_neg (by simp [hq]), value_cons, if_neg hkey, hrest]
    · rw [List.filter_cons_of_pos hq, value_cons, value_cons, hrest]

/-- So does one that keeps its newest entry. -/
theorem value_filter_newest (h : newest l k = some e) (hq : q e = true) :
    value base (l.filter q) k = e.value := by
  induction l with
  | nil => cases h
  | cons d l ih =>
    unfold newest at h
    rw [List.find?_cons] at h
    by_cases hkey : d.key = k
    · simp only [hkey, decide_true, Option.some.injEq] at h
      subst h
      rw [List.filter_cons_of_pos hq, value_cons, if_pos hkey]
    · simp only [hkey, decide_false] at h
      cases hd : q d
      · rw [List.filter_cons_of_neg (by simp [hd])]
        exact ih h
      · rw [List.filter_cons_of_pos hd, value_cons, if_neg hkey]
        exact ih h

end Ledger
