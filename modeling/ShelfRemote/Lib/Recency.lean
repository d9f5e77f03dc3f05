import Mathlib.Data.List.Nodup

/-! Who was touched last, and tables that are to tell.

A history is a list of keys, newest first; `recent` lists each key once, in the order of its
last entry. A table keeps one row for each key and orders its rows by what stands in them
(`order`). The two agree or not by what is written: taking rows out never puts the order
wrong (`order_filter`), and a row written keeps it right if and only if it comes before all
the others (`order_front_iff`). -/
namespace Recency

section History
variable {κ : Type}

/-- Lists that agree on their first elements, however many, are the same. -/
theorem eq_of_take_perm {l l' : List κ} (h : ∀ n, (l.take n).Perm (l'.take n)) : l = l' := by
  induction l generalizing l' with
  | nil =>
    have hnil := (h l'.length).symm
    rw [List.take_nil, List.take_length] at hnil
    exact hnil.eq_nil.symm
  | cons a l ih =>
    cases l' with
    | nil => exact nomatch (h 1).eq_nil
    | cons b l' =>
      have hhead : a = b := List.singleton_perm_singleton.mp (h 1)
      subst hhead
      exact congrArg (a :: ·) (ih fun n => (List.perm_cons a).mp (h (n + 1)))

variable [DecidableEq κ]

def recent : List κ → List κ
  | [] => []
  | k :: older => k :: (recent older).filter (· ≠ k)

end History

section Order
variable {ρ κ : Type} {le : ρ → ρ → Bool} {key : ρ → κ} {rows rows' rest : List ρ} {w : ρ}

/-- The rows can be told apart by their order. -/
structure Orders (le : ρ → ρ → Bool) (rows : List ρ) : Prop where
  trans : ∀ a b c, le a b = true → le b c = true → le a c = true
  total : ∀ a b, (le a b || le b a) = true
  strict : ∀ a ∈ rows, ∀ b ∈ rows, le a b = true → le b a = true → a = b

theorem Orders.subset (h : Orders le rows) (hsub : rows' ⊆ rows) : Orders le rows' :=
  {h with strict := fun a ha b hb => h.strict a (hsub ha) b (hsub hb)}

/-- There is one way to put them in order. -/
theorem Orders.unique (h : Orders le rows) {l : List ρ} (hperm : l.Perm rows)
    (hl : l.Pairwise fun a b => le a b = true) :
    rows.mergeSort le = l :=
  (List.mergeSort_perm rows le |>.trans hperm.symm).eq_of_pairwise
    (fun a b ha hb => h.strict a (List.mem_mergeSort.mp ha) b (hperm.subset hb))
    (List.pairwise_mergeSort h.trans h.total rows) hl

/-- The keys, in the order of their rows. -/
def order (le : ρ → ρ → Bool) (key : ρ → κ) (rows : List ρ) : List κ := (rows.mergeSort le).map key

theorem order_perm (le : ρ → ρ → Bool) (key : ρ → κ) (rows : List ρ) : (order le key rows).Perm (rows.map key) :=
  (List.mergeSort_perm rows le).map key

theorem order_filter (h : Orders le rows) (q : κ → Bool) :
    order le key (rows.filter fun r => q (key r)) = (order le key rows).filter q := by
  have hsorted : (rows.filter fun r => q (key r)).mergeSort le = (rows.mergeSort le).filter fun r => q (key r) :=
    (h.subset List.filter_sublist.subset).unique ((List.mergeSort_perm rows le).filter _)
      ((List.pairwise_mergeSort h.trans h.total rows).filter _)
  unfold order
  rw [hsorted, List.filter_map]
  rfl

/-- A row comes first in the order if and only if it comes before every other one. -/
theorem order_front_iff (h : Orders le rows) (hperm : rows.Perm (w :: rest)) (hkeys : (rows.map key).Nodup) :
    order le key rows = key w :: order le key rest ↔ ∀ r ∈ rest, le w r = true := by
  have hrest : rest ⊆ rows := fun r hr => hperm.symm.subset (List.mem_cons_of_mem w hr)
  have hw : w ∈ rows := hperm.symm.subset (List.mem_cons_self ..)
  constructor
  · intro hfront
    unfold order at hfront
    cases hsorted : rows.mergeSort le with
    | nil => simp [hsorted] at hfront
    | cons first others =>
      rw [hsorted, List.map_cons] at hfront
      have hmem : first ∈ rows := List.mem_mergeSort.mp (hsorted ▸ List.mem_cons_self ..)
      have hfirst : first = w := List.inj_on_of_nodup_map hkeys hmem hw (List.cons.inj hfront).1
      have hpair := List.pairwise_mergeSort h.trans h.total rows
      rw [hsorted, hfirst, List.pairwise_cons] at hpair
      have hothers := (List.mergeSort_perm rows le).trans hperm
      rw [hsorted, hfirst] at hothers
      exact fun r hr => hpair.1 r (((List.perm_cons w).mp hothers).symm.subset hr)
  · intro hbefore
    have hsorted : rows.mergeSort le = w :: rest.mergeSort le :=
      h.unique (((List.mergeSort_perm rest le).cons w).trans hperm.symm)
        (List.pairwise_cons.mpr ⟨fun r hr => hbefore r (List.mem_mergeSort.mp hr),
          List.pairwise_mergeSort h.trans h.total rest⟩)
    unfold order
    rw [hsorted, List.map_cons]

end Order

end Recency
