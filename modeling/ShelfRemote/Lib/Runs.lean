import Mathlib.Data.List.Perm.Basic
import Mathlib.Data.List.Count

/-! Runs of a machine that takes one event after another.

A machine is a step function; a run feeds it a list of events. What holds of
every step of a run is said with `Along`: each event stands in a relation to the
state it is taken in. An invariant may lean on a rule about the events
(`Keeps`): where every step of a run meets the rule, the invariant holds after it
(`Keeps.run`), and whatever follows from the invariant and the rule for one step
holds along the whole run (`Keeps.along`).

The rest of the file is what runs of asynchronous machines keep needing: taking
one piece of outstanding work out of a list (`pick`), and histories in which each
entry is justified by the entries before it (`Justified`). -/
namespace Runs

structure Machine (S E : Type) where
  step : S → E → S

namespace Machine
variable {S E : Type} (M : Machine S E)

def run (s : S) : List E → S
  | [] => s
  | e :: rest => run (M.step s e) rest

/-- Every event of the run stands in `R` to the state it is taken in. -/
def Along (R : S → E → Prop) (s : S) : List E → Prop
  | [] => True
  | e :: rest => R s e ∧ Along R (M.step s e) rest

variable {M}
variable {R R' : S → E → Prop}

theorem run_append (s : S) (a b : List E) : M.run s (a ++ b) = M.run (M.run s a) b := by
  induction a generalizing s with
  | nil => rfl
  | cons e rest ih => exact ih _

theorem along_append (s : S) (a b : List E) :
    M.Along R s (a ++ b) ↔ M.Along R s a ∧ M.Along R (M.run s a) b := by
  induction a generalizing s with
  | nil => simp [Along, run]
  | cons e rest ih => simp only [List.cons_append, Along, run, ih, and_assoc]

theorem Along.mono (hR : ∀ s e, R s e → R' s e) {s : S} {es : List E} (h : M.Along R s es) :
    M.Along R' s es := by
  induction es generalizing s with
  | nil => trivial
  | cons e rest ih => exact ⟨hR s e h.1, ih h.2⟩

theorem Along.and {s : S} {es : List E} (h : M.Along R s es) (h' : M.Along R' s es) :
    M.Along (fun s e => R s e ∧ R' s e) s es := by
  induction es generalizing s with
  | nil => trivial
  | cons e rest ih => exact ⟨⟨h.1, h'.1⟩, ih h.2 h'.2⟩

theorem along_of_forall (hR : ∀ s e, R s e) (s : S) (es : List E) : M.Along R s es := by
  induction es generalizing s with
  | nil => trivial
  | cons e rest ih => exact ⟨hR s e, ih _⟩

theorem along_of_mem {R : E → Prop} {es : List E} (hR : ∀ e ∈ es, R e) (s : S) :
    M.Along (fun _ e => R e) s es := by
  induction es generalizing s with
  | nil => trivial
  | cons e rest ih =>
    exact ⟨hR e (List.mem_cons_self ..), ih (fun e he => hR e (List.mem_cons_of_mem _ he)) _⟩

instance decidableAlong [∀ s e, Decidable (R s e)] :
    (s : S) → (es : List E) → Decidable (M.Along R s es)
  | _, [] => .isTrue trivial
  | s, e :: rest =>
    have := decidableAlong (M.step s e) rest
    inferInstanceAs (Decidable (R s e ∧ M.Along R (M.step s e) rest))

/-- What an event brings about for good holds after a run if it held before or one of the
events brought it about. -/
theorem run_iff_exists {P : S → Prop} {R : E → Prop} (h : ∀ s e, P (M.step s e) ↔ P s ∨ R e) (s : S) (es : List E) :
    P (M.run s es) ↔ P s ∨ ∃ e ∈ es, R e := by
  induction es generalizing s with
  | nil => simp [run]
  | cons e rest ih =>
    rw [run, ih, h, or_assoc]
    simp only [List.mem_cons, exists_eq_or_imp]

/-- `Inv` survives every event that meets `Rule`. -/
structure Keeps (M : Machine S E) (Rule : S → E → Prop) (Inv : S → Prop) : Prop where
  step : ∀ s e, Inv s → Rule s e → Inv (M.step s e)

variable {Rule : S → E → Prop} {Inv : S → Prop}

/-- An invariant holds after every run whose steps meet its rule. -/
theorem Keeps.run (h : Keeps M Rule Inv) {s : S} {es : List E} (hs : Inv s)
    (hes : M.Along Rule s es) : Inv (M.run s es) := by
  induction es generalizing s with
  | nil => exact hs
  | cons e rest ih => exact ih (h.step s e hs hes.1) hes.2

/-- What an invariant and its rule give for one step holds along the run. -/
theorem Keeps.along (h : Keeps M Rule Inv) (hR : ∀ s e, Inv s → Rule s e → R s e) {s : S}
    {es : List E} (hs : Inv s) (hes : M.Along Rule s es) : M.Along R s es := by
  induction es generalizing s with
  | nil => trivial
  | cons e rest ih => exact ⟨hR s e hs hes.1, ih (h.step s e hs hes.1) hes.2⟩

/-- What every event keeps holds after every run. -/
theorem Keeps.always (h : Keeps M (fun _ _ => True) Inv) {s : S} (hs : Inv s) (es : List E) : Inv (M.run s es) :=
  h.run hs (along_of_forall (fun _ _ => trivial) s es)

/-- What follows from an invariant that every event keeps holds along every run. -/
theorem Keeps.always_along (h : Keeps M (fun _ _ => True) Inv) (hR : ∀ s e, Inv s → R s e) {s : S} (hs : Inv s)
    (es : List E) : M.Along R s es :=
  h.along (fun s e hs _ => hR s e hs) hs (along_of_forall (fun _ _ => trivial) s es)

/-- Every step that meets `Rule` reaches `Goal` or keeps `Inv`, and the events that count
use up some of a measure. -/
structure Spends (M : Machine S E) (Rule : S → E → Prop) (Inv Goal : S → Prop) (counts : E → Bool)
    (measure : S → Nat) : Prop where
  pos : ∀ s, Inv s → 0 < measure s
  step : ∀ s e, Inv s → Rule s e → Goal (M.step s e) ∨
    Inv (M.step s e) ∧ measure (M.step s e) + (if counts e then 1 else 0) ≤ measure s

/-- A run with enough events that count reaches the goal. -/
theorem Spends.reaches {Goal : S → Prop} {counts : E → Bool} {measure : S → Nat}
    (h : Spends M Rule Inv Goal counts measure) {s : S} {es : List E} (hs : Inv s)
    (hes : M.Along Rule s es) (henough : measure s ≤ es.countP counts) :
    ∃ before after, es = before ++ after ∧ before.countP counts ≤ measure s ∧ Goal (M.run s before) := by
  induction es generalizing s with
  | nil => exact absurd (h.pos s hs) (Nat.not_lt.mpr henough)
  | cons e rest ih =>
    rw [List.countP_cons] at henough
    rcases h.step s e hs hes.1 with hgoal | ⟨hinv, hless⟩
    · refine ⟨[e], rest, rfl, ?_, hgoal⟩
      have hone : [e].countP counts ≤ 1 := List.countP_le_length
      exact Nat.le_trans hone (h.pos s hs)
    · obtain ⟨before, after, rfl, hcount, hgoal⟩ := ih hinv hes.2 (by omega)
      refine ⟨e :: before, after, rfl, ?_, hgoal⟩
      rw [List.countP_cons]
      omega

/-- Beside an invariant of every run: what a step keeps if and only if it meets a rule holds
after the runs that meet the rule throughout, and from there it is the rule that decides. -/
theorem Keeps.exactly (h : Keeps M (fun _ _ => True) Inv) {Good : S → Prop}
    (hgood : ∀ s e, Inv s → Good s → (Good (M.step s e) ↔ Rule s e)) {s : S} {es : List E} (hs : Inv s)
    (hstart : Good s) (hes : M.Along Rule s es) :
    Inv (M.run s es) ∧ Good (M.run s es) ∧ ∀ e, Good (M.step (M.run s es) e) ↔ Rule (M.run s es) e := by
  have hkeeps : Keeps M Rule (fun s => Inv s ∧ Good s) :=
    ⟨fun s e hs he => ⟨h.step s e hs.1 trivial, (hgood s e hs.1 hs.2).mpr he⟩⟩
  obtain ⟨hinv, hrun⟩ := hkeeps.run ⟨hs, hstart⟩ hes
  exact ⟨hinv, hrun, fun e => hgood _ e hinv hrun⟩

end Machine

/-! ### Outstanding work -/

section Pick
variable {α : Type} {p : α → Bool}

/-- The first element `p` accepts, and the list without it. -/
def pick (p : α → Bool) : List α → Option (α × List α)
  | [] => none
  | a :: rest => if p a then some (a, rest) else (pick p rest).map fun r => (r.1, a :: r.2)

/-- `R` holds of the element picked. -/
def Picked (R : α → Prop) : Option (α × List α) → Prop
  | some (a, _) => R a
  | none => False

instance {R : α → Prop} [∀ a, Decidable (R a)] : (picked : Option (α × List α)) → Decidable (Picked R picked)
  | some (a, _) => inferInstanceAs (Decidable (R a))
  | none => .isFalse id

theorem pick_perm {l rest : List α} {a : α} (h : pick p l = some (a, rest)) :
    l.Perm (a :: rest) := by
  induction l generalizing rest with
  | nil => cases h
  | cons b l ih =>
    unfold pick at h
    split at h
    · simp only [Option.some.injEq, Prod.mk.injEq] at h
      rw [h.1, h.2]
    · obtain ⟨r, hr, he⟩ := Option.map_eq_some_iff.mp h
      simp only [Prod.mk.injEq] at he
      obtain ⟨rfl, rfl⟩ := he
      exact ((ih hr).cons b).trans (.swap ..)

theorem pick_accepts {l rest : List α} {a : α} (h : pick p l = some (a, rest)) : p a = true := by
  induction l generalizing rest with
  | nil => cases h
  | cons b l ih =>
    unfold pick at h
    split at h
    · next hb =>
      simp only [Option.some.injEq, Prod.mk.injEq] at h
      rw [← h.1]
      exact hb
    · obtain ⟨r, hr, he⟩ := Option.map_eq_some_iff.mp h
      simp only [Prod.mk.injEq] at he
      obtain ⟨rfl, rfl⟩ := he
      exact ih hr

theorem pick_none {l : List α} (h : pick p l = none) : ∀ a ∈ l, p a = false := by
  induction l with
  | nil => exact fun _ ha => nomatch ha
  | cons b l ih =>
    unfold pick at h
    split at h
    · cases h
    · next hb =>
      exact List.forall_mem_cons.mpr ⟨by simpa using hb, ih (Option.map_eq_none_iff.mp h)⟩

theorem pick_mem {l rest : List α} {a : α} (h : pick p l = some (a, rest)) : a ∈ l :=
  (pick_perm h).mem_iff.mpr (List.mem_cons_self ..)

theorem pick_rest {l rest : List α} {a b : α} (h : pick p l = some (a, rest)) (hb : b ∈ rest) :
    b ∈ l :=
  (pick_perm h).mem_iff.mpr (List.mem_cons_of_mem _ hb)

theorem pick_sublist {l rest : List α} {a : α} (h : pick p l = some (a, rest)) : rest.Sublist l := by
  induction l generalizing rest with
  | nil => cases h
  | cons b l ih =>
    unfold pick at h
    split at h
    · simp only [Option.some.injEq, Prod.mk.injEq] at h
      exact h.2 ▸ List.sublist_cons_self ..
    · obtain ⟨r, hr, he⟩ := Option.map_eq_some_iff.mp h
      simp only [Prod.mk.injEq] at he
      obtain ⟨rfl, rfl⟩ := he
      exact (ih hr).cons_cons b

theorem pick_pairwise {R : α → α → Prop} (hR : ∀ {a b}, R a b → R b a) {l rest : List α} {a : α}
    (h : pick p l = some (a, rest)) (hl : l.Pairwise R) : ∀ b ∈ rest, R a b :=
  (List.pairwise_cons.mp ((pick_perm h).pairwise hl hR)).1

theorem pick_count {l rest : List α} {a : α} (h : pick p l = some (a, rest)) (q : α → Bool) :
    l.countP q = rest.countP q + if q a then 1 else 0 := by
  rw [(pick_perm h).countP_eq, List.countP_cons]

end Pick

/-! ### Histories -/

section History
variable {α : Type} {ok : List α → α → Prop}

/-- A history, newest entry first, each entry of which `ok` accepts given the
entries before it. -/
def Justified (ok : List α → α → Prop) : List α → Prop
  | [] => True
  | a :: older => ok older a ∧ Justified ok older

/-- Whatever was justified is justified by the entries older than it. -/
theorem Justified.split {newer older : List α} {a : α}
    (h : Justified ok (newer ++ a :: older)) : ok older a := by
  induction newer with
  | nil => exact h.1
  | cons b newer ih => exact ih h.2

theorem Justified.of_mem {log : List α} {a : α} (h : Justified ok log) (ha : a ∈ log) :
    ∃ older, older ⊆ log ∧ ok older a := by
  obtain ⟨newer, older, rfl⟩ := List.append_of_mem ha
  exact ⟨older, fun b hb => List.mem_append_right _ (List.mem_cons_of_mem _ hb), h.split⟩

/-- What nothing accepts a second time is there once. -/
theorem Justified.once {q : α → Prop} (hok : ∀ older a, ok older a → q a → ∀ b ∈ older, ¬q b)
    {log : List α} {a b : α} (h : Justified ok log) (ha : a ∈ log) (hb : b ∈ log) (hqa : q a)
    (hqb : q b) : a = b := by
  induction log with
  | nil => cases ha
  | cons c older ih =>
    obtain rfl | hao := List.mem_cons.mp ha
    · obtain rfl | hbo := List.mem_cons.mp hb
      · rfl
      · exact absurd hqb (hok older a h.1 hqa b hbo)
    · obtain rfl | hbo := List.mem_cons.mp hb
      · exact absurd hqa (hok older b h.1 hqb a hao)
      · exact ih h.2 hao hbo

end History

end Runs
