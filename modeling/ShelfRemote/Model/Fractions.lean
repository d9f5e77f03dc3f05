import ShelfRemote.Lib.Runs
import ShelfRemote.Model.ProgressStore

/-! The fraction a card shows of an item.

`set` and `update` bound the fraction they store, `loadFromUser` stores what the server
reports. A finished item shows 1 whatever is stored; the stored fraction is there again as
soon as the flag is cleared. So a fraction from outside the range is shown in two ways only,
and `fractions_in_range` says which: it is reported, or it is uncovered. -/
namespace ShelfRemote.Model
open Qt Runs

/-- From nothing to all of it. -/
def InUnit (q : Rat) : Prop := 0 ≤ q ∧ q ≤ 1

instance : DecidablePred InUnit := fun _ => inferInstanceAs (Decidable (_ ∧ _))

theorem inUnit_zero : InUnit 0 := by decide +kernel

theorem inUnit_one : InUnit 1 := by decide +kernel

/-- What a card shows of the record is in range. -/
def ProgressRec.Fair (r : ProgressRec) : Prop := r.finished = true ∨ InUnit r.fraction

instance : DecidablePred ProgressRec.Fair := fun _ => inferInstanceAs (Decidable (_ ∨ _))

namespace ProgressStore

theorem bound_inUnit (q : Rat) : InUnit (bound q) :=
  ⟨le_max_left .., max_le rfl (min_le_left ..)⟩

inductive Event where
  | loadFromUser (user : Json)
  | clear
  | set (now : Rat) (itemId : String) (fraction currentTime : Rat) (finished : Bool)
  | setFinished (itemId : String) (finished : Bool)
  | update (now : Rat) (itemId : String) (currentTime duration : Rat) (finished : Bool)

def machine : Machine ProgressStore Event where
  step p
    | .loadFromUser user => p.loadFromUser user
    | .clear => p.clear.getD p
    | .set now itemId fraction currentTime finished => (p.set now itemId fraction currentTime finished).getD p
    | .setFinished itemId finished => (p.setFinished itemId finished).getD p
    | .update now itemId currentTime duration finished =>
      (p.update now itemId currentTime duration finished).getD p

/-! ### What the server reports -/

/-- An entry of `mediaProgress`, if it is one of an item. -/
def readProgress (v : Json) : Option (String × ProgressRec) :=
  let o := v.toObject
  let itemId := (o.value "libraryItemId").toString ""
  if (o.value "episodeId").toString "" ≠ "" ∨ itemId = "" then none
  else some (itemId,
    { fraction := (o.value "progress").toDouble 0
      currentTime := (o.value "currentTime").toDouble 0
      startedAtMs := (o.value "startedAt").toDouble 0
      finished := (o.value "isFinished").toBool })

def entries (user : Json) : List (String × ProgressRec) := (user.value "mediaProgress").toArray.filterMap readProgress

/-- Of several entries of one item the last one counts. -/
def reported (user : Json) (itemId : String) : Option ProgressRec :=
  ((entries user).reverse.find? fun r => r.1 == itemId).map (·.2)

variable {p : ProgressStore} {user : Json} {itemId : String} {r : ProgressRec}

theorem loadFromUser_eq (p : ProgressStore) (user : Json) :
    p.loadFromUser user = (entries user).foldl (fun p r => p.insert r.1 r.2) {} := by
  unfold loadFromUser entries
  generalize (user.value "mediaProgress").toArray = items
  generalize ({} : ProgressStore) = start
  induction items generalizing start with
  | nil => rfl
  | cons v items ih =>
    rw [List.foldl_cons, List.filterMap_cons, ih]
    dsimp only [readProgress]
    split_ifs with hskip <;> rfl

theorem foldl_insert_record (l : List (String × ProgressRec)) (p : ProgressStore) (itemId : String) :
    (l.foldl (fun p r => p.insert r.1 r.2) p).record itemId =
      ((l.reverse.find? fun r => r.1 == itemId).map (·.2)).or (p.record itemId) := by
  induction l generalizing p with
  | nil => rfl
  | cons r l ih =>
    rw [List.foldl_cons, ih, record_insert, List.reverse_cons, List.find?_append, List.find?_singleton]
    cases l.reverse.find? fun r => r.1 == itemId with
    | some newer => rfl
    | none => by_cases h : r.1 = itemId <;> simp [h]

/-- After a load the store holds what was reported, and nothing else. -/
theorem loadFromUser_record (p : ProgressStore) (user : Json) (itemId : String) :
    (p.loadFromUser user).record itemId = reported user itemId := by
  rw [loadFromUser_eq, foldl_insert_record]
  exact Option.or_none

theorem mem_entries_of_reported (h : r ∈ reported user itemId) : (itemId, r) ∈ entries user := by
  obtain ⟨entry, hfound, rfl⟩ := Option.map_eq_some_iff.mp h
  have hkey : entry.1 = itemId := by simpa using List.find?_some hfound
  rw [← hkey]
  exact List.mem_reverse.mp (List.mem_of_find?_eq_some hfound)

theorem entries_key {entry : String × ProgressRec} (h : entry ∈ entries user) : entry.1 ≠ "" := by
  obtain ⟨v, -, hread⟩ := List.mem_filterMap.mp h
  dsimp only [readProgress] at hread
  split_ifs at hread with hskip
  rw [← Option.some.inj hread]
  exact fun hempty => hskip (.inr hempty)

/-! ### What is shown -/

/-- The fraction of every item is in range, and that of a finished one is 1. -/
def InRange (p : ProgressStore) : Prop :=
  ∀ itemId, InUnit (p.fraction itemId) ∧ (p.isFinished itemId = true → p.fraction itemId = 1)

/-- Nothing out of range is shown of any record. -/
def Sound (p : ProgressStore) : Prop := ∀ itemId, ∀ r ∈ p.record itemId, r.Fair

theorem fraction_inUnit (p : ProgressStore) (itemId : String) :
    InUnit (p.fraction itemId) ↔ ∀ r ∈ p.record itemId, r.Fair := by
  unfold fraction
  cases p.record itemId with
  | none => exact iff_of_true inUnit_zero fun r hr => nomatch hr
  | some r =>
    simp only [Option.mem_def, Option.some.injEq, forall_eq', ProgressRec.Fair]
    cases r.finished
    · simp
    · exact iff_of_true inUnit_one (.inl rfl)

theorem fraction_finished (h : p.isFinished itemId = true) : p.fraction itemId = 1 := by
  unfold isFinished at h
  unfold fraction
  cases hr : p.record itemId with
  | none => simp [hr] at h
  | some r =>
    simp only [hr, Option.map_some, Option.getD_some] at h
    exact if_pos h

theorem inRange_iff (p : ProgressStore) : p.InRange ↔ p.Sound :=
  forall_congr' fun itemId => (and_iff_left fraction_finished).trans (fraction_inUnit p itemId)

/-- A write is sound if the record written is. -/
theorem insert_sound (h : p.Sound) (itemId : String) (r : ProgressRec) : (p.insert itemId r).Sound ↔ r.Fair := by
  refine ⟨fun hins => hins itemId r ?_, fun hfair other old hold => ?_⟩
  · rw [record_insert, if_pos rfl]
    rfl
  · rw [record_insert] at hold
    split at hold
    · exact Option.some.inj hold ▸ hfair
    · exact h other old hold

/-- What is stored of an item, shown or not, is in range. -/
def Stored (p : ProgressStore) (itemId : String) : Prop := ∀ r ∈ p.record itemId, InUnit r.fraction

instance (p : ProgressStore) (itemId : String) : Decidable (p.Stored itemId) :=
  inferInstanceAs (Decidable (∀ r ∈ p.record itemId, _))

theorem stored_iff (p : ProgressStore) (itemId : String) :
    p.Stored itemId ↔ InUnit ((p.record itemId).getD {}).fraction := by
  unfold Stored
  cases p.record itemId with
  | none => exact iff_of_true (fun r hr => nomatch hr) inUnit_zero
  | some r => simp

/-- The event shows no fraction from outside the range: a load reports none but of finished
items, and where the flag is cleared and no new fraction stored, the old one is in range. -/
def Fair (p : ProgressStore) : Event → Prop
  | .loadFromUser user => ∀ entry ∈ entries user, ∀ r ∈ reported user entry.1, r.Fair
  | .setFinished itemId finished => finished = true ∨ p.Stored itemId
  | .update _ itemId _ duration finished => finished = true ∨ 0 < duration ∨ p.Stored itemId
  | .set .. | .clear => True

instance (p : ProgressStore) : (e : Event) → Decidable (p.Fair e)
  | .loadFromUser user => inferInstanceAs (Decidable (∀ entry ∈ entries user, ∀ r ∈ reported user entry.1, r.Fair))
  | .setFinished itemId finished => inferInstanceAs (Decidable (finished = true ∨ p.Stored itemId))
  | .update _ itemId _ duration finished => inferInstanceAs (Decidable (finished = true ∨ 0 < duration ∨ p.Stored itemId))
  | .set .. | .clear => .isTrue trivial

/-- Nothing is kept under the empty id. -/
def Keyed (p : ProgressStore) : Prop := p.record "" = none

theorem Keyed.insert (h : p.Keyed) (hid : itemId ≠ "") (r : ProgressRec) : (p.insert itemId r).Keyed := by
  unfold Keyed
  rw [record_insert, if_neg hid]
  exact h

theorem loadFromUser_keyed (p : ProgressStore) (user : Json) : (p.loadFromUser user).Keyed := by
  unfold Keyed
  rw [loadFromUser_record]
  cases hr : reported user "" with
  | none => rfl
  | some r => exact absurd rfl (entries_key (mem_entries_of_reported hr))

theorem loadFromUser_sound (p : ProgressStore) (user : Json) :
    (p.loadFromUser user).Sound ↔ p.Fair (.loadFromUser user) := by
  unfold Sound
  simp only [loadFromUser_record]
  exact ⟨fun h entry _ => h entry.1, fun h itemId r hr => h _ (mem_entries_of_reported hr) r hr⟩

theorem clear_getD (p : ProgressStore) : p.clear.getD p = {} := by
  unfold clear
  split
  · next hempty => exact congrArg ProgressStore.mk hempty
  · rfl

theorem empty_keyed : Keyed {} := rfl

theorem empty_sound : Sound {} := fun _ _ hr => nomatch hr

theorem empty_stored (itemId : String) : Stored {} itemId := fun _ hr => nomatch hr

theorem Keyed.stored (h : p.Keyed) : p.Stored "" := by
  intro r hr
  rw [show p.record "" = none from h] at hr
  cases hr

/-- What an event can do to the store. The fraction of a record it writes is in range if the
one stored before was, and the record shows none from outside the range if the event does not. -/
inductive Next (p : ProgressStore) : Event → ProgressStore → Prop
  | stay {e : Event} (hfair : p.Keyed → p.Sound → p.Fair e) : Next p e p
  | empty : Next p .clear {}
  | load (user : Json) : Next p (.loadFromUser user) (p.loadFromUser user)
  | write {e : Event} {itemId : String} {r : ProgressRec} (hid : itemId ≠ "")
      (hstored : p.Stored itemId → InUnit r.fraction) (hfair : r.Fair ↔ p.Fair e) : Next p e (p.insert itemId r)

/-- Whether or not the item is started with it, the fraction is as it was. -/
theorem started_same (starts : Prop) [Decidable starts] (now : Rat) (r : ProgressRec) :
    (if starts then {r with startedAtMs := now} else r).fraction = r.fraction ∧
      ((if starts then {r with startedAtMs := now} else r).Fair ↔ r.Fair) := by
  split <;> exact ⟨rfl, Iff.rfl⟩

theorem set_next (p : ProgressStore) (now : Rat) (itemId : String) (fraction currentTime : Rat) (finished : Bool) :
    Next p (.set now itemId fraction currentTime finished)
      ((p.set now itemId fraction currentTime finished).getD p) := by
  unfold set
  split
  · exact .stay fun _ _ => trivial
  · next hid =>
    refine .write hid (fun _ => ?_) (iff_of_true (.inr ?_) trivial)
    · rw [(started_same _ now _).1]
      exact bound_inUnit fraction
    · rw [(started_same _ now _).1]
      exact bound_inUnit fraction

theorem setFinished_next (p : ProgressStore) (itemId : String) (finished : Bool) :
    Next p (.setFinished itemId finished) ((p.setFinished itemId finished).getD p) := by
  unfold setFinished
  by_cases hid : itemId = ""
  · rw [if_pos hid]
    exact .stay fun hkeyed _ => .inr (hid ▸ hkeyed.stored)
  · rw [if_neg hid]
    cases hr : p.record itemId with
    | none =>
      have hunit : InUnit (if finished then 1 else 0) := by
        split
        · exact inUnit_one
        · exact inUnit_zero
      exact .write hid (fun _ => hunit) (iff_of_true (.inr hunit) (.inr fun r hr' => nomatch hr.symm.trans hr'))
    | some r =>
      have hstored : p.Stored itemId ↔ InUnit r.fraction := by
        rw [stored_iff, hr]
        rfl
      dsimp only
      -- clearing the flag shows what was stored all along
      split
      · next hsame => exact .stay fun _ hsound => hsame ▸ (hsound itemId r hr).imp id hstored.mpr
      · exact .write hid hstored.mp (or_congr_right hstored.symm)

theorem update_next (p : ProgressStore) (now : Rat) (itemId : String) (currentTime duration : Rat) (finished : Bool) :
    Next p (.update now itemId currentTime duration finished)
      ((p.update now itemId currentTime duration finished).getD p) := by
  unfold update
  by_cases hid : itemId = ""
  · rw [if_pos hid]
    exact .stay fun hkeyed _ => .inr (.inr (hid ▸ hkeyed.stored))
  · rw [if_neg hid]
    refine .write hid (fun hstored => ?_) ?_
    · rw [(started_same _ now _).1]
      split_ifs
      · exact inUnit_one
      · exact bound_inUnit _
      · exact (stored_iff p itemId).mp hstored
    · rw [(started_same _ now _).2]
      by_cases hlong : 0 < duration
      · rw [if_pos hlong]
        refine iff_of_true ?_ (.inr (.inl hlong))
        cases finished
        · exact .inr (bound_inUnit _)
        · exact .inl rfl
      · show _ ↔ finished = true ∨ 0 < duration ∨ p.Stored itemId
        rw [if_neg hlong, or_iff_right hlong, stored_iff]
        rfl

theorem step_next (p : ProgressStore) (e : Event) : Next p e (machine.step p e) := by
  cases e with
  | loadFromUser user => exact .load user
  | clear =>
    rw [show machine.step p .clear = {} from clear_getD p]
    exact .empty
  | set now itemId fraction currentTime finished => exact set_next p now itemId fraction currentTime finished
  | setFinished itemId finished => exact setFinished_next p itemId finished
  | update now itemId currentTime duration finished => exact update_next p now itemId currentTime duration finished

variable {q : ProgressStore} {e : Event}

theorem Next.keyed (hnext : Next p e q) (h : p.Keyed) : q.Keyed := by
  cases hnext with
  | stay => exact h
  | empty => exact empty_keyed
  | load user => exact loadFromUser_keyed p user
  | write hid => exact h.insert hid _

/-- In range before the event, in range after it, unless it shows a fraction that is not. -/
theorem Next.sound (hnext : Next p e q) (hkeyed : p.Keyed) (h : p.Sound) : q.Sound ↔ p.Fair e := by
  cases hnext with
  | stay hfair => exact iff_of_true h (hfair hkeyed h)
  | empty => exact iff_of_true empty_sound trivial
  | load user => exact loadFromUser_sound p user
  | write hid hstored hfair => exact (insert_sound h _ _).trans hfair

theorem keyed_keeps : Machine.Keeps machine (fun _ _ => True) Keyed := ⟨fun p e hp _ => (step_next p e).keyed hp⟩

/-- **Fractions stay in range** in every run that shows none from outside it. From every
state of such a run, one event leaves them in range if and only if it shows none. -/
theorem fractions_in_range (es : List Event) (hes : machine.Along Fair {} es) :
    let p := machine.run {} es
    p.InRange ∧ ∀ e, (machine.step p e).InRange ↔ p.Fair e := by
  have hgood (p : ProgressStore) (e : Event) (hp : p.Keyed) (hrange : p.InRange) :
      (machine.step p e).InRange ↔ p.Fair e := by
    rw [inRange_iff] at hrange ⊢
    exact (step_next p e).sound hp hrange
  exact (keyed_keeps.exactly hgood empty_keyed ((inRange_iff _).mpr empty_sound) hes).2

/-- A user object with one entry, as the server sends it. -/
def userWith (progress : Rat) (finished : Bool) : Json :=
  .object [("mediaProgress", .array [.object [("libraryItemId", .string "item-1"), ("progress", .number progress),
    ("isFinished", .bool finished)]])]

/-- `loadFromUser` does not bound what the server reports: as it is, and behind the flag. -/
theorem fractions_out_of_range :
    ¬(machine.run {} [.loadFromUser (userWith (17 / 10) false)]).InRange ∧
      ¬(machine.run {} [.loadFromUser (userWith (17 / 10) true), .setFinished "item-1" false]).InRange :=
  ⟨fun h => absurd (h "item-1").1 (by decide +kernel), fun h => absurd (h "item-1").1 (by decide +kernel)⟩

/-- A finished book of which more than all was reported, until its flag is cleared. -/
theorem fractions_in_range_finished :
    let p := machine.run {} [.loadFromUser (userWith (17 / 10) true), .update 5 "item-2" 900 0 false]
    p.InRange ∧ ((machine.step p (.set 7 "item-1" (-1 / 2) 0 false)).InRange ∧
      ¬(machine.step p (.setFinished "item-1" false)).InRange) :=
  have h := fractions_in_range [.loadFromUser (userWith (17 / 10) true), .update 5 "item-2" 900 0 false]
    (by decide +kernel)
  ⟨h.1, (h.2 _).mpr (by decide +kernel), fun hrange => absurd ((h.2 _).mp hrange) (by decide +kernel)⟩

/-- What a user object reports is in range. -/
def Event.Reports : Event → Prop
  | .loadFromUser user => ∀ entry ∈ entries user, InUnit entry.2.fraction
  | _ => True

theorem Next.stored (hnext : Next p e q) (h : ∀ itemId, p.Stored itemId) (he : e.Reports) (itemId : String) :
    q.Stored itemId := by
  intro r hr
  cases hnext with
  | stay => exact h itemId r hr
  | empty => cases hr
  | load user =>
    rw [loadFromUser_record] at hr
    exact he _ (mem_entries_of_reported hr)
  | @write _ written new _ hnew =>
    rw [record_insert] at hr
    split at hr
    · exact Option.some.inj hr ▸ hnew (h written)
    · exact h itemId r hr

theorem stored_keeps : Machine.Keeps machine (fun _ e => e.Reports) (fun p => ∀ itemId, p.Stored itemId) :=
  ⟨fun p e hp he => (step_next p e).stored hp he⟩

/-- With a server that reports no fraction from outside the range, none is shown. -/
theorem in_range_of_reports (es : List Event) (hes : ∀ e ∈ es, e.Reports) : (machine.run {} es).InRange := by
  have hstored := stored_keeps.run empty_stored (Machine.along_of_mem hes _)
  exact (inRange_iff _).mpr fun itemId r hr => .inr (hstored itemId r hr)

end ProgressStore

end ShelfRemote.Model
