import Mathlib.Algebra.Order.Field.Rat
import ShelfRemote.Qt.Json

/-! How far the user has got in each item.

An operation returns the store it leaves and emits `changed`, or nothing at all when
it does neither. -/
namespace ShelfRemote.Model
open Qt

/-- What is known of an item. -/
structure ProgressRec where
  fraction : Rat := 0
  currentTime : Rat := 0
  startedAtMs : Rat := 0
  finished : Bool := false
  deriving DecidableEq

/-- The records by item. -/
structure ProgressStore where
  byItem : List (String × ProgressRec) := []
  deriving DecidableEq

namespace ProgressStore

def record (p : ProgressStore) (itemId : String) : Option ProgressRec :=
  (p.byItem.find? fun r => r.1 == itemId).map (·.2)

def insert (p : ProgressStore) (itemId : String) (r : ProgressRec) : ProgressStore :=
  ⟨(itemId, r) :: p.byItem.filter fun old => old.1 ≠ itemId⟩

theorem record_insert (p : ProgressStore) (itemId other : String) (r : ProgressRec) :
    (p.insert itemId r).record other = if itemId = other then some r else p.record other := by
  unfold insert record
  rw [List.find?_cons]
  by_cases h : itemId = other
  · simp [h]
  · have hkeep : ∀ l : List (String × ProgressRec),
        (l.filter fun old => old.1 ≠ itemId).find? (fun r => r.1 == other) = l.find? fun r => r.1 == other := by
      intro l
      rw [List.find?_filter]
      refine congrArg (l.find? ·) (funext fun old => ?_)
      by_cases hold : old.1 = other <;> simp [hold, Ne.symm h]
    simp only [beq_eq_false_iff_ne.mpr h, hkeep, if_neg h]

def isFinished (p : ProgressStore) (itemId : String) : Bool := ((p.record itemId).map (·.finished)).getD false

/-- A finished item is all there. -/
def fraction (p : ProgressStore) (itemId : String) : Rat :=
  match p.record itemId with
  | none => 0
  | some r => if r.finished then 1 else r.fraction

def currentTime (p : ProgressStore) (itemId : String) : Rat :=
  ((p.record itemId).map (·.currentTime)).getD 0

/-- Progress in an episode is not progress in its item. -/
def loadFromUser (_ : ProgressStore) (user : Json) : ProgressStore :=
  (user.value "mediaProgress").toArray.foldl (fun p v =>
    let o := v.toObject
    let itemId := (o.value "libraryItemId").toString ""
    if (o.value "episodeId").toString "" ≠ "" ∨ itemId = "" then p
    else
      p.insert itemId
        { fraction := (o.value "progress").toDouble 0
          currentTime := (o.value "currentTime").toDouble 0
          startedAtMs := (o.value "startedAt").toDouble 0
          finished := (o.value "isFinished").toBool }) {}

def clear (p : ProgressStore) : Option ProgressStore := if p.byItem = [] then none else some {}

/-- `qBound(0.0, x, 1.0)`. -/
def bound (x : Rat) : Rat := max 0 (min 1 x)

def set (p : ProgressStore) (now : Rat) (itemId : String) (fraction currentTime : Rat) (finished : Bool) :
    Option ProgressStore :=
  if itemId = "" then none
  else
    let r := (p.record itemId).getD {}
    let r := {r with fraction := bound fraction, currentTime, finished}
    let r := if r.startedAtMs ≤ 0 ∧ (0 < currentTime ∨ finished) then {r with startedAtMs := now} else r
    some (p.insert itemId r)

def setFinished (p : ProgressStore) (itemId : String) (finished : Bool) : Option ProgressStore :=
  if itemId = "" then none
  else
    match p.record itemId with
    | none => some (p.insert itemId {finished, fraction := if finished then 1 else 0})
    | some r => if r.finished = finished then none else some (p.insert itemId {r with finished})

def update (p : ProgressStore) (now : Rat) (itemId : String) (currentTime duration : Rat) (finished : Bool) :
    Option ProgressStore :=
  if itemId = "" then none
  else
    let r := (p.record itemId).getD {}
    let r := {r with currentTime, finished}
    let r := if 0 < duration then
        {r with fraction := if finished then 1 else bound (currentTime / duration)} else r
    let r := if r.startedAtMs ≤ 0 then {r with startedAtMs := now} else r
    some (p.insert itemId r)

end ProgressStore

end ShelfRemote.Model
