/-! JSON values as the program reads them: through `QJsonValue`'s accessors.

Every accessor has an answer for every value. A member that is not there, or is
of another kind, reads as the default, so a malformed reply is never an error by
itself: it is an empty string, an empty object, a zero. -/
namespace ShelfRemote.Qt

/-- A missing member and `null` answer every accessor alike and are one value here. -/
inductive Json where
  | null
  | bool (b : Bool)
  | number (q : Rat)
  | string (s : String)
  | array (items : List Json)
  | object (fields : List (String × Json))

namespace Json

/-- `QJsonObject::value`. -/
def value : Json → String → Json
  | object fields, key => ((fields.find? fun f => f.1 == key).map (·.2)).getD null
  | _, _ => null

def toString : Json → String → String
  | string s, _ => s
  | _, default => default

def toDouble : Json → Rat → Rat
  | number q, _ => q
  | _, default => default

/-- `QJsonValue::toInt`: the number, when it is a whole one that fits an `int`. -/
def toInt : Json → Int
  | number q => if q.den = 1 ∧ -2147483648 ≤ q.num ∧ q.num ≤ 2147483647 then q.num else 0
  | _ => 0

def toBool : Json → Bool
  | bool b => b
  | _ => false

def toArray : Json → List Json
  | array items => items
  | _ => []

def toObject : Json → Json
  | object fields => object fields
  | _ => object []

/-- `QJsonObject::isEmpty`. -/
def isEmpty : Json → Bool
  | object fields => fields.isEmpty
  | _ => true

theorem toObject_of_isEmpty {j : Json} (h : j.toObject.isEmpty = true) : j.toObject = object [] := by
  cases j with
  | object fields => exact congrArg object (List.isEmpty_iff.mp h)
  | _ => rfl

@[simp] theorem value_empty (key : String) : (object []).value key = null := rfl

end Json

end ShelfRemote.Qt
