import Mathlib.Data.Rat.Init

/-
JSON values.

Objects keep their fields in document order. Integers and other numbers are separate
constructors, as in languages that tell `1` from `1.0`. Equality is decidable by a
structural comparison, so values can stand in evaluated statements.
-/

namespace Library

inductive Json
  | null
  | bool (value : Bool)
  | int (value : Int)
  | number (value : Rat)
  | str (value : String)
  | arr (items : List Json)
  | obj (fields : List (String × Json))

namespace Json

instance : Inhabited Json := ⟨.null⟩

mutual

def same : Json → Json → Bool
  | .null, .null => true
  | .bool left, .bool right => decide (left = right)
  | .int left, .int right => decide (left = right)
  | .number left, .number right => decide (left = right)
  | .str left, .str right => decide (left = right)
  | .arr left, .arr right => sameItems left right
  | .obj left, .obj right => sameFields left right
  | _, _ => false

def sameItems : List Json → List Json → Bool
  | [], [] => true
  | left :: lefts, right :: rights => same left right && sameItems lefts rights
  | _, _ => false

def sameFields : List (String × Json) → List (String × Json) → Bool
  | [], [] => true
  | (leftName, left) :: lefts, (rightName, right) :: rights =>
      decide (leftName = rightName) && (same left right && sameFields lefts rights)
  | _, _ => false

end

mutual

theorem same_iff (left right : Json) : same left right = true ↔ left = right := by
  cases left with
  | null => cases right <;> simp [same]
  | bool value => cases right <;> simp [same]
  | int value => cases right <;> simp [same]
  | number value => cases right <;> simp [same]
  | str value => cases right <;> simp [same]
  | arr items =>
      cases right with
      | arr others => simp [same, sameItems_iff items others]
      | _ => simp [same]
  | obj fields =>
      cases right with
      | obj others => simp [same, sameFields_iff fields others]
      | _ => simp [same]

theorem sameItems_iff (left right : List Json) : sameItems left right = true ↔ left = right := by
  cases left with
  | nil => cases right <;> simp [sameItems]
  | cons head rest =>
      cases right with
      | nil => simp [sameItems]
      | cons other others =>
          simp [sameItems, same_iff head other, sameItems_iff rest others]

theorem sameFields_iff (left right : List (String × Json)) :
    sameFields left right = true ↔ left = right := by
  cases left with
  | nil => cases right <;> simp [sameFields]
  | cons head rest =>
      cases right with
      | nil => simp [sameFields]
      | cons other others =>
          obtain ⟨name, value⟩ := head
          obtain ⟨otherName, otherValue⟩ := other
          simp [sameFields, same_iff value otherValue, sameFields_iff rest others, and_assoc]

end

instance : DecidableEq Json := fun left right =>
  decidable_of_iff (same left right = true) (same_iff left right)

/-- Empty values, zero, `false` and `null` count as false. -/
def truthy : Json → Bool
  | .null => false
  | .bool value => value
  | .int value => !decide (value = 0)
  | .number value => !decide (value = 0)
  | .str value => !decide (value = "")
  | .arr items => !items.isEmpty
  | .obj fields => !fields.isEmpty

def asInt : Json → Option Int
  | .int value => some value
  | _ => none

end Json
end Library
