import Assemblix.Library.JsObject
import Assemblix.Library.JsText

/-
The object editor: a JSON object as rows of a form and back.

Numbers are a parameter, with the text that `String` makes of one and the number that `Number` reads
from a text. The identifiers of the rows are left out. What comes back is told for each value by
itself: an object comes back if its keys come back, listed as before, and each of its values does.
-/

namespace Assemblix.ObjectValues

open Library JsText

/-- `String(x)` and `Number(text)`; the text of a number is read as that number. -/
structure NumberText (N : Type) where
  text : N → String
  read : String → Option N
  text_ne (number : N) : text number ≠ ""
  read_text (number : N) : read (text number) = some number

inductive JsonValue (N : Type)
  | null
  | boolean (value : Bool)
  | number (value : N)
  | string (value : String)
  | array (items : List (JsonValue N))
  | object (fields : List (String × JsonValue N))

inductive ValueType
  | string
  | number
  | boolean
  | object
  deriving DecidableEq

inductive PropertyRow
  | mk (key : String) (type : ValueType) (primitive : String) (booleanValue : Bool)
      (children : List PropertyRow)

variable {N : Type} (numbers : NumberText N)

/-! ### The rows of an object -/

def inferType : JsonValue N → ValueType
  | .string _ => .string
  | .number _ => .number
  | .boolean _ => .boolean
  | .object _ => .object
  | .null => .string
  | .array _ => .string

def rowPrimitive : JsonValue N → String
  | .number value => numbers.text value
  | .string value => value
  | _ => ""

def rowBoolean : JsonValue N → Bool
  | .boolean value => value
  | _ => false

mutual

def objectToRows : JsonValue N → List PropertyRow
  | .object fields => entriesToRows fields
  | _ => []

def entriesToRows : List (String × JsonValue N) → List PropertyRow
  | [] => []
  | (key, value) :: rest =>
      .mk key (inferType value) (rowPrimitive numbers value) (rowBoolean value)
        (if inferType value = .object then objectToRows value else []) :: entriesToRows rest

end

/-! ### The object of the rows -/

mutual

def rowValue : PropertyRow → JsonValue N
  | .mk _ .string primitive _ _ => .string primitive
  | .mk _ .number primitive _ _ =>
      if primitive = "" then .null
      else
        match numbers.read primitive with
        | some parsed => .number parsed
        | none => .string primitive
  | .mk _ .boolean _ booleanValue _ => .boolean booleanValue
  | .mk _ .object _ _ children => .object (rowsInto children [])

/-- The loop of `rowsToObject`. Rows with a blank key are skipped. -/
def rowsInto : List PropertyRow → List (String × JsonValue N) → List (String × JsonValue N)
  | [], result => result
  | .mk key type primitive booleanValue children :: rest, result =>
      if trim key = "" then rowsInto rest result
      else rowsInto rest
        (JsObject.put (trim key) (rowValue (.mk key type primitive booleanValue children)) result)

end

def rowsToObject (rows : List PropertyRow) : JsonValue N := .object (rowsInto numbers rows [])

/-! ### What comes back -/

/-- Keys that come back: none is blank or has blanks around it, `__proto__` is not among them, and
an object lists them in this order. -/
def KeptKeys (keys : List String) : Prop :=
  (∀ key ∈ keys, trim key = key ∧ key ≠ "") ∧ JsObject.InOrder keys ∧ "__proto__" ∉ keys

mutual

def Kept : JsonValue N → Prop
  | .null => False
  | .array _ => False
  | .object fields => KeptKeys (fields.map Prod.fst) ∧ KeptEach fields
  | _ => True

def KeptEach : List (String × JsonValue N) → Prop
  | [] => True
  | (_, value) :: rest => Kept value ∧ KeptEach rest

end

theorem keptEach_iff (fields : List (String × JsonValue N)) :
    KeptEach fields ↔ ∀ entry ∈ fields, Kept entry.2 := by
  induction fields with
  | nil => simp [KeptEach]
  | cons head rest ih =>
      obtain ⟨key, value⟩ := head
      rw [KeptEach, ih, List.forall_mem_cons]

def back (value : JsonValue N) : JsonValue N :=
  rowValue numbers (.mk "" (inferType value) (rowPrimitive numbers value) (rowBoolean value)
    (if inferType value = .object then objectToRows numbers value else []))

def assigned (fields : List (String × JsonValue N)) : List (String × JsonValue N) :=
  (fields.map (fun entry => (trim entry.1, back numbers entry.2))).filter
    (fun entry => entry.1 ≠ "")

theorem rowValue_key (key other : String) (type : ValueType) (primitive : String)
    (booleanValue : Bool) (children : List PropertyRow) :
    rowValue numbers (.mk key type primitive booleanValue children) =
      rowValue numbers (.mk other type primitive booleanValue children) := by
  cases type with
  | string | number | boolean | object => rw [rowValue, rowValue]

theorem rowsInto_eq (fields result : List (String × JsonValue N)) :
    rowsInto numbers (entriesToRows numbers fields) result =
      (assigned numbers fields).foldl (fun object entry => JsObject.put entry.1 entry.2 object)
        result := by
  induction fields generalizing result with
  | nil => rfl
  | cons head rest ih =>
      obtain ⟨key, value⟩ := head
      rw [entriesToRows, rowsInto, rowValue_key numbers key ""]
      by_cases blank : trim key = ""
      · rw [if_pos blank, ih, assigned, assigned, List.map_cons,
          List.filter_cons_of_neg (by simp [blank])]
      · rw [if_neg blank, ih, assigned, assigned, List.map_cons,
          List.filter_cons_of_pos (by simp [blank]), List.foldl_cons]
        rfl

theorem rowsToObject_objectToRows (fields : List (String × JsonValue N)) :
    rowsToObject numbers (objectToRows numbers (.object fields)) =
      .object (JsObject.build (assigned numbers fields)) := by
  rw [rowsToObject, objectToRows, rowsInto_eq, JsObject.build]

theorem assigned_of_trimmed {fields : List (String × JsonValue N)}
    (trimmed : ∀ key ∈ fields.map Prod.fst, trim key = key ∧ key ≠ "") :
    assigned numbers fields = fields.map (fun entry => (entry.1, back numbers entry.2)) := by
  have same : fields.map (fun entry => (trim entry.1, back numbers entry.2)) =
      fields.map (fun entry => (entry.1, back numbers entry.2)) := by
    apply List.map_congr_left
    intro entry member
    rw [(trimmed entry.1 (List.mem_map_of_mem member)).1]
  rw [assigned, same, List.filter_eq_self]
  intro entry member
  obtain ⟨origin, there, rfl⟩ := List.mem_map.mp member
  exact decide_eq_true (trimmed origin.1 (List.mem_map_of_mem there)).2

theorem build_assigned_iff (fields : List (String × JsonValue N)) :
    JsObject.build (assigned numbers fields) = fields ↔
      KeptKeys (fields.map Prod.fst) ∧ ∀ entry ∈ fields, back numbers entry.2 = entry.2 := by
  have names : (fields.map (fun entry => (entry.1, back numbers entry.2))).map Prod.fst =
      fields.map Prod.fst := by
    rw [List.map_map]
    rfl
  constructor
  · intro equal
    have keys : KeptKeys (fields.map Prod.fst) := by
      refine ⟨fun key member => ?_, ?_, ?_⟩
      · rw [← equal] at member
        obtain ⟨entry, chosen, rfl⟩ := List.mem_map.mp (JsObject.build_names _ member)
        obtain ⟨listed, filled⟩ := List.mem_filter.mp chosen
        obtain ⟨origin, -, rfl⟩ := List.mem_map.mp listed
        exact ⟨trim_trim origin.1, of_decide_eq_true filled⟩
      · rw [← equal]
        exact JsObject.build_inOrder _
      · rw [← equal]
        exact JsObject.build_proper _
    rw [assigned_of_trimmed numbers keys.1,
      JsObject.build_of_inOrder _ (names ▸ keys.2.1) (names ▸ keys.2.2)] at equal
    refine ⟨keys, fun entry member => ?_⟩
    have fixed := List.map_inj_left.mp (equal.trans (List.map_id fields).symm) entry member
    exact congrArg Prod.snd fixed
  · rintro ⟨keys, values⟩
    rw [assigned_of_trimmed numbers keys.1,
      JsObject.build_of_inOrder _ (names ▸ keys.2.1) (names ▸ keys.2.2)]
    conv_rhs => rw [← List.map_id fields]
    apply List.map_congr_left
    intro entry member
    rw [values entry member, id]

theorem back_object (fields : List (String × JsonValue N)) :
    back numbers (.object fields) = .object (JsObject.build (assigned numbers fields)) :=
  rowsToObject_objectToRows numbers fields

mutual

theorem back_iff (value : JsonValue N) : back numbers value = value ↔ Kept value := by
  match value with
  | .null =>
      refine ⟨fun equal => ?_, False.elim⟩
      change JsonValue.string "" = .null at equal
      cases equal
  | .array items =>
      refine ⟨fun equal => ?_, False.elim⟩
      change JsonValue.string "" = .array items at equal
      cases equal
  | .boolean _ | .string _ => exact ⟨fun _ => trivial, fun _ => rfl⟩
  | .number value =>
      refine ⟨fun _ => trivial, fun _ => ?_⟩
      change rowValue numbers (.mk "" .number (numbers.text value) false []) = .number value
      rw [rowValue, if_neg (numbers.text_ne value), numbers.read_text]
  | .object fields =>
      rw [back_object, JsonValue.object.injEq, build_assigned_iff, Kept, keptEach_iff,
        and_congr_right_iff]
      exact fun _ => forall₂_congr (back_each_iff fields)

theorem back_each_iff (fields : List (String × JsonValue N)) :
    ∀ entry ∈ fields, back numbers entry.2 = entry.2 ↔ Kept entry.2 := by
  match fields with
  | [] => exact fun entry member => absurd member List.not_mem_nil
  | (_, value) :: rest =>
      rw [List.forall_mem_cons]
      exact ⟨back_iff value, back_each_iff rest⟩

end

/-- Opening an object in the editor and saving it keeps it exactly if there is no null and no array
in it and every key at every depth can stand in a form. -/
theorem rowsToObject_objectToRows_iff (fields : List (String × JsonValue N)) :
    rowsToObject numbers (objectToRows numbers (.object fields)) = .object fields ↔
      Kept (.object fields) :=
  back_iff numbers (.object fields)

def digits : NumberText (Fin 10) where
  text digit := String.singleton (Char.ofNat ('0'.toNat + digit.val))
  read text := (List.finRange 10).find?
    (fun digit => String.singleton (Char.ofNat ('0'.toNat + digit.val)) = text)
  text_ne := by decide +kernel
  read_text := by decide +kernel

theorem address_saved :
    rowsToObject digits (objectToRows digits
        (.object [("city", .string "Riga"), ("flat", .object [("floor", .number 3)])])) =
      .object [("city", .string "Riga"), ("flat", .object [("floor", .number 3)])] := by
  have outer : KeptKeys ["city", "flat"] := by
    unfold KeptKeys
    decide +kernel
  have inner : KeptKeys ["floor"] := by
    unfold KeptKeys
    decide +kernel
  exact (rowsToObject_objectToRows_iff digits _).mpr
    ⟨outer, trivial, ⟨inner, trivial, trivial⟩, trivial⟩

/-- A list of tags comes back as an empty text. -/
theorem array_lost :
    ¬ rowsToObject digits (objectToRows digits (.object [("tags", .array [])])) =
      .object [("tags", .array [])] := by
  intro same
  have kept := (back_iff digits (.object [("tags", .array [])])).mp same
  exact kept.2.1

end Assemblix.ObjectValues
