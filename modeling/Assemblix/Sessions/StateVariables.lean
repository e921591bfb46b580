import Assemblix.Execution.Context

/-
State variables, their defaults and the overrides a request may carry.

A schema lists variables with a declared type. An override is coerced to that type when it
can be and kept as it is when it cannot. Conversions between text and values are those of
the language and stay a parameter.
-/

namespace Assemblix

open Library

structure StateVariable where
  name : String
  defaultValue : Option Json := none
  type : Option String := none

/-- `get_typed_default_value`. -/
def getTypedDefaultValue (entry : StateVariable) : Json :=
  match entry.defaultValue with
  | some value => value
  | none =>
      match entry.type.getD "string" with
      | "number" => .int 0
      | "string" => .str ""
      | "boolean" => .bool false
      | "object" => .obj []
      | _ => .str ""

def defaultState (schema : List StateVariable) : Data :=
  Dict.ofList (schema.map (fun entry => (entry.name, entry.defaultValue.getD .null)))

def defaultProjectState (schema : List StateVariable) : Data :=
  Dict.ofList (schema.map (fun entry => (entry.name, getTypedDefaultValue entry)))

def typesByName (schema : List StateVariable) : Dict String (Option String) :=
  Dict.ofList ((schema.filter (fun entry => !decide (entry.name = ""))).map
    (fun entry => (entry.name, entry.type)))

structure Conversions where
  str : Json → String
  strip : String → String
  lower : String → String
  toInt : String → Option Int
  toFloat : String → Option Json
  loads : String → Option Json

variable (conversions : Conversions)

def coerceToType (value : Json) (type : String) : Json × Bool :=
  match type, value with
  | _, .null => (.null, true)
  | "string", .str text => (.str text, true)
  | "string", other => (.str (conversions.str other), true)
  | "number", .bool flag => (.int (if flag then 1 else 0), true)
  | "number", .int number => (.int number, true)
  | "number", .number number => (.number number, true)
  | "number", .str text =>
      match conversions.toInt (conversions.strip text) with
      | some number => (.int number, true)
      | none =>
          match conversions.toFloat (conversions.strip text) with
          | some number => (number, true)
          | none => (.str text, false)
  | "number", other => (other, false)
  | "boolean", .bool flag => (.bool flag, true)
  | "boolean", .int number => (.bool (!decide (number = 0)), true)
  | "boolean", .number number => (.bool (!decide (number = 0)), true)
  | "boolean", .str text =>
      let lowered := conversions.lower (conversions.strip text)
      if lowered ∈ ["true", "1", "yes"] then (.bool true, true)
      else if lowered ∈ ["false", "0", "no", ""] then (.bool false, true)
      else (.str text, false)
  | "boolean", other => (other, false)
  | "object", .obj fields => (.obj fields, true)
  | "object", .str text =>
      match conversions.loads text with
      | some (.obj fields) => (.obj fields, true)
      | _ => (.str text, false)
  | "object", other => (other, false)
  | _, other => (other, true)

def coerceOverride (types : Dict String (Option String)) (name : String) (rawValue : Json) : Json :=
  match (types.lookup name).join with
  | none => rawValue
  | some declaredType => (coerceToType conversions rawValue declaredType).1

def mergeWithCoercion (base overrides : Data) (types : Dict String (Option String)) : Data :=
  overrides.entries.foldl
    (fun acc entry => acc.set entry.1 (coerceOverride conversions types entry.1 entry.2)) base

/-- The overrides a request carries under the key; `none` when they are not an object. -/
def overridesOf (inputData : Data) (key : String) : Option Data :=
  match inputData.lookup key with
  | none => some Dict.empty
  | some value =>
      if value.truthy then
        match value with
        | .obj fields => some (Dict.ofList fields)
        | _ => none
      else some Dict.empty

/-! ### What an override writes -/

def coercedOverrides (overrides : Data) (types : Dict String (Option String)) : Data where
  entries := overrides.entries.map
    (fun entry => (entry.1, coerceOverride conversions types entry.1 entry.2))
  distinct := by
    rw [List.map_map]
    exact overrides.distinct

theorem mergeWithCoercion_eq (base overrides : Data) (types : Dict String (Option String)) :
    mergeWithCoercion conversions base overrides types =
      base.merge (coercedOverrides conversions overrides types) := by
  unfold mergeWithCoercion Dict.merge coercedOverrides
  rw [List.foldl_map]

end Assemblix
