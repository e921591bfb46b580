import Assemblix.Library.Dict
import Assemblix.Library.Json

/-
Structured output: every object of a response schema requires all it declares.

The rewriting walks the JSON value and knows no roles: a map of properties is to it an object like
a schema. What it is meant for is told with the roles apart, by the keyword a value stands under,
and the two agree wherever no map from names to schemas, and no constant, reads as a schema itself.
-/

namespace Assemblix.StrictSchema

open Library

/-! ### The rewriting -/

/-- `required` names what is declared, and nothing else is allowed. -/
def close (declared fields : List (String × Json)) : List (String × Json) :=
  Dict.assign "additionalProperties" (.bool false)
    (Dict.assign "required" (.arr (declared.map (fun entry => .str entry.1))) fields)

def tighten (fields : List (String × Json)) : List (String × Json) :=
  match Dict.find "properties" fields with
  | some (.obj declared) => close declared fields
  | _ =>
      if Dict.find "type" fields = some (.str "object") then
        close [] (Dict.assign "properties" (.obj []) fields)
      else fields

mutual

/-- `_enforce_strict_schema`. -/
def enforceStrictSchema : Json → Json
  | .arr items => .arr (enforceItems items)
  | .obj fields => .obj (tighten (enforceFields fields))
  | .null => .null
  | .bool value => .bool value
  | .int value => .int value
  | .number value => .number value
  | .str value => .str value

def enforceItems : List Json → List Json
  | [] => []
  | item :: rest => enforceStrictSchema item :: enforceItems rest

def enforceFields : List (String × Json) → List (String × Json)
  | [] => []
  | (name, value) :: rest => (name, enforceStrictSchema value) :: enforceFields rest

end

/-! ### Values that are strict already -/

/-- An object that declares properties requires them all and allows nothing else, and one of
type object declares them. -/
def StrictFields (fields : List (String × Json)) : Prop :=
  match Dict.find "properties" fields with
  | some (.obj declared) =>
      Dict.find "required" fields = some (.arr (declared.map (fun entry => .str entry.1))) ∧
        Dict.find "additionalProperties" fields = some (.bool false)
  | _ => Dict.find "type" fields ≠ some (.str "object")

mutual

def Strict : Json → Prop
  | .arr items => StrictItems items
  | .obj fields => StrictFields fields ∧ StrictValues fields
  | _ => True

def StrictItems : List Json → Prop
  | [] => True
  | item :: rest => Strict item ∧ StrictItems rest

def StrictValues : List (String × Json) → Prop
  | [] => True
  | (_, value) :: rest => Strict value ∧ StrictValues rest

end

theorem enforceFields_eq_map (fields : List (String × Json)) :
    enforceFields fields = fields.map (fun entry => (entry.1, enforceStrictSchema entry.2)) := by
  induction fields with
  | nil => rfl
  | cons head rest ih =>
      obtain ⟨name, value⟩ := head
      rw [enforceFields, ih, List.map_cons]

theorem strictValues_iff (fields : List (String × Json)) :
    StrictValues fields ↔ ∀ entry ∈ fields, Strict entry.2 := by
  induction fields with
  | nil => simp [StrictValues]
  | cons head rest ih =>
      obtain ⟨name, value⟩ := head
      rw [StrictValues, ih, List.forall_mem_cons]

theorem StrictValues.assign {fields : List (String × Json)} (strict : StrictValues fields)
    (name : String) {value : Json} (new : Strict value) :
    StrictValues (Dict.assign name value fields) := by
  induction fields with
  | nil => exact ⟨new, trivial⟩
  | cons head rest ih =>
      obtain ⟨first, old⟩ := head
      rw [Dict.assign]
      split
      · exact ⟨new, strict.2⟩
      · exact ⟨strict.1, ih strict.2⟩

theorem strictItems_strings (names : List String) :
    StrictItems (names.map Json.str) := by
  induction names with
  | nil => trivial
  | cons name rest ih => exact ⟨trivial, ih⟩

theorem strictFields_close {declared fields : List (String × Json)}
    (declares : Dict.find "properties" fields = some (.obj declared)) :
    StrictFields (close declared fields) := by
  have same : Dict.find "properties" (close declared fields) = some (.obj declared) := by
    rw [close, Dict.find_assign, if_neg (by decide), Dict.find_assign, if_neg (by decide), declares]
  rw [StrictFields, same]
  constructor
  · rw [close, Dict.find_assign, if_neg (by decide), Dict.find_assign, if_pos rfl]
  · rw [close, Dict.find_assign, if_pos rfl]

theorem strictValues_close {declared fields : List (String × Json)}
    (strict : StrictValues fields) : StrictValues (close declared fields) := by
  refine (strict.assign _ ?_).assign _ trivial
  have names : declared.map (fun entry => Json.str entry.1) =
      (declared.map Prod.fst).map Json.str := by
    rw [List.map_map]
    rfl
  rw [Strict, names]
  exact strictItems_strings _

theorem tighten_strict {fields : List (String × Json)} (strict : StrictValues fields) :
    Strict (.obj (tighten fields)) := by
  rw [Strict, tighten]
  split
  · rename_i declared declares
    exact ⟨strictFields_close declares, strictValues_close strict⟩
  · rename_i undeclared
    split
    · refine ⟨strictFields_close ?_, strictValues_close (strict.assign _ ?_)⟩
      · rw [Dict.find_assign, if_pos rfl]
      · exact ⟨by simp [StrictFields, Dict.find], trivial⟩
    · rename_i untyped
      refine ⟨?_, strict⟩
      rw [StrictFields]
      split
      · rename_i declared declares
        exact absurd declares (undeclared declared)
      · exact untyped

theorem tighten_of_strict {fields : List (String × Json)} (strict : StrictFields fields) :
    tighten fields = fields := by
  rw [StrictFields] at strict
  rw [tighten]
  split
  · rename_i declared declares
    rw [declares] at strict
    rw [close, Dict.assign_of_find strict.1, Dict.assign_of_find strict.2]
  · rename_i undeclared
    have untyped : Dict.find "type" fields ≠ some (.str "object") := by
      split at strict
      · rename_i declared declares
        exact absurd declares (undeclared declared)
      · exact strict
    rw [if_neg untyped]

mutual

theorem enforce_strict (value : Json) : Strict (enforceStrictSchema value) := by
  match value with
  | .null => trivial
  | .bool _ => trivial
  | .int _ => trivial
  | .number _ => trivial
  | .str _ => trivial
  | .arr items =>
      rw [enforceStrictSchema, Strict]
      exact enforceItems_strict items
  | .obj fields =>
      rw [enforceStrictSchema]
      exact tighten_strict (enforceFields_strict fields)

theorem enforceItems_strict (items : List Json) : StrictItems (enforceItems items) := by
  match items with
  | [] => trivial
  | item :: rest => exact ⟨enforce_strict item, enforceItems_strict rest⟩

theorem enforceFields_strict (fields : List (String × Json)) :
    StrictValues (enforceFields fields) := by
  match fields with
  | [] => trivial
  | (_, value) :: rest => exact ⟨enforce_strict value, enforceFields_strict rest⟩

end

mutual

theorem enforce_of_strict (value : Json) (strict : Strict value) :
    enforceStrictSchema value = value := by
  match value with
  | .null => rfl
  | .bool _ => rfl
  | .int _ => rfl
  | .number _ => rfl
  | .str _ => rfl
  | .arr items =>
      rw [enforceStrictSchema, enforceItems_of_strict items strict]
  | .obj fields =>
      rw [enforceStrictSchema, enforceFields_of_strict fields strict.2, tighten_of_strict strict.1]

theorem enforceItems_of_strict (items : List Json) (strict : StrictItems items) :
    enforceItems items = items := by
  match items with
  | [] => rfl
  | item :: rest =>
      rw [enforceItems, enforce_of_strict item strict.1, enforceItems_of_strict rest strict.2]

theorem enforceFields_of_strict (fields : List (String × Json)) (strict : StrictValues fields) :
    enforceFields fields = fields := by
  match fields with
  | [] => rfl
  | (_, value) :: rest =>
      rw [enforceFields, enforce_of_strict value strict.1, enforceFields_of_strict rest strict.2]

end

theorem enforce_enforce (value : Json) :
    enforceStrictSchema (enforceStrictSchema value) = enforceStrictSchema value :=
  enforce_of_strict _ (enforce_strict value)

/-! ### Schemas by their keywords -/

/-- What stands under a keyword: subschemas, subschemas under names of the author's choice, or
plain data. -/
inductive Role
  | schema
  | named
  | data

def keywordRole (keyword : String) : Role :=
  if keyword ∈ ["properties", "patternProperties", "dependentSchemas", "definitions", "$defs"] then
    .named
  else if keyword ∈ ["items", "prefixItems", "additionalItems", "unevaluatedItems", "contains",
      "additionalProperties", "unevaluatedProperties", "propertyNames", "anyOf", "oneOf", "allOf",
      "not", "if", "then", "else", "contentSchema"] then
    .schema
  else .data

def declaredBy (keywords : List (String × Json)) : Option (List (String × Json)) :=
  match Dict.find "properties" keywords with
  | some (.obj declared) => some declared
  | _ => if Dict.find "type" keywords = some (.str "object") then some [] else none

/-- An object schema lists what it declares, requires all of it and allows nothing else. All other
schemas, and the other keywords of this one, stay. -/
def strictNode (keywords : List (String × Json)) : List (String × Json) :=
  match declaredBy keywords with
  | some declared => close declared (Dict.assign "properties" (.obj declared) keywords)
  | none => keywords

mutual

def strictAt : Role → Json → Json
  | .schema, .obj keywords => .obj (strictNode (strictKeywords keywords))
  | .schema, .arr schemas => .arr (strictAll schemas)
  | .named, .obj entries => .obj (strictEntries entries)
  | _, value => value

def strictAll : List Json → List Json
  | [] => []
  | schema :: rest => strictAt .schema schema :: strictAll rest

def strictEntries : List (String × Json) → List (String × Json)
  | [] => []
  | (name, schema) :: rest => (name, strictAt .schema schema) :: strictEntries rest

def strictKeywords : List (String × Json) → List (String × Json)
  | [] => []
  | (keyword, value) :: rest =>
      (keyword, strictAt (keywordRole keyword) value) :: strictKeywords rest

end

/-- A map from names to schemas that cannot be taken for a schema. A name `type` is harmless, for
it stands before a schema and not before a text. -/
def PlainNames (entries : List (String × Json)) : Prop :=
  (∀ declared, Dict.find "properties" entries ≠ some (.obj declared)) ∧
    Dict.find "type" entries ≠ some (.str "object")

mutual

def Plain : Role → Json → Prop
  | .schema, .obj keywords => PlainKeywords keywords
  | .schema, .arr schemas => PlainAll schemas
  | .schema, _ => True
  | .named, .obj entries => PlainNames entries ∧ PlainEntries entries
  | _, value => Strict value

def PlainAll : List Json → Prop
  | [] => True
  | schema :: rest => Plain .schema schema ∧ PlainAll rest

def PlainEntries : List (String × Json) → Prop
  | [] => True
  | (_, schema) :: rest => Plain .schema schema ∧ PlainEntries rest

def PlainKeywords : List (String × Json) → Prop
  | [] => True
  | (keyword, value) :: rest => Plain (keywordRole keyword) value ∧ PlainKeywords rest

end

theorem tighten_eq_strictNode (keywords : List (String × Json)) :
    tighten keywords = strictNode keywords := by
  rw [tighten, strictNode, declaredBy]
  split
  · rename_i declared declares
    change close declared keywords = close declared (Dict.assign "properties" _ keywords)
    rw [Dict.assign_of_find declares]
  · split <;> rfl

theorem enforce_ne_obj {value : Json} (other : ∀ fields, value ≠ .obj fields)
    (fields : List (String × Json)) : enforceStrictSchema value ≠ .obj fields := by
  cases value with
  | obj held => exact absurd rfl (other held)
  | null | bool | int | number | str | arr => exact fun equal => by cases equal

theorem enforce_eq_text {value : Json} {text : String}
    (equal : enforceStrictSchema value = .str text) : value = .str text := by
  cases value with
  | str held => exact equal
  | null | bool | int | number | arr | obj => cases equal

theorem plain_data (value : Json) : Plain .data value = Strict value := by
  cases value <;> rfl

theorem strictAt_data (value : Json) : strictAt .data value = value := by
  cases value <;> rfl

theorem tighten_of_plain {entries : List (String × Json)} (plain : PlainNames entries) :
    tighten (enforceFields entries) = enforceFields entries := by
  rw [enforceFields_eq_map, tighten, Dict.find_map, Dict.find_map]
  split
  · rename_i declared declares
    obtain ⟨value, found, image⟩ := Option.map_eq_some_iff.mp declares
    refine absurd image (enforce_ne_obj (fun fields equal => ?_) declared)
    exact plain.1 fields (equal ▸ found)
  · refine if_neg (fun typed => ?_)
    obtain ⟨value, found, image⟩ := Option.map_eq_some_iff.mp typed
    exact plain.2 (enforce_eq_text image ▸ found)

mutual

theorem enforce_eq_strictAt (role : Role) (value : Json) (plain : Plain role value) :
    enforceStrictSchema value = strictAt role value := by
  match role, value with
  | .schema, .obj keywords =>
      rw [enforceStrictSchema, strictAt, enforceKeywords_eq keywords plain, tighten_eq_strictNode]
  | .schema, .arr schemas =>
      rw [enforceStrictSchema, strictAt, enforceItems_eq schemas plain]
  | .named, .obj entries =>
      rw [enforceStrictSchema, strictAt, tighten_of_plain plain.1, enforceEntries_eq entries plain.2]
  | .schema, .null | .schema, .bool _ | .schema, .int _ | .schema, .number _ | .schema, .str _ => rfl
  | .named, .null | .named, .bool _ | .named, .int _ | .named, .number _ | .named, .str _ => rfl
  | .named, .arr _ => exact enforce_of_strict _ plain
  | .data, value =>
      rw [plain_data] at plain
      rw [strictAt_data]
      exact enforce_of_strict value plain

theorem enforceItems_eq (schemas : List Json) (plain : PlainAll schemas) :
    enforceItems schemas = strictAll schemas := by
  match schemas with
  | [] => rfl
  | schema :: rest =>
      rw [enforceItems, strictAll, enforce_eq_strictAt .schema schema plain.1,
        enforceItems_eq rest plain.2]

theorem enforceEntries_eq (entries : List (String × Json)) (plain : PlainEntries entries) :
    enforceFields entries = strictEntries entries := by
  match entries with
  | [] => rfl
  | (_, schema) :: rest =>
      rw [enforceFields, strictEntries, enforce_eq_strictAt .schema schema plain.1,
        enforceEntries_eq rest plain.2]

theorem enforceKeywords_eq (keywords : List (String × Json)) (plain : PlainKeywords keywords) :
    enforceFields keywords = strictKeywords keywords := by
  match keywords with
  | [] => rfl
  | (keyword, value) :: rest =>
      rw [enforceFields, strictKeywords, enforce_eq_strictAt (keywordRole keyword) value plain.1,
        enforceKeywords_eq rest plain.2]

end

theorem strictEntries_names (entries : List (String × Json)) :
    (strictEntries entries).map Prod.fst = entries.map Prod.fst := by
  induction entries with
  | nil => rfl
  | cons head rest ih =>
      obtain ⟨name, schema⟩ := head
      rw [strictEntries, List.map_cons, ih, List.map_cons]

/-- Whatever is rewritten comes out strict and is left alone the second time; of a plain schema
nothing but its object schemas changes, and the names under which schemas stand are the same. -/
theorem enforce_keeps_meaning (schema : Json) :
    Strict (enforceStrictSchema schema) ∧
      enforceStrictSchema (enforceStrictSchema schema) = enforceStrictSchema schema ∧
      (Plain .schema schema → enforceStrictSchema schema = strictAt .schema schema) ∧
      ∀ entries, (strictEntries entries).map Prod.fst = entries.map Prod.fst :=
  ⟨enforce_strict schema, enforce_enforce schema, enforce_eq_strictAt .schema schema,
    strictEntries_names⟩

def orderSchema : Json :=
  .obj [("type", .str "object"),
    ("properties", .obj [("type", .obj [("$ref", .str "#/$defs/kind")]),
      ("orders", .obj [("type", .str "array"), ("items", .obj [("type", .str "object")])])]),
    ("$defs", .obj [("kind", .obj [("anyOf",
      .arr [.obj [("type", .str "object"), ("properties", .obj [("note", .bool true)])],
        .obj [("type", .str "null")]])])])]

theorem orderSchema_rewritten :
    enforceStrictSchema orderSchema = strictAt .schema orderSchema :=
  (enforce_keeps_meaning orderSchema).2.2.1 (by
    simp [orderSchema, Plain, PlainKeywords, PlainEntries, PlainAll, PlainNames, Dict.find,
      keywordRole, Strict])

/-- An object that declares no properties does not stay as it is. -/
theorem bare_object_completed :
    Dict.find "properties" [("type", Json.str "object")] = none ∧
      ¬ enforceStrictSchema (.obj [("type", .str "object")]) = .obj [("type", .str "object")] := by
  decide +kernel

end Assemblix.StrictSchema
