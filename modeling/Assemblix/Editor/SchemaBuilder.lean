import Assemblix.Library.JsObject

/-
The schema builder: a tree of properties as a schema and back.

The identifiers of the rows are new after every parse and are left out. A round trip tidies the
tree: rows without a name and blank enum values go, what a type has no use for goes, an array gets
its items under their usual name. Apart from that the tree comes back, as long as its names can
stand side by side in an object in the order they have.
-/

namespace Assemblix.SchemaBuilder

open Library

inductive SchemaPropertyType
  | string
  | number
  | boolean
  | enum
  | object
  | array
  deriving DecidableEq

inductive SchemaProperty
  | mk (name : String) (type : SchemaPropertyType) (description : String)
      (required : Option Bool) (enumValues : Option (List String))
      (properties : Option (List SchemaProperty)) (items : Option SchemaProperty)

def SchemaProperty.name : SchemaProperty → String
  | .mk name _ _ _ _ _ _ => name

def SchemaProperty.required : SchemaProperty → Option Bool
  | .mk _ _ _ required _ _ _ => required

inductive SchemaNode
  | mk (type : SchemaPropertyType) (description : Option String) (enum : Option (List String))
      (properties : Option (List (String × SchemaNode))) (required : Option (List String))
      (additionalProperties : Option Bool) (items : Option SchemaNode)

structure OpenAPISchema where
  type : SchemaPropertyType
  properties : List (String × SchemaNode)
  required : Option (List String)
  additionalProperties : Bool
  title : Option String

/-! ### From the tree to the schema -/

def requiredProps (properties : List SchemaProperty) : Option (List String) :=
  let names := (properties.filter (fun prop => prop.required = some true ∧ prop.name ≠ "")).map
    SchemaProperty.name
  if 0 < names.length then some names else none

mutual

def convertPropertyToSchemaNode : SchemaProperty → SchemaNode
  | .mk _ type description _ enumValues properties items =>
      .mk (if type = .enum then .string else type)
        (if description = "" then none else some description)
        (if type = .enum ∧ 0 < (enumValues.getD []).length then
          some ((enumValues.getD []).filter (fun value => value ≠ "")) else none)
        (if type = .object then some (convertOptional properties) else none)
        (if type = .object then requiredProps (properties.getD []) else none)
        (if type = .object then some false else none)
        (if type = .array then some (convertItems items) else none)

def convertItems : Option SchemaProperty → SchemaNode
  | some items => convertPropertyToSchemaNode items
  | none => .mk .string none none none none none none

def convertOptional : Option (List SchemaProperty) → List (String × SchemaNode)
  | some properties => convertInto properties []
  | none => []

/-- `forEach` of `convertPropertiesToSchema`. Unnamed properties are skipped. -/
def convertInto : List SchemaProperty → List (String × SchemaNode) → List (String × SchemaNode)
  | [], result => result
  | prop :: rest, result =>
      if prop.name = "" then convertInto rest result
      else convertInto rest (JsObject.put prop.name (convertPropertyToSchemaNode prop) result)

end

def convertPropertiesToSchema (properties : List SchemaProperty) : List (String × SchemaNode) :=
  convertInto properties []

def generateSchema (properties : List SchemaProperty) (title : String) : OpenAPISchema where
  type := .object
  properties := convertPropertiesToSchema properties
  required := requiredProps properties
  additionalProperties := false
  title := some title

/-! ### From the schema to the tree -/

mutual

def parseSchemaNodeToProperty : SchemaNode → String → Bool → SchemaProperty
  | .mk type description enum properties requiredNames _ items, name, required =>
      let type := if enum.isSome then .enum else type
      .mk name type (description.getD "") (some required)
        (if type = .enum then enum else none)
        (if type = .object then some (parseOptional properties (requiredNames.getD [])) else none)
        (if type = .array then parseItems items else none)

def parseItems : Option SchemaNode → Option SchemaProperty
  | some items => some (parseSchemaNodeToProperty items "item" false)
  | none => none

def parseOptional : Option (List (String × SchemaNode)) → List String → List SchemaProperty
  | some entries, required => parseEntries entries required
  | none, _ => []

def parseEntries : List (String × SchemaNode) → List String → List SchemaProperty
  | [], _ => []
  | (name, value) :: rest, required =>
      parseSchemaNodeToProperty value name (required.contains name) :: parseEntries rest required

end

def parseSchemaToProperties : Option OpenAPISchema → List SchemaProperty
  | none => []
  | some schema => parseEntries schema.properties (schema.required.getD [])

/-! ### What a round trip leaves out -/

mutual

/-- A property under the given name and flag, without blank enum values and without what belongs to
other types. An enum that was given no values is a string. -/
def tidyAs : SchemaProperty → String → Bool → SchemaProperty
  | .mk _ type description _ enumValues properties items, name, required =>
      let type := if type = .enum ∧ enumValues.getD [] = [] then .string else type
      .mk name type description (some required)
        (if type = .enum then some ((enumValues.getD []).filter (fun value => value ≠ "")) else none)
        (if type = .object then some (tidyOptional properties) else none)
        (if type = .array then some (tidyItems items) else none)

def tidyItems : Option SchemaProperty → SchemaProperty
  | some items => tidyAs items "item" false
  | none => .mk "item" .string "" (some false) none none none

def tidyOptional : Option (List SchemaProperty) → List SchemaProperty
  | some properties => tidy properties
  | none => []

def tidy : List SchemaProperty → List SchemaProperty
  | [] => []
  | prop :: rest =>
      if prop.name = "" then tidy rest
      else tidyAs prop prop.name (prop.required = some true) :: tidy rest

end

def named (properties : List SchemaProperty) : List SchemaProperty :=
  properties.filter (fun prop => prop.name ≠ "")

def SideBySide (properties : List SchemaProperty) : Prop :=
  JsObject.InOrder ((named properties).map SchemaProperty.name) ∧
    "__proto__" ∉ (named properties).map SchemaProperty.name

instance (properties : List SchemaProperty) : Decidable (SideBySide properties) :=
  inferInstanceAs (Decidable (_ ∧ _))

mutual

def Representable : SchemaProperty → Prop
  | .mk _ type _ _ _ properties items =>
      (type = .object → RepresentableOptional properties) ∧
        (type = .array → RepresentableItems items)

def RepresentableItems : Option SchemaProperty → Prop
  | some items => Representable items
  | none => True

def RepresentableOptional : Option (List SchemaProperty) → Prop
  | some properties => SideBySide properties ∧ RepresentableEach properties
  | none => True

def RepresentableEach : List SchemaProperty → Prop
  | [] => True
  | prop :: rest => Representable prop ∧ RepresentableEach rest

end

/-! ### One list of properties -/

theorem convertInto_eq (properties : List SchemaProperty) (result : List (String × SchemaNode)) :
    convertInto properties result =
      ((named properties).map (fun prop => (prop.name, convertPropertyToSchemaNode prop))).foldl
        (fun object entry => JsObject.put entry.1 entry.2 object) result := by
  induction properties generalizing result with
  | nil => rfl
  | cons prop rest ih =>
      by_cases unnamed : prop.name = ""
      · simp only [convertInto, named, List.filter_cons, unnamed, ne_eq, not_true_eq_false,
          decide_false, Bool.false_eq_true, if_false, if_true]
        exact ih result
      · simp only [convertInto, named, List.filter_cons, unnamed, ne_eq, not_false_eq_true,
          decide_true, if_true, if_false, List.map_cons, List.foldl_cons]
        exact ih _

theorem convertPropertiesToSchema_eq {properties : List SchemaProperty}
    (sideBySide : SideBySide properties) :
    convertPropertiesToSchema properties =
      (named properties).map (fun prop => (prop.name, convertPropertyToSchemaNode prop)) := by
  have names : ((named properties).map
      (fun prop => (prop.name, convertPropertyToSchemaNode prop))).map Prod.fst =
        (named properties).map SchemaProperty.name := by
    rw [List.map_map]
    rfl
  rw [convertPropertiesToSchema, convertInto_eq]
  apply JsObject.build_of_inOrder
  · rw [names]
    exact sideBySide.1
  · rw [names]
    exact sideBySide.2

theorem parseEntries_eq (entries : List (String × SchemaNode)) (required : List String) :
    parseEntries entries required = entries.map (fun entry =>
      parseSchemaNodeToProperty entry.2 entry.1 (required.contains entry.1)) := by
  induction entries with
  | nil => rfl
  | cons head rest ih =>
      obtain ⟨name, value⟩ := head
      rw [parseEntries, ih, List.map_cons]

theorem tidy_eq (properties : List SchemaProperty) :
    tidy properties = (named properties).map (fun prop =>
      tidyAs prop prop.name (prop.required = some true)) := by
  induction properties with
  | nil => rfl
  | cons prop rest ih =>
      by_cases unnamed : prop.name = "" <;>
        simp [tidy, named, unnamed, ih]

theorem requiredProps_contains {properties : List SchemaProperty} {prop : SchemaProperty}
    (sideBySide : SideBySide properties) (member : prop ∈ named properties) :
    ((requiredProps properties).getD []).contains prop.name =
      decide (prop.required = some true) := by
  have listed : (requiredProps properties).getD [] =
      (properties.filter (fun prop => prop.required = some true ∧ prop.name ≠ "")).map
        SchemaProperty.name := by
    rw [requiredProps]
    split
    · rfl
    · rename_i none
      exact (List.length_eq_zero_iff.mp (Nat.eq_zero_of_not_pos none)).symm
  have distinct : ∀ other ∈ named properties, other.name = prop.name → other = prop := by
    intro other there same
    by_contra different
    have apart : ((named properties).map SchemaProperty.name).Nodup :=
      sideBySide.1.imp (fun parts => parts.1)
    exact different (List.inj_on_of_nodup_map apart there member same)
  obtain ⟨present, proper⟩ := List.mem_filter.mp member
  rw [listed, Bool.eq_iff_iff, List.contains_iff_mem, List.mem_map, decide_eq_true_iff]
  constructor
  · rintro ⟨other, chosen, same⟩
    obtain ⟨there, flagged⟩ := List.mem_filter.mp chosen
    have flags := of_decide_eq_true flagged
    rw [← distinct other (List.mem_filter.mpr ⟨there, by simpa using flags.2⟩) same]
    exact flags.1
  · intro flag
    refine ⟨prop, List.mem_filter.mpr ⟨present, ?_⟩, rfl⟩
    exact decide_eq_true ⟨flag, of_decide_eq_true proper⟩

theorem parseEntries_convert {properties : List SchemaProperty}
    (sideBySide : SideBySide properties)
    (each : ∀ prop ∈ properties, ∀ name required,
      parseSchemaNodeToProperty (convertPropertyToSchemaNode prop) name required =
        tidyAs prop name required) :
    parseEntries (convertPropertiesToSchema properties) ((requiredProps properties).getD []) =
      tidy properties := by
  rw [convertPropertiesToSchema_eq sideBySide, parseEntries_eq, List.map_map, tidy_eq]
  apply List.map_congr_left
  intro prop member
  change parseSchemaNodeToProperty (convertPropertyToSchemaNode prop) prop.name _ = _
  rw [requiredProps_contains sideBySide member]
  exact each prop (List.mem_of_mem_filter member) prop.name _

/-! ### The whole tree -/

theorem description_back (description : String) :
    (if description = "" then none else some description).getD "" = description := by
  split
  · rename_i blank
    exact blank.symm
  · rfl

mutual

theorem parse_convert (prop : SchemaProperty) (representable : Representable prop) (name : String)
    (required : Bool) :
    parseSchemaNodeToProperty (convertPropertyToSchemaNode prop) name required =
      tidyAs prop name required := by
  match prop with
  | .mk _ type description flag enumValues properties items =>
      rw [convertPropertyToSchemaNode, parseSchemaNodeToProperty, tidyAs, description_back]
      cases type with
      | string | number | boolean => rfl
      | enum =>
          by_cases blank : enumValues.getD [] = []
          · simp [blank]
          · have some : 0 < (enumValues.getD []).length := List.length_pos_of_ne_nil blank
            simp [blank, some]
      | object =>
          have inner := parse_convert_optional properties (representable.1 rfl)
          simpa [parseOptional] using inner
      | array =>
          have inner := parse_convert_items items (representable.2 rfl)
          simpa [parseItems] using inner

theorem parse_convert_items (items : Option SchemaProperty)
    (representable : RepresentableItems items) :
    parseSchemaNodeToProperty (convertItems items) "item" false = tidyItems items := by
  match items with
  | none => rfl
  | some items => exact parse_convert items representable "item" false

theorem parse_convert_optional (properties : Option (List SchemaProperty))
    (representable : RepresentableOptional properties) :
    parseEntries (convertOptional properties) ((requiredProps (properties.getD [])).getD []) =
      tidyOptional properties := by
  match properties with
  | none => rfl
  | some properties =>
      exact parseEntries_convert representable.1 (parse_convert_each properties representable.2)

theorem parse_convert_each (properties : List SchemaProperty)
    (representable : RepresentableEach properties) :
    ∀ prop ∈ properties, ∀ name required,
      parseSchemaNodeToProperty (convertPropertyToSchemaNode prop) name required =
        tidyAs prop name required := by
  match properties with
  | [] => exact fun prop member => absurd member List.not_mem_nil
  | prop :: rest =>
      rw [List.forall_mem_cons]
      exact ⟨parse_convert prop representable.1, parse_convert_each rest representable.2⟩

end

/-- Building a schema and parsing it again tidies the tree and changes nothing else. -/
theorem parse_generateSchema (properties : List SchemaProperty) (title : String)
    (representable : RepresentableOptional (some properties)) :
    parseSchemaToProperties (some (generateSchema properties title)) = tidy properties :=
  parse_convert_optional (some properties) representable

def resultFields : List SchemaProperty :=
  [.mk "title" .string "" (some true) none none none,
    .mk "grade" .enum "" none (some ["good", "", "bad"]) none none]

def results : List SchemaProperty :=
  [.mk "results" .array "what was found" (some true) none none
      (some (.mk "item" .object "" none none (some resultFields) none)),
    .mk "" .string "" (some false) none none none]

theorem results_parse_generateSchema :
    parseSchemaToProperties (some (generateSchema results "responseSchema")) =
      [.mk "results" .array "what was found" (some true) none none
        (some (.mk "item" .object "" (some false) none
          (some [.mk "title" .string "" (some true) none none none,
            .mk "grade" .enum "" (some false) (some ["good", "bad"]) none none]) none))] := by
  have rows : SideBySide results := by decide +kernel
  have fields : SideBySide resultFields := by decide +kernel
  have plain : RepresentableEach resultFields := by
    simp [resultFields, RepresentableEach, Representable]
  have nested : RepresentableEach results := by
    simp [results, RepresentableEach, Representable, RepresentableItems, RepresentableOptional,
      fields, plain]
  exact parse_generateSchema results "responseSchema" ⟨rows, nested⟩

/-- A row without a name does not come back. -/
theorem unnamed_property_dropped :
    ¬ parseSchemaToProperties
        (some (generateSchema [.mk "" .string "" (some false) none none none] "responseSchema")) =
      [.mk "" .string "" (some false) none none none] := by
  have lost : parseSchemaToProperties
      (some (generateSchema [.mk "" .string "" (some false) none none none] "responseSchema")) =
        [] := rfl
  rw [lost]
  exact List.cons_ne_nil _ _ ∘ Eq.symm

end Assemblix.SchemaBuilder
