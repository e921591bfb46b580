import Assemblix.Library.JsObject

/-
The debug state of the editor: a stored value is brought into the structure of a template.

`key in current` is also true of what every object inherits. The inherited members are values of
their own, apart from everything that JSON can say. Positions of a tree are told by the keys and
indices that lead to them.
-/

namespace Assemblix.RuntimeState

open Library

inductive Value (N : Type)
  | null
  | boolean (value : Bool)
  | number (value : N)
  | string (value : String)
  | array (items : List (Value N))
  | object (fields : List (String × Value N))
  | native (name : String)

variable {N : Type}

/-- What every object inherits. -/
def prototypeNames : List String :=
  ["constructor", "__defineGetter__", "__defineSetter__", "hasOwnProperty", "__lookupGetter__",
    "__lookupSetter__", "isPrototypeOf", "propertyIsEnumerable", "toString", "valueOf", "__proto__",
    "toLocaleString"]

/-- `fields[key]` if `key in fields`. -/
def member (fields : List (String × Value N)) (key : String) : Option (Value N) :=
  (Dict.find key fields).or (if key ∈ prototypeNames then some (.native key) else none)

/-! ### The code -/

mutual

def alignStructure : Value N → Value N → Value N
  | current, .array template =>
      match current with
      | .array items => .array (alignItems items template)
      | _ => .array template
  | current, .object template =>
      match current with
      | .object fields => .object (alignFields fields template [])
      | _ => .object template
  | current, _ => current
termination_by structural _ template => template

def alignItems : List (Value N) → List (Value N) → List (Value N)
  | _, [] => []
  | [], item :: rest => item :: alignItems [] rest
  | current :: others, item :: rest => alignStructure current item :: alignItems others rest
termination_by structural _ template => template

def alignFields (fields : List (String × Value N)) :
    List (String × Value N) → List (String × Value N) → List (String × Value N)
  | [], result => result
  | (key, template) :: rest, result =>
      alignFields fields rest (JsObject.put key
        (match member fields key with
          | some current => alignStructure current template
          | none => template) result)
termination_by structural template => template

end

structure StateVariable (N : Type) where
  name : String
  type : String
  defaultValue : Option (Value N)

def getDefaultForType [Zero N] (type : String) : Value N :=
  if type = "string" then .string ""
  else if type = "number" then .number 0
  else if type = "boolean" then .boolean false
  else if type = "object" then .object []
  else .null

def defaultOf [Zero N] (entry : StateVariable N) : Value N :=
  match entry.defaultValue with
  | none => getDefaultForType entry.type
  | some .null => getDefaultForType entry.type
  | some value => value

def buildDefaults [Zero N] (schema : List (StateVariable N)) : List (String × Value N) :=
  JsObject.build (schema.map (fun entry => (entry.name, defaultOf entry)))

def typeof : Value N → String
  | .null => "object"
  | .boolean _ => "boolean"
  | .number _ => "number"
  | .string _ => "string"
  | .array _ => "object"
  | .object _ => "object"
  | .native _ => "function"

def reconcileValue (schemaType : String) (defaultValue : Value N) :
    Option (Value N) → Value N
  | none => defaultValue
  | some existingValue =>
      if schemaType = "object" then alignStructure existingValue defaultValue
      else if schemaType = "string" then
        if typeof existingValue = "string" then existingValue else defaultValue
      else if schemaType = "number" then
        if typeof existingValue = "number" then existingValue else defaultValue
      else if schemaType = "boolean" then
        if typeof existingValue = "boolean" then existingValue else defaultValue
      else existingValue

def mergeState [Zero N] (schema : List (StateVariable N)) (state : List (String × Value N)) :
    List (String × Value N) :=
  let defaults := buildDefaults schema
  JsObject.build (schema.map (fun entry => (entry.name,
    reconcileValue entry.type ((member defaults entry.name).getD .null)
      (member state entry.name))))

structure WorkflowRuntimeState (N : Type) where
  agentState : List (String × Value N)
  projectState : List (String × Value N)
  isStateDirty : Bool
  lastUpdateTimestamp : Nat
  recentlyChangedAgentKeys : List String
  recentlyChangedProjectKeys : List String

def initializeState [Zero N] (workflowSchema projectSchema : Option (List (StateVariable N)))
    (state : WorkflowRuntimeState N) : WorkflowRuntimeState N :=
  { state with
    agentState := (workflowSchema.map (mergeState · state.agentState)).getD state.agentState
    projectState := (projectSchema.map (mergeState · state.projectState)).getD state.projectState
    recentlyChangedAgentKeys := []
    recentlyChangedProjectKeys := [] }

/-! ### Trees and positions -/

inductive Step
  | key (name : String)
  | index (position : Nat)
  deriving DecidableEq

def valueAt : Value N → List Step → Option (Value N)
  | value, [] => some value
  | .object fields, .key name :: rest => (Dict.find name fields).bind (fun value => valueAt value rest)
  | .array items, .index position :: rest =>
      items[position]?.bind (fun value => valueAt value rest)
  | _, _ :: _ => none

/-- The own member of a stored object, the item of a stored array. -/
def fieldOf : Option (Value N) → String → Option (Value N)
  | some (.object fields), name => Dict.find name fields
  | _, _ => none

def itemOf : Option (Value N) → Nat → Option (Value N)
  | some (.array items), position => items[position]?
  | _, _ => none

/-- The stored value at a position that the stored tree has and above which it is an object where
the template is one, and an array where the template is one. -/
def storedAt : Option (Value N) → Value N → List Step → Option (Value N)
  | current, _, [] => current
  | current, .object template, .key name :: rest =>
      (Dict.find name template).bind (fun value => storedAt (fieldOf current name) value rest)
  | current, .array template, .index position :: rest =>
      template[position]?.bind (fun value => storedAt (itemOf current position) value rest)
  | _, _, _ :: _ => none

def Leaf : Value N → Prop
  | .array _ => False
  | .object _ => False
  | _ => True

mutual

def JsonTree : Value N → Prop
  | .native _ => False
  | .array items => JsonItems items
  | .object fields => JsObject.InOrder (fields.map Prod.fst) ∧ JsonFields fields
  | _ => True

def JsonItems : List (Value N) → Prop
  | [] => True
  | item :: rest => JsonTree item ∧ JsonItems rest

def JsonFields : List (String × Value N) → Prop
  | [] => True
  | (_, value) :: rest => JsonTree value ∧ JsonFields rest

end

mutual

/-- No object in the tree has a key `__proto__`. -/
def NoProto : Value N → Prop
  | .array items => NoProtoItems items
  | .object fields => "__proto__" ∉ fields.map Prod.fst ∧ NoProtoFields fields
  | _ => True

def NoProtoItems : List (Value N) → Prop
  | [] => True
  | item :: rest => NoProto item ∧ NoProtoItems rest

def NoProtoFields : List (String × Value N) → Prop
  | [] => True
  | (_, value) :: rest => NoProto value ∧ NoProtoFields rest

end

theorem jsonItems_iff (items : List (Value N)) : JsonItems items ↔ ∀ item ∈ items, JsonTree item := by
  induction items with
  | nil => simp [JsonItems]
  | cons item rest ih => rw [JsonItems, ih, List.forall_mem_cons]

theorem jsonFields_iff (fields : List (String × Value N)) :
    JsonFields fields ↔ ∀ entry ∈ fields, JsonTree entry.2 := by
  induction fields with
  | nil => simp [JsonFields]
  | cons head rest ih =>
      obtain ⟨key, value⟩ := head
      rw [JsonFields, ih, List.forall_mem_cons]

theorem noProtoItems_iff (items : List (Value N)) :
    NoProtoItems items ↔ ∀ item ∈ items, NoProto item := by
  induction items with
  | nil => simp [NoProtoItems]
  | cons item rest ih => rw [NoProtoItems, ih, List.forall_mem_cons]

theorem noProtoFields_iff (fields : List (String × Value N)) :
    NoProtoFields fields ↔ ∀ entry ∈ fields, NoProto entry.2 := by
  induction fields with
  | nil => simp [NoProtoFields]
  | cons head rest ih =>
      obtain ⟨key, value⟩ := head
      rw [NoProtoFields, ih, List.forall_mem_cons]

/-! ### One level -/

def aligned (current : Option (Value N)) (template : Value N) : Value N :=
  match current with
  | some value => alignStructure value template
  | none => template

def memberOf : Option (Value N) → String → Option (Value N)
  | some (.object fields), key => member fields key
  | _, _ => none

theorem alignFields_eq (fields template result : List (String × Value N)) :
    alignFields fields template result =
      (template.map (fun entry => (entry.1, aligned (member fields entry.1) entry.2))).foldl
        (fun object entry => JsObject.put entry.1 entry.2 object) result := by
  induction template generalizing result with
  | nil => rfl
  | cons head rest ih =>
      obtain ⟨key, value⟩ := head
      rw [alignFields, ih, List.map_cons, List.foldl_cons]
      rfl

theorem alignItems_getElem (items template : List (Value N)) (position : Nat) :
    (alignItems items template)[position]? =
      template[position]?.map (aligned items[position]?) := by
  induction template generalizing items position with
  | nil =>
      cases items <;> rfl
  | cons item rest ih =>
      cases items with
      | nil =>
          cases position with
          | zero => rfl
          | succ position => exact ih [] position
      | cons current others =>
          cases position with
          | zero => rfl
          | succ position => exact ih others position

theorem alignItems_length (items template : List (Value N)) :
    (alignItems items template).length = template.length := by
  induction template generalizing items with
  | nil => cases items <;> rfl
  | cons item rest ih =>
      cases items with
      | nil => rw [alignItems, List.length_cons, ih, List.length_cons]
      | cons current others => rw [alignItems, List.length_cons, ih, List.length_cons]

theorem aligned_leaf (current : Option (Value N)) {template : Value N} (leaf : Leaf template) :
    aligned current template = current.getD template := by
  cases current with
  | none => rfl
  | some value =>
      cases template with
      | array | object => exact leaf.elim
      | null | boolean | number | string | native => rfl

theorem build_aligned {template : List (String × Value N)}
    (json : JsonTree (.object template)) (noProto : NoProto (.object template))
    (change : String → Value N → Value N) :
    JsObject.build (template.map (fun entry => (entry.1, change entry.1 entry.2))) =
      template.map (fun entry => (entry.1, change entry.1 entry.2)) := by
  have names : (template.map (fun entry => (entry.1, change entry.1 entry.2))).map Prod.fst =
      template.map Prod.fst := by
    rw [List.map_map]
    rfl
  apply JsObject.build_of_inOrder
  · rw [names]
    exact json.1
  · rw [names]
    exact noProto.1

theorem aligned_object (current : Option (Value N)) {template : List (String × Value N)}
    (json : JsonTree (.object template)) (noProto : NoProto (.object template)) :
    aligned current (.object template) =
      .object (template.map (fun entry => (entry.1, aligned (memberOf current entry.1) entry.2))) := by
  have whole : template.map (fun entry => (entry.1, aligned none entry.2)) = template :=
    List.map_id' template
  match current with
  | some (.object fields) =>
      change Value.object (alignFields fields template []) = _
      rw [alignFields_eq]
      exact congrArg Value.object
        (build_aligned json noProto (fun key value => aligned (member fields key) value))
  | none => exact congrArg Value.object whole.symm
  | some .null | some (.boolean _) | some (.number _) | some (.string _) | some (.array _)
  | some (.native _) => exact congrArg Value.object whole.symm

theorem aligned_array (current : Option (Value N)) (template : List (Value N)) :
    ∃ items, aligned current (.array template) = .array items ∧
      items.length = template.length ∧ ∀ position : Nat,
        items[position]? = template[position]?.map (aligned (itemOf current position)) := by
  have whole : ∀ position : Nat,
      template[position]? = template[position]?.map (aligned none) := by
    intro position
    exact (Option.map_id' (x := template[position]?)).symm
  match current with
  | some (.array items) =>
      exact ⟨alignItems items template, rfl, alignItems_length items template,
        alignItems_getElem items template⟩
  | none => exact ⟨template, rfl, rfl, whole⟩
  | some .null | some (.boolean _) | some (.number _) | some (.string _) | some (.object _)
  | some (.native _) => exact ⟨template, rfl, rfl, whole⟩

theorem valueAt_aligned_key {current : Option (Value N)} {template : List (String × Value N)}
    (json : JsonTree (.object template)) (noProto : NoProto (.object template)) {name : String}
    {value : Value N} (found : Dict.find name template = some value) (rest : List Step) :
    valueAt (aligned current (.object template)) (.key name :: rest) =
      valueAt (aligned (memberOf current name) value) rest := by
  rw [aligned_object current json noProto, valueAt,
    JsObject.find_mapEntries (fun key value => aligned (memberOf current key) value), found]
  rfl

theorem valueAt_aligned_index {current : Option (Value N)} {template : List (Value N)}
    {position : Nat} {value : Value N} (found : template[position]? = some value)
    (rest : List Step) :
    valueAt (aligned current (.array template)) (.index position :: rest) =
      valueAt (aligned (itemOf current position) value) rest := by
  obtain ⟨items, equal, -, each⟩ := aligned_array current template
  rw [equal, valueAt, each, found]
  rfl

/-! ### Along a path -/

theorem json_of_find {fields : List (String × Value N)} (json : JsonTree (.object fields))
    {name : String} {value : Value N} (found : Dict.find name fields = some value) :
    JsonTree value :=
  (jsonFields_iff fields).mp json.2 _ (Dict.mem_of_find fields found)

theorem json_of_getElem {items : List (Value N)} (json : JsonTree (.array items)) {position : Nat}
    {value : Value N} (found : items[position]? = some value) : JsonTree value :=
  (jsonItems_iff items).mp json _ (List.mem_of_getElem? found)

theorem noProto_of_find {fields : List (String × Value N)} (noProto : NoProto (.object fields))
    {name : String} {value : Value N} (found : Dict.find name fields = some value) :
    NoProto value :=
  (noProtoFields_iff fields).mp noProto.2 _ (Dict.mem_of_find fields found)

theorem noProto_of_getElem {items : List (Value N)} (noProto : NoProto (.array items))
    {position : Nat} {value : Value N} (found : items[position]? = some value) : NoProto value :=
  (noProtoItems_iff items).mp noProto _ (List.mem_of_getElem? found)

theorem valueAt_cons {template value : Value N} {step : Step} {rest : List Step}
    (found : valueAt template (step :: rest) = some value) :
    (∃ name fields inner, step = .key name ∧ template = .object fields ∧
        Dict.find name fields = some inner ∧ valueAt inner rest = some value) ∨
      ∃ position items inner, step = .index position ∧ template = .array items ∧
        items[position]? = some inner ∧ valueAt inner rest = some value := by
  cases step with
  | key name =>
      cases template with
      | object fields =>
          obtain ⟨inner, first, later⟩ := Option.bind_eq_some_iff.mp found
          exact .inl ⟨name, fields, inner, rfl, rfl, first, later⟩
      | null | boolean | number | string | array | native => cases found
  | index position =>
      cases template with
      | array items =>
          obtain ⟨inner, first, later⟩ := Option.bind_eq_some_iff.mp found
          exact .inr ⟨position, items, inner, rfl, rfl, first, later⟩
      | null | boolean | number | string | object | native => cases found

theorem proper_at {template value : Value N} (json : JsonTree template)
    (noProto : NoProto template) {path : List Step} (found : valueAt template path = some value) :
    JsonTree value ∧ NoProto value := by
  induction path generalizing template with
  | nil =>
      cases found
      exact ⟨json, noProto⟩
  | cons step rest ih =>
      rcases valueAt_cons found with ⟨name, fields, inner, -, rfl, first, later⟩ |
        ⟨position, items, inner, -, rfl, first, later⟩
      · exact ih (json_of_find json first) (noProto_of_find noProto first) later
      · exact ih (json_of_getElem json first) (noProto_of_getElem noProto first) later

theorem storedAt_nil (current : Option (Value N)) (template : Value N) :
    storedAt current template [] = current := by
  cases template <;> rfl

theorem storedAt_none (template : Value N) (path : List Step) :
    storedAt none template path = none := by
  induction path generalizing template with
  | nil => exact storedAt_nil none template
  | cons step rest ih =>
      cases step with
      | key name =>
          cases template with
          | object fields =>
              change (Dict.find name fields).bind (fun value => storedAt none value rest) = none
              cases Dict.find name fields with
              | none => rfl
              | some value => exact ih value
          | null | boolean | number | string | array | native => rfl
      | index position =>
          cases template with
          | array items =>
              change items[position]?.bind (fun value => storedAt none value rest) = none
              cases items[position]? with
              | none => rfl
              | some value => exact ih value
          | null | boolean | number | string | object | native => rfl

theorem storedAt_key (current : Option (Value N)) {template : List (String × Value N)}
    {name : String} {value : Value N} (found : Dict.find name template = some value)
    (rest : List Step) :
    storedAt current (.object template) (.key name :: rest) =
      storedAt (fieldOf current name) value rest := by
  rw [storedAt, found, Option.bind_some]

theorem storedAt_index (current : Option (Value N)) {template : List (Value N)} {position : Nat}
    {value : Value N} (found : template[position]? = some value) (rest : List Step) :
    storedAt current (.array template) (.index position :: rest) =
      storedAt (itemOf current position) value rest := by
  rw [storedAt, found, Option.bind_some]

theorem memberOf_of_fieldOf {current : Option (Value N)} {name : String} {value : Value N}
    (own : fieldOf current name = some value) : memberOf current name = some value := by
  match current with
  | some (.object fields) =>
      change Dict.find name fields = some value at own
      change (Dict.find name fields).or _ = some value
      rw [own, Option.some_or]
  | none => cases own
  | some .null | some (.boolean _) | some (.number _) | some (.string _) | some (.array _)
  | some (.native _) => cases own

theorem aligned_at_stored {current : Option (Value N)} {template stored value : Value N}
    (json : JsonTree template) (noProto : NoProto template) {path : List Step}
    (held : storedAt current template path = some stored)
    (found : valueAt template path = some value) :
    valueAt (aligned current template) path = some (alignStructure stored value) := by
  induction path generalizing current template with
  | nil =>
      cases found
      rw [storedAt_nil] at held
      rw [held]
      rfl
  | cons step rest ih =>
      rcases valueAt_cons found with ⟨name, fields, inner, rfl, rfl, first, later⟩ |
        ⟨position, items, inner, rfl, rfl, first, later⟩
      · rw [storedAt_key current first] at held
        rw [valueAt_aligned_key json noProto first]
        cases own : fieldOf current name with
        | none =>
            rw [own, storedAt_none] at held
            cases held
        | some member =>
            rw [memberOf_of_fieldOf own, ← own]
            exact ih (json_of_find json first) (noProto_of_find noProto first) held later
      · rw [storedAt_index current first] at held
        rw [valueAt_aligned_index first]
        exact ih (json_of_getElem json first) (noProto_of_getElem noProto first) held later

/-- Where the stored object and the template are both objects, a key that every object inherits is
stored or has an object or array in the template. -/
def OwnLeaves (current : Option (Value N)) (template : Value N) : Prop :=
  ∀ path fields entries key value, storedAt current template path = some (.object fields) →
    valueAt template path = some (.object entries) → Dict.find key entries = some value →
      Leaf value → key ∈ prototypeNames → Dict.find key fields ≠ none

theorem OwnLeaves.key {current : Option (Value N)} {template : List (String × Value N)}
    (own : OwnLeaves current (.object template)) {name : String} {value : Value N}
    (found : Dict.find name template = some value) : OwnLeaves (fieldOf current name) value := by
  intro path fields entries key leaf stored there
  refine own (.key name :: path) fields entries key leaf ?_ ?_
  · rw [storedAt_key current found, stored]
  · rw [valueAt, found]
    exact there

theorem OwnLeaves.index {current : Option (Value N)} {template : List (Value N)}
    (own : OwnLeaves current (.array template)) {position : Nat} {value : Value N}
    (found : template[position]? = some value) : OwnLeaves (itemOf current position) value := by
  intro path fields entries key leaf stored there
  refine own (.index position :: path) fields entries key leaf ?_ ?_
  · rw [storedAt_index current found, stored]
  · rw [valueAt, found]
    exact there

theorem alignStructure_native (name : String) {template : Value N} (inner : ¬ Leaf template) :
    alignStructure (.native name) template = template := by
  cases template with
  | array | object => rfl
  | null | boolean | number | string | native => exact absurd trivial inner

theorem memberOf_of_fieldOf_none {current : Option (Value N)} {name : String}
    (absent : fieldOf current name = none) :
    memberOf current name = none ∨
      ∃ fields, current = some (.object fields) ∧ Dict.find name fields = none ∧
        name ∈ prototypeNames ∧ memberOf current name = some (.native name) := by
  match current with
  | some (.object fields) =>
      change Dict.find name fields = none at absent
      have read : memberOf (some (.object fields)) name =
          if name ∈ prototypeNames then some (.native name) else none := by
        change (Dict.find name fields).or _ = _
        rw [absent, Option.none_or]
      by_cases inherited : name ∈ prototypeNames
      · rw [if_pos inherited] at read
        exact .inr ⟨fields, rfl, absent, inherited, read⟩
      · rw [if_neg inherited] at read
        exact .inl read
  | none => exact .inl rfl
  | some .null | some (.boolean _) | some (.number _) | some (.string _) | some (.array _)
  | some (.native _) => exact .inl rfl

theorem aligned_at_missing {current : Option (Value N)} {template value : Value N}
    (json : JsonTree template) (noProto : NoProto template) (own : OwnLeaves current template)
    {path : List Step} (held : storedAt current template path = none)
    (found : valueAt template path = some value) :
    valueAt (aligned current template) path = some value := by
  induction path generalizing current template with
  | nil =>
      rw [storedAt_nil] at held
      rw [held]
      exact found
  | cons step rest ih =>
      rcases valueAt_cons found with ⟨name, fields, inner, rfl, rfl, first, later⟩ |
        ⟨position, items, inner, rfl, rfl, first, later⟩
      · rw [storedAt_key current first] at held
        rw [valueAt_aligned_key json noProto first]
        cases stored : fieldOf current name with
        | some member =>
            rw [memberOf_of_fieldOf stored, ← stored]
            exact ih (json_of_find json first) (noProto_of_find noProto first) (own.key first)
              held later
        | none =>
            rcases memberOf_of_fieldOf_none stored with empty |
              ⟨entries, whole, absent, inherited, read⟩
            · rw [empty]
              exact later
            · have nonleaf : ¬ Leaf inner := by
                intro leaf
                refine own [] entries fields name inner ?_ rfl first leaf inherited absent
                rw [storedAt_nil, whole]
              rw [read, aligned, alignStructure_native name nonleaf]
              exact later
      · rw [storedAt_index current first] at held
        rw [valueAt_aligned_index first]
        exact ih (json_of_getElem json first) (noProto_of_getElem noProto first) (own.index first)
          held later

/-! ### Following the template -/

structure SameShape (template result : Value N) : Prop where
  object : ∀ path entries, valueAt template path = some (.object entries) →
    ∃ fields, valueAt result path = some (.object fields) ∧
      ∀ key, key ∈ fields.map Prod.fst ↔ key ∈ entries.map Prod.fst
  array : ∀ path items, valueAt template path = some (.array items) →
    ∃ items', valueAt result path = some (.array items') ∧ items'.length = items.length

/-- The shape of the template, the stored values at its leaves, and where nothing is stored its
own. -/
structure Follows (current : Option (Value N)) (template result : Value N) : Prop
    extends SameShape template result where
  leaf : ∀ path value, valueAt template path = some value → Leaf value →
    valueAt result path = some ((storedAt current template path).getD value)

theorem follows_aligned {current : Option (Value N)} {template : Value N}
    (json : JsonTree template) (noProto : NoProto template) (own : OwnLeaves current template) :
    Follows current template (aligned current template) where
  object := by
    intro path entries found
    obtain ⟨properJson, properKeys⟩ := proper_at json noProto found
    cases held : storedAt current template path with
    | none => exact ⟨entries, aligned_at_missing json noProto own held found, fun _ => Iff.rfl⟩
    | some stored =>
        rw [aligned_at_stored json noProto held found]
        have filled := aligned_object (some stored) properJson properKeys
        refine ⟨_, congrArg some filled, fun key => ?_⟩
        rw [List.map_map]
        rfl
  array := by
    intro path items found
    cases held : storedAt current template path with
    | none => exact ⟨items, aligned_at_missing json noProto own held found, rfl⟩
    | some stored =>
        rw [aligned_at_stored json noProto held found]
        obtain ⟨items', filled, lengths, -⟩ := aligned_array (some stored) items
        exact ⟨items', congrArg some filled, lengths⟩
  leaf := by
    intro path value found leaf
    cases held : storedAt current template path with
    | none => exact aligned_at_missing json noProto own held found
    | some stored =>
        rw [aligned_at_stored json noProto held found]
        exact congrArg some (aligned_leaf (some stored) leaf)

/-! ### Aligning twice -/

theorem find_of_json {fields : List (String × Value N)} (json : JsonTree (.object fields))
    {entry : String × Value N} (member : entry ∈ fields) :
    Dict.find entry.1 fields = some entry.2 :=
  Dict.find_of_mem fields json.1.nodup member

theorem memberOf_filled (current : Option (Value N)) {template : List (String × Value N)}
    (json : JsonTree (.object template)) {entry : String × Value N} (there : entry ∈ template) :
    memberOf (some (.object (template.map
        (fun entry => (entry.1, aligned (memberOf current entry.1) entry.2))))) entry.1 =
      some (aligned (memberOf current entry.1) entry.2) := by
  apply memberOf_of_fieldOf
  change Dict.find entry.1 _ = _
  rw [JsObject.find_mapEntries (fun key value => aligned (memberOf current key) value),
    find_of_json json there]
  rfl

mutual

theorem align_aligned (template : Value N) (json : JsonTree template) (noProto : NoProto template)
    (current : Option (Value N)) :
    alignStructure (aligned current template) template = aligned current template := by
  match template with
  | .null | .boolean _ | .number _ | .string _ | .native _ => rfl
  | .object template =>
      rw [aligned_object current json noProto]
      have again := aligned_object (some (.object (template.map
        (fun entry => (entry.1, aligned (memberOf current entry.1) entry.2))))) json noProto
      refine Eq.trans again (congrArg Value.object (List.map_congr_left fun entry there => ?_))
      rw [memberOf_filled current json there]
      exact congrArg (Prod.mk entry.1)
        (align_aligned_fields template json.2 noProto.2 entry there (memberOf current entry.1))
  | .array template =>
      obtain ⟨items, filled, -, each⟩ := aligned_array current template
      rw [filled]
      change Value.array (alignItems items template) = .array items
      refine congrArg Value.array (List.ext_getElem? fun position => ?_)
      rw [alignItems_getElem, each position]
      cases found : template[position]? with
      | none => rfl
      | some value =>
          exact congrArg some (align_aligned_items template json noProto value
            (List.mem_of_getElem? found) (itemOf current position))

theorem align_aligned_fields (template : List (String × Value N)) (json : JsonFields template)
    (noProto : NoProtoFields template) : ∀ entry ∈ template, ∀ current,
      alignStructure (aligned current entry.2) entry.2 = aligned current entry.2 := by
  match template with
  | [] => exact fun entry member => absurd member List.not_mem_nil
  | (_, value) :: rest =>
      rw [List.forall_mem_cons]
      exact ⟨align_aligned value json.1 noProto.1, align_aligned_fields rest json.2 noProto.2⟩

theorem align_aligned_items (template : List (Value N)) (json : JsonItems template)
    (noProto : NoProtoItems template) : ∀ value ∈ template, ∀ current,
      alignStructure (aligned current value) value = aligned current value := by
  match template with
  | [] => exact fun value member => absurd member List.not_mem_nil
  | value :: rest =>
      rw [List.forall_mem_cons]
      exact ⟨align_aligned value json.1 noProto.1, align_aligned_items rest json.2 noProto.2⟩

end

end Assemblix.RuntimeState
