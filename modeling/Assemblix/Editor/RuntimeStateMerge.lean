import Assemblix.Editor.RuntimeState
import Mathlib.Algebra.Ring.Int.Defs

/-
What the alignment of the debug state needs, and the state after the merge with a schema.

A value that is brought into the structure of the template and stays as it is the second time has no
object with a key `__proto__` in its template. The merge keeps for each name what its last variable
says, so it is settled after one run if every alignment is.
-/

namespace Assemblix.RuntimeState

open Library

variable {N : Type}

/-! ### What following the template needs -/

theorem SameShape.key {template fields : List (String × Value N)}
    (same : SameShape (.object template) (.object fields)) {name : String} {value result : Value N}
    (found : Dict.find name template = some value) (held : Dict.find name fields = some result) :
    SameShape value result := by
  have inside : ∀ path, valueAt (.object template) (.key name :: path) = valueAt value path ∧
      valueAt (.object fields) (.key name :: path) = valueAt result path := by
    intro path
    rw [valueAt, valueAt, found, held]
    exact ⟨rfl, rfl⟩
  refine ⟨fun path entries there => ?_, fun path items there => ?_⟩
  · rw [← (inside path).1] at there
    rw [← (inside path).2]
    exact same.object _ entries there
  · rw [← (inside path).1] at there
    rw [← (inside path).2]
    exact same.array _ items there

theorem SameShape.index {template items : List (Value N)}
    (same : SameShape (.array template) (.array items)) {position : Nat} {value result : Value N}
    (found : template[position]? = some value) (held : items[position]? = some result) :
    SameShape value result := by
  have inside : ∀ path, valueAt (.array template) (.index position :: path) = valueAt value path ∧
      valueAt (.array items) (.index position :: path) = valueAt result path := by
    intro path
    rw [valueAt, valueAt, found, held]
    exact ⟨rfl, rfl⟩
  refine ⟨fun path entries there => ?_, fun path others there => ?_⟩
  · rw [← (inside path).1] at there
    rw [← (inside path).2]
    exact same.object _ entries there
  · rw [← (inside path).1] at there
    rw [← (inside path).2]
    exact same.array _ others there

mutual

/-- A key `__proto__` of the template is never among the keys of what aligning leaves as it is. -/
theorem noProto_of_fixed (template : Value N) (json : JsonTree template) (result : Value N)
    (same : SameShape template result) (fixed : alignStructure result template = result) :
    NoProto template := by
  match template with
  | .null | .boolean _ | .number _ | .string _ | .native _ => trivial
  | .object template =>
      obtain ⟨fields, whole, keys⟩ := same.object [] template rfl
      cases whole
      change Value.object (alignFields fields template []) = .object fields at fixed
      rw [Value.object.injEq, alignFields_eq] at fixed
      have proper : "__proto__" ∉ template.map Prod.fst := by
        rw [← keys, ← fixed]
        exact JsObject.build_proper _
      have names : (template.map (fun entry =>
          (entry.1, aligned (member fields entry.1) entry.2))).map Prod.fst =
            template.map Prod.fst := by
        rw [List.map_map]
        rfl
      have filled := JsObject.build_of_inOrder _ (names ▸ json.1) (names ▸ proper)
      refine ⟨proper, noProto_of_fixed_fields template json.2 fields (fun entry there => ?_)⟩
      have found := find_of_json json there
      have held : Dict.find entry.1 fields = some (aligned (member fields entry.1) entry.2) := by
        conv_lhs => rw [← fixed]
        change Dict.find entry.1 (JsObject.build _) = _
        rw [filled, JsObject.find_mapEntries (fun key value => aligned (member fields key) value),
          found]
        rfl
      refine ⟨_, held, same.key found held, ?_⟩
      have own : member fields entry.1 = some (aligned (member fields entry.1) entry.2) := by
        conv_lhs => rw [member, held, Option.some_or]
      conv_rhs => rw [own]
      rfl
  | .array template =>
      obtain ⟨items, whole, lengths⟩ := same.array [] template rfl
      cases whole
      change Value.array (alignItems items template) = .array items at fixed
      rw [Value.array.injEq] at fixed
      refine noProto_of_fixed_items template json (fun position value found => ?_)
      have inside : position < items.length := by
        rw [lengths]
        exact (List.getElem?_eq_some_iff.mp found).1
      have held : items[position]? = some items[position] := List.getElem?_eq_getElem inside
      refine ⟨items[position], same.index found held, ?_⟩
      have read := alignItems_getElem items template position
      rw [fixed, found, held] at read
      exact (Option.some.inj read).symm

theorem noProto_of_fixed_fields (template : List (String × Value N)) (json : JsonFields template)
    (fields : List (String × Value N))
    (each : ∀ entry ∈ template, ∃ result, Dict.find entry.1 fields = some result ∧
      SameShape entry.2 result ∧ alignStructure result entry.2 = result) :
    NoProtoFields template := by
  match template with
  | [] => trivial
  | (_, value) :: rest =>
      rw [List.forall_mem_cons] at each
      obtain ⟨⟨result, -, same, fixed⟩, others⟩ := each
      exact ⟨noProto_of_fixed value json.1 result same fixed,
        noProto_of_fixed_fields rest json.2 fields others⟩

theorem noProto_of_fixed_items (template : List (Value N)) (json : JsonItems template)
    (each : ∀ (position : Nat) (value : Value N), template[position]? = some value →
      ∃ result, SameShape value result ∧ alignStructure result value = result) :
    NoProtoItems template := by
  match template with
  | [] => trivial
  | value :: rest =>
      obtain ⟨result, same, fixed⟩ := each 0 value rfl
      exact ⟨noProto_of_fixed value json.1 result same fixed,
        noProto_of_fixed_items rest json.2
          (fun position inner found => each (position + 1) inner found)⟩

end

theorem valueAt_append {template value : Value N} {path : List Step}
    (found : valueAt template path = some value) (rest : List Step) :
    valueAt template (path ++ rest) = valueAt value rest := by
  induction path generalizing template with
  | nil =>
      cases found
      rfl
  | cons step more ih =>
      rcases valueAt_cons found with ⟨name, fields, inner, rfl, rfl, first, later⟩ |
        ⟨position, items, inner, rfl, rfl, first, later⟩
      · rw [List.cons_append, valueAt, first]
        exact ih later
      · rw [List.cons_append, valueAt, first]
        exact ih later

theorem storedAt_append {current : Option (Value N)} {template value : Value N} {path : List Step}
    (found : valueAt template path = some value) (rest : List Step) :
    storedAt current template (path ++ rest) =
      storedAt (storedAt current template path) value rest := by
  induction path generalizing current template with
  | nil =>
      cases found
      rw [storedAt_nil]
      rfl
  | cons step more ih =>
      rcases valueAt_cons found with ⟨name, fields, inner, rfl, rfl, first, later⟩ |
        ⟨position, items, inner, rfl, rfl, first, later⟩
      · rw [List.cons_append, storedAt_key current first, storedAt_key current first]
        exact ih later
      · rw [List.cons_append, storedAt_index current first, storedAt_index current first]
        exact ih later

theorem ownLeaves_of_follows {current : Option (Value N)} {template : Value N}
    (json : JsonTree template) (noProto : NoProto template)
    (follows : Follows current template (aligned current template)) :
    OwnLeaves current template := by
  intro path fields entries key value held found entry leaf inherited absent
  obtain ⟨properJson, properKeys⟩ := proper_at json noProto found
  have there : valueAt template (path ++ [.key key]) = some value := by
    rw [valueAt_append found, valueAt, entry]
    rfl
  have missing : storedAt current template (path ++ [.key key]) = none := by
    rw [storedAt_append found, held, storedAt_key _ entry, storedAt_nil]
    exact absent
  have expected := follows.leaf _ value there leaf
  have native : member fields key = some (.native key) := by
    rw [member, absent, Option.none_or, if_pos inherited]
  have whole := aligned_at_stored json noProto held found
  have actual : valueAt (aligned current template) (path ++ [.key key]) =
      some (alignStructure (.native key) value) := by
    rw [valueAt_append whole]
    have step : valueAt (aligned (some (.object fields)) (.object entries)) [.key key] =
        some (aligned (member fields key) value) :=
      valueAt_aligned_key properJson properKeys entry []
    rw [native] at step
    exact step
  rw [actual, missing, Option.getD_none, Option.some.injEq] at expected
  have kept : alignStructure (.native key) value = .native key :=
    aligned_leaf (some (.native key)) leaf
  rw [kept] at expected
  rw [← expected] at entry
  exact json_of_find properJson entry

/-- Aligning follows the template and changes nothing the second time exactly if the template has
no key `__proto__` and its leaves do not stand under inherited names that are not stored. -/
theorem align_follows_iff {template : Value N} (json : JsonTree template) (current : Value N) :
    (Follows (some current) template (alignStructure current template) ∧
      alignStructure (alignStructure current template) template = alignStructure current template) ↔
        NoProto template ∧ OwnLeaves (some current) template := by
  constructor
  · rintro ⟨follows, fixed⟩
    have noProto := noProto_of_fixed template json _ follows.toSameShape fixed
    exact ⟨noProto, ownLeaves_of_follows json noProto follows⟩
  · rintro ⟨noProto, own⟩
    exact ⟨follows_aligned json noProto own, align_aligned template json noProto (some current)⟩

/-! ### Initializing twice -/

def ProperDefault (value : Value N) : Prop := JsonTree value ∧ NoProto value

/-- No variable is called `__proto__`, and no object of a default has such a key. -/
def ProperSchema (schema : List (StateVariable N)) : Prop :=
  ∀ entry ∈ schema, entry.name ≠ "__proto__" ∧
    ∀ value, entry.defaultValue = some value → ProperDefault value

theorem reconcileValue_twice (schemaType : String) {defaultValue : Value N}
    (proper : ProperDefault defaultValue) (existing : Option (Value N)) :
    reconcileValue schemaType defaultValue
        (some (reconcileValue schemaType defaultValue existing)) =
      reconcileValue schemaType defaultValue existing := by
  have objects : alignStructure (aligned existing defaultValue) defaultValue =
      aligned existing defaultValue := align_aligned defaultValue proper.1 proper.2 existing
  by_cases object : schemaType = "object"
  · cases existing with
    | none => simpa [reconcileValue, object, aligned] using objects
    | some value => simpa [reconcileValue, object, aligned] using objects
  · cases existing with
    | none =>
        simp only [reconcileValue, object, if_false]
        split_ifs <;> first | rfl | exact ite_self _
    | some value =>
        simp only [reconcileValue, object, if_false]
        split_ifs <;> rfl

theorem find_schema {V : Type} (change : StateVariable N → V) (name : String)
    (schema : List (StateVariable N)) :
    Dict.find name (schema.map (fun entry => (entry.name, change entry))).reverse =
      (schema.reverse.find? (fun entry => entry.name = name)).map change := by
  rw [← List.map_reverse]
  induction schema.reverse with
  | nil => rfl
  | cons entry rest ih =>
      rw [List.map_cons, Dict.find, List.find?_cons]
      by_cases same : entry.name = name
      · simp [same]
      · simp [same, ih]

section Schema

variable [Zero N]

theorem properDefault_getDefaultForType (type : String) :
    ProperDefault (getDefaultForType type : Value N) := by
  rw [getDefaultForType]
  split_ifs
  · exact ⟨trivial, trivial⟩
  · exact ⟨trivial, trivial⟩
  · exact ⟨trivial, trivial⟩
  · exact ⟨⟨List.Pairwise.nil, trivial⟩, List.not_mem_nil, trivial⟩
  · exact ⟨trivial, trivial⟩

theorem properDefault_defaultOf {entry : StateVariable N}
    (proper : ∀ value, entry.defaultValue = some value → ProperDefault value) :
    ProperDefault (defaultOf entry) := by
  rw [defaultOf]
  split
  · exact properDefault_getDefaultForType entry.type
  · exact properDefault_getDefaultForType entry.type
  · rename_i value _ held
    exact proper value held

theorem proper_defaults {schema : List (StateVariable N)} (proper : ProperSchema schema)
    {entry : StateVariable N} (there : entry ∈ schema) :
    ProperDefault ((member (buildDefaults schema) entry.name).getD .null) := by
  have special := (proper entry there).1
  have found : Dict.find entry.name (buildDefaults schema) =
      (schema.reverse.find? (fun other => other.name = entry.name)).map defaultOf := by
    rw [buildDefaults, JsObject.find_build special, find_schema]
  cases last : schema.reverse.find? (fun other => other.name = entry.name) with
  | none =>
      have absent := List.find?_eq_none.mp last entry (List.mem_reverse.mpr there)
      exact absurd (decide_eq_true rfl) absent
  | some other =>
      rw [last] at found
      rw [member, found]
      exact properDefault_defaultOf
        (proper other (List.mem_reverse.mp (List.mem_of_find?_eq_some last))).2

theorem mergeState_twice {schema : List (StateVariable N)} (proper : ProperSchema schema)
    (state : List (String × Value N)) :
    mergeState schema (mergeState schema state) = mergeState schema state := by
  refine JsObject.build_congr (by simp only [List.map_map, Function.comp_def]) fun name => ?_
  rw [find_schema, find_schema]
  cases last : schema.reverse.find? (fun entry => entry.name = name) with
  | none => rfl
  | some entry =>
      have there : entry ∈ schema := List.mem_reverse.mp (List.mem_of_find?_eq_some last)
      have named : entry.name = name := by simpa using List.find?_some last
      -- the second run finds what the last variable of the name has put there
      have held : Dict.find entry.name (mergeState schema state) =
          some (reconcileValue entry.type ((member (buildDefaults schema) entry.name).getD .null)
            (member state entry.name)) := by
        rw [← named] at last
        rw [mergeState, JsObject.find_build (proper entry there).1, find_schema, last]
        rfl
      have read : ∀ value, Dict.find entry.name (mergeState schema state) = some value →
          member (mergeState schema state) entry.name = some value := by
        intro value stored
        rw [member, stored, Option.some_or]
      rw [Option.map_some, Option.map_some, read _ held]
      exact congrArg some (reconcileValue_twice entry.type (proper_defaults proper there) _)

theorem initializeState_twice {workflowSchema projectSchema : Option (List (StateVariable N))}
    (workflow : ∀ schema ∈ workflowSchema, ProperSchema schema)
    (project : ∀ schema ∈ projectSchema, ProperSchema schema) (state : WorkflowRuntimeState N) :
    initializeState workflowSchema projectSchema (initializeState workflowSchema projectSchema state) =
      initializeState workflowSchema projectSchema state := by
  have merged : ∀ (schema : Option (List (StateVariable N))) (fields : List (String × Value N)),
      (∀ entries ∈ schema, ProperSchema entries) →
        (schema.map (mergeState · ((schema.map (mergeState · fields)).getD fields))).getD
          ((schema.map (mergeState · fields)).getD fields) =
            (schema.map (mergeState · fields)).getD fields := by
    intro schema fields proper
    cases schema with
    | none => rfl
    | some entries => exact mergeState_twice (proper entries rfl) fields
  rw [initializeState, initializeState]
  simp only [merged workflowSchema state.agentState workflow,
    merged projectSchema state.projectState project]

/-- Aligning follows the template, and aligning or initializing twice is doing it once, as long as
nothing is called `__proto__` and no leaf stands under an inherited name that is not stored. -/
theorem debug_state_follows_schema :
    (∀ template current : Value N, JsonTree template →
      ((Follows (some current) template (alignStructure current template) ∧
        alignStructure (alignStructure current template) template =
          alignStructure current template) ↔
        NoProto template ∧ OwnLeaves (some current) template)) ∧
    ∀ (workflowSchema projectSchema : Option (List (StateVariable N)))
      (state : WorkflowRuntimeState N), (∀ schema ∈ workflowSchema, ProperSchema schema) →
        (∀ schema ∈ projectSchema, ProperSchema schema) →
          initializeState workflowSchema projectSchema
              (initializeState workflowSchema projectSchema state) =
            initializeState workflowSchema projectSchema state :=
  ⟨fun _ current json => align_follows_iff json current,
    fun _ _ state workflow project => initializeState_twice workflow project state⟩

end Schema

def addressTemplate : Value Int :=
  .object [("city", .string ""), ("tags", .array [.null]), ("zip", .number 0)]

def storedAddress : Value Int :=
  .object [("city", .string "Riga"), ("tags", .object []), ("phone", .string "1")]

theorem address_follows :
    (Follows (some storedAddress) addressTemplate (alignStructure storedAddress addressTemplate) ∧
      alignStructure (alignStructure storedAddress addressTemplate) addressTemplate =
        alignStructure storedAddress addressTemplate) ∧
    initializeState (some [⟨"address", "object", some addressTemplate⟩]) none
        (initializeState (some [⟨"address", "object", some addressTemplate⟩]) none
          ⟨[("address", storedAddress)], [], false, 0, [], []⟩) =
      initializeState (some [⟨"address", "object", some addressTemplate⟩]) none
        ⟨[("address", storedAddress)], [], false, 0, [], []⟩ := by
  have json : JsonTree addressTemplate := by
    refine ⟨?_, trivial, ⟨trivial, trivial⟩, trivial, trivial⟩
    decide +kernel
  have noProto : NoProto addressTemplate := by
    refine ⟨?_, trivial, ⟨trivial, trivial⟩, trivial, trivial⟩
    decide
  have own : OwnLeaves (some storedAddress) addressTemplate := by
    intro path fields entries key value held found entry leaf inherited
    have plain : ∀ name ∈ prototypeNames, name ∉ ["city", "tags", "zip"] := by decide
    rcases path with _ | ⟨step, rest⟩
    · cases found
      have listed := List.mem_map_of_mem (f := Prod.fst) (Dict.mem_of_find _ entry)
      exact absurd listed (plain key inherited)
    · rcases valueAt_cons found with ⟨name, outer, inner, rfl, whole, first, later⟩ |
        ⟨position, items, inner, -, whole, -, -⟩
      · cases whole
        have shape : ∀ entry ∈ [("city", Value.string ""), ("tags", .array [.null]),
            ("zip", Value.number (0 : Int))], ∀ more object,
              valueAt entry.2 more ≠ some (Value.object object) := by
          simp only [List.forall_mem_cons]
          refine ⟨?_, ?_, ?_, fun entry member => absurd member List.not_mem_nil⟩
          · intro more object
            cases more <;> simp [valueAt]
          · intro more object
            rcases more with _ | ⟨name | (_ | position), _ | ⟨next, later⟩⟩ <;> simp [valueAt]
          · intro more object
            cases more <;> simp [valueAt]
        exact absurd later (shape _ (Dict.mem_of_find _ first) rest entries)
      · cases whole
  refine ⟨(debug_state_follows_schema.1 addressTemplate storedAddress json).mpr ⟨noProto, own⟩,
    debug_state_follows_schema.2 _ _ _ ?_ ?_⟩
  · intro schema held
    cases held
    intro entry member
    rw [List.mem_singleton.mp member]
    refine ⟨by decide, fun value same => ?_⟩
    cases same
    exact ⟨json, noProto⟩
  · intro schema held
    cases held

/-- A key that every object inherits is taken for a stored one. -/
theorem inherited_member_aligned :
    ¬ Follows (some (.object [])) (.object [("constructor", .string "ACME")])
      (alignStructure (.object []) (.object [("constructor", .string "ACME")]) : Value Int) := by
  intro follows
  have expected := follows.leaf [.key "constructor"] (.string "ACME") rfl trivial
  have actual : valueAt (alignStructure (.object [])
      (.object [("constructor", .string "ACME")]) : Value Int) [.key "constructor"] =
        some (.native "constructor") := by
    rfl
  rw [actual] at expected
  cases expected

end Assemblix.RuntimeState
