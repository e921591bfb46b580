import Assemblix.Library.Run
import Assemblix.Library.SeparateWrites
import Assemblix.Execution.SetVariableNode
import Assemblix.Execution.StepCosts

/-
State writes of parallel branches.

Every branch computes its updates from the context it was launched with, and a completion
merges whole top-level variables into the shared context. A nested write carries along the
rest of its top-level variable as it was at launch. As long as what is carried along is
still current, all writes to separate paths are kept and every other path reads as before;
a completion that carries an older value takes back what another branch wrote.
-/

namespace Assemblix

open Library

structure Address where
  target : VariableTarget
  path : JsonPath
  deriving DecidableEq

def Address.Apart (left right : Address) : Prop :=
  left.target = right.target → left.path.Apart right.path

abbrev Assignment := Address × Json

def readVariable (data : Data) : JsonPath → Option Json
  | [] => none
  | top :: rest => (data.lookup top).bind (fun value => value.read rest)

theorem readVariable_cons (data : Data) (top : String) (rest : JsonPath) :
    readVariable data (top :: rest) = (data.lookup top).bind (fun value => value.read rest) := rfl

def readAt (store : VariableTarget → Data) (address : Address) : Option Json :=
  readVariable (store address.target) address.path

def ExecutionContext.store (context : ExecutionContext) : VariableTarget → Data
  | .state => context.state
  | .project => context.projectState

def NodeOutput.updates (output : NodeOutput) : VariableTarget → Data
  | .state => output.stateUpdates.getD Dict.empty
  | .project => output.projectUpdates.getD Dict.empty

theorem Address.Apart.symm (left right : Address) (apart : left.Apart right) :
    right.Apart left :=
  fun same => (apart same.symm).symm

/-! ### What a node assigns -/

namespace SetVariableNode

section

variable (cel : CelEvaluator) (input : NodeInput)

def updateAssignments (update : UpdateVariable) : List Assignment :=
  if isPlaceholder update then []
  else
    match parseVariableTarget update.variableName, resolveValue cel input update with
    | .ok parsed, .ok value => [(⟨parsed.target, parsed.path⟩, value)]
    | _, _ => []

def mergeAssignments (writes : Writes) (merge : SmartMerge) : List Assignment :=
  match mergeResult cel input writes merge with
  | .error _ => []
  | .ok (_, result) =>
      match keyOf merge with
      | none => result.entries.map (fun entry => (⟨merge.target, [entry.1]⟩, entry.2))
      | some key =>
          if (fullTarget input writes merge.target).contains key then
            result.entries.map (fun entry => (⟨merge.target, [key, entry.1]⟩, entry.2))
          else [(⟨merge.target, [key]⟩, .obj [])]

def editAssignments (writes : Writes) : Edit → List Assignment
  | .update update => updateAssignments cel input update
  | .merge merge => mergeAssignments cel input writes merge

def assignmentsFrom : List Edit → Writes → List Assignment
  | [], _ => []
  | edit :: rest, writes =>
      editAssignments cel input writes edit ++
        match applyEdit cel input writes edit with
        | .error _ => []
        | .ok after => assignmentsFrom rest after

def assignments (config : SetVariableNodeConfig) : List Assignment :=
  assignmentsFrom cel input (edits config) {}

end

def overlay (input : NodeInput) (writes : Writes) (target : VariableTarget) : Data :=
  (sourceState input target).merge (writes.of target)

@[simp] theorem of_put_self (writes : Writes) (target : VariableTarget) (data : Data) :
    (writes.put target data).of target = data := by
  cases target <;> rfl

theorem of_put_of_ne (writes : Writes) {target other : VariableTarget} (data : Data)
    (different : target ≠ other) : (writes.put target data).of other = writes.of other := by
  cases target <;> cases other <;> first | rfl | exact absurd rfl different

private theorem put_wrote {input : NodeInput} {writes : Writes} {target : VariableTarget}
    {data : Data} {paths : List (JsonPath × Json)}
    (here : ∀ write ∈ paths,
      readVariable ((sourceState input target).merge data) write.1 = some write.2)
    (elsewhere : ∀ path, (∀ write ∈ paths, write.1.Apart path) →
      readVariable ((sourceState input target).merge data) path =
        readVariable ((sourceState input target).merge (writes.of target)) path) :
    Wrote Address.Apart (readAt (overlay input writes)) (readAt (overlay input (writes.put target data)))
      (paths.map (fun write => (⟨target, write.1⟩, write.2))) where
  written := by
    intro write member
    obtain ⟨path, listed, rfl⟩ := List.mem_map.mp member
    unfold readAt overlay
    rw [of_put_self]
    exact here path listed
  kept := by
    intro address apart
    unfold readAt overlay
    by_cases same : target = address.target
    · rw [← same, of_put_self]
      apply elsewhere
      intro write listed
      exact apart _ (List.mem_map.mpr ⟨write, listed, rfl⟩) same
    · rw [of_put_of_ne _ _ same]

theorem lookup_merge_set (source accumulator : Data) (key other : String) (value : Json) :
    (source.merge (accumulator.set key value)).lookup other =
      if key = other then some value else (source.merge accumulator).lookup other := by
  rw [Dict.lookup_merge, Dict.lookup_merge, Dict.lookup_set]
  split
  · rfl
  · rfl

theorem container_fields {source accumulator : Data} {top name : String} {rest : JsonPath}
    {fields : List (String × Json)} (held : container source accumulator top = .obj fields) :
    Json.read (.obj fields) (name :: rest) =
      ((source.merge accumulator).lookup top).bind (fun value => value.read (name :: rest)) := by
  rw [Dict.lookup_merge]
  unfold container at held
  cases written : accumulator.lookup top with
  | some value =>
      rw [written] at held
      change value = _ at held
      rw [held]
      rfl
  | none =>
      rw [written] at held
      cases read : source.lookup top with
      | none =>
          rw [read] at held
          cases held
          rfl
      | some value =>
          rw [read] at held
          cases value with
          | null =>
              cases held
              rfl
          | obj inner =>
              cases held
              rfl
          | _ => cases held

theorem writeVariable_nested {source accumulator data : Data} {target : VariableTarget}
    {top next : String} {rest : JsonPath} {value : Json}
    (written : writeVariable source accumulator ⟨target, top, next :: rest⟩ value = .ok data) :
    ∃ fields inner, container source accumulator top = .obj fields ∧
      Json.setNested fields (next :: rest) value = .ok inner ∧
        data = accumulator.set top (.obj inner) := by
  unfold writeVariable at written
  dsimp only at written
  cases held : container source accumulator top with
  | obj fields =>
      rw [held] at written
      dsimp only at written
      cases below : Json.setNested fields (next :: rest) value with
      | error error =>
          rw [below] at written
          cases written
      | ok inner =>
          rw [below] at written
          cases written
          exact ⟨fields, inner, rfl, below, rfl⟩
  | _ =>
      rw [held] at written
      cases written

theorem writeVariable_wrote {source accumulator data : Data} {parsed : Variable} {value : Json}
    (written : writeVariable source accumulator parsed value = .ok data) :
    readVariable (source.merge data) parsed.path = some value ∧
      ∀ path, parsed.path.Apart path →
        readVariable (source.merge data) path = readVariable (source.merge accumulator) path := by
  obtain ⟨target, top, rest⟩ := parsed
  change readVariable (source.merge data) (top :: rest) = some value ∧
    ∀ path, JsonPath.Apart (top :: rest) path → _
  cases rest with
  | nil =>
      cases written
      constructor
      · rw [readVariable_cons, lookup_merge_set, if_pos rfl]
        rfl
      · intro path apart
        cases path with
        | nil => rfl
        | cons head tail =>
            have different : top ≠ head := by
              intro same
              exact apart.1 (List.cons_prefix_cons.mpr ⟨same, List.nil_prefix⟩)
            rw [readVariable_cons, readVariable_cons, lookup_merge_set, if_neg different]
  | cons next rest =>
      obtain ⟨fields, inner, held, below, rfl⟩ := writeVariable_nested written
      constructor
      · rw [readVariable_cons, lookup_merge_set, if_pos rfl]
        exact Json.read_setNested_self (List.cons_ne_nil next rest) below
      · intro path apart
        cases path with
        | nil => rfl
        | cons head tail =>
            rw [readVariable_cons, readVariable_cons, lookup_merge_set]
            split
            case isFalse => rfl
            case isTrue same =>
              subst same
              have smaller : JsonPath.Apart (next :: rest) tail := apart.of_cons
              obtain ⟨name, others, rfl⟩ := List.exists_cons_of_ne_nil smaller.ne_nil
              exact (Json.read_setNested_apart smaller below).trans (container_fields held)

theorem applyUpdate_ok {cel : CelEvaluator} {input : NodeInput} {writes after : Writes}
    {update : UpdateVariable} (applied : applyUpdate cel input writes update = .ok after) :
    (after = writes ∧ updateAssignments cel input update = []) ∨
      ∃ parsed value data,
        writeVariable (sourceState input parsed.target) (writes.of parsed.target) parsed value =
            .ok data ∧
          after = writes.put parsed.target data ∧
          updateAssignments cel input update = [(⟨parsed.target, parsed.path⟩, value)] := by
  unfold applyUpdate at applied
  unfold updateAssignments
  split at applied
  case isTrue placeholder =>
    cases applied
    exact .inl ⟨rfl, if_pos placeholder⟩
  case isFalse placeholder =>
    right
    rw [if_neg placeholder]
    cases parse : parseVariableTarget update.variableName with
    | error error =>
        rw [parse] at applied
        cases applied
    | ok parsed =>
        cases resolved : resolveValue cel input update with
        | error error =>
            rw [parse, resolved] at applied
            cases applied
        | ok value =>
            rw [parse, resolved] at applied
            dsimp only at applied
            cases written : writeVariable (sourceState input parsed.target)
                (writes.of parsed.target) parsed value with
            | error error =>
                rw [written] at applied
                cases applied
            | ok data =>
                rw [written] at applied
                cases applied
                exact ⟨parsed, value, data, written, rfl, rfl⟩

theorem applyUpdate_wrote {cel : CelEvaluator} {input : NodeInput} {writes after : Writes}
    {update : UpdateVariable} (applied : applyUpdate cel input writes update = .ok after) :
    Wrote Address.Apart (readAt (overlay input writes)) (readAt (overlay input after))
      (updateAssignments cel input update) := by
  rcases applyUpdate_ok applied with ⟨rfl, nothing⟩ | ⟨parsed, value, data, written, rfl, assigned⟩
  · rw [nothing]
    exact Wrote.nil
  · rw [assigned]
    obtain ⟨here, elsewhere⟩ := writeVariable_wrote written
    apply @put_wrote _ _ _ _ [(parsed.path, value)]
    · intro write member
      rw [List.mem_singleton.mp member]
      exact here
    · intro path apart
      exact elsewhere path (apart _ List.mem_cons_self)

theorem computeMerge_nil (cel : CelEvaluator) (source : List (String × Json))
    (operation : MergeOperation) : computeMerge cel source [] operation = Dict.empty := by
  unfold computeMerge
  induction source with
  | nil => rfl
  | cons entry rest ih => exact ih

private theorem merge_all_wrote (source accumulator result : Data) :
    (∀ entry ∈ result.entries,
      readVariable (source.merge (accumulator.merge result)) [entry.1] = some entry.2) ∧
      ∀ path, (∀ entry ∈ result.entries, JsonPath.Apart [entry.1] path) →
        readVariable (source.merge (accumulator.merge result)) path =
          readVariable (source.merge accumulator) path := by
  constructor
  · intro entry member
    have found := result.lookup_of_mem member
    rw [readVariable_cons, Dict.lookup_merge_left _ _ (Dict.lookup_merge_left _ _ found)]
    rfl
  · intro path apart
    cases path with
    | nil => rfl
    | cons head tail =>
        have absent : result.lookup head = none := by
          rw [Dict.lookup_eq_none]
          intro listed
          obtain ⟨entry, member, named⟩ := List.mem_map.mp listed
          apply (apart entry member).1
          exact List.cons_prefix_cons.mpr ⟨named, List.nil_prefix⟩
        rw [readVariable_cons, readVariable_cons, Dict.lookup_merge,
          Dict.lookup_merge_right accumulator result absent, ← Dict.lookup_merge]

private theorem merge_key_wrote {source accumulator result : Data} {key : String}
    {fields : List (String × Json)}
    (held : (source.merge accumulator).lookup key = some (.obj fields)) :
    (∀ entry ∈ result.entries,
      readVariable (source.merge
        (accumulator.set key (.obj (Dict.assignAll fields result.entries)))) [key, entry.1] =
          some entry.2) ∧
      ∀ path, (∀ entry ∈ result.entries, JsonPath.Apart [key, entry.1] path) →
        readVariable (source.merge
          (accumulator.set key (.obj (Dict.assignAll fields result.entries)))) path =
            readVariable (source.merge accumulator) path := by
  constructor
  · intro entry member
    have found : Dict.find entry.1 result.entries = some entry.2 := result.lookup_of_mem member
    rw [readVariable_cons, lookup_merge_set, if_pos rfl]
    change (Dict.find entry.1 (Dict.assignAll fields result.entries)).bind _ = some entry.2
    rw [Dict.find_assignAll _ _ result.distinct, found]
    rfl
  · intro path apart
    cases path with
    | nil => rfl
    | cons head tail =>
        rw [readVariable_cons, readVariable_cons, lookup_merge_set]
        split
        case isFalse => rfl
        case isTrue same =>
          subst same
          rw [held]
          cases tail with
          | nil =>
              cases entries : result.entries with
              | nil => rfl
              | cons entry others =>
                  exfalso
                  apply (apart entry (entries ▸ List.mem_cons_self)).2
                  exact List.cons_prefix_cons.mpr ⟨rfl, List.nil_prefix⟩
          | cons name rest =>
              have absent : Dict.find name result.entries = none := by
                rw [Dict.find_eq_none]
                intro listed
                obtain ⟨entry, member, named⟩ := List.mem_map.mp listed
                apply (apart entry member).1
                rw [named]
                exact ⟨rest, rfl⟩
              change (Dict.find name (Dict.assignAll fields result.entries)).bind _ =
                (Dict.find name fields).bind _
              rw [Dict.find_assignAll _ _ result.distinct, absent, Option.none_or]

theorem mergeResult_ok {cel : CelEvaluator} {input : NodeInput} {writes : Writes}
    {merge : SmartMerge} {target : List (String × Json)} {result : Data}
    (merged : mergeResult cel input writes merge = .ok (target, result)) :
    targetDict input writes merge = .ok target ∧
      ∃ source, result = computeMerge cel source target merge.operation := by
  unfold mergeResult at merged
  cases dict : targetDict input writes merge with
  | error error =>
      rw [dict] at merged
      cases merged
  | ok fields =>
      rw [dict] at merged
      dsimp only at merged
      cases evaluated : cel.evaluate merge.source input with
      | error error =>
          rw [evaluated] at merged
          cases merged
      | ok value =>
          rw [evaluated] at merged
          cases value with
          | obj source =>
              cases merged
              exact ⟨rfl, source, rfl⟩
          | _ => cases merged

private theorem put_entries_wrote {input : NodeInput} {writes : Writes} {target : VariableTarget}
    {data result : Data} (above : JsonPath)
    (here : ∀ entry ∈ result.entries,
      readVariable ((sourceState input target).merge data) (above ++ [entry.1]) = some entry.2)
    (elsewhere : ∀ path, (∀ entry ∈ result.entries, JsonPath.Apart (above ++ [entry.1]) path) →
      readVariable ((sourceState input target).merge data) path =
        readVariable ((sourceState input target).merge (writes.of target)) path) :
    Wrote Address.Apart (readAt (overlay input writes)) (readAt (overlay input (writes.put target data)))
      (result.entries.map (fun entry => (⟨target, above ++ [entry.1]⟩, entry.2))) := by
  have wrote := @put_wrote input writes target data
    (result.entries.map (fun entry => (above ++ [entry.1], entry.2))) ?_ ?_
  · rw [List.map_map] at wrote
    exact wrote
  · intro write listed
    obtain ⟨entry, member, rfl⟩ := List.mem_map.mp listed
    exact here entry member
  · intro path apart
    apply elsewhere
    intro entry member
    exact apart _ (List.mem_map.mpr ⟨entry, member, rfl⟩)

theorem applyMerge_wrote {cel : CelEvaluator} {input : NodeInput} {writes after : Writes}
    {merge : SmartMerge} (applied : applyMerge cel input writes merge = .ok after) :
    Wrote Address.Apart (readAt (overlay input writes)) (readAt (overlay input after))
      (mergeAssignments cel input writes merge) := by
  unfold applyMerge at applied
  unfold mergeAssignments
  cases merged : mergeResult cel input writes merge with
  | error error =>
      rw [merged] at applied
      cases applied
  | ok pair =>
      obtain ⟨target, result⟩ := pair
      obtain ⟨dict, source, computed⟩ := mergeResult_ok merged
      rw [merged] at applied
      cases key : keyOf merge with
      | none =>
          rw [key] at applied
          cases applied
          obtain ⟨here, elsewhere⟩ := merge_all_wrote (sourceState input merge.target)
            (writes.of merge.target) result
          exact put_entries_wrote [] here elsewhere
      | some name =>
          rw [key] at applied
          cases applied
          unfold targetDict fullTarget at dict
          rw [key] at dict
          dsimp only at dict ⊢
          cases held : ((sourceState input merge.target).merge
              (writes.of merge.target)).lookup name with
          | none =>
              rw [held] at dict
              cases dict
              have missing : (fullTarget input writes merge.target).contains name = false := by
                unfold fullTarget Dict.contains
                rw [held]
                rfl
              rw [missing, computed, computeMerge_nil]
              apply @put_wrote _ _ _ _ [([name], .obj [])]
              · intro write member
                rw [List.mem_singleton.mp member, readVariable_cons, lookup_merge_set, if_pos rfl]
                rfl
              · intro path apart
                cases path with
                | nil => rfl
                | cons head tail =>
                    have different : name ≠ head := by
                      intro same
                      apply (apart _ List.mem_cons_self).1
                      exact List.cons_prefix_cons.mpr ⟨same, List.nil_prefix⟩
                    rw [readVariable_cons, readVariable_cons, lookup_merge_set, if_neg different]
          | some value =>
              rw [held] at dict
              cases value with
              | obj fields =>
                  cases dict
                  have present : (fullTarget input writes merge.target).contains name = true := by
                    unfold fullTarget Dict.contains
                    rw [held]
                    rfl
                  rw [present, if_pos rfl]
                  obtain ⟨here, elsewhere⟩ := @merge_key_wrote (sourceState input merge.target)
                    (writes.of merge.target) result name _ held
                  exact put_entries_wrote [name] here elsewhere
              | _ => cases dict

theorem edits_wrote {cel : CelEvaluator} {input : NodeInput} {pending : List Edit}
    {writes after : Writes} (applied : pending.foldlM (applyEdit cel input) writes = .ok after)
    (separate : Separate Address.Apart (assignmentsFrom cel input pending writes)) :
    Wrote Address.Apart (readAt (overlay input writes)) (readAt (overlay input after))
      (assignmentsFrom cel input pending writes) := by
  induction pending generalizing writes with
  | nil =>
      cases applied
      exact Wrote.nil
  | cons edit rest ih =>
      rw [List.foldlM_cons] at applied
      unfold assignmentsFrom at separate ⊢
      cases first : applyEdit cel input writes edit with
      | error error =>
          rw [first] at applied
          cases applied
      | ok middle =>
          rw [first] at applied
          rw [first] at separate
          have later := ih applied (List.pairwise_append.mp separate).2.1
          apply Wrote.append Address.Apart.symm separate _ later
          cases edit with
          | update update => exact applyUpdate_wrote first
          | merge merge => exact applyMerge_wrote first

theorem reported_getD (data : Data) : (reported data).getD Dict.empty = data := by
  unfold reported
  split
  case isTrue empty => exact Dict.ext_entries empty.symm
  case isFalse => rfl

theorem execute_wrote {cel : CelEvaluator} {input : NodeInput} {config : SetVariableNodeConfig}
    {output : NodeOutput} (ran : execute cel input config = .ok output)
    (separate : Separate Address.Apart (assignments cel input config)) :
    Wrote Address.Apart (readAt (sourceState input))
      (readAt (fun target => (sourceState input target).merge (output.updates target)))
      (assignments cel input config) := by
  unfold execute at ran
  cases applied : (edits config).foldlM (applyEdit cel input) {} with
  | error error =>
      rw [applied] at ran
      cases ran
  | ok writes =>
      rw [applied] at ran
      cases ran
      have wrote := edits_wrote applied separate
      have before : overlay input {} = sourceState input := by
        funext target
        cases target <;> exact Dict.merge_empty _
      have after : overlay input writes = fun target => (sourceState input target).merge
          (NodeOutput.updates
            { data := input.data
              stateUpdates := reported writes.state
              projectUpdates := reported writes.project
              metadata := some {} } target) := by
        funext target
        cases target <;> simp [overlay, NodeOutput.updates, reported_getD, Writes.of]
      rw [before, after] at wrote
      exact wrote

/-! ### The variables a node returns -/

def Listed (returned : VariableTarget → Data) (address : Address) : Prop :=
  ∃ top rest, address.path = top :: rest ∧ top ∈ (returned address.target).keys

def Grown (before after : VariableTarget → Data) : Prop :=
  ∀ target key, key ∈ (before target).keys → key ∈ (after target).keys

theorem Listed.grown {before after : VariableTarget → Data} {address : Address}
    (listed : Listed before address) (grown : Grown before after) : Listed after address := by
  obtain ⟨top, rest, path, member⟩ := listed
  exact ⟨top, rest, path, grown _ _ member⟩

theorem put_grown {writes : Writes} {target : VariableTarget} {data : Data}
    (grows : ∀ key ∈ (writes.of target).keys, key ∈ data.keys) :
    Grown writes.of (writes.put target data).of := by
  intro other key member
  by_cases same : target = other
  · subst same
    rw [of_put_self]
    exact grows key member
  · rw [of_put_of_ne _ _ same]
    exact member

theorem mem_keys_merge (dict updates : Data) (key : String) :
    key ∈ (dict.merge updates).keys ↔ key ∈ updates.keys ∨ key ∈ dict.keys := by
  rw [Dict.mem_keys, Dict.mem_keys, Dict.mem_keys, Dict.lookup_merge]
  cases updates.lookup key <;> simp

theorem writeVariable_keys {source accumulator data : Data} {parsed : Variable} {value : Json}
    (written : writeVariable source accumulator parsed value = .ok data) (key : String) :
    key ∈ data.keys ↔ key = parsed.top ∨ key ∈ accumulator.keys := by
  obtain ⟨target, top, rest⟩ := parsed
  cases rest with
  | nil =>
      cases written
      exact Dict.mem_keys_set _ _ _ _
  | cons next rest =>
      obtain ⟨fields, inner, _, _, rfl⟩ := writeVariable_nested written
      exact Dict.mem_keys_set _ _ _ _

theorem applyUpdate_listed {cel : CelEvaluator} {input : NodeInput} {writes after : Writes}
    {update : UpdateVariable} (applied : applyUpdate cel input writes update = .ok after) :
    Grown writes.of after.of ∧
      ∀ write ∈ updateAssignments cel input update, Listed after.of write.1 := by
  rcases applyUpdate_ok applied with ⟨rfl, nothing⟩ | ⟨parsed, value, data, written, rfl, assigned⟩
  · rw [nothing]
    exact ⟨fun _ _ member => member, fun _ none => nomatch none⟩
  · rw [assigned]
    constructor
    · apply put_grown
      intro key member
      exact (writeVariable_keys written key).mpr (.inr member)
    · intro write member
      rw [List.mem_singleton.mp member]
      refine ⟨parsed.top, parsed.rest, rfl, ?_⟩
      rw [of_put_self]
      exact (writeVariable_keys written parsed.top).mpr (.inl rfl)

theorem applyMerge_listed {cel : CelEvaluator} {input : NodeInput} {writes after : Writes}
    {merge : SmartMerge} (applied : applyMerge cel input writes merge = .ok after) :
    Grown writes.of after.of ∧
      ∀ write ∈ mergeAssignments cel input writes merge, Listed after.of write.1 := by
  unfold applyMerge at applied
  unfold mergeAssignments
  cases merged : mergeResult cel input writes merge with
  | error error =>
      rw [merged] at applied
      cases applied
  | ok pair =>
      obtain ⟨target, result⟩ := pair
      rw [merged] at applied
      cases key : keyOf merge with
      | none =>
          rw [key] at applied
          cases applied
          constructor
          · apply put_grown
            intro name member
            exact (mem_keys_merge _ _ _).mpr (.inr member)
          · intro write member
            obtain ⟨entry, listed, rfl⟩ := List.mem_map.mp member
            refine ⟨entry.1, [], rfl, ?_⟩
            rw [of_put_self]
            exact (mem_keys_merge _ _ _).mpr (.inl (List.mem_map.mpr ⟨entry, listed, rfl⟩))
      | some name =>
          rw [key] at applied
          cases applied
          constructor
          · apply put_grown
            intro other member
            exact (Dict.mem_keys_set _ _ _ _).mpr (.inr member)
          · intro write member
            have here : ∃ rest, write.1 = ⟨merge.target, name :: rest⟩ := by
              dsimp only at member
              split at member
              · obtain ⟨entry, _, rfl⟩ := List.mem_map.mp member
                exact ⟨[entry.1], rfl⟩
              · rw [List.mem_singleton.mp member]
                exact ⟨[], rfl⟩
            obtain ⟨rest, address⟩ := here
            rw [address]
            refine ⟨name, rest, rfl, ?_⟩
            rw [of_put_self]
            exact (Dict.mem_keys_set _ _ _ _).mpr (.inl rfl)

theorem edits_listed {cel : CelEvaluator} {input : NodeInput} {pending : List Edit}
    {writes after : Writes} (applied : pending.foldlM (applyEdit cel input) writes = .ok after) :
    Grown writes.of after.of ∧
      ∀ write ∈ assignmentsFrom cel input pending writes, Listed after.of write.1 := by
  induction pending generalizing writes with
  | nil =>
      cases applied
      exact ⟨fun _ _ member => member, fun _ none => nomatch none⟩
  | cons edit rest ih =>
      rw [List.foldlM_cons] at applied
      unfold assignmentsFrom
      cases first : applyEdit cel input writes edit with
      | error error =>
          rw [first] at applied
          cases applied
      | ok middle =>
          rw [first] at applied
          obtain ⟨laterGrown, laterListed⟩ := ih applied
          have here : Grown writes.of middle.of ∧
              ∀ write ∈ editAssignments cel input writes edit, Listed middle.of write.1 := by
            cases edit with
            | update update => exact applyUpdate_listed first
            | merge merge => exact applyMerge_listed first
          constructor
          · intro target key member
            exact laterGrown target key (here.1 target key member)
          · intro write member
            rcases List.mem_append.mp member with old | new
            · exact (here.2 write old).grown laterGrown
            · exact laterListed write new

theorem execute_listed {cel : CelEvaluator} {input : NodeInput} {config : SetVariableNodeConfig}
    {output : NodeOutput} (ran : execute cel input config = .ok output) :
    ∀ write ∈ assignments cel input config, Listed output.updates write.1 := by
  unfold execute at ran
  cases applied : (edits config).foldlM (applyEdit cel input) {} with
  | error error =>
      rw [applied] at ran
      cases ran
  | ok writes =>
      rw [applied] at ran
      cases ran
      have returned : writes.of = NodeOutput.updates
          { data := input.data
            stateUpdates := reported writes.state
            projectUpdates := reported writes.project
            metadata := some {} } := by
        funext target
        cases target <;> simp [NodeOutput.updates, reported_getD, Writes.of]
      rw [← returned]
      exact (edits_listed applied).2

end SetVariableNode

/-! ### Completions -/

def NodeLibrary.withSetVariable (library : NodeLibrary) (cel : CelEvaluator)
    (configs : String → SetVariableNodeConfig) : NodeLibrary :=
  { library with
    execute := fun node input =>
      if node.type = "set_variable" then SetVariableNode.execute cel input (configs node.id)
      else library.execute node input }

def topLevel (output : NodeOutput) : List Assignment :=
  (output.updates .state).entries.map (fun entry => (⟨.state, [entry.1]⟩, entry.2)) ++
    (output.updates .project).entries.map (fun entry => (⟨.project, [entry.1]⟩, entry.2))

section

variable (library : NodeLibrary) (cel : CelEvaluator) (configs : String → SetVariableNodeConfig)

def assignmentsOf (entry : InFlight) (output : NodeOutput) : List Assignment :=
  match entry.node with
  | .task node =>
      if node.type = "set_variable" then
        SetVariableNode.assignments cel entry.input (configs node.id)
      else topLevel output
  | _ => topLevel output

def CarriesCurrent (context : ExecutionContext) (entry : InFlight) (output : NodeOutput) : Prop :=
  ∀ address, SetVariableNode.Listed output.updates address →
    (∀ write ∈ assignmentsOf cel configs entry output, write.1.Apart address) →
      readAt (SetVariableNode.sourceState entry.input) address = readAt context.store address

structure ForkRun where
  engine : Engine
  assigned : List Assignment

def assignedAt : Engine → EngineLabel → List Assignment
  | .parallel state, .complete position seen =>
      match state.running[position]?,
          (Engine.parallel state).completion (library.withSetVariable cel configs)
            (.complete position seen) with
      | some entry, some (_, output) => assignmentsOf cel configs entry output
      | _, _ => []
  | _, _ => []

def Current (engine : Engine) (label : EngineLabel) : Prop :=
  ∀ state position seen entry output, engine = .parallel state →
    label = .complete position seen →
      state.Completes (library.withSetVariable cel configs) position seen entry output →
        CarriesCurrent cel configs state.context entry output ∧
          ∀ config, entry.node = .endNode config → state.captured = none →
            config.stateFilter = .all ∧ config.projectFilter = .all

def ForkRun.Step (run : ForkRun) (label : EngineLabel) (next : ForkRun) : Prop :=
  run.engine.Step (library.withSetVariable cel configs) label next.engine ∧
    next.assigned = run.assigned ++ assignedAt library cel configs run.engine label

def ForkRun.CurrentStep (run : ForkRun) (label : EngineLabel) (next : ForkRun) : Prop :=
  Current library cel configs run.engine label ∧ run.Step library cel configs label next

end

theorem applyOutput_store (context : ExecutionContext) (output : NodeOutput) :
    (applyOutput context output).store =
      fun target => (context.store target).merge (output.updates target) := by
  funext target
  cases target
  · exact applyOutput_state context output
  · exact applyOutput_projectState context output

theorem readAt_listed {before other returned : VariableTarget → Data} {address : Address}
    (listed : SetVariableNode.Listed returned address) :
    readAt (fun target => (before target).merge (returned target)) address =
      readAt (fun target => (other target).merge (returned target)) address := by
  obtain ⟨top, rest, path, member⟩ := listed
  unfold readAt
  rw [path, readVariable_cons, readVariable_cons]
  obtain ⟨value, found⟩ := (Dict.mem_keys _ _).mp member
  rw [Dict.lookup_merge_left _ _ found, Dict.lookup_merge_left _ _ found]

theorem readAt_unlisted {before returned : VariableTarget → Data} {address : Address}
    (unlisted : ¬ SetVariableNode.Listed returned address) :
    readAt (fun target => (before target).merge (returned target)) address =
      readAt before address := by
  obtain ⟨target, path⟩ := address
  cases path with
  | nil => rfl
  | cons top rest =>
      have absent : (returned target).lookup top = none := by
        rw [Dict.lookup_eq_none]
        intro member
        exact unlisted ⟨top, rest, rfl, member⟩
      unfold readAt
      dsimp only
      rw [readVariable_cons, readVariable_cons, Dict.lookup_merge_right _ _ absent]

theorem topLevel_covers {output : NodeOutput} {address : Address}
    (listed : SetVariableNode.Listed output.updates address) :
    ¬ ∀ write ∈ topLevel output, write.1.Apart address := by
  intro apart
  obtain ⟨top, rest, path, member⟩ := listed
  obtain ⟨entry, listed, named⟩ := List.mem_map.mp member
  have assigned : ((⟨address.target, [entry.1]⟩, entry.2) : Assignment) ∈ topLevel output := by
    unfold topLevel
    cases kind : address.target with
    | state =>
        rw [kind] at listed
        exact List.mem_append_left _ (List.mem_map.mpr ⟨entry, listed, rfl⟩)
    | project =>
        rw [kind] at listed
        exact List.mem_append_right _ (List.mem_map.mpr ⟨entry, listed, rfl⟩)
  apply (apart _ assigned rfl).1
  rw [path]
  exact List.cons_prefix_cons.mpr ⟨named, List.nil_prefix⟩

theorem topLevel_wrote (store : VariableTarget → Data) (output : NodeOutput) :
    Wrote Address.Apart (readAt store)
      (readAt (fun target => (store target).merge (output.updates target))) (topLevel output) where
  written := by
    have holds : ∀ target, ∀ entry ∈ (output.updates target).entries,
        readAt (fun target => (store target).merge (output.updates target))
          ⟨target, [entry.1]⟩ = some entry.2 := by
      intro target entry member
      unfold readAt
      dsimp only
      rw [readVariable_cons,
        Dict.lookup_merge_left _ _ ((output.updates target).lookup_of_mem member)]
      rfl
    intro write member
    rcases List.mem_append.mp member with state | project
    · obtain ⟨entry, listed, rfl⟩ := List.mem_map.mp state
      exact holds .state entry listed
    · obtain ⟨entry, listed, rfl⟩ := List.mem_map.mp project
      exact holds .project entry listed
  kept := by
    intro address apart
    apply readAt_unlisted
    exact fun listed => topLevel_covers listed apart

theorem Parallel.Completes.kind {library : NodeLibrary} {cel : CelEvaluator}
    {configs : String → SetVariableNodeConfig} {state : Parallel} {position seen : Nat}
    {entry : InFlight} {output : NodeOutput}
    (completes :
      state.Completes (library.withSetVariable cel configs) position seen entry output) :
    assignmentsOf cel configs entry output = topLevel output ∨
      ∃ config, assignmentsOf cel configs entry output =
          SetVariableNode.assignments cel entry.input config ∧
        SetVariableNode.execute cel entry.input config = .ok output := by
  have ran := completes.ran
  unfold Parallel.outcomeOf at ran
  unfold assignmentsOf
  cases kind : entry.node with
  | task node =>
      rw [kind] at ran
      dsimp only
      split
      case isTrue typed =>
        change (if node.type = "set_variable" then _ else _) = _ at ran
        rw [if_pos typed] at ran
        exact .inr ⟨configs node.id, rfl, ran⟩
      case isFalse => exact .inl rfl
  | _ => exact .inl rfl

/-- A completion writes its assignments and nothing else exactly when what its node carries
along is current. -/
theorem Parallel.Completes.wrote_iff {library : NodeLibrary} {cel : CelEvaluator}
    {configs : String → SetVariableNodeConfig} {state : Parallel} {position seen : Nat}
    {entry : InFlight} {output : NodeOutput}
    (completes :
      state.Completes (library.withSetVariable cel configs) position seen entry output)
    (separate : Separate Address.Apart (assignmentsOf cel configs entry output)) :
    Wrote Address.Apart (readAt state.context.store)
        (readAt (state.record position entry output).context.store)
        (assignmentsOf cel configs entry output) ↔
      CarriesCurrent cel configs state.context entry output := by
  change Wrote _ _ (readAt (applyOutput state.context output).store) _ ↔ _
  rw [applyOutput_store]
  rcases completes.kind with whole | ⟨config, same, ran⟩
  · constructor
    · intro _ address listed apart
      rw [whole] at apart
      exact absurd apart (topLevel_covers listed)
    · intro _
      rw [whole]
      exact topLevel_wrote _ _
  · rw [same] at separate
    have wrote := SetVariableNode.execute_wrote ran separate
    constructor
    · intro kept address listed apart
      rw [← kept.kept address apart, readAt_listed listed]
      rw [same] at apart
      exact (wrote.kept address apart).symm
    · intro current
      constructor
      · intro write member
        rw [same] at member
        rw [readAt_listed (SetVariableNode.execute_listed ran write member)]
        exact wrote.written write member
      · intro address apart
        by_cases listed : SetVariableNode.Listed output.updates address
        · rw [readAt_listed listed, ← current address listed apart]
          rw [same] at apart
          exact wrote.kept address apart
        · exact readAt_unlisted listed

/-! ### Runs of a fork -/

theorem Parallel.launchReady_store {library : NodeLibrary} {state launched : Parallel}
    (started : state.launchReady library = .ok launched) :
    launched.context.store = state.context.store := by
  apply launchReady_invariant started
    (fun reached => reached.context.store = state.context.store) rfl
  intro ready first next before launch
  obtain ⟨node, _, rfl⟩ := launchNode_ok launch
  exact before

theorem Parallel.capture_store {library : NodeLibrary} {steps : List ExecutionStep}
    {input : NodeInput} {config : EndNodeConfig} (state : Parallel)
    (unfiltered : state.captured = none → config.stateFilter = .all ∧ config.projectFilter = .all) :
    (state.capture (EndNode.execute config library steps input)).context.store =
      state.context.store := by
  unfold capture
  cases captured : state.captured with
  | some earlier => rfl
  | none =>
      obtain ⟨whole, wholeProject⟩ := unfiltered captured
      funext target
      cases target <;>
        simp [ExecutionContext.store, endResult, filteredContext, EndNode.execute,
          EndNode.filterState, whole, wholeProject]

section

variable {library : NodeLibrary} {cel : CelEvaluator} {configs : String → SetVariableNodeConfig}

theorem Parallel.Completes.assignedAt {state : Parallel} {position seen : Nat}
    {entry : InFlight} {output : NodeOutput}
    (completes :
      state.Completes (library.withSetVariable cel configs) position seen entry output) :
    assignedAt library cel configs (.parallel state) (.complete position seen) =
      assignmentsOf cel configs entry output := by
  simp only [Assemblix.assignedAt, completes.completion, completes.inFlight]

theorem ForkRun.CurrentStep.wrote {run next : ForkRun} {label : EngineLabel} {state : Parallel}
    {after : ExecutionContext} (taken : run.CurrentStep library cel configs label next)
    (here : run.engine = .parallel state) (reached : next.engine.context = some after)
    (separate : Separate Address.Apart (assignedAt library cel configs run.engine label)) :
    Wrote Address.Apart (readAt state.context.store) (readAt after.store)
        (assignedAt library cel configs run.engine label) ∧
      ∀ sequential, next.engine ≠ .sequential sequential := by
  obtain ⟨current, step, _⟩ := taken
  rw [here] at current step separate ⊢
  rcases Parallel.step_cases step with ⟨error, steps, failed⟩ | moves
  · rw [failed] at reached
    cases reached
  · generalize next.engine = engine at reached moves
    cases moves with
    | launch some started =>
        cases reached
        constructor
        · rw [Parallel.launchReady_store started]
          exact Wrote.nil
        · exact fun _ => Engine.noConfusion
    | @capture position seen entry output completes terminal =>
        cases reached
        obtain ⟨carries, unfiltered⟩ := current _ _ _ _ _ rfl rfl completes
        rw [completes.assignedAt] at separate ⊢
        obtain ⟨config, kind, produced⟩ := Node.execute_terminal terminal completes.ran
        constructor
        · have stored : ((state.record position entry output).capture output).context.store =
              (state.record position entry output).context.store := by
            rw [produced]
            apply Parallel.capture_store
            exact unfiltered config kind
          rw [stored]
          exact (completes.wrote_iff separate).mpr carries
        · exact fun _ => Engine.noConfusion
    | route completes running =>
        cases reached
        obtain ⟨carries, _⟩ := current _ _ _ _ _ rfl rfl completes
        rw [completes.assignedAt] at separate ⊢
        constructor
        · exact (completes.wrote_iff separate).mpr carries
        · exact fun _ => Engine.noConfusion
    | close quiet idle =>
        cases reached
        constructor
        · rw [Parallel.result_context]
          exact Wrote.nil
        · exact fun _ => Engine.noConfusion

theorem ForkRun.wrote {first : Parallel} {labels : List EngineLabel} {last : ForkRun}
    (run : Run (ForkRun.CurrentStep library cel configs) ⟨.parallel first, []⟩ labels last)
    {after : ExecutionContext} (reached : last.engine.context = some after)
    (separate : Separate Address.Apart last.assigned) :
    Wrote Address.Apart (readAt first.context.store) (readAt after.store) last.assigned := by
  have history : (∀ sequential, last.engine ≠ .sequential sequential) ∧
      Wrote Address.Apart (readAt first.context.store) (readAt after.store) last.assigned := by
    induction run generalizing after with
    | nil =>
        cases reached
        exact ⟨fun _ => Engine.noConfusion, Wrote.nil⟩
    | @snoc labels middle last label _ taken ih =>
        have ⟨_, step, assigned⟩ := taken
        rw [assigned] at separate ⊢
        have parts := List.pairwise_append.mp separate
        obtain ⟨context, before⟩ := Option.isSome_iff_exists.mp step.context_isSome
        obtain ⟨unsequential, earlier⟩ := ih before parts.1
        cases here : middle.engine with
        | sequential state => exact absurd here (unsequential state)
        | finished result steps =>
            rw [here] at step
            cases label <;> cases step
        | failed error steps =>
            rw [here] at step
            cases label <;> cases step
        | parallel state =>
            rw [here] at before
            cases before
            obtain ⟨later, still⟩ := taken.wrote here reached parts.2.1
            rw [here] at separate later
            exact ⟨still, earlier.append Address.Apart.symm separate later⟩
  exact history.2

/-! ### The order of completions -/

/-- Equal values, or two objects, which are compared at longer paths. -/
def SameReading (left right : Option Json) : Prop :=
  left = right ∨ ∃ one other, left = some one ∧ right = some other ∧ one.isObject = true ∧
    other.isObject = true

theorem readVariable_append (data : Data) {path : JsonPath} (named : path ≠ [])
    (more : JsonPath) :
    readVariable data (path ++ more) =
      (readVariable data path).bind (fun value => value.read more) := by
  obtain ⟨top, rest, rfl⟩ := List.exists_cons_of_ne_nil named
  rw [List.cons_append, readVariable_cons, readVariable_cons, Option.bind_assoc]
  congr 1
  funext value
  exact Json.read_append value rest more

theorem isObject_of_readVariable {data : Data} {path : JsonPath} {name : String}
    {rest : JsonPath} {value : Json} (named : path ≠ [])
    (found : readVariable data (path ++ name :: rest) = some value) :
    ∃ held, readVariable data path = some held ∧ held.isObject = true := by
  rw [readVariable_append data named] at found
  obtain ⟨held, here, below⟩ := Option.bind_eq_some_iff.mp found
  exact ⟨held, here, Json.isObject_of_read below⟩

theorem readings_agree {before left right : VariableTarget → Data}
    {first second : List Assignment}
    (one : Wrote Address.Apart (readAt before) (readAt left) first)
    (other : Wrote Address.Apart (readAt before) (readAt right) second)
    (reordered : second.Perm first) (address : Address) :
    SameReading (readAt left address) (readAt right address) := by
  by_cases apart : ∀ write ∈ first, write.1.Apart address
  · exact .inl (one.agree other reordered address (.inr apart))
  · simp only [not_forall] at apart
    obtain ⟨⟨⟨target, path⟩, value⟩, member, meets⟩ := apart
    obtain ⟨here, there⟩ : readAt left ⟨target, path⟩ = some value ∧
        readAt right ⟨target, path⟩ = some value :=
      ⟨one.written _ member, other.written _ (reordered.mem_iff.mpr member)⟩
    unfold Address.Apart at meets
    simp only [Classical.not_imp] at meets
    obtain ⟨same, meets⟩ := meets
    obtain ⟨addressTarget, addressPath⟩ := address
    dsimp only at same meets
    subst same
    change readVariable (left target) path = some value at here
    change readVariable (right target) path = some value at there
    have named : path ≠ [] := by
      intro empty
      rw [empty] at here
      cases here
    change SameReading (readVariable (left target) addressPath)
      (readVariable (right target) addressPath)
    by_cases leads : path <+: addressPath
    · obtain ⟨more, rfl⟩ := leads
      left
      rw [readVariable_append _ named, readVariable_append _ named, here, there]
    · have onWay : addressPath <+: path := by
        by_contra aside
        exact meets ⟨leads, aside⟩
      obtain ⟨more, rfl⟩ := onWay
      cases addressPath with
      | nil => exact .inl rfl
      | cons top rest =>
          cases more with
          | nil =>
              rw [List.append_nil] at here there
              exact .inl (here.trans there.symm)
          | cons name deeper =>
              obtain ⟨one, found, object⟩ :=
                isObject_of_readVariable (List.cons_ne_nil top rest) here
              obtain ⟨other, otherFound, otherObject⟩ :=
                isObject_of_readVariable (List.cons_ne_nil top rest) there
              exact .inr ⟨one, other, found, otherFound, object, otherObject⟩

/-- In a run in which every completing node carries along current values only, each separate
assignment is in the state at the end, every path apart from all of them reads as before the
fork, and another order of completions gives the same readings. -/
theorem fork_writes_kept (first : Parallel) (labels : List EngineLabel) (last : ForkRun)
    (after : ExecutionContext)
    (run : Run (ForkRun.CurrentStep library cel configs) ⟨.parallel first, []⟩ labels last)
    (reached : last.engine.context = some after)
    (separate : Separate Address.Apart last.assigned) :
    (∀ write ∈ last.assigned, readAt after.store write.1 = some write.2) ∧
      (∀ address, (∀ write ∈ last.assigned, write.1.Apart address) →
        readAt after.store address = readAt first.context.store address) ∧
      ∀ otherLabels other otherAfter,
        Run (ForkRun.CurrentStep library cel configs) ⟨.parallel first, []⟩ otherLabels other →
          other.engine.context = some otherAfter → other.assigned.Perm last.assigned →
            ∀ address, SameReading (readAt after.store address)
              (readAt otherAfter.store address) := by
  have wrote := ForkRun.wrote run reached separate
  refine ⟨wrote.written, wrote.kept, ?_⟩
  intro otherLabels other otherAfter otherRun otherReached reordered address
  have otherSeparate : Separate Address.Apart other.assigned := by
    apply (reordered.pairwise_iff _).mpr separate
    intro left right apart
    exact apart.symm
  exact readings_agree wrote (ForkRun.wrote otherRun otherReached otherSeparate) reordered address

end

/-! ### A fork of two branches -/

def unchanged (context : ExecutionContext) (entry : InFlight) (output : NodeOutput) : Bool :=
  [VariableTarget.state, .project].all (fun target =>
    (output.updates target).keys.all (fun key =>
      decide ((SetVariableNode.sourceState entry.input target).lookup key =
        (context.store target).lookup key)))

theorem carriesCurrent_of_unchanged {cel : CelEvaluator}
    {configs : String → SetVariableNodeConfig} {context : ExecutionContext} {entry : InFlight}
    {output : NodeOutput} (same : unchanged context entry output = true) :
    CarriesCurrent cel configs context entry output := by
  intro address listed _
  obtain ⟨top, rest, path, member⟩ := listed
  unfold readAt
  rw [path, readVariable_cons, readVariable_cons]
  have checked := List.all_eq_true.mp same address.target (by cases address.target <;> simp)
  rw [of_decide_eq_true (List.all_eq_true.mp checked top member)]

section

variable (library : NodeLibrary) (cel : CelEvaluator) (configs : String → SetVariableNodeConfig)

/-- A check that suffices for `Current`. -/
def checkedCurrent (engine : Engine) (label : EngineLabel) : Bool :=
  match engine, label with
  | .parallel state, .complete position seen =>
      match state.running[position]?,
          (Engine.parallel state).completion (library.withSetVariable cel configs)
            (.complete position seen) with
      | some entry, some (_, output) =>
          unchanged state.context entry output &&
            match entry.node with
            | .endNode config => decide (config.stateFilter = .all ∧ config.projectFilter = .all)
            | _ => true
      | _, _ => true
  | _, _ => true

def ForkRun.step (run : ForkRun) (label : EngineLabel) : Option ForkRun :=
  (run.engine.step (library.withSetVariable cel configs) label).map (fun next =>
    ⟨next, run.assigned ++ assignedAt library cel configs run.engine label⟩)

def ForkRun.checkedStep (run : ForkRun) (label : EngineLabel) : Option ForkRun :=
  if checkedCurrent library cel configs run.engine label then run.step library cel configs label
  else none

end

theorem ForkRun.step_of_eq {library : NodeLibrary} {cel : CelEvaluator}
    {configs : String → SetVariableNodeConfig} {run next : ForkRun} {label : EngineLabel}
    (taken : run.step library cel configs label = some next) :
    run.Step library cel configs label next := by
  unfold ForkRun.step at taken
  obtain ⟨engine, stepped, rfl⟩ := Option.map_eq_some_iff.mp taken
  exact ⟨stepped, rfl⟩

theorem ForkRun.currentStep_of_checked {library : NodeLibrary} {cel : CelEvaluator}
    {configs : String → SetVariableNodeConfig} {run next : ForkRun} {label : EngineLabel}
    (taken : run.checkedStep library cel configs label = some next) :
    run.CurrentStep library cel configs label next := by
  unfold ForkRun.checkedStep at taken
  split at taken
  case isFalse => cases taken
  case isTrue checked =>
    constructor
    · intro state position seen entry output here labelled completes
      rw [here, labelled] at checked
      simp only [checkedCurrent, completes.completion, completes.inFlight,
        Bool.and_eq_true] at checked
      constructor
      · exact carriesCurrent_of_unchanged checked.1
      · intro config kind _
        have filters := checked.2
        rw [kind] at filters
        exact of_decide_eq_true filters
    · exact step_of_eq taken

def twoBranches : WorkflowDefinition where
  nodes := [⟨"start", "start"⟩, ⟨"left", "set_variable"⟩, ⟨"right", "set_variable"⟩, ⟨"join", "end"⟩]
  edges := [⟨"start", "left", none⟩, ⟨"start", "right", none⟩, ⟨"left", "join", none⟩,
    ⟨"right", "join", none⟩]
  conditions := fun _ => []
  endConfig := fun _ => {}

def twoBranchesStart : Parallel where
  start := "start"
  context :=
    { workflow := twoBranches
      state := Dict.empty.set "user" (.obj [("id", .int 1)])
      projectState := Dict.empty
      inputData := Dict.empty
      stepNumber := 0
      visitedNodes := []
      nodeExecutionCount := Dict.empty }
  steps := []
  scheduler := DagScheduler.State.initial
  ready := DagScheduler.start (DagScheduler.plan twoBranches.nodes twoBranches.edges "start")
  running := []
  captured := none

def literalEvaluator : CelEvaluator where
  text := fun value => match value with
    | .str text => text
    | _ => ""
  evaluate := fun text _ => .ok (.str text)
  round := id

def setVariableOnly : NodeLibrary where
  registered := fun nodeType => decide (nodeType = "set_variable")
  execute := fun _ _ => .error "unknown"
  evaluate := fun _ _ => .error "unknown"
  render := fun text _ => text

def branchConfigs (left right : String) (nodeId : String) : SetVariableNodeConfig :=
  if nodeId = "left" then { updates := [⟨left, .str "Ada"⟩] }
  else { updates := [⟨right, .str "London"⟩] }

def throughJoin : List EngineLabel :=
  [.launch, .complete 0 0, .launch, .complete 1 1, .complete 0 2, .launch, .complete 0 3, .close]

def ForkRun.initial : ForkRun := ⟨.parallel twoBranchesStart, []⟩

def branchesAfter (left right : String)
    (step : (String → SetVariableNodeConfig) → ForkRun → EngineLabel → Option ForkRun) : ForkRun :=
  (throughJoin.foldlM (step (branchConfigs left right)) ForkRun.initial).getD ForkRun.initial

theorem branchesAfter_eq {left right : String}
    {step : (String → SetVariableNodeConfig) → ForkRun → EngineLabel → Option ForkRun}
    (finishes : (throughJoin.foldlM (step (branchConfigs left right)) ForkRun.initial).isSome =
      true) :
    throughJoin.foldlM (step (branchConfigs left right)) ForkRun.initial =
      some (branchesAfter left right step) := by
  unfold branchesAfter
  obtain ⟨last, computed⟩ := Option.isSome_iff_exists.mp finishes
  rw [computed]
  rfl

theorem fork_writes_kept_two :
    ∃ after,
      (branchesAfter "user.name" "home.city"
        (ForkRun.checkedStep setVariableOnly literalEvaluator)).engine.context = some after ∧
      readAt after.store ⟨.state, ["home", "city"]⟩ = some (.str "London") ∧
      readAt after.store ⟨.state, ["user", "name"]⟩ = some (.str "Ada") ∧
      readAt after.store ⟨.state, ["user", "id"]⟩ =
        readAt twoBranchesStart.context.store ⟨.state, ["user", "id"]⟩ := by
  have computed := @branchesAfter_eq "user.name" "home.city"
    (ForkRun.checkedStep setVariableOnly literalEvaluator) (by decide +kernel)
  have assigned : (branchesAfter "user.name" "home.city"
      (ForkRun.checkedStep setVariableOnly literalEvaluator)).assigned =
        [(⟨.state, ["home", "city"]⟩, .str "London"), (⟨.state, ["user", "name"]⟩, .str "Ada")] := by
    decide +kernel
  have finished : (branchesAfter "user.name" "home.city"
      (ForkRun.checkedStep setVariableOnly literalEvaluator)).engine.context.isSome = true := by
    decide +kernel
  generalize branchesAfter "user.name" "home.city"
    (ForkRun.checkedStep setVariableOnly literalEvaluator) = last at computed assigned finished
  have run : Run (ForkRun.CurrentStep setVariableOnly literalEvaluator
      (branchConfigs "user.name" "home.city")) ForkRun.initial throughJoin last := by
    apply Run.mono _ (Run.of_foldlM _ _ _ computed)
    intro state label next taken
    exact ForkRun.currentStep_of_checked taken
  have separate : Separate Address.Apart last.assigned := by
    rw [assigned]
    simp [Separate, Address.Apart, JsonPath.Apart]
  obtain ⟨after, reached⟩ := Option.isSome_iff_exists.mp finished
  obtain ⟨written, kept, _⟩ := fork_writes_kept twoBranchesStart throughJoin last after run reached
    separate
  rw [assigned] at written kept
  refine ⟨after, reached, written _ List.mem_cons_self,
    written _ (List.mem_cons_of_mem _ List.mem_cons_self), kept _ ?_⟩
  simp [Address.Apart, JsonPath.Apart]

/-- Both branches write below one variable: the one that completes last takes the other's
write back. -/
theorem fork_write_lost :
    ∃ last,
      Run (ForkRun.Step setVariableOnly literalEvaluator (branchConfigs "user.name" "user.city"))
        ⟨.parallel twoBranchesStart, []⟩ throughJoin last ∧
      last.assigned =
        [(⟨.state, ["user", "city"]⟩, .str "London"), (⟨.state, ["user", "name"]⟩, .str "Ada")] ∧
      Separate Address.Apart last.assigned ∧
      last.engine.context.map (fun after => readAt after.store ⟨.state, ["user", "city"]⟩) =
        some none := by
  have assigned : (branchesAfter "user.name" "user.city"
      (ForkRun.step setVariableOnly literalEvaluator)).assigned =
        [(⟨.state, ["user", "city"]⟩, .str "London"), (⟨.state, ["user", "name"]⟩, .str "Ada")] := by
    decide +kernel
  refine ⟨branchesAfter "user.name" "user.city"
    (ForkRun.step setVariableOnly literalEvaluator), ?_, assigned, ?_, ?_⟩
  · apply Run.mono _ (Run.of_foldlM _ _ _ (branchesAfter_eq (by decide +kernel)))
    intro state label next taken
    exact ForkRun.step_of_eq taken
  · rw [assigned]
    simp [Separate, Address.Apart, JsonPath.Apart]
  · decide +kernel

end Assemblix
