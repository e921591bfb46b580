import Assemblix.Execution.ForkWrites

/-
Assignments to variables as assignments to paths of a tree.

The node keeps what it has written apart from the state and starts a nested write from what it
has written of the variable, else from the state. Merged into the state its writes are those of
the tree, but below a variable that was assigned `null` before: the state's `null` and a nested
one count as missing, this one does not.
-/

namespace Assemblix

open Library

namespace SetVariableNode

/-! ### Writes, one after the other -/

structure Write where
  place : Variable
  value : Json

deriving instance DecidableEq for Variable, Write

section

variable (cel : CelEvaluator) (input : NodeInput)

def resolve (update : UpdateVariable) : Except String Write :=
  match parseVariableTarget update.variableName with
  | .error error => .error error
  | .ok place =>
      match resolveValue cel input update with
      | .error error => .error error
      | .ok value => .ok { place, value }

def resolveAll : List UpdateVariable → Except String (List Write)
  | [] => .ok []
  | update :: rest =>
      if isPlaceholder update then resolveAll rest
      else
        match resolve cel input update with
        | .error error => .error error
        | .ok write =>
            match resolveAll rest with
            | .error error => .error error
            | .ok more => .ok (write :: more)

def put (writes : Writes) (write : Write) : Except String Writes :=
  match writeVariable (sourceState input write.place.target) (writes.of write.place.target)
      write.place write.value with
  | .error error => .error error
  | .ok data => .ok (writes.put write.place.target data)

theorem applyUpdate_eq (writes : Writes) (update : UpdateVariable) :
    applyUpdate cel input writes update =
      if isPlaceholder update then .ok writes
      else
        match resolve cel input update with
        | .error error => .error error
        | .ok write => put input writes write := by
  unfold applyUpdate resolve put
  split
  · rfl
  · cases parseVariableTarget update.variableName with
    | error error => rfl
    | ok place =>
        dsimp only
        cases resolveValue cel input update with
        | error error => rfl
        | ok value => rfl

variable {cel input}

theorem foldlM_updates {updates : List UpdateVariable} {all : List Write}
    (known : resolveAll cel input updates = .ok all) (writes : Writes) :
    updates.foldlM (applyUpdate cel input) writes = all.foldlM (put input) writes := by
  induction updates generalizing all writes with
  | nil =>
      cases known
      rfl
  | cons update rest ih =>
      rw [resolveAll] at known
      rw [List.foldlM_cons, applyUpdate_eq]
      by_cases placeholder : isPlaceholder update = true
      · rw [if_pos placeholder] at known
        rw [if_pos placeholder]
        exact ih known writes
      · rw [if_neg placeholder] at known
        rw [if_neg placeholder]
        cases found : resolve cel input update with
        | error error =>
            rw [found] at known
            cases known
        | ok write =>
            rw [found] at known
            cases more : resolveAll cel input rest with
            | error error =>
                rw [more] at known
                cases known
            | ok others =>
                rw [more] at known
                cases known
                rw [List.foldlM_cons]
                dsimp only
                cases put input writes write with
                | error error => rfl
                | ok after => exact ih more after

theorem foldlM_updates_error {updates : List UpdateVariable} {error : String}
    (unknown : resolveAll cel input updates = .error error) (writes : Writes) :
    ∃ failure, updates.foldlM (applyUpdate cel input) writes = .error failure := by
  induction updates generalizing error writes with
  | nil => cases unknown
  | cons update rest ih =>
      rw [resolveAll] at unknown
      rw [List.foldlM_cons, applyUpdate_eq]
      by_cases placeholder : isPlaceholder update = true
      · rw [if_pos placeholder] at unknown
        rw [if_pos placeholder]
        exact ih unknown writes
      · rw [if_neg placeholder] at unknown
        rw [if_neg placeholder]
        cases found : resolve cel input update with
        | error error => exact ⟨error, rfl⟩
        | ok write =>
            dsimp only
            cases made : put input writes write with
            | error error => exact ⟨error, rfl⟩
            | ok after =>
                cases more : resolveAll cel input rest with
                | error error => exact ih more after
                | ok others =>
                    rw [found, more] at unknown
                    cases unknown

end

/-! ### Writes to a tree -/

def assignPath (data : Data) (place : Variable) (value : Json) : Option Data :=
  match place.rest with
  | [] => some (data.set place.top value)
  | next :: rest =>
      match data.lookup place.top with
      | none | some .null =>
          (Json.setNested [] (next :: rest) value).toOption.map
            (fun inner => data.set place.top (.obj inner))
      | some (.obj fields) =>
          (Json.setNested fields (next :: rest) value).toOption.map
            (fun inner => data.set place.top (.obj inner))
      | some _ => none

theorem assignPath_entries (data : Data) (place : Variable) (value : Json) :
    (assignPath data place value).map Dict.entries =
      (Json.setNested data.entries place.path value).toOption := by
  obtain ⟨target, top, rest⟩ := place
  unfold assignPath Variable.path
  cases rest with
  | nil => rfl
  | cons next rest =>
      have below : ∀ fields : List (String × Json),
          ((Json.setNested fields (next :: rest) value).toOption.map
            (fun inner => data.set top (.obj inner))).map Dict.entries =
            (((Json.setNested fields (next :: rest) value).map (fun inner =>
              Dict.assign top (.obj inner) data.entries)).mapError
                (fun error : JsonPath × Json => (top :: error.1, error.2))).toOption := by
        intro fields
        cases Json.setNested fields (next :: rest) value with
        | error error => rfl
        | ok inner => rfl
      dsimp only
      unfold Dict.lookup
      rw [Json.setNested]
      cases Dict.find top data.entries with
      | none => exact below []
      | some held =>
          cases held with
          | null => exact below []
          | obj fields => exact below fields
          | _ => rfl

def given (input : NodeInput) : Writes :=
  { state := input.state, project := input.projectState }

def mergedWith (input : NodeInput) (writes : Writes) : Writes :=
  { state := input.state.merge writes.state
    project := input.projectState.merge writes.project }

def assignWrite (trees : Writes) (write : Write) : Option Writes :=
  (assignPath (trees.of write.place.target) write.place write.value).map
    (trees.put write.place.target)

def assignAll (trees : Writes) (writes : List Write) : Option Writes :=
  writes.foldlM assignWrite trees

/-! ### One write -/

@[simp]
theorem of_put (writes : Writes) (target : VariableTarget) (data : Data) :
    (writes.put target data).of target = data := by
  cases target <;> rfl

theorem of_put_other (writes : Writes) {target other : VariableTarget} (data : Data)
    (different : other ≠ target) : (writes.put target data).of other = writes.of other := by
  cases target <;> cases other <;> first | rfl | exact absurd rfl different

theorem mergedWith_of (input : NodeInput) (writes : Writes) (target : VariableTarget) :
    (mergedWith input writes).of target = (sourceState input target).merge (writes.of target) := by
  cases target <;> rfl

theorem mergedWith_put (input : NodeInput) (writes : Writes) (target : VariableTarget)
    (data : Data) :
    mergedWith input (writes.put target data) =
      (mergedWith input writes).put target ((sourceState input target).merge data) := by
  cases target <;> rfl

/-- `null` counts as missing, and what is missing is created. -/
def present : Option Json → Json
  | none => .obj []
  | some .null => .obj []
  | some held => held

/-- What a nested write finds in the merged state, unless the node wrote `null` there. -/
theorem container_eq {source accumulator : Data} {top : String}
    (noNull : accumulator.lookup top ≠ some .null) :
    container source accumulator top = present ((source.merge accumulator).lookup top) := by
  unfold container
  rw [Dict.lookup_merge]
  cases written : accumulator.lookup top with
  | some held =>
      cases held with
      | null => exact absurd written noNull
      | _ => rfl
  | none =>
      cases source.lookup top with
      | none => rfl
      | some held => cases held <;> rfl

def written (held : Json) (path : JsonPath) (value : Json) : Option Json :=
  match held with
  | .obj fields => (Json.setNested fields path value).toOption.map .obj
  | _ => none

theorem writeVariable_cons (source accumulator : Data) (target : VariableTarget)
    (top next : String) (rest : JsonPath) (value : Json) :
    (writeVariable source accumulator ⟨target, top, next :: rest⟩ value).toOption =
      (written (container source accumulator top) (next :: rest) value).map
        (accumulator.set top) := by
  unfold writeVariable written
  dsimp only
  cases container source accumulator top with
  | obj fields =>
      dsimp only
      cases Json.setNested fields (next :: rest) value with
      | error error => rfl
      | ok inner => rfl
  | _ => rfl

theorem assignPath_cons (data : Data) (target : VariableTarget) (top next : String)
    (rest : JsonPath) (value : Json) :
    assignPath data ⟨target, top, next :: rest⟩ value =
      (written (present (data.lookup top)) (next :: rest) value).map (data.set top) := by
  have below : ∀ fields : List (String × Json),
      (Json.setNested fields (next :: rest) value).toOption.map
        (fun inner => data.set top (.obj inner)) =
        (written (.obj fields) (next :: rest) value).map (data.set top) :=
    fun fields => (Option.map_map (data.set top) Json.obj _).symm
  unfold assignPath
  dsimp only
  cases data.lookup top with
  | none => exact below []
  | some held =>
      cases held with
      | null => exact below []
      | obj fields => exact below fields
      | _ => rfl

/-- A write of the node is one to the tree, unless it is below a `null` of its own. -/
theorem writeVariable_toOption {source accumulator : Data} {place : Variable} {value : Json}
    (noNull : place.rest ≠ [] → accumulator.lookup place.top ≠ some .null) :
    (writeVariable source accumulator place value).toOption.map source.merge =
      assignPath (source.merge accumulator) place value := by
  obtain ⟨target, top, rest⟩ := place
  cases rest with
  | nil => exact congrArg some (Dict.merge_set source accumulator top value)
  | cons next rest =>
      rw [writeVariable_cons, assignPath_cons, container_eq (noNull (List.cons_ne_nil next rest)),
        Option.map_map]
      congr 1
      funext inner
      exact Dict.merge_set source accumulator top inner

theorem setNested_empty (path : JsonPath) (value : Json) :
    ∃ fields, Json.setNested [] path value = .ok fields := by
  induction path with
  | nil => exact ⟨[], rfl⟩
  | cons name rest ih =>
      cases rest with
      | nil => exact ⟨_, rfl⟩
      | cons next rest =>
          obtain ⟨inner, made⟩ := ih
          refine ⟨Dict.assign name (.obj inner) [], ?_⟩
          rw [Json.setNested, Dict.find]
          dsimp only
          rw [made]
          rfl

/-- Below a `null` of its own the node fails where the tree does not. -/
theorem writeVariable_null {source accumulator : Data} {place : Variable} (value : Json)
    (below : place.rest ≠ []) (null : accumulator.lookup place.top = some .null) :
    (writeVariable source accumulator place value).toOption = none ∧
      assignPath (source.merge accumulator) place value ≠ none := by
  obtain ⟨target, top, rest⟩ := place
  obtain ⟨next, rest, rfl⟩ := List.exists_cons_of_ne_nil below
  constructor
  · have held : container source accumulator top = .null := by
      unfold container
      rw [null]
    rw [writeVariable_cons, held]
    rfl
  · obtain ⟨fields, made⟩ := setNested_empty (next :: rest) value
    rw [assignPath_cons, Dict.lookup_merge_left source accumulator null, present, written, made]
    exact Option.some_ne_none _

/-! ### All writes -/

section

variable {input : NodeInput} {writes after : Writes} {write : Write}

theorem put_toOption (noNull : write.place.rest ≠ [] →
      (writes.of write.place.target).lookup write.place.top ≠ some .null) :
    (put input writes write).toOption.map (mergedWith input) =
      assignWrite (mergedWith input writes) write := by
  unfold assignWrite
  rw [mergedWith_of, ← writeVariable_toOption noNull, Option.map_map]
  unfold put
  cases writeVariable (sourceState input write.place.target) (writes.of write.place.target)
      write.place write.value with
  | error error => rfl
  | ok data => exact congrArg some (mergedWith_put input writes write.place.target data)

theorem put_null (below : write.place.rest ≠ [])
    (null : (writes.of write.place.target).lookup write.place.top = some .null) :
    (put input writes write).toOption = none := by
  have failed : (writeVariable (sourceState input write.place.target)
      (writes.of write.place.target) write.place write.value).toOption = none :=
    (writeVariable_null write.value below null).1
  unfold put
  cases made : writeVariable (sourceState input write.place.target)
      (writes.of write.place.target) write.place write.value with
  | error error => rfl
  | ok data =>
      rw [made] at failed
      cases failed

def Write.goesTo (write : Write) (place : Variable) : Bool :=
  decide (write.place.target = place.target ∧ write.place.top = place.top)

/-- The last write to the variable was of `null`, and to the whole of it. -/
def NullBefore (past : List Write) (place : Variable) : Prop :=
  ∃ last, (past.filter (fun write => write.goesTo place)).getLast? = some last ∧
    last.place.rest = [] ∧ last.value = .null

/-- Some write is below a variable that was last assigned `null`. -/
def BelowNull (all : List Write) : Prop :=
  ∃ past write future, all = past ++ write :: future ∧ write.place.rest ≠ [] ∧
    NullBefore past write.place

theorem lookup_put (made : put input writes write = .ok after) (place : Variable) :
    ∃ held, (held = Json.null ↔ write.place.rest = [] ∧ write.value = .null) ∧
      (after.of place.target).lookup place.top =
        if write.goesTo place then some held else (writes.of place.target).lookup place.top := by
  unfold put at made
  cases written : writeVariable (sourceState input write.place.target)
      (writes.of write.place.target) write.place write.value with
  | error error =>
      rw [written] at made
      cases made
  | ok data =>
      rw [written] at made
      cases made
      have stored : ∃ held, (held = Json.null ↔ write.place.rest = [] ∧ write.value = .null) ∧
          data = (writes.of write.place.target).set write.place.top held := by
        obtain ⟨⟨target, top, rest⟩, value⟩ := write
        cases rest with
        | nil =>
            cases written
            exact ⟨value, by simp, rfl⟩
        | cons next rest =>
            obtain ⟨fields, inner, _, _, rfl⟩ := writeVariable_nested written
            exact ⟨.obj inner, by simp, rfl⟩
      obtain ⟨held, null, rfl⟩ := stored
      refine ⟨held, null, ?_⟩
      unfold Write.goesTo
      by_cases target : write.place.target = place.target
      · rw [← target, of_put, Dict.lookup_set]
        by_cases top : write.place.top = place.top
        · rw [if_pos top, if_pos (decide_eq_true ⟨rfl, top⟩)]
        · rw [if_neg top, if_neg (by simp [top])]
      · rw [of_put_other _ _ (Ne.symm target), if_neg (by simp [target])]

theorem foldlM_concat {past : List Write} (made : past.foldlM (put input) {} = .ok writes)
    (write : Write) : (past ++ [write]).foldlM (put input) {} = put input writes write := by
  rw [List.foldlM_append, made]
  change List.foldlM (put input) writes [write] = _
  rw [List.foldlM_cons]
  cases put input writes write with
  | error error => rfl
  | ok after => rfl

theorem null_iff (past : List Write) :
    ∀ writes, past.foldlM (put input) {} = .ok writes → ∀ place : Variable,
      (writes.of place.target).lookup place.top = some .null ↔ NullBefore past place := by
  induction past using List.reverseRecOn with
  | nil =>
      intro writes made place
      cases made
      have nothing : (Writes.of {} place.target).lookup place.top = none := by
        cases place.target <;> rfl
      rw [nothing]
      constructor
      · intro impossible
        cases impossible
      · rintro ⟨last, found, _⟩
        cases found
  | append_singleton past write ih =>
      intro after made place
      cases before : past.foldlM (put input) {} with
      | error error =>
          rw [List.foldlM_append, before] at made
          cases made
      | ok writes =>
          have last : put input writes write = .ok after :=
            (foldlM_concat before write).symm.trans made
          obtain ⟨held, null, found⟩ := lookup_put last place
          rw [found]
          unfold NullBefore
          rw [List.filter_append]
          by_cases here : write.goesTo place = true
          · have kept : [write].filter (fun write => write.goesTo place) = [write] := by
              simp [here]
            rw [if_pos here, kept, List.getLast?_concat]
            simp [null]
          · have left : [write].filter (fun write => write.goesTo place) = [] := by
              simp [here]
            rw [if_neg here, left, List.append_nil]
            exact ih writes before place

/-- Where no write is below a `null` of the node, its writes are those to the trees. -/
theorem foldlM_put (future : List Write) :
    ∀ past writes, past.foldlM (put input) {} = .ok writes →
      (∀ earlier write later, future = earlier ++ write :: later → write.place.rest ≠ [] →
        ¬ NullBefore (past ++ earlier) write.place) →
      (future.foldlM (put input) writes).toOption.map (mergedWith input) =
        assignAll (mergedWith input writes) future := by
  induction future with
  | nil => exact fun _ _ _ _ => rfl
  | cons write rest ih =>
      intro past writes made sound
      have step : (put input writes write).toOption.map (mergedWith input) =
          assignWrite (mergedWith input writes) write := by
        refine put_toOption (fun below null => ?_)
        refine sound [] write rest rfl below ?_
        rw [List.append_nil]
        exact (null_iff past writes made write.place).mp null
      rw [assignAll, List.foldlM_cons, List.foldlM_cons, ← step]
      cases next : put input writes write with
      | error error => rfl
      | ok after =>
          refine ih (past ++ [write]) after ?_ (fun earlier other later parted below => ?_)
          · exact (foldlM_concat made write).trans next
          · rw [List.append_assoc]
            exact sound (write :: earlier) other later (by rw [parted]; rfl) below

theorem foldlM_put_null {all : List Write} (bad : BelowNull all) :
    (all.foldlM (put input) {}).toOption = none := by
  obtain ⟨past, write, future, rfl, below, null⟩ := bad
  rw [List.foldlM_append]
  cases made : past.foldlM (put input) {} with
  | error error => rfl
  | ok writes =>
      have failed : (put input writes write).toOption = none :=
        put_null below ((null_iff past writes made write.place).mpr null)
      change (List.foldlM (put input) writes (write :: future)).toOption = none
      rw [List.foldlM_cons]
      cases next : put input writes write with
      | error error => rfl
      | ok after =>
          rw [next] at failed
          cases failed

end

/-! ### The node -/

def updatedBy (input : NodeInput) (output : NodeOutput) : Writes :=
  mergedWith input
    { state := output.stateUpdates.getD Dict.empty
      project := output.projectUpdates.getD Dict.empty }

variable {cel : CelEvaluator} {input : NodeInput} {updates : List UpdateVariable}

theorem execute_eq :
    execute cel input { updates } =
      (updates.foldlM (applyUpdate cel input) {}).map (fun writes =>
        { data := input.data
          stateUpdates := reported writes.state
          projectUpdates := reported writes.project
          metadata := some {} }) := by
  unfold execute edits
  dsimp only
  rw [List.map_nil, List.append_nil, List.foldlM_map]
  have loop : updates.foldlM (fun writes update => applyEdit cel input writes (.update update)) {} =
      updates.foldlM (applyUpdate cel input) {} := rfl
  rw [loop]
  cases updates.foldlM (applyUpdate cel input) {} with
  | error error => rfl
  | ok writes => rfl

theorem execute_updates :
    (execute cel input { updates }).toOption.map (updatedBy input) =
      (updates.foldlM (applyUpdate cel input) {}).toOption.map (mergedWith input) := by
  rw [execute_eq]
  cases updates.foldlM (applyUpdate cel input) {} with
  | error error => rfl
  | ok writes =>
      change some (mergedWith input _) = some (mergedWith input _)
      rw [reported_getD, reported_getD]

/-! ### Paths that no write leads to -/

theorem readVariable_eq (data : Data) {path : JsonPath} (named : path ≠ []) :
    readVariable data path = Json.read (.obj data.entries) path := by
  obtain ⟨top, rest, rfl⟩ := List.exists_cons_of_ne_nil named
  rw [readVariable_cons, Json.read_obj]
  rfl

theorem readVariable_assignPath {data after : Data} {place : Variable} {value : Json}
    (assigned : assignPath data place value = some after) {path : JsonPath}
    (apart : place.path.Apart path) : readVariable after path = readVariable data path := by
  have entries := assignPath_entries data place value
  rw [assigned] at entries
  cases made : Json.setNested data.entries place.path value with
  | error error =>
      rw [made] at entries
      cases entries
  | ok fields =>
      rw [made] at entries
      have same : after.entries = fields := Option.some.inj entries
      rw [readVariable_eq after apart.ne_nil, readVariable_eq data apart.ne_nil, same]
      exact Json.read_setNested_apart apart made

theorem readVariable_assignAll (all : List Write) :
    ∀ {trees after : Writes}, assignAll trees all = some after →
      ∀ (target : VariableTarget) (path : JsonPath),
        (∀ write ∈ all, write.place.target = target → write.place.path.Apart path) →
        readVariable (after.of target) path = readVariable (trees.of target) path := by
  induction all with
  | nil =>
      intro trees after assigned target path _
      cases assigned
      rfl
  | cons write rest ih =>
      intro trees after assigned target path apart
      rw [assignAll, List.foldlM_cons] at assigned
      obtain ⟨next, first, later⟩ := Option.bind_eq_some_iff.mp assigned
      rw [ih later target path (fun other member =>
        apart other (List.mem_cons_of_mem write member))]
      obtain ⟨data, made, rfl⟩ := Option.map_eq_some_iff.mp first
      by_cases same : target = write.place.target
      · subst same
        rw [of_put]
        exact readVariable_assignPath made (apart write List.mem_cons_self rfl)
      · rw [of_put_other _ _ same]

/-- The node assigned to the trees from left to right and left every other path as it was, or
one of the writes is not possible and there are no updates. -/
def AssignsTrees (input : NodeInput) (all : List Write) (result : Except String NodeOutput) :
    Prop :=
  match assignAll (given input) all with
  | some trees =>
      ∃ output, result = .ok output ∧ updatedBy input output = trees ∧
        ∀ (target : VariableTarget) (path : JsonPath),
          (∀ write ∈ all, write.place.target = target → write.place.path.Apart path) →
          readVariable ((updatedBy input output).of target) path =
            readVariable ((given input).of target) path
  | none => ∃ error, result = .error error

theorem assignsTrees_iff {all : List Write} {result : Except String NodeOutput} :
    AssignsTrees input all result ↔
      result.toOption.map (updatedBy input) = assignAll (given input) all := by
  unfold AssignsTrees
  cases assigned : assignAll (given input) all with
  | none =>
      cases result with
      | error error => simp [Except.toOption]
      | ok output => simp [Except.toOption]
  | some trees =>
      cases result with
      | error error => simp [Except.toOption]
      | ok output =>
          constructor
          · rintro ⟨other, same, updated, _⟩
            cases same
            exact congrArg some updated
          · intro updated
            have same : updatedBy input output = trees := Option.some.inj updated
            refine ⟨output, rfl, same, ?_⟩
            rw [same]
            exact readVariable_assignAll all assigned

/-- A node whose names and expressions are known assigns to the trees exactly where a write is
not possible at all or none is below a variable that was last assigned `null`. -/
theorem assignsTrees_execute {all : List Write} (known : resolveAll cel input updates = .ok all) :
    AssignsTrees input all (execute cel input { updates }) ↔
      assignAll (given input) all = none ∨ ¬ BelowNull all := by
  rw [assignsTrees_iff, execute_updates, foldlM_updates known]
  by_cases bad : BelowNull all
  · rw [foldlM_put_null bad]
    simp [bad, eq_comm]
  · have whole := @foldlM_put input all [] {} rfl
      (fun earlier write later parted below null => bad ⟨earlier, write, later, parted, below, null⟩)
    exact ⟨fun _ => .inr bad, fun _ => whole⟩

end SetVariableNode
end Assemblix
