import Assemblix.Execution.Nodes
import Assemblix.Library.JsonPath

/-
The SET_VARIABLE node.

Its updates write single variables or the last field of a nested path; its smart merges
combine numbers of a source object into the state. A nested write copies the top-level
variable from the state the node was started with, so the node returns whole top-level
variables. The assignments of a node list what it meant to write, path by path.
-/

namespace Assemblix

open Library

inductive VariableTarget
  | state
  | project
  deriving DecidableEq, Repr

structure UpdateVariable where
  variableName : String
  value : Json

inductive MergeOperation
  | add
  | subtract
  | overwrite
  deriving DecidableEq, Repr

structure SmartMerge where
  source : String
  target : VariableTarget := .state
  targetKey : Option String := none
  operation : MergeOperation := .overwrite

structure SetVariableNodeConfig where
  updates : List UpdateVariable := []
  merges : List SmartMerge := []

/-- The expression evaluator, `str()` and the rounding of floating point results. -/
structure CelEvaluator where
  text : Json → String
  evaluate : String → NodeInput → Except String Json
  round : Rat → Rat

namespace SetVariableNode

/-! ### Variable names -/

/-- The characters `str.strip()` removes. -/
def isSpace (char : Char) : Bool :=
  let code := char.toNat
  decide (9 ≤ code ∧ code ≤ 13) || decide (28 ≤ code ∧ code ≤ 32) ||
    decide (8192 ≤ code ∧ code ≤ 8202) ||
    decide (code ∈ [133, 160, 5760, 8232, 8233, 8239, 8287, 12288])

def isLetter (char : Char) : Bool :=
  decide ('a' ≤ char ∧ char ≤ 'z') || decide ('A' ≤ char ∧ char ≤ 'Z') || decide (char = '_')

def isDigit (char : Char) : Bool := decide ('0' ≤ char ∧ char ≤ '9')

/-- The rest of a segment; `$` also matches before a final line feed. -/
def isSegmentRest : List Char → Bool
  | [] => true
  | [char] => isLetter char || isDigit char || decide (char = '\n')
  | char :: rest => (isLetter char || isDigit char) && isSegmentRest rest

/-- `_SEGMENT_RE`. -/
def isSegment : List Char → Bool
  | [] => false
  | char :: rest => isLetter char && isSegmentRest rest

/-- `split(".")`: the first part and the others. -/
def splitDots : List Char → List Char × List (List Char)
  | [] => ([], [])
  | char :: rest =>
      let (first, others) := splitDots rest
      if char = '.' then ([], first :: others) else (char :: first, others)

structure Variable where
  target : VariableTarget
  top : String
  rest : JsonPath

def Variable.path (parsed : Variable) : JsonPath := parsed.top :: parsed.rest

def targetOf (variableName : String) : VariableTarget × String :=
  if variableName.startsWith "project." then (.project, (variableName.drop 8).toString)
  else if variableName.startsWith "state." then (.state, (variableName.drop 6).toString)
  else (.state, variableName)

/-- `_parse_variable_target`. -/
def parseVariableTarget (variableName : String) : Except String Variable :=
  let (target, remainder) := targetOf variableName
  let (first, others) := splitDots remainder.toList
  match (first :: others).find? (fun segment => !isSegment segment) with
  | some segment =>
      .error s!"Invalid variable name segment '{String.ofList segment}' in '{variableName}': only [a-zA-Z_][a-zA-Z0-9_]* segments are supported (no array indexing)."
  | none =>
      .ok { target := target, top := String.ofList first, rest := others.map String.ofList }

/-- `type(value).__name__`. -/
def typeName : Json → String
  | .null => "NoneType"
  | .bool _ => "bool"
  | .int _ => "int"
  | .number _ => "float"
  | .str _ => "str"
  | .arr _ => "list"
  | .obj _ => "dict"

/-! ### Single updates -/

/-- `state_updates` and `project_updates`. -/
structure Writes where
  state : Data := Dict.empty
  project : Data := Dict.empty

def Writes.of (writes : Writes) : VariableTarget → Data
  | .state => writes.state
  | .project => writes.project

def Writes.put (writes : Writes) (target : VariableTarget) (data : Data) : Writes :=
  match target with
  | .state => { writes with state := data }
  | .project => { writes with project := data }

def sourceState (input : NodeInput) : VariableTarget → Data
  | .state => input.state
  | .project => input.projectState

def pathLabelPrefix : VariableTarget → String
  | .state => ""
  | .project => "project."

/-- What a nested write starts from. -/
def container (source accumulator : Data) (top : String) : Json :=
  match accumulator.lookup top with
  | some held => held
  | none =>
      match source.lookup top with
      | none => .obj []
      | some .null => .obj []
      | some held => held

def writeVariable (source accumulator : Data) (parsed : Variable) (value : Json) :
    Except String Data :=
  match parsed.rest with
  | [] => .ok (accumulator.set parsed.top value)
  | next :: rest =>
      let label := pathLabelPrefix parsed.target
      let fullPath := label ++ String.intercalate "." parsed.path
      match container source accumulator parsed.top with
      | .obj fields =>
          match Json.setNested fields (next :: rest) value with
          | .ok written => .ok (accumulator.set parsed.top (.obj written))
          | .error (walked, other) =>
              let place := String.intercalate "." (parsed.top :: walked)
              .error s!"Cannot set '{fullPath}': intermediate '{place}' is {typeName other}, expected dict."
      | other =>
          .error s!"Cannot set '{fullPath}': intermediate '{label}{parsed.top}' is {typeName other}, expected dict."

section

variable (cel : CelEvaluator) (input : NodeInput)

/-- `_resolve_value`. -/
def resolveValue (update : UpdateVariable) : Except String Json :=
  cel.evaluate (cel.text update.value) input

def isPlaceholder (update : UpdateVariable) : Bool := update.variableName.toList.all isSpace

def applyUpdate (writes : Writes) (update : UpdateVariable) : Except String Writes :=
  if isPlaceholder update then .ok writes
  else
    match parseVariableTarget update.variableName with
    | .error error => .error error
    | .ok parsed =>
        match resolveValue cel input update with
        | .error error => .error error
        | .ok value =>
            match writeVariable (sourceState input parsed.target) (writes.of parsed.target) parsed
                value with
            | .error error => .error error
            | .ok data => .ok (writes.put parsed.target data)

/-! ### Smart merges -/

def isNumeric : Json → Bool
  | .int _ => true
  | .number _ => true
  | _ => false

def combine (operation : Rat → Rat → Rat) (exact : Int → Int → Int) : Json → Json → Json
  | .int left, .int right => .int (exact left right)
  | .int left, .number right => .number (cel.round (operation (cel.round left) right))
  | .number left, .int right => .number (cel.round (operation left (cel.round right)))
  | .number left, .number right => .number (cel.round (operation left right))
  | left, _ => left

def negate : Json → Json
  | .int value => .int (-value)
  | .number value => .number (-value)
  | other => other

def mergedValue (operation : MergeOperation) (target source : Json) : Option Json :=
  if isNumeric source then
    match target with
    | .null =>
        match operation with
        | .add => some source
        | .subtract => some (negate source)
        | .overwrite => some source
    | _ =>
        if isNumeric target then
          match operation with
          | .add => some (combine cel (· + ·) (· + ·) target source)
          | .subtract => some (combine cel (· - ·) (· - ·) target source)
          | .overwrite => some source
        else none
  else none

/-- `_compute_merge`. -/
def computeMerge (source target : List (String × Json)) (operation : MergeOperation) : Data :=
  source.foldl (fun result entry =>
    match (Dict.find entry.1 target).bind (fun held => mergedValue cel operation held entry.2) with
    | some value => result.set entry.1 value
    | none => result) Dict.empty

def keyOf (merge : SmartMerge) : Option String :=
  merge.targetKey.filter (fun key => !decide (key = ""))

def fullTarget (writes : Writes) (target : VariableTarget) : Data :=
  (sourceState input target).merge (writes.of target)

def targetDict (writes : Writes) (merge : SmartMerge) : Except String (List (String × Json)) :=
  let full := fullTarget input writes merge.target
  match keyOf merge with
  | none => .ok full.entries
  | some key =>
      match full.lookup key with
      | none => .ok []
      | some (.obj fields) => .ok fields
      | some other =>
          .error s!"Smart merge target_key '{key}' must point to a dict, got {typeName other}"

def mergeResult (writes : Writes) (merge : SmartMerge) :
    Except String (List (String × Json) × Data) :=
  match targetDict input writes merge with
  | .error error => .error error
  | .ok target =>
      match cel.evaluate merge.source input with
      | .error error => .error error
      | .ok (.obj source) => .ok (target, computeMerge cel source target merge.operation)
      | .ok other => .error s!"Smart merge source must be a dict, got {typeName other}"

def applyMerge (writes : Writes) (merge : SmartMerge) : Except String Writes :=
  match mergeResult cel input writes merge with
  | .error error => .error error
  | .ok (target, result) =>
      match keyOf merge with
      | none => .ok (writes.put merge.target ((writes.of merge.target).merge result))
      | some key =>
          .ok (writes.put merge.target
            ((writes.of merge.target).set key (.obj (Dict.assignAll target result.entries))))

/-! ### The node -/

inductive Edit
  | update (update : UpdateVariable)
  | merge (merge : SmartMerge)

def edits (config : SetVariableNodeConfig) : List Edit :=
  config.updates.map .update ++ config.merges.map .merge

def applyEdit (writes : Writes) : Edit → Except String Writes
  | .update update => applyUpdate cel input writes update
  | .merge merge => applyMerge cel input writes merge

/-- Nothing written is reported as `None`. -/
def reported (data : Data) : Option Data := if data.entries = [] then none else some data

def execute (config : SetVariableNodeConfig) : Except String NodeOutput :=
  match (edits config).foldlM (applyEdit cel input) {} with
  | .error error => .error error
  | .ok writes =>
      .ok
        { data := input.data
          stateUpdates := reported writes.state
          projectUpdates := reported writes.project
          metadata := some {} }

end

end SetVariableNode
end Assemblix
