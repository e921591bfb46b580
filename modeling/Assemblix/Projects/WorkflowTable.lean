import Assemblix.Library.Json

/-
The table of workflows: drafts and their published versions.

A row that is published for a draft is a version of it. Request models allow extra fields, so an
update may also name the columns of publishing. Columns no request here reads are left out.
-/

namespace Assemblix.Projects

open Library

structure WorkflowContent where
  nodes : Json
  edges : Json
  state : Json
  config : Json
  deriving DecidableEq

structure WorkflowRow where
  id : String
  projectId : String
  content : WorkflowContent
  publishedForWorkflowId : Option String
  version : Option Int
  -- The insert that made the row; no column shows it.
  serial : Nat
  deriving DecidableEq

/-- `WorkflowCreateRequest`, with the extra fields that name a column. -/
structure WorkflowCreate where
  projectId : String
  content : WorkflowContent
  id : Option String := none
  publishedForWorkflowId : Option String := none
  version : Option Int := none

/-- `WorkflowUpdateRequest`: the fields that were set, extra ones included. -/
structure WorkflowUpdate where
  nodes : Option Json := none
  edges : Option Json := none
  state : Option Json := none
  config : Option Json := none
  publishedForWorkflowId : Option (Option String) := none
  version : Option (Option Int) := none

/-- What a request makes up: a `uuid4` and the default nodes and edges around others. -/
structure Generated where
  id : String
  nodes : Json
  edges : Json

abbrev WorkflowTable := List WorkflowRow

namespace WorkflowTable

def getById (table : WorkflowTable) (id : String) : Option WorkflowRow :=
  table.find? (fun row => decide (row.id = id))

def hasId (table : WorkflowTable) (id : String) : Bool := table.any (fun row => decide (row.id = id))

def sortsFirst (left right : WorkflowRow) : Bool :=
  match left.version, right.version with
  | none, _ => true
  | some _, none => false
  | some left, some right => decide (right ≤ left)

def firstSorted (best : Option WorkflowRow) (row : WorkflowRow) : Option WorkflowRow :=
  match best with
  | none => some row
  | some best => if sortsFirst best row then some best else some row

def getLatestPublished (table : WorkflowTable) (workflowId : String) : Option WorkflowRow :=
  (table.filter (fun row => decide (row.publishedForWorkflowId = some workflowId))).foldl
    firstSorted none

def refersWithin (table : WorkflowTable) (row : WorkflowRow) : Bool :=
  row.publishedForWorkflowId.all (fun draft => table.hasId draft)

def create (table : WorkflowTable) (row : WorkflowRow) : Option WorkflowTable :=
  if table.hasId row.id = false ∧ refersWithin (table ++ [row]) row = true then
    some (table ++ [row])
  else none

/-- Whom a delete takes along: the versions, and theirs. -/
def cascade (table : WorkflowTable) (id : String) : Nat → List String
  | 0 => [id]
  | steps + 1 =>
      let doomed := cascade table id steps
      doomed ++ (table.filter (fun row =>
        row.publishedForWorkflowId.any (fun draft => decide (draft ∈ doomed)))).map WorkflowRow.id

def delete (table : WorkflowTable) (id : String) : WorkflowTable :=
  table.filter (fun row => decide (row.id ∉ table.cascade id table.length))

def moveToProject (table : WorkflowTable) (workflowId target : String) : WorkflowTable :=
  table.map (fun row =>
    if row.id = workflowId ∨ row.publishedForWorkflowId = some workflowId then
      { row with projectId := target }
    else row)

end WorkflowTable

def columnAfter {A : Type} [DecidableEq A] (given : Option A) (loaded stored : A) : A :=
  match given with
  | none => stored
  | some value => if value = loaded then stored else value

/-- The row that `flush` leaves, of an instance loaded earlier. -/
def WorkflowUpdate.onto (data : WorkflowUpdate) (loaded row : WorkflowRow) : WorkflowRow :=
  { row with
    content :=
      { nodes := columnAfter data.nodes loaded.content.nodes row.content.nodes
        edges := columnAfter data.edges loaded.content.edges row.content.edges
        state := columnAfter data.state loaded.content.state row.content.state
        config := columnAfter data.config loaded.content.config row.content.config }
    publishedForWorkflowId := columnAfter data.publishedForWorkflowId
      loaded.publishedForWorkflowId row.publishedForWorkflowId
    version := columnAfter data.version loaded.version row.version }

namespace WorkflowTable

def update (table : WorkflowTable) (loaded : WorkflowRow) (data : WorkflowUpdate) :
    Option WorkflowTable :=
  let updated := table.map (fun row => if row.id = loaded.id then data.onto loaded row else row)
  if table.hasId loaded.id = true ∧
      updated.all (fun row => decide (row.id ≠ loaded.id) || refersWithin updated row) = true then
    some updated
  else none

end WorkflowTable

end Assemblix.Projects
