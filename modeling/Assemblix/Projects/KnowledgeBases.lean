import Assemblix.Projects.WorkflowTable
import Mathlib.Data.List.Sort

/-
Knowledge bases and who reads them: the setup of a voice call and the agent nodes of a run.

The ids stand as texts in JSON configs. What `UUID(..)` makes of a text, or that it raises, is a
parameter; ids in the tables are as it writes them.
-/

namespace Assemblix.Projects

open Library

/-! ### The store -/

structure KnowledgeBase where
  id : String
  projectId : String
  deriving DecidableEq

structure KnowledgeDocument where
  knowledgeBaseId : String
  name : String
  content : String

structure KnowledgeStore where
  bases : List KnowledgeBase
  documents : List KnowledgeDocument

/-- `MAX_COMBINED_CHARACTERS`. -/
def maxCombinedCharacters : Nat := 200000

def threeDigits (number : Nat) : String :=
  toString (number / 100) ++ toString (number / 10 % 10) ++ toString (number % 10)

/-- The format `:,` of an integer. -/
def withThousands (number : Nat) : String :=
  if number < 1000 then toString number
  else withThousands (number / 1000) ++ "," ++ threeDigits (number % 1000)

namespace KnowledgeStore

def basesOf (store : KnowledgeStore) (ids : List String) : List KnowledgeBase :=
  store.bases.filter (fun base => decide (base.id ∈ ids))

def documentsOf (store : KnowledgeStore) (ids : List String) : List KnowledgeDocument :=
  (store.documents.filter (fun document => decide (document.knowledgeBaseId ∈ ids))).insertionSort
    (fun left right => left.knowledgeBaseId ≤ right.knowledgeBaseId)

def getAllContentByKbIds (store : KnowledgeStore) (ids : List String) : String :=
  String.intercalate "\n\n---\n\n"
    ((store.documentsOf ids).map (fun document => "[" ++ document.name ++ "]\n" ++ document.content))

def getCombinedContent (store : KnowledgeStore) (ids : List String) : Except String String :=
  let content := store.getAllContentByKbIds ids
  if content.length > maxCombinedCharacters then
    .error ("Суммарный объём подключённых баз знаний (" ++ withThousands content.length ++
      " символов) превышает лимит (" ++ withThousands maxCombinedCharacters ++
      " символов). Подключите меньше баз знаний к этой ноде.")
  else .ok content

end KnowledgeStore

/-! ### Ids in configs -/

def namedIds (uuid : String → Option String) (texts : List String) : Option (List String) :=
  texts.mapM uuid

def readsOf (uuid : String → Option String) (store : KnowledgeStore) (texts : List String) :
    Option (List KnowledgeBase) :=
  (namedIds uuid texts).map store.basesOf

def jsonField (name : String) : Json → Option Json
  | .obj fields => fields.lookup name
  | _ => none

def jsonItems : Json → List Json
  | .arr items => items
  | _ => []

def jsonText : Json → Option String
  | .str text => some text
  | _ => none

/-- `knowledge_base_ids` of an agent node. -/
def knowledgeBaseIds (node : Json) : List String :=
  if jsonField "type" node = some (.str "agent") then
    match (jsonField "config" node).bind (jsonField "knowledge_base_ids") with
    | none => []
    | some ids => (jsonItems ids).filterMap jsonText
  else []

/-- What `MessageBuilder.build` gets from the nodes of a workflow. -/
def WorkflowContent.knowledge (content : WorkflowContent) : List (List String) :=
  (jsonItems content.nodes).map knowledgeBaseIds

/-! ### Within a project -/

variable (uuid : String → Option String) (store : KnowledgeStore)

def KnowledgeWithin (projectId : String) (texts : List String) : Prop :=
  ∀ bases, readsOf uuid store texts = some bases → ∀ base ∈ bases, base.projectId = projectId

def ContentWithin (projectId : String) (content : WorkflowContent) : Prop :=
  ∀ texts ∈ content.knowledge, KnowledgeWithin uuid store projectId texts

end Assemblix.Projects
