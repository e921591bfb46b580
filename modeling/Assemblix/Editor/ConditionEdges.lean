import Assemblix.Editor.FlowGraph
import Mathlib.Data.List.Lookmap

/-
Deleting a condition: the canvas finds out which one it was and shifts the edges behind it.

The old and the new list are compared by the expressions alone, so in a run of equal expressions the
last one is taken for the deleted one. The routes of the surviving conditions and of the else branch
stay as they were exactly if the conditions of that run have the same targets.
-/

namespace Assemblix.ConditionEdges

open FlowGraph

/-! ### The deleted condition -/

/-- The loop of `findDeletedConditionIndex` from a position on. -/
def firstMismatch : Nat → List FlowGraph.Condition → List FlowGraph.Condition → Option Nat
  | _, [], _ => none
  | position, _ :: _, [] => some position
  | position, old :: oldRest, new :: newRest =>
      if old.expression ≠ new.expression then some position
      else firstMismatch (position + 1) oldRest newRest

def findDeletedConditionIndex (oldConditions newConditions : List FlowGraph.Condition) : Int :=
  match firstMismatch 0 oldConditions newConditions with
  | some position => position
  | none => oldConditions.length - 1

def expressionAt (conditions : List FlowGraph.Condition) (position : Nat) : Option String :=
  (conditions[position]?).map FlowGraph.Condition.expression

theorem firstMismatch_some {position found : Nat} {old new : List FlowGraph.Condition}
    (mismatch : firstMismatch position old new = some found) :
    ∃ offset, found = position + offset ∧ offset < old.length ∧
      (∀ before < offset, expressionAt old before = expressionAt new before) ∧
      expressionAt old offset ≠ expressionAt new offset := by
  induction old generalizing position new with
  | nil => cases mismatch
  | cons first rest ih =>
      cases new with
      | nil =>
          cases mismatch
          exact ⟨0, rfl, Nat.succ_pos _, fun before low => absurd low (Nat.not_lt_zero _),
            Option.some_ne_none _⟩
      | cons other others =>
          rw [firstMismatch] at mismatch
          split at mismatch
          · rename_i different
            cases mismatch
            exact ⟨0, rfl, Nat.succ_pos _, fun before low => absurd low (Nat.not_lt_zero _),
              fun same => different (Option.some.inj same)⟩
          · rename_i same
            obtain ⟨offset, place, inside, agree, differ⟩ := ih mismatch
            refine ⟨offset + 1, by omega, Nat.succ_lt_succ inside, ?_, differ⟩
            intro before low
            cases before with
            | zero => exact congrArg some (not_not.mp same)
            | succ before => exact agree before (Nat.lt_of_succ_lt_succ low)

theorem firstMismatch_none {position : Nat} {old new : List FlowGraph.Condition}
    (none : firstMismatch position old new = none) : old.length ≤ new.length := by
  induction old generalizing position new with
  | nil => exact Nat.zero_le _
  | cons first rest ih =>
      cases new with
      | nil => cases none
      | cons other others =>
          rw [firstMismatch] at none
          split at none
          · cases none
          · exact Nat.succ_le_succ (ih none)

theorem findDeleted_eraseIdx {conditions : List FlowGraph.Condition} {deleted : Nat}
    (inside : deleted < conditions.length) :
    ∃ last : Nat, findDeletedConditionIndex conditions (conditions.eraseIdx deleted) = last ∧
      deleted ≤ last ∧ last < conditions.length ∧
      (∀ position, deleted ≤ position → position < last →
        expressionAt conditions position = expressionAt conditions (position + 1)) ∧
      expressionAt conditions last ≠ expressionAt conditions (last + 1) := by
  have shifted : ∀ position, expressionAt (conditions.eraseIdx deleted) position =
      expressionAt conditions (if position < deleted then position else position + 1) := by
    intro position
    rw [expressionAt, expressionAt, List.getElem?_eraseIdx]
    split <;> rfl
  cases mismatch : firstMismatch 0 conditions (conditions.eraseIdx deleted) with
  | none =>
      have longer := firstMismatch_none mismatch
      rw [List.length_eraseIdx_of_lt inside] at longer
      omega
  | some found =>
      obtain ⟨last, place, short, agree, differ⟩ := firstMismatch_some mismatch
      rw [Nat.zero_add] at place
      rw [place] at mismatch
      have behind : deleted ≤ last := by
        by_contra early
        rw [shifted, if_pos (Nat.lt_of_not_le early)] at differ
        exact differ rfl
      refine ⟨last, by rw [findDeletedConditionIndex, mismatch], behind, short, ?_, ?_⟩
      · intro position after before
        have same := agree position before
        rwa [shifted, if_neg (Nat.not_lt.mpr after)] at same
      · rwa [shifted, if_neg (Nat.not_lt.mpr behind)] at differ

def SameExpressions (conditions : List FlowGraph.Condition) (first last : Nat) : Prop :=
  last < conditions.length ∧ ∀ position, first ≤ position → position ≤ last →
    expressionAt conditions position = expressionAt conditions first

theorem sameExpressions_iff {conditions : List FlowGraph.Condition} {first last : Nat}
    (start : first ≤ last) (inside : last < conditions.length)
    (equal : ∀ position, first ≤ position → position < last →
      expressionAt conditions position = expressionAt conditions (position + 1))
    (ends : expressionAt conditions last ≠ expressionAt conditions (last + 1)) (position : Nat) :
    SameExpressions conditions first position ↔ position ≤ last := by
  have upTo : ∀ place, first ≤ place → place ≤ last →
      expressionAt conditions place = expressionAt conditions first := by
    intro place low
    induction place, low using Nat.le_induction with
    | base => exact fun _ => rfl
    | succ place low ih =>
        intro high
        rw [← equal place low high]
        exact ih (Nat.le_of_succ_le high)
  constructor
  · rintro ⟨_, same⟩
    by_contra past
    have next := same (last + 1) (by omega) (by omega)
    rw [← upTo last start (Nat.le_refl last)] at next
    exact ends next.symm
  · exact fun within => ⟨by omega, fun place low high => upTo place low (high.trans within)⟩

/-! ### The edges -/

def shiftEdge (nodeId : String) (newIndex : Int) (edge : FlowEdge) : FlowEdge :=
  let newSourceHandle := generateHandleId "source" nodeId newIndex
  { edge with
    id := s!"{edge.source}-{newSourceHandle}-{edge.target}"
    sourceHandle := some newSourceHandle }

/-- One edge of the loop of `remapConditionEdges`. -/
def remapEdge (nodeId : String) (deletedIndex : Int) (edge : FlowEdge) : Option FlowEdge :=
  if edge.source ≠ nodeId then some edge
  else
    match edge.sourceHandle with
    | none => some edge
    | some handle =>
        if handle = "" then some edge
        else
          match handleIndex handle with
          | none => some edge
          | some index =>
              if index < deletedIndex then some edge
              else if index = deletedIndex then none
              else some (shiftEdge nodeId (index - 1) edge)

def remapConditionEdges (nodeId : String) (deletedIndex : Int) (currentEdges : List FlowEdge) :
    List FlowEdge :=
  currentEdges.filterMap (remapEdge nodeId deletedIndex)

def deletionIn (previousNodes : List FlowNode) (currentNode : FlowNode) : Option Int :=
  if currentNode.type ≠ "condition" then none
  else
    match previousNodes.find? (fun node => node.id = currentNode.id) with
    | none => none
    | some previousNode =>
        if currentNode.conditions.length < previousNode.conditions.length ∧
            0 < previousNode.conditions.length then
          some (findDeletedConditionIndex previousNode.conditions currentNode.conditions)
        else none

def watchConditions (previousNodes nodes : List FlowNode) (edges : List FlowEdge) : List FlowEdge :=
  nodes.foldl (fun result node =>
    match deletionIn previousNodes node with
    | some deletedIndex => remapConditionEdges node.id deletedIndex edges
    | none => result) edges

def removeCondition (nodeId : String) (index : Nat) (nodes : List FlowNode) : List FlowNode :=
  nodes.map (fun node =>
    if node.id = nodeId then { node with conditions := node.conditions.eraseIdx index } else node)

/-! ### Routes -/

def Connected (edges : List FlowEdge) (nodeId : String) (index : Nat)
    (target : String × Option String) : Prop :=
  ∃ edge ∈ edges, edge.source = nodeId ∧
    edge.sourceHandle = some (generateHandleId "source" nodeId index) ∧
    (edge.target, edge.targetHandle) = target

instance (edges : List FlowEdge) (nodeId : String) (index : Nat)
    (target : String × Option String) : Decidable (Connected edges nodeId index target) :=
  inferInstanceAs (Decidable (∃ edge ∈ edges, _))

def OnHandles (node : FlowNode) (edges : List FlowEdge) : Prop :=
  ∀ edge ∈ edges, edge.source = node.id → ∃ index ≤ node.conditions.length,
    edge.sourceHandle = some (generateHandleId "source" node.id index)

/-- The surviving conditions and the else branch have the targets they had, and the edges of other
nodes are the same. -/
structure RoutesKept (node : FlowNode) (deleted : Nat) (edges edges' : List FlowEdge) : Prop where
  before : ∀ index < deleted, ∀ target,
    Connected edges' node.id index target ↔ Connected edges node.id index target
  behind : ∀ index, deleted < index → index ≤ node.conditions.length → ∀ target,
    Connected edges' node.id (index - 1) target ↔ Connected edges node.id index target
  others : edges'.filter (fun edge => edge.source ≠ node.id) =
    edges.filter (fun edge => edge.source ≠ node.id)

/-- The conditions with the expression of the deleted one that follow it without a gap have the
same targets as it. -/
def RunAgrees (node : FlowNode) (deleted : Nat) (edges : List FlowEdge) : Prop :=
  ∀ index, deleted < index → SameExpressions node.conditions deleted index → ∀ target,
    Connected edges node.id index target ↔ Connected edges node.id deleted target

theorem remapEdge_handle {nodeId : String} {index : Nat} {edge : FlowEdge} (deleted : Nat)
    (source : edge.source = nodeId)
    (handle : edge.sourceHandle = some (generateHandleId "source" nodeId index)) :
    remapEdge nodeId deleted edge =
      if index < deleted then some edge
      else if index = deleted then none
      else some (shiftEdge nodeId ((index : Int) - 1) edge) := by
  have named := generateHandleId_ne "source" nodeId index
  have number := handleIndex_generateHandleId "source" nodeId index
  rw [remapEdge, if_neg (not_not.mpr source), handle]
  dsimp only
  rw [if_neg named, number]
  dsimp only
  simp only [Int.ofNat_lt, Int.ofNat_inj]

theorem connected_remap {node : FlowNode} {edges : List FlowEdge} (onHandles : OnHandles node edges)
    (deleted index : Nat) (target : String × Option String) :
    Connected (remapConditionEdges node.id deleted edges) node.id index target ↔
      Connected edges node.id (if index < deleted then index else index + 1) target := by
  constructor
  · rintro ⟨edge, member, source, handle, reached⟩
    obtain ⟨origin, there, image⟩ := List.mem_filterMap.mp member
    by_cases own : origin.source = node.id
    · obtain ⟨old, -, oldHandle⟩ := onHandles origin there own
      rw [remapEdge_handle deleted own oldHandle] at image
      split at image
      · rename_i low
        cases image
        rw [oldHandle] at handle
        have same := generateHandleId_injective (Option.some.inj handle)
        rw [if_pos (same ▸ low), ← same]
        exact ⟨edge, there, own, oldHandle, reached⟩
      · rename_i high
        split at image
        · cases image
        · rename_i different
          cases image
          have below : ((old : Int) - 1) = ((old - 1 : Nat) : Int) := by omega
          rw [below] at handle
          have same := generateHandleId_injective (Option.some.inj handle)
          have shifted : old = index + 1 := by omega
          rw [if_neg (by omega), ← shifted]
          exact ⟨origin, there, own, oldHandle, reached⟩
    · rw [remapEdge, if_pos own] at image
      cases image
      exact absurd source own
  · rintro ⟨edge, member, source, handle, reached⟩
    have image := remapEdge_handle deleted source handle
    by_cases low : index < deleted
    · rw [if_pos low] at handle image
      rw [if_pos low] at image
      exact ⟨edge, List.mem_filterMap.mpr ⟨edge, member, image⟩, source, handle, reached⟩
    · rw [if_neg low] at handle image
      rw [if_neg (by omega), if_neg (by omega)] at image
      refine ⟨_, List.mem_filterMap.mpr ⟨edge, member, image⟩, source, ?_, reached⟩
      have back : ((index + 1 : Nat) : Int) - 1 = (index : Int) := by omega
      rw [back, shiftEdge]

theorem others_remap (nodeId : String) (deletedIndex : Int) (edges : List FlowEdge) :
    (remapConditionEdges nodeId deletedIndex edges).filter (fun edge => edge.source ≠ nodeId) =
      edges.filter (fun edge => edge.source ≠ nodeId) := by
  induction edges with
  | nil => rfl
  | cons edge rest ih =>
      rw [remapConditionEdges] at ih ⊢
      by_cases own : edge.source = nodeId
      · have image : ∀ result, remapEdge nodeId deletedIndex edge = some result →
            result.source = nodeId := by
          intro result moved
          rw [remapEdge, if_neg (not_not.mpr own)] at moved
          split at moved
          · cases moved
            exact own
          · split at moved
            · cases moved
              exact own
            · split at moved
              · cases moved
                exact own
              · split at moved
                · cases moved
                  exact own
                · split at moved
                  · cases moved
                  · cases moved
                    exact own
        rw [List.filter_cons_of_neg (by simp [own])]
        cases moved : remapEdge nodeId deletedIndex edge with
        | none => rw [List.filterMap_cons_none moved, ih]
        | some result =>
            rw [List.filterMap_cons_some moved, List.filter_cons_of_neg (by simp [image result moved]),
              ih]
      · have kept : remapEdge nodeId deletedIndex edge = some edge := by
          rw [remapEdge, if_pos own]
        rw [List.filterMap_cons_some kept, List.filter_cons_of_pos (by simp [own]),
          List.filter_cons_of_pos (by simp [own]), ih]

/-! ### The canvas after one deletion -/

theorem find_of_nodup {nodes : List FlowNode} (distinct : (nodes.map FlowNode.id).Nodup)
    {node : FlowNode} (member : node ∈ nodes) :
    nodes.find? (fun other => other.id = node.id) = some node := by
  cases found : nodes.find? (fun other => other.id = node.id) with
  | none => exact absurd (decide_eq_true rfl) (List.find?_eq_none.mp found node member)
  | some other =>
      have same : other.id = node.id := by simpa using List.find?_some found
      rw [List.inj_on_of_nodup_map distinct (List.mem_of_find?_eq_some found) member same]

theorem deletionIn_same {previous : List FlowNode} (distinct : (previous.map FlowNode.id).Nodup)
    {node : FlowNode} (member : node ∈ previous) : deletionIn previous node = none := by
  rw [deletionIn, find_of_nodup distinct member]
  split
  · rfl
  · exact if_neg (fun shorter => Nat.lt_irrefl _ shorter.1)

theorem deletionIn_removed {previous : List FlowNode}
    (distinct : (previous.map FlowNode.id).Nodup) {node : FlowNode} (member : node ∈ previous)
    (condition : node.type = "condition") {deleted : Nat}
    (inside : deleted < node.conditions.length) :
    deletionIn previous { node with conditions := node.conditions.eraseIdx deleted } =
      some (findDeletedConditionIndex node.conditions (node.conditions.eraseIdx deleted)) := by
  rw [deletionIn, if_neg (not_not.mpr condition)]
  dsimp only
  rw [find_of_nodup distinct member]
  dsimp only
  rw [if_pos]
  rw [List.length_eraseIdx_of_lt inside]
  omega

theorem watch_unchanged (previous : List FlowNode) (edges result : List FlowEdge)
    (nodes : List FlowNode) (unchanged : ∀ node ∈ nodes, deletionIn previous node = none) :
    nodes.foldl (fun result node =>
      match deletionIn previous node with
      | some deletedIndex => remapConditionEdges node.id deletedIndex edges
      | none => result) result = result := by
  induction nodes generalizing result with
  | nil => rfl
  | cons node rest ih =>
      rw [List.forall_mem_cons] at unchanged
      rw [List.foldl_cons, unchanged.1]
      exact ih result unchanged.2

theorem watch_removed {previous : List FlowNode} (distinct : (previous.map FlowNode.id).Nodup)
    {node : FlowNode} (member : node ∈ previous) (condition : node.type = "condition")
    {deleted : Nat} (inside : deleted < node.conditions.length) (edges : List FlowEdge) :
    watchConditions previous (removeCondition node.id deleted previous) edges =
      remapConditionEdges node.id
        (findDeletedConditionIndex node.conditions (node.conditions.eraseIdx deleted)) edges := by
  obtain ⟨front, rest, split⟩ := List.append_of_mem member
  have parts := distinct
  rw [split, List.map_append, List.map_cons, List.nodup_append, List.nodup_cons] at parts
  have elsewhere : ∀ other ∈ previous, other.id ≠ node.id →
      deletionIn previous (if other.id = node.id then
        { other with conditions := other.conditions.eraseIdx deleted } else other) = none := by
    intro other there different
    rw [if_neg different]
    exact deletionIn_same distinct there
  have before : ∀ other ∈ removeCondition node.id deleted front,
      deletionIn previous other = none := by
    intro other there
    obtain ⟨origin, first, rfl⟩ := List.mem_map.mp there
    refine elsewhere origin (split ▸ List.mem_append_left _ first) (fun same => ?_)
    exact parts.2.2 origin.id (List.mem_map_of_mem first) node.id List.mem_cons_self same
  have after : ∀ other ∈ removeCondition node.id deleted rest,
      deletionIn previous other = none := by
    intro other there
    obtain ⟨origin, last, rfl⟩ := List.mem_map.mp there
    refine elsewhere origin (split ▸ List.mem_append_right _ (List.mem_cons_of_mem _ last))
      (fun same => ?_)
    exact parts.2.1.1 (same ▸ List.mem_map_of_mem last)
  have image : removeCondition node.id deleted previous = removeCondition node.id deleted front ++
      { node with conditions := node.conditions.eraseIdx deleted } ::
        removeCondition node.id deleted rest := by
    rw [split, removeCondition, List.map_append, List.map_cons, if_pos rfl]
    rfl
  rw [watchConditions, image, List.foldl_append, watch_unchanged previous edges edges _ before,
    List.foldl_cons, deletionIn_removed distinct member condition inside]
  exact watch_unchanged previous edges _ _ after

/-- After a condition is deleted the other routes are kept exactly if the conditions in the run of
its expression have the same targets. -/
theorem watch_keeps_routes_iff {previous : List FlowNode}
    (distinct : (previous.map FlowNode.id).Nodup) {node : FlowNode} (member : node ∈ previous)
    (condition : node.type = "condition") {deleted : Nat}
    (inside : deleted < node.conditions.length) {edges : List FlowEdge}
    (onHandles : OnHandles node edges) :
    RoutesKept node deleted edges
        (watchConditions previous (removeCondition node.id deleted previous) edges) ↔
      RunAgrees node deleted edges := by
  obtain ⟨last, found, start, short, equal, ends⟩ := findDeleted_eraseIdx inside
  have run := sameExpressions_iff start short equal ends
  rw [watch_removed distinct member condition inside, found]
  constructor
  · intro kept
    -- along the run each handle takes over the targets of the one behind it
    have step : ∀ index, deleted < index → index ≤ last → ∀ target,
        Connected edges node.id (index - 1) target ↔ Connected edges node.id index target := by
      intro index after within target
      rw [← kept.behind index after (by omega) target, connected_remap onHandles,
        if_pos (by omega)]
    intro index after same target
    have within := (run index).mp same
    clear same
    induction index, after using Nat.le_induction with
    | base => exact (step (deleted + 1) (Nat.lt_succ_self _) within target).symm
    | succ index after ih =>
        rw [← step (index + 1) (by omega) within target, Nat.add_sub_cancel]
        exact ih (by omega)
  · intro agrees
    refine ⟨fun index low target => ?_, fun index after within target => ?_,
      others_remap node.id last edges⟩
    · rw [connected_remap onHandles, if_pos (by omega)]
    · rw [connected_remap onHandles]
      by_cases inRun : index ≤ last
      · rw [if_pos (by omega), agrees index after ((run index).mpr inRun) target]
        rcases Nat.lt_or_ge deleted (index - 1) with later | first
        · exact agrees (index - 1) later ((run (index - 1)).mpr (by omega)) target
        · have here : index - 1 = deleted := by omega
          rw [here]
      · rw [if_neg (by omega), Nat.sub_add_cancel (by omega)]

def router (first second : String) : FlowNode where
  id := "c_1"
  type := "condition"
  position := (0, 0)
  conditions := [⟨none, first⟩, ⟨none, second⟩]
  selected := false

/-- Both conditions and the else branch have a target of their own. -/
def routerEdges : List FlowEdge :=
  [⟨"e0", "c_1", "a", some "source_c_1_0", none⟩, ⟨"e1", "c_1", "b", some "source_c_1_1", none⟩,
    ⟨"e2", "c_1", "c", some "source_c_1_2", none⟩]

theorem routerEdges_onHandles (first second : String) :
    OnHandles (router first second) routerEdges := by
  have named : ∀ edge ∈ routerEdges, edge.sourceHandle = some (generateHandleId "source" "c_1" 0) ∨
      edge.sourceHandle = some (generateHandleId "source" "c_1" 1) ∨
        edge.sourceHandle = some (generateHandleId "source" "c_1" 2) := by decide +kernel
  intro edge member _
  rcases named edge member with first | second | third
  · exact ⟨0, Nat.zero_le _, first⟩
  · exact ⟨1, Nat.le_succ 1, second⟩
  · exact ⟨2, Nat.le_refl 2, third⟩

theorem watch_keeps_routes_distinct :
    RoutesKept (router "x" "y") 0 routerEdges
      (watchConditions [router "x" "y"] (removeCondition "c_1" 0 [router "x" "y"]) routerEdges) := by
  have distinct : ([router "x" "y"].map FlowNode.id).Nodup := List.nodup_singleton _
  refine (watch_keeps_routes_iff distinct List.mem_cons_self rfl (by decide)
    (routerEdges_onHandles "x" "y")).mpr (fun index after same => ?_)
  have equal := same.2 1 (Nat.zero_le 1) after
  exact absurd equal (by decide)

/-- Of two equal conditions the first is deleted, and the other one gets its target. -/
theorem equal_conditions_misrouted :
    ¬ RoutesKept (router "x" "x") 0 routerEdges
      (watchConditions [router "x" "x"] (removeCondition "c_1" 0 [router "x" "x"]) routerEdges) := by
  intro kept
  have had : Connected routerEdges "c_1" 1 ("b", none) := by decide +kernel
  have lost : ¬ Connected
      (watchConditions [router "x" "x"] (removeCondition "c_1" 0 [router "x" "x"]) routerEdges)
      "c_1" 0 ("b", none) := by decide +kernel
  exact lost ((kept.behind 1 (Nat.lt_succ_self 0) (by decide) ("b", none)).mpr had)

end Assemblix.ConditionEdges
