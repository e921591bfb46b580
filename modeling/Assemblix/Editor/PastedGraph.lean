import Assemblix.Editor.FlowGraph
import Assemblix.Execution.GraphNavigator
import Assemblix.Library.Dict
import Mathlib.Data.List.Find

/-
Copying a part of the graph and pasting it.

The copies get new ids and the edges follow them, but an edge keeps the name of its source handle,
and with it the id of the original. A branch that is chosen by its handle is therefore not found in
the copy; a route that needs no handle is.
-/

namespace Assemblix.PastedGraph

open FlowGraph Library

structure Clipboard where
  nodes : List FlowNode
  edges : List FlowEdge

def idsOf (nodes : List FlowNode) : List String := nodes.map FlowNode.id

/-- `handleCopy`: the selected nodes but START, and the edges between them. -/
def handleCopy (canvas : Canvas) : Option Clipboard :=
  let selectedNodes := canvas.nodes.filter (fun node => node.selected ∧ node.type ≠ "start")
  if selectedNodes = [] then none
  else some {
    nodes := selectedNodes
    edges := canvas.edges.filter (fun edge =>
      edge.source ∈ idsOf selectedNodes ∧ edge.target ∈ idsOf selectedNodes) }

/-- The ids that `generateNodeId` returns one after another. -/
def generateIds (clock : List Nat) (counter : Nat) : List String :=
  clock.zipIdx.map (fun reading => generateNodeId reading.1 (counter + 1 + reading.2))

def idMap (pasteNodes : List FlowNode) (newIds : List String) : List (String × String) :=
  Dict.assignAll [] ((idsOf pasteNodes).zip newIds)

def copyAs (node : FlowNode) (newId : String) : FlowNode :=
  { node with
    id := newId
    position := (node.position.1 + 20, node.position.2 + 20)
    selected := true }

def pasteNode (ids : List (String × String)) (node : FlowNode) : Option FlowNode :=
  (Dict.find node.id ids).map (copyAs node)

def pasteEdge (ids : List (String × String)) (now : Nat) (edge : FlowEdge) : Option FlowEdge :=
  (Dict.find edge.source ids).bind (fun source => (Dict.find edge.target ids).map (fun target =>
    { edge with id := s!"{source}-{target}-{now}", source := source, target := target }))

/-- `handlePaste`. -/
def handlePaste (clipboard : Clipboard) (newIds : List String) (now : Nat) (canvas : Canvas) :
    Canvas :=
  let pasteNodes := clipboard.nodes.filter (fun node => node.type ≠ "start")
  if pasteNodes = [] then canvas
  else
    let ids := idMap pasteNodes newIds
    { nodes := canvas.nodes.map (fun node => { node with selected := false }) ++
        pasteNodes.filterMap (pasteNode ids)
      edges := canvas.edges ++ clipboard.edges.filterMap (pasteEdge ids now) }

def navigate (canvas : Canvas) (nodeId : String) (branch : Option Int) : Option String :=
  GraphNavigator.findNextNode (canvas.edges.map FlowEdge.toWorkflow)
    (canvas.nodes.map FlowNode.toWorkflow) nodeId branch

/-! ### One step of the navigator -/

def OnBranch (nodeId : String) (branch : Option Int) (edge : FlowEdge) : Prop :=
  match branch with
  | some index => edge.sourceHandle = some (sourceHandleOf nodeId index)
  | none => True

instance (nodeId : String) (branch : Option Int) (edge : FlowEdge) :
    Decidable (OnBranch nodeId branch edge) := by
  unfold OnBranch
  cases branch <;> infer_instance

def Followed (nodes : List FlowNode) (nodeId : String) (branch : Option Int) (edge : FlowEdge) :
    Prop :=
  edge.source = nodeId ∧ OnBranch nodeId branch edge ∧ edge.target ∈ idsOf nodes ∧
    edge.target ≠ edge.source

instance (nodes : List FlowNode) (nodeId : String) (branch : Option Int) (edge : FlowEdge) :
    Decidable (Followed nodes nodeId branch edge) :=
  inferInstanceAs (Decidable (_ ∧ _))

theorem nodeIds_toWorkflow (nodes : List FlowNode) :
    nodeIds (nodes.map FlowNode.toWorkflow) = idsOf nodes := by
  rw [nodeIds, List.map_map]
  rfl

theorem navigate_eq (canvas : Canvas) (nodeId : String) (branch : Option Int) :
    navigate canvas nodeId branch =
      (canvas.edges.find? (fun edge => Followed canvas.nodes nodeId branch edge)).map
        FlowEdge.target := by
  cases branch with
  | none =>
      rw [navigate, GraphNavigator.findNextNode, List.find?_map, Option.map_map]
      congr 1
      apply List.find?_congr
      intro edge _
      refine Bool.eq_iff_iff.mpr (Iff.trans ?_ decide_eq_true_iff.symm)
      simp only [Function.comp, validTarget, nodeIds_toWorkflow, Followed, OnBranch, true_and,
        Bool.and_eq_true, decide_eq_true_eq]
      rfl
  | some index =>
      rw [navigate, GraphNavigator.findNextNode, List.find?_map, Option.map_map]
      congr 1
      apply List.find?_congr
      intro edge _
      refine Bool.eq_iff_iff.mpr (Iff.trans ?_ decide_eq_true_iff.symm)
      simp only [Function.comp, validTarget, nodeIds_toWorkflow, Followed, OnBranch,
        Bool.and_eq_true, decide_eq_true_eq, and_assoc]
      rfl

/-! ### The ids of the copies -/

/-- The new ids occur nowhere: on no node and at no end of an edge of the canvas, and in no name of
a source handle that is copied. -/
structure Unused (newIds : List String) (clipboard : Clipboard) (canvas : Canvas) : Prop where
  nodes : ∀ id ∈ newIds, id ∉ idsOf canvas.nodes
  edges : ∀ id ∈ newIds, ∀ edge ∈ canvas.edges, edge.source ≠ id ∧ edge.target ≠ id
  handles : ∀ id ∈ newIds, ∀ edge ∈ clipboard.edges, ∀ index : Int,
    edge.sourceHandle ≠ some (sourceHandleOf id index)

theorem generateIds_nodup (clock : List Nat) (counter : Nat) :
    (generateIds clock counter).Nodup := by
  have counted : ∀ first ∈ clock.zipIdx, ∀ second ∈ clock.zipIdx,
      generateNodeId first.1 (counter + 1 + first.2) =
        generateNodeId second.1 (counter + 1 + second.2) → first = second := by
    intro first there second here same
    have place : first.2 = second.2 := Nat.add_left_cancel (generateNodeId_counter same)
    obtain ⟨-, -, left⟩ := List.mem_zipIdx there
    obtain ⟨-, -, right⟩ := List.mem_zipIdx here
    simp only [Nat.sub_zero] at left right
    refine Prod.ext ?_ place
    rw [left, right]
    simp only [place]
  have places : (clock.zipIdx.map Prod.snd).Nodup := by
    rw [List.zipIdx_map_snd]
    exact List.nodup_range'
  exact List.Nodup.map_on counted (List.Nodup.of_map Prod.snd places)

theorem generateIds_length (clock : List Nat) (counter : Nat) :
    (generateIds clock counter).length = clock.length := by
  rw [generateIds, List.length_map, List.length_zipIdx]

section Ids

variable {pasteNodes : List FlowNode} {newIds : List String}

theorem zip_keys (lengths : newIds.length = pasteNodes.length) :
    ((idsOf pasteNodes).zip newIds).map Prod.fst = idsOf pasteNodes :=
  List.map_fst_zip (by rw [idsOf, List.length_map, lengths])

section

variable (distinct : (idsOf pasteNodes).Nodup) (lengths : newIds.length = pasteNodes.length)
include distinct lengths

theorem find_idMap (id : String) :
    Dict.find id (idMap pasteNodes newIds) = Dict.find id ((idsOf pasteNodes).zip newIds) := by
  have keys : (((idsOf pasteNodes).zip newIds).map Prod.fst).Nodup := by
    rw [zip_keys lengths]
    exact distinct
  rw [idMap, Dict.find_assignAll _ _ keys]
  cases Dict.find id ((idsOf pasteNodes).zip newIds) <;> rfl

theorem exists_copy {id : String} (member : id ∈ idsOf pasteNodes) :
    ∃ copy ∈ newIds, Dict.find id (idMap pasteNodes newIds) = some copy := by
  rw [find_idMap distinct lengths]
  cases found : Dict.find id ((idsOf pasteNodes).zip newIds) with
  | none =>
      rw [Dict.find_eq_none, zip_keys lengths] at found
      exact absurd member found
  | some copy => exact ⟨copy, (List.of_mem_zip (Dict.mem_of_find _ found)).2, rfl⟩

theorem copy_mem {id copy : String} (found : Dict.find id (idMap pasteNodes newIds) = some copy) :
    id ∈ idsOf pasteNodes ∧ copy ∈ newIds := by
  rw [find_idMap distinct lengths] at found
  exact List.of_mem_zip (Dict.mem_of_find _ found)

end

theorem copy_injective (distinct : (idsOf pasteNodes).Nodup) (apart : newIds.Nodup)
    (lengths : newIds.length = pasteNodes.length) {first second copy : String}
    (left : Dict.find first (idMap pasteNodes newIds) = some copy)
    (right : Dict.find second (idMap pasteNodes newIds) = some copy) : first = second := by
  have values : ((idsOf pasteNodes).zip newIds).map Prod.snd = newIds :=
    List.map_snd_zip (by rw [idsOf, List.length_map, lengths])
  rw [find_idMap distinct lengths] at left right
  have same := List.inj_on_of_nodup_map (values.symm ▸ apart) (Dict.mem_of_find _ left)
    (Dict.mem_of_find _ right) rfl
  exact congrArg Prod.fst same

end Ids

/-! ### What is copied -/

theorem handleCopy_nodes {canvas : Canvas} {clipboard : Clipboard}
    (copied : handleCopy canvas = some clipboard) :
    clipboard.nodes = canvas.nodes.filter (fun node => node.selected ∧ node.type ≠ "start") := by
  rw [handleCopy] at copied
  split at copied
  · cases copied
  · cases copied
    rfl

theorem handleCopy_edges {canvas : Canvas} {clipboard : Clipboard}
    (copied : handleCopy canvas = some clipboard) :
    clipboard.edges = canvas.edges.filter (fun edge =>
      edge.source ∈ idsOf clipboard.nodes ∧ edge.target ∈ idsOf clipboard.nodes) := by
  rw [handleCopy] at copied
  split at copied
  · cases copied
  · cases copied
    rfl

theorem handleCopy_ne_nil {canvas : Canvas} {clipboard : Clipboard}
    (copied : handleCopy canvas = some clipboard) : clipboard.nodes ≠ [] := by
  rw [handleCopy] at copied
  split at copied
  · cases copied
  · rename_i some
    cases copied
    exact some

theorem handlePaste_eq {original : Canvas} {clipboard : Clipboard}
    (copied : handleCopy original = some clipboard) (newIds : List String) (now : Nat)
    (canvas : Canvas) :
    handlePaste clipboard newIds now canvas =
      { nodes := canvas.nodes.map (fun node => { node with selected := false }) ++
          clipboard.nodes.filterMap (pasteNode (idMap clipboard.nodes newIds))
        edges := canvas.edges ++
          clipboard.edges.filterMap (pasteEdge (idMap clipboard.nodes newIds) now) } := by
  have whole : clipboard.nodes.filter (fun node => node.type ≠ "start") = clipboard.nodes := by
    rw [List.filter_eq_self, handleCopy_nodes copied]
    intro node member
    have chosen := of_decide_eq_true (List.mem_filter.mp member).2
    exact decide_eq_true chosen.2
  rw [handlePaste, whole, if_neg (handleCopy_ne_nil copied)]

theorem mem_idsOf_pasted {original canvas : Canvas} {clipboard : Clipboard} {newIds : List String}
    {now : Nat} (copied : handleCopy original = some clipboard) (id : String) :
    id ∈ idsOf (handlePaste clipboard newIds now canvas).nodes ↔
      id ∈ idsOf canvas.nodes ∨
        ∃ node ∈ clipboard.nodes, Dict.find node.id (idMap clipboard.nodes newIds) = some id := by
  have kept : idsOf (canvas.nodes.map (fun node => { node with selected := false })) =
      idsOf canvas.nodes := by
    rw [idsOf, List.map_map]
    rfl
  rw [handlePaste_eq copied, idsOf, List.map_append, List.mem_append]
  refine or_congr (by rw [← kept, idsOf]) ⟨fun member => ?_, fun found => ?_⟩
  · obtain ⟨copy, there, rfl⟩ := List.mem_map.mp member
    obtain ⟨node, here, image⟩ := List.mem_filterMap.mp there
    obtain ⟨newId, found, rfl⟩ := Option.map_eq_some_iff.mp image
    exact ⟨node, here, found⟩
  · obtain ⟨node, here, found⟩ := found
    have image : pasteNode (idMap clipboard.nodes newIds) node = some (copyAs node id) := by
      rw [pasteNode, found, Option.map_some]
    exact List.mem_map.mpr ⟨_, List.mem_filterMap.mpr ⟨node, here, image⟩, rfl⟩

/-! ### Routes of the copies and of the others -/

section Pasted

variable {original canvas : Canvas} {clipboard : Clipboard} {newIds : List String} {now : Nat}
  (copied : handleCopy original = some clipboard)
  (distinct : (idsOf clipboard.nodes).Nodup) (apart : newIds.Nodup)
  (lengths : newIds.length = clipboard.nodes.length) (unused : Unused newIds clipboard canvas)

include distinct lengths

theorem pasteEdge_source {edge image : FlowEdge}
    (pasted : pasteEdge (idMap clipboard.nodes newIds) now edge = some image) :
    image.source ∈ newIds := by
  obtain ⟨source, found, rest⟩ := Option.bind_eq_some_iff.mp pasted
  obtain ⟨target, -, rfl⟩ := Option.map_eq_some_iff.mp rest
  exact (copy_mem distinct lengths found).2

include copied unused

theorem navigate_other {id : String} (there : id ∈ idsOf canvas.nodes) (branch : Option Int) :
    navigate (handlePaste clipboard newIds now canvas) id branch = navigate canvas id branch := by
  have old : id ∉ newIds := fun new => unused.nodes id new there
  have ends : ∀ edge ∈ canvas.edges,
      edge.target ∈ idsOf (handlePaste clipboard newIds now canvas).nodes ↔
        edge.target ∈ idsOf canvas.nodes := by
    intro edge member
    rw [mem_idsOf_pasted copied]
    refine ⟨fun either => either.resolve_right ?_, Or.inl⟩
    rintro ⟨node, -, found⟩
    exact (unused.edges _ (copy_mem distinct lengths found).2 edge member).2 rfl
  have none_new : (clipboard.edges.filterMap (pasteEdge (idMap clipboard.nodes newIds) now)).find?
      (fun edge => Followed (handlePaste clipboard newIds now canvas).nodes id branch edge) =
        none := by
    rw [List.find?_eq_none]
    intro edge member followed
    obtain ⟨origin, -, pasted⟩ := List.mem_filterMap.mp member
    exact old ((of_decide_eq_true followed).1 ▸
      pasteEdge_source distinct lengths pasted)
  have edges : (handlePaste clipboard newIds now canvas).edges = canvas.edges ++
      clipboard.edges.filterMap (pasteEdge (idMap clipboard.nodes newIds) now) := by
    rw [handlePaste_eq copied]
  rw [navigate_eq, navigate_eq, edges, List.find?_append, none_new, Option.or_none]
  congr 1
  apply List.find?_congr
  intro edge member
  rw [Bool.eq_iff_iff, decide_eq_true_iff, decide_eq_true_iff, Followed, Followed,
    ends edge member]

include apart

theorem navigate_copy {node : FlowNode} {copy : String}
    (found : Dict.find node.id (idMap clipboard.nodes newIds) = some copy) (branch : Option Int) :
    navigate (handlePaste clipboard newIds now canvas) copy branch =
      (clipboard.edges.find? (fun edge => edge.source = node.id ∧ OnBranch copy branch edge ∧
        edge.target ≠ edge.source)).bind
          (fun edge => Dict.find edge.target (idMap clipboard.nodes newIds)) := by
  have new := (copy_mem distinct lengths found).2
  have none_old : canvas.edges.find?
      (fun edge => Followed (handlePaste clipboard newIds now canvas).nodes copy branch edge) =
        none := by
    rw [List.find?_eq_none]
    intro edge member followed
    exact (unused.edges copy new edge member).1 (of_decide_eq_true followed).1
  have edges : (handlePaste clipboard newIds now canvas).edges = canvas.edges ++
      clipboard.edges.filterMap (pasteEdge (idMap clipboard.nodes newIds) now) := by
    rw [handlePaste_eq copied]
  have inside : ∀ edge ∈ clipboard.edges, edge.source ∈ idsOf clipboard.nodes ∧
      edge.target ∈ idsOf clipboard.nodes := by
    intro edge member
    rw [handleCopy_edges copied] at member
    exact of_decide_eq_true (List.mem_filter.mp member).2
  have same : ∀ edge ∈ clipboard.edges,
      (pasteEdge (idMap clipboard.nodes newIds) now edge).any
          (fun image => Followed (handlePaste clipboard newIds now canvas).nodes copy branch image) =
        decide (edge.source = node.id ∧ OnBranch copy branch edge ∧ edge.target ≠ edge.source) := by
    intro edge member
    obtain ⟨source, -, leaves⟩ := exists_copy distinct lengths (inside edge member).1
    obtain ⟨target, -, arrives⟩ := exists_copy distinct lengths (inside edge member).2
    have reached : target ∈ idsOf (handlePaste clipboard newIds now canvas).nodes := by
      obtain ⟨other, there, same⟩ := List.mem_map.mp (inside edge member).2
      exact (mem_idsOf_pasted copied target).mpr (.inr ⟨other, there, same ▸ arrives⟩)
    have start : source = copy ↔ edge.source = node.id := by
      constructor
      · intro equal
        exact copy_injective distinct apart lengths leaves (equal ▸ found)
      · intro equal
        rw [equal, found] at leaves
        exact (Option.some.inj leaves).symm
    have loop : target = source ↔ edge.target = edge.source := by
      constructor
      · intro equal
        exact copy_injective distinct apart lengths arrives (equal ▸ leaves)
      · intro equal
        rw [equal, leaves] at arrives
        exact (Option.some.inj arrives).symm
    rw [pasteEdge, leaves, arrives, Option.bind_some, Option.map_some, Option.any_some,
      Bool.eq_iff_iff, decide_eq_true_iff, decide_eq_true_iff, Followed, start]
    rw [ne_eq, loop]
    exact and_congr_right fun _ => and_congr_right fun _ => and_iff_right reached
  rw [navigate_eq, edges, List.find?_append, none_old, Option.none_or, List.find?_filterMap,
    List.find?_congr same]
  cases taken : clipboard.edges.find? (fun edge => edge.source = node.id ∧
      OnBranch copy branch edge ∧ edge.target ≠ edge.source) with
  | none => rfl
  | some edge =>
      have member := List.mem_of_find?_eq_some taken
      obtain ⟨source, -, leaves⟩ := exists_copy distinct lengths (inside edge member).1
      obtain ⟨target, -, arrives⟩ := exists_copy distinct lengths (inside edge member).2
      rw [Option.bind_some, Option.bind_some, pasteEdge, leaves, arrives]
      rfl

end Pasted

/-! ### The claim of a faithful copy -/

/-- Every copied node has a copy of its own kind; asked for a branch, the copy goes to the copy of
the node that its original goes to, where that one was copied; all others go where they went. -/
structure RoutesCopied (asked : FlowNode → Option Int → Prop) (original : Canvas)
    (clipboard : Clipboard) (ids : List (String × String)) (canvas pasted : Canvas) : Prop where
  nodes : ∀ node ∈ clipboard.nodes, ∃ copy ∈ pasted.nodes,
    Dict.find node.id ids = some copy.id ∧ copy.type = node.type ∧
      copy.conditions = node.conditions
  inside : ∀ node ∈ clipboard.nodes, ∀ copy, Dict.find node.id ids = some copy →
    ∀ branch, asked node branch → ∀ target ∈ idsOf clipboard.nodes,
      navigate original node.id branch = some target →
        navigate pasted copy branch = Dict.find target ids
  outside : ∀ node ∈ canvas.nodes, ∀ branch,
    navigate pasted node.id branch = navigate canvas node.id branch

def NoBranchInside (asked : FlowNode → Option Int → Prop) (original : Canvas)
    (clipboard : Clipboard) : Prop :=
  ∀ node ∈ clipboard.nodes, ∀ index : Int, asked node (some index) →
    ∀ target ∈ idsOf clipboard.nodes, navigate original node.id (some index) ≠ some target

/-- The first edge of a node that can be followed is the first one that was copied, if it leads to
a copied node. -/
theorem first_copied {original : Canvas} {clipboard : Clipboard}
    (copied : handleCopy original = some clipboard) {node : FlowNode}
    (there : node ∈ clipboard.nodes) {edge : FlowEdge}
    (first : original.edges.find? (fun edge => Followed original.nodes node.id none edge) =
      some edge) (target : edge.target ∈ idsOf clipboard.nodes) :
    clipboard.edges.find? (fun edge => edge.source = node.id ∧ OnBranch node.id none edge ∧
      edge.target ≠ edge.source) = some edge := by
  have existing : ∀ id ∈ idsOf clipboard.nodes, id ∈ idsOf original.nodes := by
    intro id member
    rw [handleCopy_nodes copied] at member
    obtain ⟨origin, chosen, rfl⟩ := List.mem_map.mp member
    exact List.mem_map_of_mem (List.mem_of_mem_filter chosen)
  obtain ⟨found, before, after, split, skipped⟩ := List.find?_eq_some_iff_append.mp first
  have followed := of_decide_eq_true found
  rw [handleCopy_edges copied, List.find?_filter, List.find?_eq_some_iff_append]
  refine ⟨?_, before, after, split, fun earlier member => ?_⟩
  · have source : edge.source ∈ idsOf clipboard.nodes :=
      followed.1 ▸ List.mem_map_of_mem there
    simp only [decide_eq_true_iff]
    exact ⟨⟨source, target⟩, followed.1, trivial, followed.2.2.2⟩
  · have not_followed := skipped earlier member
    simp only [Bool.not_eq_true', decide_eq_false_iff_not] at not_followed
    simp only [Bool.not_eq_true', decide_eq_false_iff_not, decide_eq_true_iff]
    intro both
    exact not_followed ⟨both.2.1, trivial, existing _ both.1.2, both.2.2.2⟩

/-- A pasted part routes like its original exactly if no numbered branch leads from a copied node
to a copied node. -/
theorem paste_routes_iff (asked : FlowNode → Option Int → Prop) {original canvas : Canvas}
    {clipboard : Clipboard} (distinct : (idsOf original.nodes).Nodup)
    (copied : handleCopy original = some clipboard) {clock : List Nat} (counter now : Nat)
    (ticks : clock.length = clipboard.nodes.length)
    (unused : Unused (generateIds clock counter) clipboard canvas) :
    RoutesCopied asked original clipboard (idMap clipboard.nodes (generateIds clock counter)) canvas
        (handlePaste clipboard (generateIds clock counter) now canvas) ↔
      NoBranchInside asked original clipboard := by
  have unique : (idsOf clipboard.nodes).Nodup := by
    rw [handleCopy_nodes copied]
    exact (List.Sublist.map FlowNode.id List.filter_sublist).nodup distinct
  have apart := generateIds_nodup clock counter
  have lengths : (generateIds clock counter).length = clipboard.nodes.length := by
    rw [generateIds_length, ticks]
  constructor
  · intro routes node there index chosen target member goes
    obtain ⟨copy, new, found⟩ := exists_copy unique lengths (List.mem_map_of_mem there)
    obtain ⟨image, -, reached⟩ := exists_copy unique lengths member
    have pasted := routes.inside node there copy found (some index) chosen target member goes
    -- no copied edge names the copy in its handle
    have lost : clipboard.edges.find? (fun edge => edge.source = node.id ∧
        OnBranch copy (some index) edge ∧ edge.target ≠ edge.source) = none := by
      rw [List.find?_eq_none]
      intro edge inside taken
      exact unused.handles copy new edge inside index (of_decide_eq_true taken).2.1
    rw [navigate_copy copied unique apart lengths unused found, lost, reached] at pasted
    cases pasted
  · intro plain
    refine ⟨fun node there => ?_, fun node there copy found branch chosen target member goes => ?_,
      fun node there branch =>
        navigate_other copied unique lengths unused (List.mem_map_of_mem there) branch⟩
    · obtain ⟨copy, -, found⟩ := exists_copy unique lengths (List.mem_map_of_mem there)
      have image : pasteNode (idMap clipboard.nodes (generateIds clock counter)) node =
          some (copyAs node copy) := by
        rw [pasteNode, found, Option.map_some]
      refine ⟨copyAs node copy, ?_, found, rfl, rfl⟩
      rw [handlePaste_eq copied]
      exact List.mem_append_right _ (List.mem_filterMap.mpr ⟨node, there, image⟩)
    · cases branch with
      | some index => exact absurd goes (plain node there index chosen target member)
      | none =>
          rw [navigate_eq] at goes
          obtain ⟨edge, first, reached⟩ := Option.map_eq_some_iff.mp goes
          rw [navigate_copy copied unique apart lengths unused found]
          have taken := first_copied copied there first (reached ▸ member)
          change clipboard.edges.find? (fun edge => edge.source = node.id ∧
            OnBranch copy none edge ∧ edge.target ≠ edge.source) = some edge at taken
          rw [taken, Option.bind_some, reached]

/-- A node and its successor on the first handle, both selected. -/
def pair (type : String) : Canvas where
  nodes := [⟨"a", type, (0, 0), [], true⟩, ⟨"b", "agent", (200, 0), [], true⟩]
  edges := [⟨"e", "a", "b", some "source_a_0", some "target_b_0"⟩]

def pairClipboard (type : String) : Clipboard := ⟨(pair type).nodes, (pair type).edges⟩

theorem generated_handle_ne {id : String} (generated : id.toList.head? = some 'n') (index : Int) :
    some "source_a_0" ≠ some (sourceHandleOf id index) := by
  intro same
  have letters : (sourceHandleOf id index).toList =
      "source_".toList ++ (id.toList ++ '_' :: (toString index).toList) := by
    simp [sourceHandleOf, toString]
  obtain ⟨rest, split⟩ := List.head?_eq_some_iff.mp generated
  have eighth := congrArg (fun letters => letters[7]?) letters
  rw [← Option.some.inj same, split] at eighth
  revert eighth
  simp

theorem pair_unused (type : String) :
    Unused (generateIds [7, 7] 0) (pairClipboard type) (pair type) := by
  have ids : generateIds [7, 7] 0 = ["node-7-1", "node-7-2"] := by decide +kernel
  rw [ids]
  refine ⟨?_, ?_, ?_⟩
  · change ∀ id ∈ ["node-7-1", "node-7-2"], id ∉ ["a", "b"]
    decide
  · intro id member edge there
    rw [List.mem_singleton.mp there]
    revert id
    decide
  · intro id member edge there index
    rw [List.mem_singleton.mp there]
    have generated : ∀ id ∈ ["node-7-1", "node-7-2"], id.toList.head? = some 'n' := by
      decide +kernel
    exact generated_handle_ne (generated id member) index

theorem plain_pair_routes :
    RoutesCopied (fun _ branch => branch = none) (pair "agent") (pairClipboard "agent")
      (idMap (pairClipboard "agent").nodes (generateIds [7, 7] 0)) (pair "agent")
      (handlePaste (pairClipboard "agent") (generateIds [7, 7] 0) 8 (pair "agent")) :=
  (paste_routes_iff (fun _ branch => branch = none) (by decide) (by rfl) 0 8 rfl
    (pair_unused "agent")).mpr (fun _ _ _ chosen => nomatch chosen)

/-- The copy of a condition finds no edge on its branch. -/
theorem pasted_condition_unrouted :
    ¬ RoutesCopied (fun _ _ => True) (pair "condition") (pairClipboard "condition")
      (idMap (pairClipboard "condition").nodes (generateIds [7, 7] 0)) (pair "condition")
      (handlePaste (pairClipboard "condition") (generateIds [7, 7] 0) 8 (pair "condition")) := by
  intro routes
  have copied := routes.inside ⟨"a", "condition", (0, 0), [], true⟩ List.mem_cons_self "node-7-1"
    (by decide +kernel) (some 0) trivial "b" (by decide) (by decide +kernel)
  revert copied
  decide +kernel

end Assemblix.PastedGraph
