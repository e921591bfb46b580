import Assemblix.Library.DepthFirst

/-
A depth-first search and the search of a renamed copy of what it reaches.

Where a second graph carries the same edges out of every node inside a closed part, under other
names and in the same order, the two searches from a node of the part paint the same nodes and
find the same back edges.
-/

namespace Library

variable {V E F : Type}

structure Multigraph.Image (graph : Multigraph V E) (image : Multigraph V F) (rename : E → F)
    (inside : V → Prop) : Prop where
  out : ∀ node, inside node → image.out node = (graph.out node).map rename
  target : ∀ node, inside node → ∀ edge ∈ graph.out node,
    image.target (rename edge) = graph.target edge
  closed : ∀ node, inside node → ∀ edge ∈ graph.out node, inside (graph.target edge)

namespace DepthFirst

theorem explore_add [DecidableEq V] (graph : Multigraph V E) (first second : Nat)
    (search : Search V E) :
    explore graph (first + second) search = explore graph second (explore graph first search) := by
  induction first generalizing search with
  | zero => rw [Nat.zero_add, explore]
  | succ first ih =>
      rw [Nat.succ_add, explore, explore]
      exact ih _

/-- Two bounds that are both enough give one result. -/
theorem explore_agree [DecidableEq V] (graph : Multigraph V E) {first second : Nat}
    {search : Search V E} (firstIdle : (explore graph first search).stack = [])
    (secondIdle : (explore graph second search).stack = []) :
    explore graph first search = explore graph second search := by
  rw [← explore_idle graph (explore graph first search) firstIdle second, ← explore_add,
    Nat.add_comm, explore_add, explore_idle graph _ secondIdle]

def Search.renamed (rename : E → F) (search : Search V E) : Search V F :=
  { stack := search.stack
    color := search.color
    back := search.back.map rename }

section

variable [DecidableEq V] {graph : Multigraph V E} {image : Multigraph V F} {rename : E → F}
variable {inside : V → Prop}

section

variable (pictured : graph.Image image rename inside)
include pictured

theorem advance_inside {search : Search V E} (within : ∀ entry ∈ search.stack, inside entry.1) :
    ∀ entry ∈ (advance graph search).stack, inside entry.1 := by
  unfold advance
  cases stacked : search.stack with
  | nil =>
      rw [stacked] at within
      simp [stacked]
  | cons top rest =>
      obtain ⟨node, index⟩ := top
      rw [stacked] at within
      have here : inside node := within (node, index) List.mem_cons_self
      have others : ∀ entry ∈ rest, inside entry.1 :=
        fun entry member => within entry (List.mem_cons_of_mem _ member)
      have kept : ∀ entry ∈ (node, index + 1) :: rest, inside entry.1 := by
        intro entry member
        rcases List.mem_cons.mp member with rfl | member
        · exact here
        · exact others entry member
      cases atIndex : (graph.out node)[index]? with
      | none => simpa [atIndex] using others
      | some edge =>
          cases shade : search.color (graph.target edge) with
          | gray => simpa only [atIndex, shade] using kept
          | black => simpa only [atIndex, shade] using kept
          | white =>
              simp only [atIndex, shade]
              intro entry member
              rcases List.mem_cons.mp member with rfl | member
              · exact pictured.closed node here edge (List.mem_of_getElem? atIndex)
              · exact kept entry member

theorem advance_renamed {search : Search V E} (within : ∀ entry ∈ search.stack, inside entry.1) :
    advance image (search.renamed rename) = (advance graph search).renamed rename := by
  unfold advance
  cases stacked : search.stack with
  | nil => simp only [Search.renamed, stacked]
  | cons top rest =>
      obtain ⟨node, index⟩ := top
      rw [stacked] at within
      have here : inside node := within (node, index) List.mem_cons_self
      have entry : (image.out node)[index]? = ((graph.out node)[index]?).map rename := by
        rw [pictured.out node here, List.getElem?_map]
      cases atIndex : (graph.out node)[index]? with
      | none =>
          rw [atIndex] at entry
          simp only [Search.renamed, stacked, entry, atIndex, Option.map_none]
          rfl
      | some edge =>
          rw [atIndex] at entry
          have same := pictured.target node here edge (List.mem_of_getElem? atIndex)
          cases shade : search.color (graph.target edge) with
          | gray =>
              simp only [Search.renamed, stacked, entry, atIndex, Option.map_some, same, shade,
                List.map_append, List.map_cons, List.map_nil]
          | white =>
              simp only [Search.renamed, stacked, entry, atIndex, Option.map_some, same, shade]
              rfl
          | black =>
              simp only [Search.renamed, stacked, entry, atIndex, Option.map_some, same, shade]

theorem explore_renamed (fuel : Nat) {search : Search V E}
    (within : ∀ entry ∈ search.stack, inside entry.1) :
    explore image fuel (search.renamed rename) = (explore graph fuel search).renamed rename := by
  induction fuel generalizing search with
  | zero => rfl
  | succ fuel ih =>
      rw [explore, explore, advance_renamed pictured within]
      exact ih (advance_inside pictured within)

/-- The back edges of the copy are the renamed back edges, whatever nodes either search is
given to bound its work. -/
theorem backEdges_renamed {root : V} (rooted : inside root) {nodes others : List V}
    (rootMember : root ∈ nodes)
    (closed : ∀ node edge, edge ∈ graph.out node → graph.target edge ∈ nodes)
    (rootOther : root ∈ others)
    (closedOther : ∀ node edge, edge ∈ image.out node → image.target edge ∈ others) :
    backEdges image others root = (backEdges graph nodes root).map rename := by
  have within : ∀ entry ∈ (Search.initial root : Search V E).stack, inside entry.1 := by
    intro entry member
    rw [List.mem_singleton.mp member]
    exact rooted
  have ended := explore_workload_idle graph nodes root rootMember closed
  have endedOther := explore_workload_idle image others root rootOther closedOther
  have copied := explore_renamed pictured (workload graph nodes) within
  have idle : (explore image (workload graph nodes) (Search.initial root)).stack = [] := by
    change (explore image _ ((Search.initial root).renamed rename)).stack = []
    rw [copied]
    exact ended
  unfold backEdges
  rw [explore_agree image endedOther idle]
  change (explore image _ ((Search.initial root).renamed rename)).back = _
  rw [copied]
  rfl

end

end

end DepthFirst
end Library
