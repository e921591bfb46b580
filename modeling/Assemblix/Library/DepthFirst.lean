import Mathlib.Logic.Relation
import Mathlib.Data.List.Nodup
import Mathlib.Algebra.BigOperators.Group.Finset.Basic
import Mathlib.Algebra.Order.BigOperators.Group.Finset
import Mathlib.Tactic.Abel

/-
Iterative depth-first search over a finite multigraph, classifying edges.

The search keeps a stack of nodes with the position reached in their list of outgoing
edges. An edge to a node that is still on the stack is a back edge. The results say
what removing the back edges does: no cycle is left among the nodes reached, and every
node stays reachable.
-/

namespace Library

/-- Edges are values of their own, so parallel edges stay apart. -/
structure Multigraph (V E : Type) where
  out : V → List E
  source : E → V
  target : E → V
  sourceOut : ∀ node edge, edge ∈ out node → source edge = node
  distinct : ∀ node, (out node).Nodup

namespace Multigraph

variable {V E : Type}

def Adjacent (graph : Multigraph V E) (node next : V) : Prop :=
  ∃ edge ∈ graph.out node, graph.target edge = next

def AdjacentOff (graph : Multigraph V E) (removed : List E) (node next : V) : Prop :=
  ∃ edge ∈ graph.out node, edge ∉ removed ∧ graph.target edge = next

def Reaches (graph : Multigraph V E) : V → V → Prop :=
  Relation.ReflTransGen graph.Adjacent

def ReachesOff (graph : Multigraph V E) (removed : List E) : V → V → Prop :=
  Relation.ReflTransGen (graph.AdjacentOff removed)

def OnCycle (graph : Multigraph V E) (node : V) : Prop :=
  Relation.TransGen graph.Adjacent node node

theorem ReachesOff.reaches {graph : Multigraph V E} {removed : List E} {node last : V}
    (path : graph.ReachesOff removed node last) : graph.Reaches node last :=
  Relation.ReflTransGen.mono
    (fun _ _ ⟨edge, member, _, atTarget⟩ => ⟨edge, member, atTarget⟩) _ _ path

theorem not_onCycle_of_height {graph : Multigraph V E} (height : V → Nat)
    (climbs : ∀ node, ∀ edge ∈ graph.out node, height node < height (graph.target edge))
    (node : V) : ¬ graph.OnCycle node := by
  intro cycle
  have raised : ∀ last, Relation.TransGen graph.Adjacent node last → height node < height last := by
    intro last path
    induction path with
    | single adjacent =>
        obtain ⟨edge, outgoing, rfl⟩ := adjacent
        exact climbs node edge outgoing
    | tail _ adjacent ih =>
        obtain ⟨edge, outgoing, rfl⟩ := adjacent
        exact Nat.lt_trans ih (climbs _ edge outgoing)
  exact Nat.lt_irrefl _ (raised node cycle)

end Multigraph

namespace DepthFirst

open Multigraph

variable {V E : Type}

inductive Color
  | white
  | gray
  | black
  deriving DecidableEq, Repr

structure Search (V E : Type) where
  stack : List (V × Nat)
  color : V → Color
  back : List E

section Loop

variable [DecidableEq V]

def Search.initial (root : V) : Search V E :=
  { stack := [(root, 0)]
    color := fun node => if node = root then .gray else .white
    back := [] }

def Search.paint (search : Search V E) (node : V) (shade : Color) : V → Color :=
  fun other => if other = node then shade else search.color other

def advance (graph : Multigraph V E) (search : Search V E) : Search V E :=
  match search.stack with
  | [] => search
  | (node, index) :: rest =>
      match (graph.out node)[index]? with
      | some edge =>
          match search.color (graph.target edge) with
          | .gray =>
              { search with
                stack := (node, index + 1) :: rest
                back := search.back ++ [edge] }
          | .white =>
              { search with
                stack := (graph.target edge, 0) :: (node, index + 1) :: rest
                color := search.paint (graph.target edge) .gray }
          | .black => { search with stack := (node, index + 1) :: rest }
      | none => { search with stack := rest, color := search.paint node .black }

def explore (graph : Multigraph V E) : Nat → Search V E → Search V E
  | 0, search => search
  | fuel + 1, search => explore graph fuel (advance graph search)

/-- Work of a complete search over the listed nodes: one turn for every edge and one to
finish every node. -/
def workload (graph : Multigraph V E) (nodes : List V) : Nat :=
  (nodes.map (fun node => (graph.out node).length + 1)).sum

def backEdges (graph : Multigraph V E) (nodes : List V) (root : V) : List E :=
  (explore graph (workload graph nodes) (Search.initial root)).back

/-! ### The search ends -/

private def pendingTurns (graph : Multigraph V E) (stack : List (V × Nat)) : Nat :=
  (stack.map (fun entry => (graph.out entry.1).length - entry.2 + 1)).sum

private def whiteTurns (graph : Multigraph V E) (color : V → Color) (nodes : Finset V) : Nat :=
  ∑ node ∈ nodes, if color node = .white then (graph.out node).length + 1 else 0

private def turnsLeft (graph : Multigraph V E) (nodes : Finset V) (search : Search V E) : Nat :=
  pendingTurns graph search.stack + whiteTurns graph search.color nodes

private theorem whiteTurns_paint_gray (graph : Multigraph V E) (search : Search V E)
    (nodes : Finset V) (node : V) (member : node ∈ nodes) (fresh : search.color node = .white) :
    whiteTurns graph (search.paint node .gray) nodes + ((graph.out node).length + 1) =
      whiteTurns graph search.color nodes := by
  unfold whiteTurns
  rw [← Finset.add_sum_erase nodes _ member, ← Finset.add_sum_erase nodes
    (fun other => if search.color other = .white then _ else _) member]
  have others : ∀ other ∈ nodes.erase node,
      (if search.paint node .gray other = .white then (graph.out other).length + 1 else 0) =
        if search.color other = .white then (graph.out other).length + 1 else 0 := by
    intro other present
    have different := Finset.ne_of_mem_erase present
    simp only [Search.paint, if_neg different]
  rw [Finset.sum_congr rfl others]
  simp only [Search.paint, if_pos, fresh, reduceCtorEq, if_false]
  omega

private theorem whiteTurns_paint_black (graph : Multigraph V E) (search : Search V E)
    (nodes : Finset V) (node : V) (seen : search.color node ≠ .white) :
    whiteTurns graph (search.paint node .black) nodes = whiteTurns graph search.color nodes := by
  unfold whiteTurns
  apply Finset.sum_congr rfl
  intro other _
  by_cases same : other = node
  · subst same
    simp [Search.paint, seen]
  · simp [Search.paint, same]

private theorem turnsLeft_advance (graph : Multigraph V E) (nodes : Finset V)
    (closed : ∀ node edge, edge ∈ graph.out node → graph.target edge ∈ nodes)
    (search : Search V E) (seen : ∀ entry ∈ search.stack, search.color entry.1 ≠ .white)
    (busy : search.stack ≠ []) :
    turnsLeft graph nodes (advance graph search) + 1 = turnsLeft graph nodes search := by
  obtain ⟨stack, color, back⟩ := search
  cases stack with
  | nil => exact absurd rfl busy
  | cons top rest =>
      obtain ⟨node, index⟩ := top
      cases atIndex : (graph.out node)[index]? with
      | none =>
          have atEnd : (graph.out node).length ≤ index := List.getElem?_eq_none_iff.mp atIndex
          have painted := whiteTurns_paint_black graph ⟨(node, index) :: rest, color, back⟩ nodes
            node (seen (node, index) List.mem_cons_self)
          simp only [advance, atIndex, turnsLeft, pendingTurns, List.map_cons, List.sum_cons, painted]
          omega
      | some edge =>
          have before : index < (graph.out node).length := (List.getElem?_eq_some_iff.mp atIndex).1
          have member := List.mem_of_getElem? atIndex
          cases shade : color (graph.target edge) with
          | gray =>
              simp only [advance, atIndex, shade, turnsLeft, pendingTurns, List.map_cons,
                List.sum_cons]
              omega
          | white =>
              have painted := whiteTurns_paint_gray graph ⟨(node, index) :: rest, color, back⟩ nodes
                (graph.target edge) (closed node edge member) shade
              simp only at painted
              simp only [advance, atIndex, shade, turnsLeft, pendingTurns, List.map_cons,
                List.sum_cons]
              omega
          | black =>
              simp only [advance, atIndex, shade, turnsLeft, pendingTurns, List.map_cons,
                List.sum_cons]
              omega

end Loop

/-! ### What the search maintains -/

def Scanned (graph : Multigraph V E) (search : Search V E) (edge : E) : Prop :=
  search.color (graph.source edge) = .black ∨
    ∃ index, (graph.source edge, index) ∈ search.stack ∧
      edge ∈ (graph.out (graph.source edge)).take index

def TrailStep (graph : Multigraph V E) (search : Search V E) (node next : V) : Prop :=
  ∃ edge ∈ graph.out node, Scanned graph search edge ∧ edge ∉ search.back ∧
    graph.target edge = next

def Trail (graph : Multigraph V E) (search : Search V E) : V → V → Prop :=
  Relation.ReflTransGen (TrailStep graph search)

def Sorted (graph : Multigraph V E) (back : List E) : List V → Prop
  | [] => True
  | node :: earlier =>
      (∀ edge ∈ graph.out node, edge ∈ back ∨ graph.target edge ∈ earlier) ∧
        Sorted graph back earlier

def Frontier (graph : Multigraph V E) (back : List E) (finished : List V) :
    Option V → List (V × Nat) → Prop
  | _, [] => True
  | above, (node, index) :: rest =>
      (∀ edge ∈ (graph.out node).take index,
        edge ∈ back ∨ graph.target edge ∈ finished ∨ above = some (graph.target edge)) ∧
      (∀ next, above = some next →
        ∃ edge ∈ (graph.out node).take index, edge ∉ back ∧ graph.target edge = next) ∧
      Frontier graph back finished (some node) rest

private theorem Frontier.top {graph : Multigraph V E} {back : List E} {finished : List V}
    {node : V} {index : Nat} {rest : List (V × Nat)}
    (read : ∀ edge ∈ (graph.out node).take index, edge ∈ back ∨ graph.target edge ∈ finished)
    (below : Frontier graph back finished (some node) rest) :
    Frontier graph back finished none ((node, index) :: rest) := by
  refine And.intro ?_ (And.intro ?_ below)
  · intro edge member
    exact (read edge member).imp id Or.inl
  · intro next impossible
    cases impossible

structure Valid (graph : Multigraph V E) (root : V) (finished : List V)
    (search : Search V E) : Prop where
  stacked : ∀ node, node ∈ search.stack.map Prod.fst ↔ search.color node = .gray
  black : ∀ node, node ∈ finished ↔ search.color node = .black
  finishedDistinct : finished.Nodup
  stackDistinct : (search.stack.map Prod.fst).Nodup
  sorted : Sorted graph search.back finished
  frontier : Frontier graph search.back finished none search.stack
  rooted : search.color root ≠ .white
  reached : ∀ node, search.color node ≠ .white → Trail graph search root node
  backs : ∀ edge ∈ search.back, edge ∈ graph.out (graph.source edge) ∧
    Scanned graph search edge ∧ search.color (graph.target edge) ≠ .white ∧
      Trail graph search (graph.target edge) (graph.source edge)

theorem Valid.seen {graph : Multigraph V E} {root : V} {finished : List V}
    {search : Search V E} (valid : Valid graph root finished search) :
    ∀ entry ∈ search.stack, search.color entry.1 ≠ .white := by
  intro entry member
  have gray := (valid.stacked entry.1).mp (List.mem_map_of_mem member)
  rw [gray]
  exact Color.noConfusion

private theorem Scanned.mono {graph : Multigraph V E} {search later : Search V E}
    (black : ∀ node, search.color node = .black → later.color node = .black)
    (stack : ∀ node index, (node, index) ∈ search.stack →
      later.color node = .black ∨ ∃ position, index ≤ position ∧ (node, position) ∈ later.stack)
    {edge : E} (scanned : Scanned graph search edge) : Scanned graph later edge := by
  rcases scanned with finished | ⟨index, member, within⟩
  · exact Or.inl (black _ finished)
  · rcases stack _ _ member with finished | ⟨position, bound, present⟩
    · exact Or.inl finished
    · exact Or.inr ⟨position, present, (List.take_sublist_take_left bound).subset within⟩

private theorem Trail.mono {graph : Multigraph V E} {search later : Search V E}
    (scanned : ∀ edge, Scanned graph search edge → Scanned graph later edge)
    (kept : ∀ edge, Scanned graph search edge → edge ∉ search.back → edge ∉ later.back)
    {node last : V} (trail : Trail graph search node last) : Trail graph later node last :=
  Relation.ReflTransGen.mono
    (fun _ _ ⟨edge, member, read, off, atTarget⟩ =>
      ⟨edge, member, scanned edge read, kept edge read off, atTarget⟩) _ _ trail

private theorem Sorted.mono {graph : Multigraph V E} {back more : List E} (grows : back ⊆ more)
    {finished : List V} (sorted : Sorted graph back finished) : Sorted graph more finished := by
  induction finished with
  | nil => trivial
  | cons node earlier ih =>
      refine ⟨?_, ih sorted.2⟩
      intro edge member
      exact (sorted.1 edge member).imp (fun inBack => grows inBack) id

private theorem Frontier.mono {graph : Multigraph V E} {back more : List E}
    {finished later : List V} (grows : back ⊆ more) (finishes : finished ⊆ later)
    {stack : List (V × Nat)} {above : Option V}
    (kept : ∀ entry ∈ stack, ∀ edge ∈ (graph.out entry.1).take entry.2, edge ∉ back → edge ∉ more)
    (frontier : Frontier graph back finished above stack) :
    Frontier graph more later above stack := by
  induction stack generalizing above with
  | nil => trivial
  | cons top rest ih =>
      obtain ⟨node, index⟩ := top
      refine ⟨?_, ?_, ?_⟩
      · intro edge member
        rcases frontier.1 edge member with inBack | done | isAbove
        · exact Or.inl (grows inBack)
        · exact Or.inr (Or.inl (finishes done))
        · exact Or.inr (Or.inr isAbove)
      · intro next isAbove
        obtain ⟨edge, member, off, atTarget⟩ := frontier.2.1 next isAbove
        exact ⟨edge, member, kept _ List.mem_cons_self edge member off, atTarget⟩
      · exact ih (fun entry member => kept entry (List.mem_cons_of_mem _ member)) frontier.2.2

private theorem Frontier.trail_top {graph : Multigraph V E} {search : Search V E}
    {finished : List V} {above : Option V} {stack : List (V × Nat)}
    (frontier : Frontier graph search.back finished above stack)
    (within : ∀ entry ∈ stack, entry ∈ search.stack)
    (node : V) (member : node ∈ stack.map Prod.fst) :
    ∀ top ∈ stack.head?, Trail graph search node top.1 := by
  induction stack generalizing above with
  | nil => cases member
  | cons first rest ih =>
      intro top isTop
      cases Option.mem_some.mp isTop
      rcases List.mem_cons.mp member with same | below
      · rw [same]
        exact Relation.ReflTransGen.refl
      · have inner := ih frontier.2.2
          (fun entry present => within entry (List.mem_cons_of_mem _ present)) below
        cases rest with
        | nil => cases below
        | cons second rest =>
            obtain ⟨edge, taken, off, atTarget⟩ := frontier.2.2.2.1 first.1 rfl
            have outgoing := List.mem_of_mem_take taken
            have origin := graph.sourceOut second.1 edge outgoing
            refine (inner second rfl).tail ⟨edge, outgoing, Or.inr ⟨second.2, ?_, ?_⟩, off, atTarget⟩
            · rw [origin]
              exact within _ (List.mem_cons_of_mem _ List.mem_cons_self)
            · rw [origin]
              exact taken

/-! ### One turn keeps the invariant -/

section Turn

variable {graph : Multigraph V E} {root : V} {finished : List V} {search : Search V E}
variable {node : V} {index : Nat} {rest : List (V × Nat)} {edge : E}

private theorem Valid.gray (valid : Valid graph root finished search)
    (top : search.stack = (node, index) :: rest) : search.color node = .gray :=
  (valid.stacked node).mp (by rw [top]; exact List.mem_cons_self)

private theorem Valid.fresh (valid : Valid graph root finished search)
    (top : search.stack = (node, index) :: rest)
    (atIndex : (graph.out node)[index]? = some edge) : ¬ Scanned graph search edge := by
  have origin := graph.sourceOut node edge (List.mem_of_getElem? atIndex)
  rintro (black | ⟨position, member, taken⟩)
  · rw [origin, valid.gray top] at black
    cases black
  · rw [origin] at member taken
    have samePosition : position = index := by
      have distinct := valid.stackDistinct
      rw [top] at member distinct
      rcases List.mem_cons.mp member with same | below
      · exact congrArg Prod.snd same
      · have repeated : node ∈ rest.map Prod.fst := List.mem_map_of_mem below
        exact absurd repeated (List.nodup_cons.mp distinct).1
    subst samePosition
    obtain ⟨earlier, bound, atEarlier⟩ := List.mem_take_iff_getElem.mp taken
    obtain ⟨inside, atPosition⟩ := List.getElem?_eq_some_iff.mp atIndex
    have repeated : earlier = position :=
      (List.Nodup.getElem_inj_iff (graph.distinct node)).mp (atEarlier.trans atPosition.symm)
    omega

private theorem take_succ_mem {items : List E} {item : E} (atIndex : items[index]? = some edge)
    (member : item ∈ items.take (index + 1)) : item ∈ items.take index ∨ item = edge := by
  rw [List.take_add_one, atIndex] at member
  simpa using member

private theorem take_succ_self {items : List E} (atIndex : items[index]? = some edge) :
    edge ∈ items.take (index + 1) := by
  rw [List.take_add_one, atIndex]
  simp

private theorem scanned_moved (graph : Multigraph V E) (later : Search V E)
    (top : search.stack = (node, index) :: rest) (colors : ∀ other, search.color other = .black → later.color other = .black)
    (stack : ∀ entry ∈ (node, index + 1) :: rest, entry ∈ later.stack) (read : E)
    (scanned : Scanned graph search read) : Scanned graph later read := by
  refine scanned.mono colors ?_
  intro other position member
  rw [top] at member
  rcases List.mem_cons.mp member with same | below
  · cases same
    exact Or.inr ⟨index + 1, Nat.le_succ index, stack _ List.mem_cons_self⟩
  · exact Or.inr ⟨position, Nat.le_refl position, stack _ (List.mem_cons_of_mem _ below)⟩

private theorem Valid.turn_gray (valid : Valid graph root finished search)
    (top : search.stack = (node, index) :: rest)
    (atIndex : (graph.out node)[index]? = some edge)
    (shade : search.color (graph.target edge) = .gray) :
    Valid graph root finished
      { search with stack := (node, index + 1) :: rest, back := search.back ++ [edge] } := by
  have outgoing := List.mem_of_getElem? atIndex
  have origin := graph.sourceOut node edge outgoing
  have unread := valid.fresh top atIndex
  have scanned := scanned_moved graph
    { search with stack := (node, index + 1) :: rest, back := search.back ++ [edge] } top
    (fun _ black => black) (fun _ member => member)
  have kept : ∀ read, Scanned graph search read → read ∉ search.back →
      read ∉ search.back ++ [edge] := by
    intro read done off member
    rcases List.mem_append.mp member with old | new
    · exact off old
    · exact unread (List.mem_singleton.mp new ▸ done)
  have grows : search.back ⊆ search.back ++ [edge] := List.subset_append_left _ _
  have frontier := valid.frontier
  rw [top] at frontier
  have newlyScanned : Scanned graph
      { search with stack := (node, index + 1) :: rest, back := search.back ++ [edge] } edge := by
    refine Or.inr ⟨index + 1, ?_, ?_⟩
    · rw [origin]
      exact List.mem_cons_self
    · rw [origin]
      exact take_succ_self atIndex
  refine
    { stacked := ?_
      black := valid.black
      finishedDistinct := valid.finishedDistinct
      stackDistinct := ?_
      sorted := valid.sorted.mono grows
      frontier := Frontier.top ?_ ?_
      rooted := valid.rooted
      reached := fun other seen => Trail.mono scanned kept (valid.reached other seen)
      backs := ?_ }
  · intro other
    rw [← valid.stacked other, top]
    rfl
  · have distinct := valid.stackDistinct
    rw [top] at distinct
    exact distinct
  · intro read member
    rcases take_succ_mem atIndex member with old | new
    · rcases frontier.1 read old with inBack | done | impossible
      · exact Or.inl (grows inBack)
      · exact Or.inr done
      · cases impossible
    · exact Or.inl (List.mem_append_right _ (List.mem_singleton.mpr new))
  · refine Frontier.mono grows (List.Subset.refl _) ?_ frontier.2.2
    intro entry member read taken off
    have readSource := graph.sourceOut entry.1 read (List.mem_of_mem_take taken)
    refine kept read (Or.inr ⟨entry.2, ?_, ?_⟩) off
    · rw [readSource, top]
      exact List.mem_cons_of_mem _ member
    · rw [readSource]
      exact taken
  · intro read member
    rcases List.mem_append.mp member with old | new
    · obtain ⟨outgoes, done, seen, trail⟩ := valid.backs read old
      exact ⟨outgoes, scanned read done, seen, Trail.mono scanned kept trail⟩
    · cases List.mem_singleton.mp new
      refine ⟨origin.symm ▸ outgoing, newlyScanned, ?_, ?_⟩
      · rw [shade]
        exact Color.noConfusion
      · rw [origin]
        have onStack := (valid.stacked (graph.target edge)).mpr shade
        have trail := valid.frontier.trail_top (fun _ member => member) _ onStack (node, index)
          (by rw [top]; rfl)
        exact Trail.mono scanned kept trail

private theorem Valid.turn_black (valid : Valid graph root finished search)
    (top : search.stack = (node, index) :: rest)
    (atIndex : (graph.out node)[index]? = some edge)
    (shade : search.color (graph.target edge) = .black) :
    Valid graph root finished { search with stack := (node, index + 1) :: rest } := by
  have scanned := scanned_moved graph { search with stack := (node, index + 1) :: rest } top
    (fun _ black => black) (fun _ member => member)
  have frontier := valid.frontier
  rw [top] at frontier
  refine
    { stacked := ?_
      black := valid.black
      finishedDistinct := valid.finishedDistinct
      stackDistinct := ?_
      sorted := valid.sorted
      frontier := Frontier.top ?_ frontier.2.2
      rooted := valid.rooted
      reached := fun other seen => Trail.mono scanned (fun _ _ off => off) (valid.reached other seen)
      backs := ?_ }
  · intro other
    rw [← valid.stacked other, top]
    rfl
  · have distinct := valid.stackDistinct
    rw [top] at distinct
    exact distinct
  · intro read member
    rcases take_succ_mem atIndex member with old | new
    · rcases frontier.1 read old with inBack | done | impossible
      · exact Or.inl inBack
      · exact Or.inr done
      · cases impossible
    · subst new
      exact Or.inr ((valid.black _).mpr shade)
  · intro read member
    obtain ⟨outgoes, done, seen, trail⟩ := valid.backs read member
    exact ⟨outgoes, scanned read done, seen, Trail.mono scanned (fun _ _ off => off) trail⟩

variable [DecidableEq V]

private theorem Valid.turn_white (valid : Valid graph root finished search)
    (top : search.stack = (node, index) :: rest)
    (atIndex : (graph.out node)[index]? = some edge)
    (shade : search.color (graph.target edge) = .white) :
    Valid graph root finished
      { search with
        stack := (graph.target edge, 0) :: (node, index + 1) :: rest
        color := search.paint (graph.target edge) .gray } := by
  have outgoing := List.mem_of_getElem? atIndex
  have origin := graph.sourceOut node edge outgoing
  have unread := valid.fresh top atIndex
  have scanned := scanned_moved graph
    { search with
      stack := (graph.target edge, 0) :: (node, index + 1) :: rest
      color := search.paint (graph.target edge) .gray } top
    (by
      intro other black
      have different : other ≠ graph.target edge := by
        intro same
        rw [same, shade] at black
        cases black
      simp only [Search.paint, if_neg different, black])
    (fun _ member => List.mem_cons_of_mem _ member)
  have frontier := valid.frontier
  rw [top] at frontier
  have nodeSeen : search.color node ≠ .white := by
    rw [valid.gray top]
    exact Color.noConfusion
  have offBack : edge ∉ search.back := fun member => unread (valid.backs edge member).2.1
  have newlyScanned : Scanned graph
      { search with
        stack := (graph.target edge, 0) :: (node, index + 1) :: rest
        color := search.paint (graph.target edge) .gray } edge := by
    refine Or.inr ⟨index + 1, ?_, ?_⟩
    · rw [origin]
      exact List.mem_cons_of_mem _ List.mem_cons_self
    · rw [origin]
      exact take_succ_self atIndex
  have stillSeen : ∀ other, search.color other ≠ .white →
      search.paint (graph.target edge) .gray other ≠ .white := by
    intro other seen
    unfold Search.paint
    split
    · exact Color.noConfusion
    · exact seen
  refine
    { stacked := ?_
      black := ?_
      finishedDistinct := valid.finishedDistinct
      stackDistinct := ?_
      sorted := valid.sorted
      frontier := Frontier.top (fun _ member => by cases member)
        (And.intro ?_ (And.intro ?_ frontier.2.2))
      rooted := stillSeen root valid.rooted
      reached := ?_
      backs := ?_ }
  · intro other
    by_cases same : other = graph.target edge
    · simp [Search.paint, same]
    · have old := valid.stacked other
      rw [top] at old
      simpa [Search.paint, same] using old
  · intro other
    by_cases same : other = graph.target edge
    · subst same
      simp [Search.paint, valid.black, shade]
    · simpa [Search.paint, same] using valid.black other
  · have distinct := valid.stackDistinct
    rw [top] at distinct
    refine List.nodup_cons.mpr ⟨?_, distinct⟩
    intro member
    have gray := (valid.stacked (graph.target edge)).mp (by rw [top]; exact member)
    rw [shade] at gray
    cases gray
  · intro read member
    rcases take_succ_mem atIndex member with old | new
    · rcases frontier.1 read old with inBack | done | impossible
      · exact Or.inl inBack
      · exact Or.inr (Or.inl done)
      · cases impossible
    · subst new
      exact Or.inr (Or.inr rfl)
  · intro next isAbove
    cases isAbove
    exact ⟨edge, take_succ_self atIndex, offBack, rfl⟩
  · intro other seen
    by_cases same : other = graph.target edge
    · rw [same]
      exact (Trail.mono scanned (fun _ _ off => off) (valid.reached node nodeSeen)).tail
        ⟨edge, outgoing, newlyScanned, offBack, rfl⟩
    · have seenBefore : search.color other ≠ .white := by
        simpa [Search.paint, same] using seen
      exact Trail.mono scanned (fun _ _ off => off) (valid.reached other seenBefore)
  · intro read member
    obtain ⟨outgoes, done, seen, trail⟩ := valid.backs read member
    exact ⟨outgoes, scanned read done, stillSeen _ seen,
      Trail.mono scanned (fun _ _ off => off) trail⟩

private theorem Valid.turn_end (valid : Valid graph root finished search)
    (top : search.stack = (node, index) :: rest)
    (atIndex : (graph.out node)[index]? = none) :
    Valid graph root (node :: finished)
      { search with stack := rest, color := search.paint node .black } := by
  have atEnd : (graph.out node).length ≤ index := List.getElem?_eq_none_iff.mp atIndex
  have whole : (graph.out node).take index = graph.out node := List.take_of_length_le atEnd
  have frontier := valid.frontier
  rw [top] at frontier
  have distinct := valid.stackDistinct
  rw [top] at distinct
  have apart := List.nodup_cons.mp distinct
  have notBlack : node ∉ finished := by
    rw [valid.black, valid.gray top]
    exact Color.noConfusion
  have stillSeen : ∀ other, search.color other ≠ .white → search.paint node .black other ≠ .white := by
    intro other seen
    unfold Search.paint
    split
    · exact Color.noConfusion
    · exact seen
  have scanned : ∀ read, Scanned graph search read → Scanned graph
      { search with stack := rest, color := search.paint node .black } read := by
    intro read done
    refine done.mono ?_ ?_
    · intro other black
      simp only [Search.paint, black, ite_self]
    · intro other position member
      rw [top] at member
      rcases List.mem_cons.mp member with same | below
      · cases same
        exact Or.inl (by simp [Search.paint])
      · exact Or.inr ⟨position, Nat.le_refl position, below⟩
  refine
    { stacked := ?_
      black := ?_
      finishedDistinct := List.nodup_cons.mpr ⟨notBlack, valid.finishedDistinct⟩
      stackDistinct := apart.2
      sorted := ⟨?_, valid.sorted⟩
      frontier := ?_
      rooted := stillSeen root valid.rooted
      reached := ?_
      backs := ?_ }
  · intro other
    by_cases same : other = node
    · subst same
      simpa [Search.paint] using apart.1
    · have old := valid.stacked other
      rw [top] at old
      simpa [Search.paint, same] using old
  · intro other
    by_cases same : other = node
    · simp [Search.paint, same]
    · simpa [Search.paint, same] using valid.black other
  · intro read member
    rcases frontier.1 read (by rw [whole]; exact member) with inBack | done | impossible
    · exact Or.inl inBack
    · exact Or.inr done
    · cases impossible
  · cases rest with
    | nil => trivial
    | cons second below =>
        refine Frontier.top ?_ ?_
        · intro read taken
          rcases frontier.2.2.1 read taken with inBack | done | isAbove
          · exact Or.inl inBack
          · exact Or.inr (List.mem_cons_of_mem _ done)
          · exact Or.inr (List.mem_cons.mpr (Or.inl (Option.some.inj isAbove).symm))
        · exact Frontier.mono (List.Subset.refl _) (List.subset_cons_self _ _)
            (fun _ _ _ _ off => off) frontier.2.2.2.2
  · intro other seen
    have seenBefore : search.color other ≠ .white := by
      by_cases same : other = node
      · rw [same, valid.gray top]
        exact Color.noConfusion
      · simpa [Search.paint, same] using seen
    exact Trail.mono scanned (fun _ _ off => off) (valid.reached other seenBefore)
  · intro read member
    obtain ⟨outgoes, done, seen, trail⟩ := valid.backs read member
    exact ⟨outgoes, scanned read done, stillSeen _ seen,
      Trail.mono scanned (fun _ _ off => off) trail⟩

end Turn

section Finish

variable [DecidableEq V]

theorem Valid.advance {graph : Multigraph V E} {root : V} {finished : List V}
    {search : Search V E} (valid : Valid graph root finished search) :
    ∃ later, Valid graph root later (advance graph search) := by
  cases top : search.stack with
  | nil =>
      refine ⟨finished, ?_⟩
      simpa only [DepthFirst.advance, top] using valid
  | cons first rest =>
      obtain ⟨node, index⟩ := first
      cases atIndex : (graph.out node)[index]? with
      | none =>
          refine ⟨node :: finished, ?_⟩
          simpa only [DepthFirst.advance, top, atIndex] using valid.turn_end top atIndex
      | some edge =>
          cases shade : search.color (graph.target edge) with
          | gray =>
              refine ⟨finished, ?_⟩
              simpa only [DepthFirst.advance, top, atIndex, shade] using
                valid.turn_gray top atIndex shade
          | white =>
              refine ⟨finished, ?_⟩
              simpa only [DepthFirst.advance, top, atIndex, shade] using
                valid.turn_white top atIndex shade
          | black =>
              refine ⟨finished, ?_⟩
              simpa only [DepthFirst.advance, top, atIndex, shade] using
                valid.turn_black top atIndex shade

private theorem initial_valid (graph : Multigraph V E) (root : V) :
    Valid graph root [] (Search.initial root : Search V E) where
  stacked := by
    intro node
    by_cases same : node = root <;> simp [Search.initial, same]
  black := by
    intro node
    by_cases same : node = root <;> simp [Search.initial, same]
  finishedDistinct := List.nodup_nil
  stackDistinct := List.nodup_singleton root
  sorted := trivial
  frontier := Frontier.top (fun _ member => by cases member) trivial
  rooted := by simp [Search.initial]
  reached := by
    intro node seen
    by_cases same : node = root
    · rw [same]
      exact Relation.ReflTransGen.refl
    · exact absurd (by simp [Search.initial, same]) seen
  backs := fun _ member => by cases member

/-! ### The finished search -/

private theorem workload_le {graph : Multigraph V E} (nodes : List V) :
    ∑ node ∈ nodes.toFinset, ((graph.out node).length + 1) ≤ workload graph nodes := by
  induction nodes with
  | nil => exact Nat.le_refl 0
  | cons node rest ih =>
      have split : ∑ other ∈ insert node rest.toFinset, ((graph.out other).length + 1) ≤
          ((graph.out node).length + 1) + ∑ other ∈ rest.toFinset, ((graph.out other).length + 1) := by
        by_cases member : node ∈ rest.toFinset
        · rw [Finset.insert_eq_of_mem member]
          exact Nat.le_add_left _ _
        · rw [Finset.sum_insert member]
      rw [List.toFinset_cons]
      simp only [workload, List.map_cons, List.sum_cons] at ih ⊢
      omega

private theorem turnsLeft_initial (graph : Multigraph V E) (root : V) (nodes : Finset V)
    (member : root ∈ nodes) :
    turnsLeft graph nodes (Search.initial root) = ∑ node ∈ nodes, ((graph.out node).length + 1) := by
  unfold turnsLeft pendingTurns whiteTurns
  rw [← Finset.add_sum_erase nodes _ member, ← Finset.add_sum_erase nodes
    (fun node => (graph.out node).length + 1) member]
  have others : ∀ node ∈ nodes.erase root,
      (if (Search.initial root : Search V E).color node = .white
        then (graph.out node).length + 1 else 0) = (graph.out node).length + 1 := by
    intro node present
    simp [Search.initial, Finset.ne_of_mem_erase present]
  rw [Finset.sum_congr rfl others]
  simp [Search.initial]

theorem explore_idle (graph : Multigraph V E) (search : Search V E)
    (idle : search.stack = []) (fuel : Nat) : explore graph fuel search = search := by
  induction fuel with
  | zero => rfl
  | succ fuel ih =>
      have same : advance graph search = search := by simp only [advance, idle]
      rw [explore, same, ih]

private theorem explore_finishes {graph : Multigraph V E} {root : V} (nodes : Finset V)
    (closed : ∀ node edge, edge ∈ graph.out node → graph.target edge ∈ nodes) (fuel : Nat) :
    ∀ (finished : List V) (search : Search V E), Valid graph root finished search →
      turnsLeft graph nodes search ≤ fuel →
        ∃ later, Valid graph root later (explore graph fuel search) ∧
          (explore graph fuel search).stack = [] := by
  induction fuel with
  | zero =>
      intro finished search valid bound
      refine ⟨finished, valid, ?_⟩
      cases top : search.stack with
      | nil => exact top
      | cons first rest =>
          simp only [turnsLeft, pendingTurns, top, List.map_cons, List.sum_cons] at bound
          omega
  | succ fuel ih =>
      intro finished search valid bound
      cases top : search.stack with
      | nil =>
          rw [explore_idle graph search top]
          exact ⟨finished, valid, top⟩
      | cons first rest =>
          obtain ⟨later, next⟩ := valid.advance
          have spent := turnsLeft_advance graph nodes closed search valid.seen (by rw [top]; simp)
          exact ih later _ next (by omega)

private def finishRank : List V → V → Nat
  | [], _ => 0
  | head :: earlier, node => if node = head then earlier.length + 1 else finishRank earlier node

private theorem finishRank_le (finished : List V) (node : V) :
    finishRank finished node ≤ finished.length := by
  induction finished with
  | nil => exact Nat.le_refl 0
  | cons head earlier ih =>
      unfold finishRank
      split
      · exact Nat.le_refl _
      · exact Nat.le_succ_of_le ih

private theorem Sorted.descends {graph : Multigraph V E} {back : List E} (finished : List V)
    (distinct : finished.Nodup) (sorted : Sorted graph back finished) (node : V)
    (member : node ∈ finished) (edge : E) (outgoing : edge ∈ graph.out node) (off : edge ∉ back) :
    graph.target edge ∈ finished ∧
      finishRank finished (graph.target edge) < finishRank finished node := by
  induction finished with
  | nil => cases member
  | cons head earlier ih =>
      have parts := List.nodup_cons.mp distinct
      rcases List.mem_cons.mp member with same | below
      · have inside := (sorted.1 edge (same ▸ outgoing)).resolve_left off
        have different : graph.target edge ≠ head := fun equal => parts.1 (equal ▸ inside)
        refine ⟨List.mem_cons_of_mem _ inside, ?_⟩
        rw [finishRank, if_neg different, finishRank, if_pos same]
        exact Nat.lt_succ_of_le (finishRank_le earlier _)
      · obtain ⟨inside, smaller⟩ := ih parts.2 sorted.2 below
        have targetNe : graph.target edge ≠ head := fun equal => parts.1 (equal ▸ inside)
        have nodeNe : node ≠ head := fun equal => parts.1 (equal ▸ below)
        refine ⟨List.mem_cons_of_mem _ inside, ?_⟩
        rw [finishRank, if_neg targetNe, finishRank, if_neg nodeNe]
        exact smaller

end Finish

/-- The edges outside the set descend, lead everywhere, and every edge of the set closes a
cycle of such edges. -/
structure Classified (graph : Multigraph V E) (root : V) (back : List E) : Prop where
  descending : ∃ rank : V → Nat, ∀ node, graph.Reaches root node →
    ∀ edge ∈ graph.out node, edge ∉ back → rank (graph.target edge) < rank node
  spanning : ∀ node, graph.Reaches root node → graph.ReachesOff back root node
  closing : ∀ edge ∈ back, edge ∈ graph.out (graph.source edge) ∧
    graph.Reaches root (graph.source edge) ∧
      graph.ReachesOff back (graph.target edge) (graph.source edge)

private theorem Trail.off {graph : Multigraph V E} {search : Search V E} {node last : V}
    (trail : Trail graph search node last) : graph.ReachesOff search.back node last :=
  Relation.ReflTransGen.mono
    (fun _ _ ⟨edge, member, _, off, atTarget⟩ => ⟨edge, member, off, atTarget⟩) _ _ trail

private theorem Valid.classified [DecidableEq V] {graph : Multigraph V E} {root : V} {finished : List V}
    {search : Search V E} (valid : Valid graph root finished search) (idle : search.stack = []) :
    Classified graph root search.back := by
  have noGray : ∀ node, search.color node ≠ .gray := by
    intro node gray
    have member := (valid.stacked node).mpr gray
    rw [idle] at member
    cases member
  have done : ∀ node, search.color node ≠ .white → node ∈ finished := by
    intro node seen
    apply (valid.black node).mpr
    cases shade : search.color node with
    | white => exact absurd shade seen
    | gray => exact absurd shade (noGray node)
    | black => rfl
  have complete : ∀ node, graph.Reaches root node → node ∈ finished := by
    intro node path
    induction path with
    | refl => exact done root valid.rooted
    | tail _ adjacent ih =>
        obtain ⟨edge, outgoing, rfl⟩ := adjacent
        by_cases inBack : edge ∈ search.back
        · exact done _ (valid.backs edge inBack).2.2.1
        · exact (valid.sorted.descends finished valid.finishedDistinct _ ih edge outgoing
            inBack).1
  have seen : ∀ node ∈ finished, search.color node ≠ .white := by
    intro node member
    rw [(valid.black node).mp member]
    exact Color.noConfusion
  refine ⟨⟨finishRank finished, ?_⟩, ?_, ?_⟩
  · intro node path edge outgoing off
    exact (valid.sorted.descends finished valid.finishedDistinct node (complete node path) edge
      outgoing off).2
  · intro node path
    exact (valid.reached node (seen node (complete node path))).off
  · intro edge inBack
    obtain ⟨outgoing, scanned, _, trail⟩ := valid.backs edge inBack
    have sourceSeen : search.color (graph.source edge) ≠ .white := by
      rcases scanned with black | ⟨index, member, _⟩
      · rw [black]
        exact Color.noConfusion
      · rw [idle] at member
        cases member
    exact ⟨outgoing, (valid.reached _ sourceSeen).off.reaches, trail.off⟩

private theorem explore_workload [DecidableEq V] (graph : Multigraph V E) (nodes : List V) (root : V)
    (rootMember : root ∈ nodes)
    (closed : ∀ node edge, edge ∈ graph.out node → graph.target edge ∈ nodes) :
    ∃ finished, Valid graph root finished
        (explore graph (workload graph nodes) (Search.initial root)) ∧
      (explore graph (workload graph nodes) (Search.initial root)).stack = [] := by
  have bound : turnsLeft graph nodes.toFinset (Search.initial root) ≤ workload graph nodes := by
    rw [turnsLeft_initial graph root _ (List.mem_toFinset.mpr rootMember)]
    exact workload_le nodes
  exact explore_finishes nodes.toFinset
    (fun node edge outgoing => List.mem_toFinset.mpr (closed node edge outgoing))
    (workload graph nodes) [] (Search.initial root) (initial_valid graph root) bound

theorem explore_workload_idle [DecidableEq V] (graph : Multigraph V E) (nodes : List V) (root : V)
    (rootMember : root ∈ nodes)
    (closed : ∀ node edge, edge ∈ graph.out node → graph.target edge ∈ nodes) :
    (explore graph (workload graph nodes) (Search.initial root)).stack = [] := by
  obtain ⟨_, _, idle⟩ := explore_workload graph nodes root rootMember closed
  exact idle

theorem backEdges_classified [DecidableEq V] (graph : Multigraph V E) (nodes : List V) (root : V)
    (rootMember : root ∈ nodes)
    (closed : ∀ node edge, edge ∈ graph.out node → graph.target edge ∈ nodes) :
    Classified graph root (backEdges graph nodes root) := by
  obtain ⟨finished, valid, idle⟩ := explore_workload graph nodes root rootMember closed
  exact valid.classified idle

theorem Classified.back_eq_nil {graph : Multigraph V E} {root : V} {back : List E}
    (classified : Classified graph root back)
    (acyclic : ∀ node, graph.Reaches root node → ¬ graph.OnCycle node) : back = [] := by
  cases back with
  | nil => rfl
  | cons edge rest =>
      obtain ⟨outgoing, path, around⟩ := classified.closing edge List.mem_cons_self
      exact absurd (Relation.TransGen.head' ⟨edge, outgoing, rfl⟩ around.reaches)
        (acyclic _ path)

/-- The source of a back edge and every node on a kept path to it from its target lie on
a cycle. -/
theorem Classified.onCycle {graph : Multigraph V E} {root : V} {back : List E}
    (classified : Classified graph root back) {edge : E} (inBack : edge ∈ back) {node : V}
    (above : graph.Reaches (graph.target edge) node) (below : graph.Reaches node (graph.source edge)) :
    graph.OnCycle node := by
  have outgoing := (classified.closing edge inBack).1
  exact Relation.TransGen.trans_left
    (Relation.TransGen.trans_right below (Relation.TransGen.single ⟨edge, outgoing, rfl⟩)) above

end DepthFirst
end Library
