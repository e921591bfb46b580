import Assemblix.Library.DirectedCycle
import Mathlib.Algebra.GroupWithZero.Nat
import Mathlib.Algebra.Order.BigOperators.Group.Finset

/-
The nodes on a cycle, by one search with an explicit stack of work.

A node is numbered when the search enters it and stays on the component stack until every node
it leads to is read. The low link of a node being read is the least number on that stack its part
of the search has seen; where it is the node's own number, the nodes above it are one component
and leave the stack. Components of two nodes and more are what lies on a cycle.
-/

namespace Library

open Worklist (Reaches OnCycle)

variable {V : Type}

/-- Tops of both stacks are their heads. A low link is read for numbered nodes only. -/
structure ComponentSearch (V : Type) where
  counter : Nat
  index : V → Option Nat
  lowlink : V → Nat
  onStack : V → Bool
  stack : List V
  work : List (V × Nat)
  result : List V

namespace ComponentSearch

section Computed

variable [DecidableEq V]

def initial : ComponentSearch V :=
  { counter := 0
    index := fun _ => none
    lowlink := fun _ => 0
    onStack := fun _ => false
    stack := []
    work := []
    result := [] }

def number (node : V) (search : ComponentSearch V) : ComponentSearch V :=
  { search with
    counter := search.counter + 1
    index := fun other => if other = node then some search.counter else search.index other
    lowlink := fun other => if other = node then search.counter else search.lowlink other
    onStack := fun other => if other = node then true else search.onStack other
    stack := node :: search.stack }

def enter (search : ComponentSearch V) : ComponentSearch V :=
  match search.work with
  | (node, 0) :: _ => search.number node
  | _ => search

def lower (search : ComponentSearch V) (node : V) (label : Nat) : ComponentSearch V :=
  { search with
    lowlink := fun other =>
      if other = node then min (search.lowlink node) label else search.lowlink other }

/-- The nodes down to the named one, and what stays below them. -/
def popComponent (node : V) : List V → List V × List V
  | [] => ([], [])
  | top :: rest =>
      if top = node then ([top], rest)
      else
        let popped := popComponent node rest
        (top :: popped.1, popped.2)

def close (search : ComponentSearch V) (node : V) : ComponentSearch V :=
  let popped := popComponent node search.stack
  { search with
    stack := popped.2
    onStack := fun other => if other ∈ popped.1 then false else search.onStack other
    result := if 1 < popped.1.length then search.result ++ popped.1 else search.result }

def scan (next : V → List V) (search : ComponentSearch V) : ComponentSearch V :=
  match search.work with
  | [] => search
  | (node, turn) :: rest =>
      match (next node)[turn]? with
      | some successor =>
          let moved := { search with work := (node, turn + 1) :: rest }
          match search.index successor with
          | none => { moved with work := (successor, 0) :: moved.work }
          | some label => if search.onStack successor then moved.lower node label else moved
      | none =>
          let ended := if search.index node = some (search.lowlink node) then search.close node
            else search
          match rest with
          | [] => { ended with work := [] }
          | (parent, _) :: _ =>
              { ended.lower parent (ended.lowlink node) with work := rest }

def explore (next : V → List V) : Nat → ComponentSearch V → ComponentSearch V
  | 0, search => search
  | fuel + 1, search => explore next fuel (scan next search.enter)

def fromRoot (next : V → List V) (fuel : Nat) (search : ComponentSearch V) (root : V) :
    ComponentSearch V :=
  if (search.index root).isSome then search
  else explore next fuel { search with work := [(root, 0)] }

end Computed

end ComponentSearch

def componentTurns (next : V → List V) (nodes : List V) : Nat :=
  (nodes.map (fun node => (next node).length + 1)).sum

/-- The nodes in components of two nodes and more; `nodes` bounds the search. -/
def nodesOnCycle [DecidableEq V] (next : V → List V) (nodes roots : List V) : List V :=
  (roots.foldl (ComponentSearch.fromRoot next (componentTurns next nodes))
    ComponentSearch.initial).result

namespace ComponentSearch

/-! ### What the search maintains -/

def label (search : ComponentSearch V) (node : V) : Nat := (search.index node).getD 0

def Seen (search : ComponentSearch V) (low : Nat) (node : V) : Prop :=
  search.index node ≠ none ∧ (node ∈ search.stack → low ≤ search.label node)

structure Frame (next : V → List V) (search : ComponentSearch V) (bound : Nat) (node : V)
    (turn : Nat) : Prop where
  stacked : node ∈ search.stack
  below : search.label node < bound
  bounded : search.lowlink node ≤ search.label node
  witnessed : ∃ other ∈ search.stack, search.label other = search.lowlink node ∧
    Reaches next node other
  scanned : ∀ inner ∈ search.stack, search.label node < search.label inner →
    search.label inner < bound → ∀ other ∈ next inner, search.Seen (search.lowlink node) other
  visited : ∀ other ∈ (next node).take turn, search.Seen (search.lowlink node) other

def Frames (next : V → List V) (search : ComponentSearch V) : Nat → List (V × Nat) → Prop
  | _, [] => True
  | bound, (node, turn) :: rest =>
      Frame next search bound node turn ∧ Frames next search (search.label node) rest

structure Sound (next : V → List V) (search : ComponentSearch V) : Prop where
  numbered : ∀ node label, search.index node = some label → label < search.counter
  stacked : ∀ node ∈ search.stack, search.index node ≠ none
  mirrored : ∀ node, search.onStack node = true ↔ node ∈ search.stack
  sorted : search.stack.Pairwise (fun upper under => search.label under < search.label upper)
  frames : Frames next search search.counter search.work
  begun : ∀ entry ∈ search.work.tail, 0 < entry.2
  anchored : ∀ node ∈ search.stack, ∃ entry ∈ search.work,
    search.label entry.1 ≤ search.label node ∧ Reaches next node entry.1
  reached : ∀ entry ∈ search.work, ∀ node ∈ search.stack,
    search.label entry.1 ≤ search.label node → Reaches next entry.1 node
  done : ∀ node, search.index node ≠ none → node ∉ search.stack →
    ∀ other ∈ next node, search.index other ≠ none ∧ other ∉ search.stack
  collected : ∀ node, node ∈ search.result ↔
    search.index node ≠ none ∧ node ∉ search.stack ∧ OnCycle next node

section Facts

variable {next : V → List V} {search : ComponentSearch V}

theorem label_of_index {node : V} {label : Nat} (found : search.index node = some label) :
    search.label node = label := by
  rw [ComponentSearch.label, found, Option.getD_some]

theorem Sound.label_lt (sound : search.Sound next) {node : V} (seen : search.index node ≠ none) :
    search.label node < search.counter := by
  obtain ⟨label, found⟩ := Option.ne_none_iff_exists'.mp seen
  rw [label_of_index found]
  exact sound.numbered node label found

theorem Sound.label_inj (sound : search.Sound next) {left right : V}
    (leftStacked : left ∈ search.stack) (rightStacked : right ∈ search.stack)
    (same : search.label left = search.label right) : left = right := by
  by_contra different
  rcases List.mem_iff_getElem.mp leftStacked with ⟨first, firstBound, atFirst⟩
  rcases List.mem_iff_getElem.mp rightStacked with ⟨second, secondBound, atSecond⟩
  rcases Nat.lt_trichotomy first second with before | equal | after
  · have less := List.pairwise_iff_getElem.mp sound.sorted first second firstBound secondBound before
    rw [atFirst, atSecond] at less
    omega
  · subst equal
    exact different (atFirst.symm.trans atSecond)
  · have less := List.pairwise_iff_getElem.mp sound.sorted second first secondBound firstBound after
    rw [atFirst, atSecond] at less
    omega

theorem Frames.entry {bound : Nat} {work : List (V × Nat)}
    (frames : Frames next search bound work) :
    ∀ entry ∈ work, entry.1 ∈ search.stack ∧ search.label entry.1 < bound := by
  induction work generalizing bound with
  | nil =>
      intro entry member
      cases member
  | cons head rest ih =>
      obtain ⟨node, turn⟩ := head
      obtain ⟨frame, others⟩ := frames
      intro entry member
      rcases List.mem_cons.mp member with rfl | member
      · exact ⟨frame.stacked, frame.below⟩
      · obtain ⟨stacked, below⟩ := ih others entry member
        exact ⟨stacked, Nat.lt_trans below frame.below⟩

theorem Frame.of_same {after : ComponentSearch V} {bound : Nat} {node : V} {turn : Nat}
    (frame : Frame next search bound node turn)
    (stacked : ∀ other ∈ search.stack, search.index other ≠ none)
    (labels : ∀ other, search.index other ≠ none → after.index other = search.index other)
    (lowlink : after.lowlink node = search.lowlink node)
    (kept : ∀ other ∈ search.stack, search.label other < bound → other ∈ after.stack)
    (new : ∀ other ∈ after.stack, other ∈ search.stack ∨ bound ≤ after.label other) :
    Frame next after bound node turn := by
  have label : ∀ other, search.index other ≠ none → after.label other = search.label other := by
    intro other seen
    rw [ComponentSearch.label, labels other seen, ComponentSearch.label]
  have here := label node (stacked node frame.stacked)
  have seen : ∀ other, search.Seen (search.lowlink node) other →
      after.Seen (after.lowlink node) other := by
    intro other before
    refine ⟨labels other before.1 ▸ before.1, ?_⟩
    intro member
    rw [lowlink, label other before.1]
    rcases new other member with old | above
    · exact before.2 old
    · rw [label other before.1] at above
      have low := frame.bounded
      have under := frame.below
      omega
  refine ⟨kept node frame.stacked frame.below, here ▸ frame.below, ?_, ?_, ?_, ?_⟩
  · rw [lowlink, here]
    exact frame.bounded
  · obtain ⟨other, member, low, path⟩ := frame.witnessed
    have under : search.label other < bound :=
      low ▸ Nat.lt_of_le_of_lt frame.bounded frame.below
    refine ⟨other, kept other member under, ?_, path⟩
    rw [label other (stacked other member), low, lowlink]
  · intro inner member above under other successor
    rcases new inner member with old | beyond
    · rw [label inner (stacked inner old)] at above under
      rw [here] at above
      exact seen other (frame.scanned inner old above under other successor)
    · omega
  · exact fun other read => seen other (frame.visited other read)

theorem Frames.of_same {after : ComponentSearch V} {bound : Nat} {work : List (V × Nat)}
    (frames : Frames next search bound work)
    (stacked : ∀ other ∈ search.stack, search.index other ≠ none)
    (labels : ∀ other, search.index other ≠ none → after.index other = search.index other)
    (lowlink : ∀ entry ∈ work, after.lowlink entry.1 = search.lowlink entry.1)
    (kept : ∀ other ∈ search.stack, search.label other < bound → other ∈ after.stack)
    (new : ∀ other ∈ after.stack, other ∈ search.stack ∨ bound ≤ after.label other) :
    Frames next after bound work := by
  induction work generalizing bound with
  | nil => trivial
  | cons head rest ih =>
      obtain ⟨node, turn⟩ := head
      obtain ⟨frame, others⟩ := frames
      rw [List.forall_mem_cons] at lowlink
      refine ⟨frame.of_same stacked labels lowlink.1 kept new, ?_⟩
      have same : after.label node = search.label node := by
        rw [ComponentSearch.label, labels node (stacked node frame.stacked), ComponentSearch.label]
      have under := frame.below
      rw [same]
      apply ih others lowlink.2
      · exact fun other member low => kept other member (Nat.lt_trans low under)
      · exact fun other member => (new other member).imp_right (fun beyond => by omega)

/-- A frame is kept when its own low link falls to that of a node it leads to, and when its bound
grows over nodes whose successors are read. -/
theorem Frame.lowered {after : ComponentSearch V} {bound larger : Nat} {node : V} {turn more : Nat}
    (frame : Frame next search bound node turn)
    (index : after.index = search.index) (stack : after.stack = search.stack)
    (wider : bound ≤ larger) (falls : after.lowlink node ≤ search.lowlink node)
    (witnessed : after.lowlink node = search.lowlink node ∨ ∃ other ∈ search.stack,
      search.label other = after.lowlink node ∧ Reaches next node other)
    (above : ∀ inner ∈ search.stack, bound ≤ search.label inner → search.label inner < larger →
      ∀ other ∈ next inner, search.Seen (after.lowlink node) other)
    (visited : ∀ other ∈ (next node).take more, other ∈ (next node).take turn ∨
      search.Seen (after.lowlink node) other) :
    Frame next after larger node more := by
  have label : after.label = search.label := by
    funext other
    rw [ComponentSearch.label, index, ComponentSearch.label]
  have seen : ∀ low other, search.Seen low other → after.lowlink node ≤ low →
      after.Seen (after.lowlink node) other := by
    intro low other before under
    refine ⟨index ▸ before.1, ?_⟩
    intro member
    rw [label]
    exact Nat.le_trans under (before.2 (stack ▸ member))
  refine ⟨stack ▸ frame.stacked, ?_, ?_, ?_, ?_, ?_⟩
  · rw [label]
    exact Nat.lt_of_lt_of_le frame.below wider
  · rw [label]
    exact Nat.le_trans falls frame.bounded
  · rw [stack, label]
    rcases witnessed with same | found
    · rw [same]
      exact frame.witnessed
    · exact found
  · rw [stack, label]
    intro inner member beyond under other successor
    by_cases inside : search.label inner < bound
    · exact seen _ other (frame.scanned inner member beyond inside other successor) falls
    · exact seen _ other (above inner member (Nat.le_of_not_lt inside) under other successor)
        (Nat.le_refl _)
  · intro other read
    rcases visited other read with before | new
    · exact seen _ other (frame.visited other before) falls
    · exact seen _ other new (Nat.le_refl _)

/-- The top node has read one more successor; only its low link may have changed. -/
theorem Sound.advance (sound : search.Sound next) {after : ComponentSearch V} {node : V} {turn : Nat}
    {rest : List (V × Nat)} (working : search.work = (node, turn) :: rest)
    (index : after.index = search.index) (stack : after.stack = search.stack)
    (onStack : after.onStack = search.onStack) (counter : after.counter = search.counter)
    (result : after.result = search.result) (work : after.work = (node, turn + 1) :: rest)
    (lowlink : ∀ other, other ≠ node → after.lowlink other = search.lowlink other)
    (frame : Frame next after search.counter node (turn + 1)) : after.Sound next := by
  have label : after.label = search.label := by
    funext other
    rw [ComponentSearch.label, index, ComponentSearch.label]
  have frames := sound.frames
  rw [working] at frames
  have below : ∀ entry ∈ rest, entry.1 ≠ node := by
    intro entry member same
    have less := (frames.2.entry entry member).2
    rw [same] at less
    exact Nat.lt_irrefl _ less
  constructor
  case numbered =>
    rw [index, counter]
    exact sound.numbered
  case stacked =>
    rw [index, stack]
    exact sound.stacked
  case mirrored =>
    rw [onStack, stack]
    exact sound.mirrored
  case sorted =>
    rw [stack, label]
    exact sound.sorted
  case frames =>
    rw [work, counter]
    refine ⟨frame, ?_⟩
    rw [label]
    exact frames.2.of_same sound.stacked (fun other _ => congrFun index other)
      (fun entry member => lowlink _ (below entry member)) (fun other member _ => stack ▸ member)
      (fun other member => .inl (stack ▸ member))
  case begun =>
    have begun := sound.begun
    rw [working] at begun
    rw [work]
    exact begun
  case anchored =>
    rw [stack, label, work]
    intro other member
    obtain ⟨entry, listed, low, path⟩ := sound.anchored other member
    rw [working] at listed
    rcases List.mem_cons.mp listed with rfl | listed
    · exact ⟨(node, turn + 1), List.mem_cons_self, low, path⟩
    · exact ⟨entry, List.mem_cons_of_mem _ listed, low, path⟩
  case reached =>
    rw [stack, label, work]
    intro entry listed other member low
    rcases List.mem_cons.mp listed with rfl | listed
    · exact sound.reached (node, turn) (working ▸ List.mem_cons_self) other member low
    · exact sound.reached entry (working ▸ List.mem_cons_of_mem _ listed) other member low
  case done =>
    rw [index, stack]
    exact sound.done
  case collected =>
    rw [result, index, stack]
    exact sound.collected

theorem Sound.top_stacked (sound : search.Sound next) {node : V} {turn : Nat}
    {rest : List (V × Nat)} (working : search.work = (node, turn) :: rest) : node ∈ search.stack :=
  (sound.frames.entry (node, turn) (working ▸ List.mem_cons_self)).1

theorem Sound.read_above (sound : search.Sound next) {node : V} {turn : Nat}
    {rest : List (V × Nat)} (working : search.work = (node, turn) :: rest)
    (ended : (next node)[turn]? = none) : ∀ inner ∈ search.stack,
      search.label node ≤ search.label inner → ∀ other ∈ next inner,
        search.Seen (search.lowlink node) other := by
  have frames := sound.frames
  rw [working] at frames
  intro inner member above other successor
  rcases Nat.lt_or_eq_of_le above with beyond | equal
  · exact frames.1.scanned inner member beyond (sound.label_lt (sound.stacked inner member)) other
      successor
  · have same := sound.label_inj frames.1.stacked member equal
    subst same
    rw [List.getElem?_eq_none_iff] at ended
    refine frames.1.visited other ?_
    rw [List.take_of_length_le ended]
    exact successor

/-- The witness is anchored below the node, so the node is not the root of the search. -/
theorem Sound.anchored_below (sound : search.Sound next) {node : V} {turn : Nat}
    {rest : List (V × Nat)} (working : search.work = (node, turn) :: rest)
    (lower : search.lowlink node < search.label node) :
    ∃ entry ∈ rest, search.label entry.1 ≤ search.lowlink node ∧ Reaches next node entry.1 := by
  have frames := sound.frames
  rw [working] at frames
  obtain ⟨other, member, low, path⟩ := frames.1.witnessed
  obtain ⟨entry, listed, bound, way⟩ := sound.anchored other member
  rw [low] at bound
  rw [working] at listed
  rcases List.mem_cons.mp listed with rfl | listed
  · exact absurd bound (Nat.not_le_of_lt lower)
  · exact ⟨entry, listed, bound, path.trans way⟩

theorem Sound.initial : (ComponentSearch.initial : ComponentSearch V).Sound next where
  numbered := fun _ _ found => by cases found
  stacked := fun _ member => by cases member
  mirrored := fun _ => by simp [ComponentSearch.initial]
  sorted := List.Pairwise.nil
  frames := trivial
  begun := fun _ member => by cases member
  anchored := fun _ member => by cases member
  reached := fun _ member => by cases member
  done := fun _ seen => absurd rfl seen
  collected := fun node => by simp [ComponentSearch.initial]

/-! ### A new node -/

/-- The work below a node that is entered: none at a root, else its parent, one successor on. -/
def Entered (next : V → List V) (search : ComponentSearch V) (node : V)
    (moved : List (V × Nat)) : Prop :=
  (search.work = [] ∧ moved = []) ∨ ∃ parent turn rest,
    search.work = (parent, turn) :: rest ∧ moved = (parent, turn + 1) :: rest ∧
      (next parent)[turn]? = some node

structure Numbers (search : ComponentSearch V) (node : V) (moved : List (V × Nat))
    (after : ComponentSearch V) : Prop where
  counter : after.counter = search.counter + 1
  index : after.index node = some search.counter
  lowlink : after.lowlink node = search.counter
  others : ∀ other, other ≠ node → after.index other = search.index other ∧
    after.lowlink other = search.lowlink other ∧ after.onStack other = search.onStack other
  onStack : after.onStack node = true
  stack : after.stack = node :: search.stack
  work : after.work = (node, 0) :: moved
  result : after.result = search.result

section Numbered

variable {node : V} {moved : List (V × Nat)} {after : ComponentSearch V}

theorem Entered.before (entered : Entered next search node moved) {entry : V × Nat}
    (member : entry ∈ moved) : ∃ before ∈ search.work, before.1 = entry.1 := by
  rcases entered with ⟨_, rfl⟩ | ⟨parent, turn, rest, working, rfl, _⟩
  · cases member
  · rw [working]
    rcases List.mem_cons.mp member with rfl | member
    · exact ⟨(parent, turn), List.mem_cons_self, rfl⟩
    · exact ⟨entry, List.mem_cons_of_mem _ member, rfl⟩

theorem Entered.later (entered : Entered next search node moved) {entry : V × Nat}
    (listed : entry ∈ search.work) : ∃ later ∈ moved, later.1 = entry.1 := by
  rcases entered with ⟨empty, rfl⟩ | ⟨parent, turn, rest, working, rfl, _⟩
  · rw [empty] at listed
    cases listed
  · rw [working] at listed
    rcases List.mem_cons.mp listed with rfl | listed
    · exact ⟨(parent, turn + 1), List.mem_cons_self, rfl⟩
    · exact ⟨entry, List.mem_cons_of_mem _ listed, rfl⟩

theorem Sound.entered_reaches (sound : search.Sound next) (entered : Entered next search node moved)
    {entry : V × Nat} (member : entry ∈ moved) : Reaches next entry.1 node := by
  rcases entered with ⟨_, rfl⟩ | ⟨parent, turn, rest, working, rfl, found⟩
  · cases member
  · have frames := sound.frames
    rw [working] at frames
    have step : Reaches next parent node :=
      Relation.ReflTransGen.single (List.mem_of_getElem? found)
    rcases List.mem_cons.mp member with rfl | member
    · exact step
    · have lower := (frames.2.entry entry member).2
      have path := sound.reached entry (working ▸ List.mem_cons_of_mem _ member) parent
        frames.1.stacked (Nat.le_of_lt lower)
      exact path.trans step

theorem Sound.entered_begun (sound : search.Sound next) (entered : Entered next search node moved) :
    ∀ entry ∈ moved, 0 < entry.2 := by
  rcases entered with ⟨_, rfl⟩ | ⟨parent, turn, rest, working, rfl, _⟩
  · intro entry member
    cases member
  · intro entry member
    rcases List.mem_cons.mp member with rfl | member
    · exact Nat.succ_pos turn
    · exact sound.begun entry (by rw [working]; exact member)

theorem ne_fresh (fresh : search.index node = none) {other : V} (seen : search.index other ≠ none) :
    other ≠ node := by
  rintro rfl
  exact seen fresh

variable (numbers : Numbers search node moved after)
include numbers

theorem Numbers.label_node : after.label node = search.counter := by
  rw [ComponentSearch.label, numbers.index, Option.getD_some]

variable (fresh : search.index node = none)
include fresh

theorem Numbers.index_eq {other : V} (seen : search.index other ≠ none) :
    after.index other = search.index other := (numbers.others other (ne_fresh fresh seen)).1

theorem Numbers.label_eq {other : V} (seen : search.index other ≠ none) :
    after.label other = search.label other := by
  rw [ComponentSearch.label, numbers.index_eq fresh seen, ComponentSearch.label]

variable (sound : search.Sound next)
include sound

theorem Numbers.sorted :
    after.stack.Pairwise (fun upper under => after.label under < after.label upper) := by
  rw [numbers.stack, List.pairwise_cons]
  constructor
  · intro other member
    rw [numbers.label_eq fresh (sound.stacked other member), numbers.label_node]
    exact sound.label_lt (sound.stacked other member)
  · apply sound.sorted.imp_of_mem
    intro upper under upperMember underMember less
    rw [numbers.label_eq fresh (sound.stacked upper upperMember),
      numbers.label_eq fresh (sound.stacked under underMember)]
    exact less

theorem Numbers.mirrored (other : V) : after.onStack other = true ↔ other ∈ after.stack := by
  rw [numbers.stack, List.mem_cons, ← sound.mirrored]
  by_cases same : other = node
  · subst same
    exact ⟨fun _ => .inl rfl, fun _ => numbers.onStack⟩
  · rw [(numbers.others other same).2.2]
    exact ⟨.inr, fun either => either.resolve_left same⟩

theorem Numbers.done {other : V} (seen : after.index other ≠ none) (off : other ∉ after.stack) :
    ∀ successor ∈ next other, after.index successor ≠ none ∧ successor ∉ after.stack := by
  rw [numbers.stack, List.mem_cons, not_or] at off
  rw [(numbers.others other off.1).1] at seen
  intro successor member
  obtain ⟨known, gone⟩ := sound.done other seen off.2 successor member
  refine ⟨numbers.index_eq fresh known ▸ known, ?_⟩
  rw [numbers.stack, List.mem_cons, not_or]
  exact ⟨ne_fresh fresh known, gone⟩

theorem Numbers.collected (other : V) : other ∈ after.result ↔
    after.index other ≠ none ∧ other ∉ after.stack ∧ OnCycle next other := by
  rw [numbers.result, sound.collected, numbers.stack, List.mem_cons, not_or]
  by_cases same : other = node
  · rw [same, fresh]
    simp
  · rw [(numbers.others other same).1]
    simp [same]

/-- The node's own frame: nothing is above it and it has read nothing. -/
theorem Numbers.frame : Frame next after after.counter node 0 := by
  have here := numbers.label_node
  have stacked : node ∈ after.stack := numbers.stack ▸ List.mem_cons_self
  rw [numbers.counter]
  refine ⟨stacked, ?_, ?_, ?_, ?_, ?_⟩
  · rw [here]
    exact Nat.lt_succ_self _
  · rw [numbers.lowlink, here]
  · exact ⟨node, stacked, by rw [numbers.lowlink, here], .refl⟩
  · intro inner member beyond _
    rw [numbers.stack] at member
    rcases List.mem_cons.mp member with rfl | member
    · exact absurd beyond (Nat.lt_irrefl _)
    · rw [numbers.label_eq fresh (sound.stacked inner member), here] at beyond
      have bound := sound.label_lt (sound.stacked inner member)
      omega
  · intro other read
    simp at read

variable (entered : Entered next search node moved)
include entered

/-- The frames below it: the parent has read the node, whose number is above its low link. -/
theorem Numbers.frames : Frames next after search.counter moved := by
  have kept : ∀ other ∈ search.stack, search.label other < search.counter →
      other ∈ after.stack := fun other member _ => numbers.stack ▸ List.mem_cons_of_mem _ member
  have new : ∀ other ∈ after.stack, other ∈ search.stack ∨ search.counter ≤ after.label other := by
    intro other member
    rw [numbers.stack] at member
    rcases List.mem_cons.mp member with rfl | member
    · exact .inr (Nat.le_of_eq numbers.label_node.symm)
    · exact .inl member
  rcases entered with ⟨_, rfl⟩ | ⟨parent, turn, rest, working, rfl, found⟩
  · trivial
  · have frames := sound.frames
    rw [working] at frames
    have same := frames.of_same sound.stacked (fun other => numbers.index_eq fresh) (by
      intro entry member
      have seen := sound.stacked entry.1 (frames.entry entry member).1
      exact (numbers.others _ (ne_fresh fresh seen)).2.1) kept new
    have frame := same.1
    refine ⟨⟨frame.stacked, frame.below, frame.bounded, frame.witnessed, frame.scanned, ?_⟩, same.2⟩
    intro other read
    rw [List.take_add_one, found] at read
    rcases List.mem_append.mp read with earlier | last
    · exact frame.visited other earlier
    · have equal : other = node := by simpa using last
      subst equal
      refine ⟨by rw [numbers.index]; exact Option.some_ne_none _, fun _ => ?_⟩
      rw [numbers.label_node]
      exact Nat.le_of_lt (Nat.lt_of_le_of_lt frame.bounded frame.below)

theorem Numbers.anchored {other : V} (member : other ∈ after.stack) : ∃ entry ∈ after.work,
    after.label entry.1 ≤ after.label other ∧ Reaches next other entry.1 := by
  rw [numbers.work]
  rw [numbers.stack] at member
  rcases List.mem_cons.mp member with rfl | member
  · exact ⟨(other, 0), List.mem_cons_self, Nat.le_refl _, .refl⟩
  · obtain ⟨entry, listed, low, path⟩ := sound.anchored other member
    obtain ⟨later, present, same⟩ := entered.later listed
    refine ⟨later, List.mem_cons_of_mem _ present, ?_, same ▸ path⟩
    rw [same, numbers.label_eq fresh (sound.stacked _ (sound.frames.entry entry listed).1),
      numbers.label_eq fresh (sound.stacked other member)]
    exact low

theorem Numbers.reached {entry : V × Nat} (listed : entry ∈ after.work) {other : V}
    (member : other ∈ after.stack) (low : after.label entry.1 ≤ after.label other) :
    Reaches next entry.1 other := by
  rw [numbers.work] at listed
  rw [numbers.stack] at member
  rcases List.mem_cons.mp listed with rfl | waiting
  · rcases List.mem_cons.mp member with rfl | member
    · exact .refl
    · rw [numbers.label_node, numbers.label_eq fresh (sound.stacked other member)] at low
      have bound := sound.label_lt (sound.stacked other member)
      omega
  · rcases List.mem_cons.mp member with rfl | member
    · exact sound.entered_reaches entered waiting
    · obtain ⟨before, present, same⟩ := entered.before waiting
      rw [← same] at low ⊢
      rw [numbers.label_eq fresh (sound.stacked _ (sound.frames.entry before present).1),
        numbers.label_eq fresh (sound.stacked other member)] at low
      exact sound.reached before present other member low

theorem Numbers.toSound : after.Sound next where
  numbered := by
    intro other value found
    rw [numbers.counter]
    by_cases same : other = node
    · rw [same, numbers.index] at found
      cases found
      exact Nat.lt_succ_self _
    · rw [(numbers.others other same).1] at found
      exact Nat.lt_succ_of_lt (sound.numbered other value found)
  stacked := by
    rw [numbers.stack]
    intro other member
    rcases List.mem_cons.mp member with rfl | member
    · rw [numbers.index]
      exact Option.some_ne_none _
    · rw [numbers.index_eq fresh (sound.stacked other member)]
      exact sound.stacked other member
  mirrored := numbers.mirrored fresh sound
  sorted := numbers.sorted fresh sound
  frames := by
    rw [numbers.work]
    refine ⟨numbers.frame fresh sound, ?_⟩
    rw [numbers.label_node]
    exact numbers.frames fresh sound entered
  begun := numbers.work ▸ sound.entered_begun entered
  anchored := fun _ => numbers.anchored fresh sound entered
  reached := fun _ listed _ => numbers.reached fresh sound entered listed
  done := fun _ => numbers.done fresh sound
  collected := numbers.collected fresh sound

end Numbered

end Facts

section Turns

variable [DecidableEq V] {next : V → List V} {search : ComponentSearch V}

theorem number_index (search : ComponentSearch V) {node other : V} (different : other ≠ node) :
    (search.number node).index other = search.index other := if_neg different

theorem numbers_number (search : ComponentSearch V) (node : V) (moved : List (V × Nat)) :
    Numbers search node moved
      (({ search with work := (node, 0) :: moved } : ComponentSearch V).number node) where
  counter := rfl
  index := if_pos rfl
  lowlink := if_pos rfl
  others := fun _ different => ⟨if_neg different, if_neg different, if_neg different⟩
  onStack := if_pos rfl
  stack := rfl
  work := rfl
  result := rfl

theorem Sound.number (sound : search.Sound next) {node : V} (fresh : search.index node = none)
    {moved : List (V × Nat)} (entered : Entered next search node moved) :
    (({ search with work := (node, 0) :: moved } : ComponentSearch V).number node).Sound next :=
  (numbers_number search node moved).toSound fresh sound entered

/-! ### A successor that was seen before -/

theorem Sound.read (sound : search.Sound next) {node successor : V} {turn label : Nat}
    {rest : List (V × Nat)} (working : search.work = (node, turn) :: rest)
    (found : (next node)[turn]? = some successor) (seen : search.index successor = some label) :
    (if search.onStack successor then
        ({ search with work := (node, turn + 1) :: rest } : ComponentSearch V).lower node label
      else { search with work := (node, turn + 1) :: rest }).Sound next := by
  have frames := sound.frames
  rw [working] at frames
  have known : search.index successor ≠ none := seen ▸ Option.some_ne_none _
  have one : ∀ low, (search.onStack successor = true → low ≤ label) → ∀ other,
      other ∈ (next node).take (turn + 1) → other ∈ (next node).take turn ∨
        search.Seen low other := by
    intro low under other read
    rw [List.take_add_one, found] at read
    rcases List.mem_append.mp read with earlier | last
    · exact .inl earlier
    · have same : other = successor := by simpa using last
      subst same
      refine .inr ⟨known, fun member => ?_⟩
      rw [label_of_index seen]
      exact under ((sound.mirrored other).mpr member)
  have nothing : ∀ low, ∀ inner ∈ search.stack, search.counter ≤ search.label inner →
      search.label inner < search.counter → ∀ other ∈ next inner, search.Seen low other := by
    intro low inner _ above under
    omega
  split
  · rename_i stacked
    have member := (sound.mirrored successor).mp stacked
    refine sound.advance working rfl rfl rfl rfl rfl rfl (fun other different => if_neg different) ?_
    have low : (({ search with work := (node, turn + 1) :: rest } : ComponentSearch V).lower node
        label).lowlink node = min (search.lowlink node) label := if_pos rfl
    refine frames.1.lowered rfl rfl (Nat.le_refl _) (low ▸ Nat.min_le_left _ _) ?_ (nothing _)
      (one _ (fun _ => low ▸ Nat.min_le_right _ _))
    rw [low]
    rcases Nat.le_total (search.lowlink node) label with under | beyond
    · exact .inl (Nat.min_eq_left under)
    · refine .inr ⟨successor, member, ?_, .single (List.mem_of_getElem? found)⟩
      rw [label_of_index seen, Nat.min_eq_right beyond]
  · rename_i off
    refine sound.advance working rfl rfl rfl rfl rfl rfl (fun other _ => rfl) ?_
    exact frames.1.lowered rfl rfl (Nat.le_refl _) (Nat.le_refl _) (.inl rfl) (nothing _)
      (one _ (fun stacked => absurd stacked off))

/-! ### The end of a node -/

def leave (search : ComponentSearch V) (node : V) : List (V × Nat) → ComponentSearch V
  | [] => { search with work := [] }
  | (parent, turn) :: rest =>
      { search.lower parent (search.lowlink node) with work := (parent, turn) :: rest }

theorem leave_index (search : ComponentSearch V) (node : V) (rest : List (V × Nat)) :
    (search.leave node rest).index = search.index := by
  cases rest <;> rfl

theorem leave_stack (search : ComponentSearch V) (node : V) (rest : List (V × Nat)) :
    (search.leave node rest).stack = search.stack := by
  cases rest <;> rfl

theorem leave_onStack (search : ComponentSearch V) (node : V) (rest : List (V × Nat)) :
    (search.leave node rest).onStack = search.onStack := by
  cases rest <;> rfl

theorem leave_counter (search : ComponentSearch V) (node : V) (rest : List (V × Nat)) :
    (search.leave node rest).counter = search.counter := by
  cases rest <;> rfl

theorem leave_result (search : ComponentSearch V) (node : V) (rest : List (V × Nat)) :
    (search.leave node rest).result = search.result := by
  cases rest <;> rfl

theorem leave_work (search : ComponentSearch V) (node : V) (rest : List (V × Nat)) :
    (search.leave node rest).work = rest := by
  cases rest <;> rfl

section Open

variable (sound : search.Sound next) {node : V} {turn : Nat} {rest : List (V × Nat)}
  (working : search.work = (node, turn) :: rest)
include sound working

theorem Sound.leave_open_frames (ended : (next node)[turn]? = none) (nonempty : rest ≠ []) :
    Frames next (search.leave node rest) search.counter rest := by
  have frames := sound.frames
  rw [working] at frames
  have above := sound.read_above working ended
  cases rest with
  | nil => exact absurd rfl nonempty
  | cons head tail =>
      obtain ⟨parent, read⟩ := head
      obtain ⟨frame, others⟩ := frames.2
      have lowest : (search.leave node ((parent, read) :: tail)).lowlink parent =
          min (search.lowlink parent) (search.lowlink node) := if_pos rfl
      have down : Reaches next parent node :=
        sound.reached (parent, read) (working ▸ List.mem_cons_of_mem _ List.mem_cons_self) node
          frames.1.stacked (Nat.le_of_lt frame.below)
      refine ⟨frame.lowered rfl rfl (Nat.le_of_lt frames.1.below)
        (lowest ▸ Nat.min_le_left _ _) ?_ ?_ (fun _ read => .inl read), ?_⟩
      · rw [lowest]
        rcases Nat.le_total (search.lowlink parent) (search.lowlink node) with under | beyond
        · exact .inl (Nat.min_eq_left under)
        · obtain ⟨other, member, low, path⟩ := frames.1.witnessed
          exact .inr ⟨other, member, by rw [low, Nat.min_eq_right beyond], down.trans path⟩
      · rw [lowest]
        intro inner stacked beyond _ successor listed
        obtain ⟨known, within⟩ := above inner stacked beyond successor listed
        exact ⟨known, fun present => Nat.le_trans (Nat.min_le_right _ _) (within present)⟩
      · change Frames next _ (search.label parent) tail
        refine others.of_same sound.stacked (fun _ _ => rfl) ?_ (fun _ present _ => present)
          (fun _ present => .inl present)
        intro entry listed
        refine if_neg ?_
        intro same
        have less := (others.entry entry listed).2
        rw [same] at less
        exact Nat.lt_irrefl _ less

/-- A node whose low link is not its own number stays on the stack. -/
theorem Sound.leave_open (ended : (next node)[turn]? = none)
    (unclosed : search.index node ≠ some (search.lowlink node)) :
    (search.leave node rest).Sound next := by
  have frames := sound.frames
  rw [working] at frames
  obtain ⟨label, found⟩ := Option.ne_none_iff_exists'.mp (sound.stacked node frames.1.stacked)
  have lower : search.lowlink node < search.label node := by
    refine Nat.lt_of_le_of_ne frames.1.bounded ?_
    intro same
    rw [same, label_of_index found] at unclosed
    exact unclosed found
  obtain ⟨anchor, anchorListed, anchorBound, anchorPath⟩ := sound.anchored_below working lower
  have label_eq : (search.leave node rest).label = search.label := by
    funext node'
    rw [ComponentSearch.label, leave_index, ComponentSearch.label]
  constructor
  case numbered =>
    rw [leave_index, leave_counter]
    exact sound.numbered
  case stacked =>
    rw [leave_index, leave_stack]
    exact sound.stacked
  case mirrored =>
    rw [leave_onStack, leave_stack]
    exact sound.mirrored
  case sorted =>
    rw [leave_stack, label_eq]
    exact sound.sorted
  case frames =>
    rw [leave_work, leave_counter]
    exact sound.leave_open_frames working ended (List.ne_nil_of_mem anchorListed)
  case begun =>
    have begun := sound.begun
    rw [working] at begun
    rw [leave_work]
    exact fun entry listed => begun entry (List.mem_of_mem_tail listed)
  case anchored =>
    rw [leave_stack, label_eq, leave_work]
    intro inner stacked
    obtain ⟨entry, listed, bound, way⟩ := sound.anchored inner stacked
    rw [working] at listed
    rcases List.mem_cons.mp listed with rfl | listed
    · change search.label node ≤ search.label inner at bound
      exact ⟨anchor, anchorListed, by omega, way.trans anchorPath⟩
    · exact ⟨entry, listed, bound, way⟩
  case reached =>
    rw [leave_stack, label_eq, leave_work]
    intro entry listed
    exact sound.reached entry (working ▸ List.mem_cons_of_mem _ listed)
  case done =>
    rw [leave_index, leave_stack]
    exact sound.done
  case collected =>
    rw [leave_result, leave_index, leave_stack]
    exact sound.collected

end Open

theorem popComponent_split {node : V} {stack : List V} (member : node ∈ stack) :
    ∃ upper under, stack = upper ++ node :: under ∧ node ∉ upper ∧
      popComponent node stack = (upper ++ [node], under) := by
  induction stack with
  | nil => cases member
  | cons top rest ih =>
      by_cases same : top = node
      · subst same
        exact ⟨[], rest, rfl, List.not_mem_nil, by rw [popComponent, if_pos rfl, List.nil_append]⟩
      · obtain ⟨upper, under, rfl, absent, popped⟩ :=
          ih ((List.mem_cons.mp member).resolve_left (fun equal => same equal.symm))
        refine ⟨top :: upper, under, rfl, ?_, ?_⟩
        · rw [List.mem_cons, not_or]
          exact ⟨fun equal => same equal.symm, absent⟩
        · rw [popComponent, if_neg same, popped]
          rfl

theorem Sound.mem_component (sound : search.Sound next) {node : V} (member : node ∈ search.stack)
    (other : V) : other ∈ (popComponent node search.stack).1 ↔
      other ∈ search.stack ∧ search.label node ≤ search.label other := by
  obtain ⟨upper, under, split, _, popped⟩ := popComponent_split member
  have sorted := sound.sorted
  rw [split, List.pairwise_append] at sorted
  obtain ⟨_, lower, across⟩ := sorted
  rw [List.pairwise_cons] at lower
  rw [popped, split, List.mem_append, List.mem_append, List.mem_singleton, List.mem_cons]
  constructor
  · rintro (above | rfl)
    · exact ⟨.inl above, Nat.le_of_lt (across other above node List.mem_cons_self)⟩
    · exact ⟨.inr (.inl rfl), Nat.le_refl _⟩
  · rintro ⟨above | same | below, beyond⟩
    · exact .inl above
    · exact .inr same
    · exact absurd (lower.1 other below) (Nat.not_lt_of_le beyond)

theorem Sound.mem_remainder (sound : search.Sound next) {node : V} (member : node ∈ search.stack)
    (other : V) : other ∈ (popComponent node search.stack).2 ↔
      other ∈ search.stack ∧ search.label other < search.label node := by
  obtain ⟨upper, under, split, _, popped⟩ := popComponent_split member
  have sorted := sound.sorted
  rw [split, List.pairwise_append] at sorted
  obtain ⟨_, lower, across⟩ := sorted
  rw [List.pairwise_cons] at lower
  rw [popped, split, List.mem_append, List.mem_cons]
  constructor
  · exact fun below => ⟨.inr (.inr below), lower.1 other below⟩
  · rintro ⟨above | rfl | below, less⟩
    · exact absurd (across other above node List.mem_cons_self) (Nat.not_lt_of_lt less)
    · exact absurd less (Nat.lt_irrefl _)
    · exact below

theorem one_lt_component {node : V} {stack : List V} (member : node ∈ stack) :
    1 < (popComponent node stack).1.length ↔
      ∃ other ∈ (popComponent node stack).1, other ≠ node := by
  obtain ⟨upper, under, _, absent, popped⟩ := popComponent_split member
  rw [popped]
  cases upper with
  | nil => simp
  | cons top rest =>
      rw [List.mem_cons, not_or] at absent
      simp only [List.cons_append, List.length_cons, List.length_append, List.length_nil]
      constructor
      · exact fun _ => ⟨top, List.mem_cons_self, fun same => absent.1 same.symm⟩
      · intro _
        omega

/-- What leaves the stack leads nowhere else but to nodes that left it before. -/
theorem Sound.component_closed (sound : search.Sound next) {node : V} {turn : Nat}
    {rest : List (V × Nat)} (working : search.work = (node, turn) :: rest)
    (ended : (next node)[turn]? = none) (closed : search.lowlink node = search.label node)
    {first last : V} (stacked : first ∈ search.stack)
    (above : search.label node ≤ search.label first) (path : Reaches next first last) :
    (last ∈ search.stack ∧ search.label node ≤ search.label last) ∨
      (search.index last ≠ none ∧ last ∉ search.stack) := by
  have read := sound.read_above working ended
  rw [closed] at read
  induction path with
  | refl => exact .inl ⟨stacked, above⟩
  | @tail middle last _ step ih =>
      rcases ih with ⟨member, beyond⟩ | ⟨seen, off⟩
      · obtain ⟨known, within⟩ := read middle member beyond last step
        by_cases present : last ∈ search.stack
        · exact .inl ⟨present, within present⟩
        · exact .inr ⟨known, present⟩
      · exact .inr (sound.done middle seen off last step)

theorem Sound.component_returns (sound : search.Sound next) {node : V} {turn : Nat}
    {rest : List (V × Nat)} (working : search.work = (node, turn) :: rest)
    (ended : (next node)[turn]? = none) (closed : search.lowlink node = search.label node)
    {first : V} (stacked : first ∈ search.stack)
    (above : search.label node ≤ search.label first) : Reaches next first node := by
  have frames := sound.frames
  rw [working] at frames
  obtain ⟨entry, listed, _, path⟩ := sound.anchored first stacked
  have back := sound.component_closed working ended closed stacked above path
  have onStack := (sound.frames.entry entry listed).1
  rw [working] at listed
  rcases List.mem_cons.mp listed with rfl | listed
  · exact path
  · have less := (frames.2.entry entry listed).2
    rcases back with ⟨_, beyond⟩ | ⟨_, off⟩
    · exact absurd less (Nat.not_lt_of_le beyond)
    · exact absurd onStack off

theorem Sound.component_onCycle (sound : search.Sound next) {node : V} {turn : Nat}
    {rest : List (V × Nat)} (working : search.work = (node, turn) :: rest)
    (ended : (next node)[turn]? = none) (closed : search.lowlink node = search.label node)
    (member : node ∈ search.stack) {first : V}
    (inside : first ∈ (popComponent node search.stack).1) :
    OnCycle next first ↔ 1 < (popComponent node search.stack).1.length := by
  have entered : ∀ other, other ∈ (popComponent node search.stack).1 →
      Reaches next node other ∧ Reaches next other node := by
    intro other popped
    obtain ⟨stacked, above⟩ := (sound.mem_component member other).mp popped
    exact ⟨sound.reached (node, turn) (working ▸ List.mem_cons_self) other stacked above,
      sound.component_returns working ended closed stacked above⟩
  obtain ⟨stacked, above⟩ := (sound.mem_component member first).mp inside
  rw [one_lt_component member]
  constructor
  · rintro ⟨other, different, there, back⟩
    have popped : other ∈ (popComponent node search.stack).1 := by
      rcases sound.component_closed working ended closed stacked above there with within | gone
      · exact (sound.mem_component member other).mpr within
      · -- What has left the stack leads to nothing on it.
        have away : ∀ last, Reaches next other last →
            search.index last ≠ none ∧ last ∉ search.stack := by
          intro last path
          induction path with
          | refl => exact gone
          | tail _ step ih => exact sound.done _ ih.1 ih.2 _ step
        exact absurd stacked (away first back).2
    by_cases same : first = node
    · exact ⟨other, popped, same ▸ different⟩
    · exact ⟨first, inside, same⟩
  · rintro ⟨other, popped, different⟩
    by_cases same : first = node
    · subst same
      exact ⟨other, different, entered other popped⟩
    · obtain ⟨down, up⟩ := entered first inside
      exact ⟨node, fun equal => same equal.symm, up, down⟩

section Closed

variable (sound : search.Sound next) {node : V}
include sound

theorem Sound.close_mirrored (member : node ∈ search.stack) (other : V) :
    (search.close node).onStack other = true ↔ other ∈ (search.close node).stack := by
  have component := sound.mem_component member other
  change (if other ∈ (popComponent node search.stack).1 then false
    else search.onStack other) = true ↔ other ∈ (popComponent node search.stack).2
  rw [sound.mem_remainder member]
  by_cases popped : other ∈ (popComponent node search.stack).1
  · have above := (component.mp popped).2
    rw [if_pos popped]
    exact ⟨(fun impossible => nomatch impossible), fun below => by omega⟩
  · rw [if_neg popped, sound.mirrored]
    constructor
    · intro stacked
      have under : ¬ search.label node ≤ search.label other :=
        fun above => popped (component.mpr ⟨stacked, above⟩)
      exact ⟨stacked, Nat.lt_of_not_le under⟩
    · exact fun both => both.1

theorem Sound.close_sorted (member : node ∈ search.stack) :
    (search.close node).stack.Pairwise
      (fun upper under => search.label under < search.label upper) := by
  obtain ⟨upper, under, split, _, popped⟩ := popComponent_split member
  have sorted := sound.sorted
  rw [split, List.pairwise_append, List.pairwise_cons] at sorted
  change (popComponent node search.stack).2.Pairwise _
  rw [popped]
  exact sorted.2.1.2

variable {turn : Nat} {rest : List (V × Nat)} (working : search.work = (node, turn) :: rest)
include working

theorem Sound.leave_closed_frames (closed : search.lowlink node = search.label node) :
    Frames next ((search.close node).leave node rest) search.counter rest := by
  have frames := sound.frames
  rw [working] at frames
  have remainder := sound.mem_remainder frames.1.stacked
  cases rest with
  | nil => trivial
  | cons head tail =>
      obtain ⟨parent, read⟩ := head
      have lower := frames.2.1.below
      have low := frames.2.1.bounded
      have lowest : ∀ entry ∈ (parent, read) :: tail,
          ((search.close node).leave node ((parent, read) :: tail)).lowlink entry.1 =
            search.lowlink entry.1 := by
        intro entry _
        change (if entry.1 = parent then min (search.lowlink parent) (search.lowlink node)
          else search.lowlink entry.1) = _
        split
        · rename_i same
          rw [same]
          exact Nat.min_eq_left (by omega)
        · rfl
      have index : ((search.close node).leave node ((parent, read) :: tail)).index =
          search.index := rfl
      have kept := frames.2.of_same sound.stacked (fun other _ => congrFun index other) lowest
        (fun other stacked under => (remainder other).mpr ⟨stacked, under⟩)
        (fun other present => .inl ((remainder other).mp present).1)
      -- Nothing on the stack lies above the bound the frame had.
      refine ⟨kept.1.lowered rfl rfl (Nat.le_of_lt frames.1.below) (Nat.le_refl _) (.inl rfl) ?_
        (fun _ before => .inl before), kept.2⟩
      intro inner present above
      exact absurd above (Nat.not_le_of_lt ((remainder inner).mp present).2)

variable (ended : (next node)[turn]? = none) (closed : search.lowlink node = search.label node)
include ended closed

theorem Sound.close_done {other : V} (seen : search.index other ≠ none)
    (off : other ∉ (search.close node).stack) : ∀ successor ∈ next other,
      search.index successor ≠ none ∧ successor ∉ (search.close node).stack := by
  have remainder := sound.mem_remainder (sound.top_stacked working)
  intro successor step
  by_cases stacked : other ∈ search.stack
  · have above : search.label node ≤ search.label other := by
      by_contra under
      exact off ((remainder other).mpr ⟨stacked, Nat.lt_of_not_le under⟩)
    obtain ⟨known, within⟩ := sound.read_above working ended other stacked above successor step
    refine ⟨known, ?_⟩
    intro present
    obtain ⟨listed, below⟩ := (remainder successor).mp present
    have beyond := within listed
    omega
  · obtain ⟨known, gone⟩ := sound.done other seen stacked successor step
    exact ⟨known, fun present => gone ((remainder successor).mp present).1⟩

theorem Sound.close_collected (other : V) : other ∈ (search.close node).result ↔
    search.index other ≠ none ∧ other ∉ (search.close node).stack ∧ OnCycle next other := by
  have member := sound.top_stacked working
  have component := sound.mem_component member other
  have was := sound.collected other
  change other ∈ (if 1 < (popComponent node search.stack).1.length
    then search.result ++ (popComponent node search.stack).1 else search.result) ↔
      _ ∧ other ∉ (popComponent node search.stack).2 ∧ _
  rw [sound.mem_remainder member]
  by_cases popped : other ∈ (popComponent node search.stack).1
  · obtain ⟨stacked, above⟩ := component.mp popped
    have missing : other ∉ search.result := fun listed => (was.mp listed).2.1 stacked
    have cycle := sound.component_onCycle working ended closed member popped
    have known := sound.stacked other stacked
    have off : ¬ (other ∈ search.stack ∧ search.label other < search.label node) :=
      fun both => absurd both.2 (Nat.not_lt_of_le above)
    by_cases two : 1 < (popComponent node search.stack).1.length
    · rw [if_pos two]
      exact ⟨fun _ => ⟨known, off, cycle.mpr two⟩, fun _ => List.mem_append_right _ popped⟩
    · rw [if_neg two]
      exact ⟨fun listed => absurd listed missing, fun whole => absurd (cycle.mp whole.2.2) two⟩
  · have same : (other ∈ search.stack ∧ search.label other < search.label node) ↔
        other ∈ search.stack := by
      refine ⟨fun both => both.1, fun stacked => ⟨stacked, ?_⟩⟩
      exact Nat.lt_of_not_le (fun above => popped (component.mpr ⟨stacked, above⟩))
    rw [same, ← was]
    split
    · rw [List.mem_append]
      exact ⟨fun listed => listed.resolve_right popped, .inl⟩
    · exact Iff.rfl

end Closed

theorem Sound.leave_closed (sound : search.Sound next) {node : V} {turn : Nat}
    {rest : List (V × Nat)} (working : search.work = (node, turn) :: rest)
    (ended : (next node)[turn]? = none) (own : search.index node = some (search.lowlink node)) :
    ((search.close node).leave node rest).Sound next := by
  have closed : search.lowlink node = search.label node := (label_of_index own).symm
  have member := sound.top_stacked working
  have remainder := sound.mem_remainder member
  have index : ((search.close node).leave node rest).index = search.index := leave_index _ _ _
  have label : ((search.close node).leave node rest).label = search.label := by
    funext other
    rw [ComponentSearch.label, index, ComponentSearch.label]
  constructor
  case numbered =>
    rw [index, leave_counter]
    exact sound.numbered
  case stacked =>
    rw [index, leave_stack]
    exact fun other present => sound.stacked other ((remainder other).mp present).1
  case mirrored =>
    rw [leave_onStack, leave_stack]
    exact sound.close_mirrored member
  case sorted =>
    rw [leave_stack, label]
    exact sound.close_sorted member
  case frames =>
    rw [leave_work, leave_counter]
    exact sound.leave_closed_frames working closed
  case begun =>
    have begun := sound.begun
    rw [working] at begun
    rw [leave_work]
    exact fun entry listed => begun entry (List.mem_of_mem_tail listed)
  case anchored =>
    rw [leave_stack, label, leave_work]
    intro other present
    obtain ⟨stacked, under⟩ := (remainder other).mp present
    obtain ⟨entry, listed, bound, path⟩ := sound.anchored other stacked
    rw [working] at listed
    rcases List.mem_cons.mp listed with rfl | listed
    · exact absurd under (Nat.not_lt_of_le bound)
    · exact ⟨entry, listed, bound, path⟩
  case reached =>
    rw [leave_stack, label, leave_work]
    intro entry listed other present
    exact sound.reached entry (working ▸ List.mem_cons_of_mem _ listed) other
      ((remainder other).mp present).1
  case done =>
    rw [index, leave_stack]
    exact fun _ => sound.close_done working ended closed
  case collected =>
    rw [leave_result, index, leave_stack]
    exact sound.close_collected working ended closed

/-! ### The loop -/

inductive Turned (next : V → List V) (search : ComponentSearch V) : ComponentSearch V → Prop
  | idle (working : search.work = []) : Turned next search search
  | deeper {node successor : V} {turn : Nat} {rest : List (V × Nat)}
      (working : search.work = (node, turn) :: rest)
      (found : (next node)[turn]? = some successor) (fresh : search.index successor = none) :
      Turned next search { search with work := (successor, 0) :: (node, turn + 1) :: rest }
  | read {node successor : V} {turn label : Nat} {rest : List (V × Nat)}
      (working : search.work = (node, turn) :: rest)
      (found : (next node)[turn]? = some successor) (seen : search.index successor = some label) :
      Turned next search
        (if search.onStack successor then
          ({ search with work := (node, turn + 1) :: rest } : ComponentSearch V).lower node label
        else { search with work := (node, turn + 1) :: rest })
  | ended {node : V} {turn : Nat} {rest : List (V × Nat)}
      (working : search.work = (node, turn) :: rest) (ended : (next node)[turn]? = none) :
      Turned next search
        ((if search.index node = some (search.lowlink node) then search.close node
          else search).leave node rest)

theorem scan_turned (next : V → List V) (search : ComponentSearch V) :
    Turned next search (scan next search) := by
  unfold scan
  cases working : search.work with
  | nil => exact .idle working
  | cons head rest =>
      obtain ⟨node, turn⟩ := head
      cases found : (next node)[turn]? with
      | some successor =>
          cases seen : search.index successor with
          | none =>
              simp only [found, seen]
              exact .deeper working found seen
          | some label =>
              simp only [found, seen]
              exact .read working found seen
      | none =>
          simp only [found]
          have turned := Turned.ended working found
          cases rest with
          | nil => exact turned
          | cons parent others => exact turned

theorem enter_of_begun {search : ComponentSearch V} (begun : ∀ entry ∈ search.work, 0 < entry.2) :
    search.enter = search := by
  unfold enter
  cases working : search.work with
  | nil => rfl
  | cons head rest =>
      obtain ⟨node, turn⟩ := head
      have positive := begun (node, turn) (working ▸ List.mem_cons_self)
      cases turn with
      | zero => exact absurd positive (Nat.lt_irrefl 0)
      | succ turn => rfl

theorem Sound.scan (sound : search.Sound next) :
    ((ComponentSearch.scan next search).enter).Sound next := by
  have begun := sound.begun
  have turned := scan_turned next search
  generalize ComponentSearch.scan next search = after at turned
  cases turned with
  | idle working =>
      rw [enter_of_begun (by simp [working])]
      exact sound
  | @deeper node successor turn rest working found fresh =>
      exact sound.number fresh (.inr ⟨node, turn, rest, working, rfl, found⟩)
  | @read node successor turn label rest working found seen =>
      rw [working] at begun
      rw [enter_of_begun]
      · exact sound.read working found seen
      · have work : (if search.onStack successor then
            ({ search with work := (node, turn + 1) :: rest } : ComponentSearch V).lower node label
          else { search with work := (node, turn + 1) :: rest }).work = (node, turn + 1) :: rest := by
          split <;> rfl
        rw [work]
        intro entry member
        rcases List.mem_cons.mp member with rfl | member
        · exact Nat.succ_pos turn
        · exact begun entry member
  | @ended node turn rest working ended =>
      rw [working] at begun
      rw [enter_of_begun (by rw [leave_work]; exact begun)]
      split
      · rename_i own
        exact sound.leave_closed working ended own
      · rename_i unclosed
        exact sound.leave_open working ended unclosed

/-! ### The search ends -/

def turnsLeft (next : V → List V) (nodes : Finset V) (search : ComponentSearch V) : Nat :=
  (search.work.map (fun entry => (next entry.1).length - entry.2 + 1)).sum +
    ∑ node ∈ nodes, if search.index node = none then (next node).length + 1 else 0

theorem turnsLeft_number {nodes : Finset V} {node : V} (member : node ∈ nodes)
    (fresh : search.index node = none) (moved : List (V × Nat)) :
    turnsLeft next nodes
        (({ search with work := (node, 0) :: moved } : ComponentSearch V).number node) =
      turnsLeft next nodes { search with work := moved } := by
  have others : ∑ other ∈ nodes.erase node,
      (if (({ search with work := (node, 0) :: moved } : ComponentSearch V).number node).index other =
        none then (next other).length + 1 else 0) =
        ∑ other ∈ nodes.erase node, if search.index other = none then (next other).length + 1
          else 0 := by
    apply Finset.sum_congr rfl
    intro other listed
    rw [number_index _ (Finset.ne_of_mem_erase listed)]
  unfold turnsLeft
  rw [← Finset.add_sum_erase nodes _ member, others, ← Finset.add_sum_erase nodes
    (fun other => if search.index other = none then (next other).length + 1 else 0) member]
  simp only [number, fresh, List.map_cons, List.sum_cons, if_true, Nat.sub_zero, reduceCtorEq,
    if_false]
  omega

theorem turnsLeft_scan {nodes : Finset V} (closed : ∀ node other, other ∈ next node → other ∈ nodes)
    (busy : search.work ≠ []) (begun : ∀ entry ∈ search.work.tail, 0 < entry.2) :
    turnsLeft next nodes (ComponentSearch.scan next search).enter + 1 =
      turnsLeft next nodes search := by
  have turned := scan_turned next search
  generalize ComponentSearch.scan next search = after at turned
  cases turned with
  | idle working => exact absurd working busy
  | @deeper node successor turn rest working found fresh =>
      have inside := closed node successor (List.mem_of_getElem? found)
      have before := (List.getElem?_eq_some_iff.mp found).1
      change turnsLeft next nodes (number successor
        { search with work := (successor, 0) :: (node, turn + 1) :: rest }) + 1 = _
      rw [turnsLeft_number inside fresh]
      simp only [turnsLeft, working, List.map_cons, List.sum_cons]
      omega
  | @read node successor turn label rest working found seen =>
      have before := (List.getElem?_eq_some_iff.mp found).1
      rw [working] at begun
      have work : (if search.onStack successor then
          ({ search with work := (node, turn + 1) :: rest } : ComponentSearch V).lower node label
        else { search with work := (node, turn + 1) :: rest }).work = (node, turn + 1) :: rest := by
        split <;> rfl
      have index : (if search.onStack successor then
          ({ search with work := (node, turn + 1) :: rest } : ComponentSearch V).lower node label
        else { search with work := (node, turn + 1) :: rest }).index = search.index := by
        split <;> rfl
      rw [enter_of_begun]
      · simp only [turnsLeft, work, index, working, List.map_cons, List.sum_cons]
        omega
      · rw [work]
        intro entry member
        rcases List.mem_cons.mp member with rfl | member
        · exact Nat.succ_pos turn
        · exact begun entry member
  | @ended node turn rest working ended =>
      rw [working] at begun
      rw [List.getElem?_eq_none_iff] at ended
      have index : ((if search.index node = some (search.lowlink node) then search.close node
          else search).leave node rest).index = search.index := by
        rw [leave_index]
        split <;> rfl
      rw [enter_of_begun (by rw [leave_work]; exact begun)]
      simp only [turnsLeft, leave_work, index, working, List.map_cons, List.sum_cons]
      omega

theorem enter_work (search : ComponentSearch V) : search.enter.work = search.work := by
  unfold enter
  split <;> rfl

theorem enter_index {node : V} (seen : search.index node ≠ none) :
    search.enter.index node ≠ none := by
  unfold enter
  split
  · rename_i other _ _
    by_cases same : node = other
    · subst same
      simp [number]
    · rw [number_index _ same]
      exact seen
  · exact seen

theorem scan_index (next : V → List V) (search : ComponentSearch V) :
    (ComponentSearch.scan next search).index = search.index := by
  have turned := scan_turned next search
  generalize ComponentSearch.scan next search = after at turned
  cases turned with
  | idle => rfl
  | deeper => rfl
  | read => split <;> rfl
  | ended =>
      rw [leave_index]
      split <;> rfl

theorem explore_idle (working : search.work = []) (fuel : Nat) :
    explore next fuel search = search := by
  induction fuel with
  | zero => rfl
  | succ fuel ih =>
      have stays : ComponentSearch.scan next search = search := by
        unfold ComponentSearch.scan
        rw [working]
      rw [explore, enter_of_begun (by simp [working]), stays, ih]

theorem explore_finishes {nodes : Finset V}
    (closed : ∀ node other, other ∈ next node → other ∈ nodes) (fuel : Nat) :
    ∀ search : ComponentSearch V, search.enter.Sound next →
      turnsLeft next nodes search.enter ≤ fuel →
        (explore next fuel search).Sound next ∧ (explore next fuel search).work = [] ∧
          ∀ node, search.enter.index node ≠ none → (explore next fuel search).index node ≠ none := by
  induction fuel with
  | zero =>
      intro search sound bound
      have working : search.work = [] := by
        rw [← enter_work]
        cases top : search.enter.work with
        | nil => rfl
        | cons head rest =>
            simp only [turnsLeft, top, List.map_cons, List.sum_cons] at bound
            omega
      rw [enter_of_begun (by simp [working])] at sound ⊢
      exact ⟨sound, working, fun _ seen => seen⟩
  | succ fuel ih =>
      intro search sound bound
      by_cases working : search.work = []
      · rw [explore_idle working]
        rw [enter_of_begun (by simp [working])] at sound ⊢
        exact ⟨sound, working, fun _ seen => seen⟩
      · have fewer := turnsLeft_scan closed (enter_work search ▸ working) sound.begun
        obtain ⟨after, idle, kept⟩ := ih (ComponentSearch.scan next search.enter) sound.scan (by omega)
        refine ⟨after, idle, ?_⟩
        intro node seen
        refine kept node (enter_index ?_)
        rw [scan_index]
        exact seen

/-! ### All roots -/

theorem turnsLeft_le {nodes : List V} (working : search.work = []) :
    turnsLeft next nodes.toFinset search ≤ componentTurns next nodes := by
  have all : turnsLeft next nodes.toFinset search ≤
      ∑ node ∈ nodes.toFinset, ((next node).length + 1) := by
    rw [turnsLeft, working, List.map_nil, List.sum_nil, Nat.zero_add]
    apply Finset.sum_le_sum
    intro node _
    split
    · exact Nat.le_refl _
    · exact Nat.zero_le _
  refine Nat.le_trans all ?_
  clear all
  induction nodes with
  | nil => exact Nat.le_refl 0
  | cons node rest ih =>
      rw [List.toFinset_cons, componentTurns, List.map_cons, List.sum_cons]
      by_cases member : node ∈ rest.toFinset
      · rw [Finset.insert_eq_of_mem member]
        exact Nat.le_trans ih (Nat.le_add_left _ _)
      · rw [Finset.sum_insert member]
        exact Nat.add_le_add_left ih _

theorem Sound.fromRoot {nodes : List V}
    (closed : ∀ node other, other ∈ next node → other ∈ nodes) (sound : search.Sound next)
    (working : search.work = []) {root : V} (known : root ∈ nodes) :
    (ComponentSearch.fromRoot next (componentTurns next nodes) search root).Sound next ∧
      (ComponentSearch.fromRoot next (componentTurns next nodes) search root).work = [] ∧
      (∀ node, search.index node ≠ none →
        (ComponentSearch.fromRoot next (componentTurns next nodes) search root).index node ≠ none) ∧
      (ComponentSearch.fromRoot next (componentTurns next nodes) search root).index root ≠ none := by
  unfold ComponentSearch.fromRoot
  by_cases seen : (search.index root).isSome
  · rw [if_pos seen]
    exact ⟨sound, working, fun _ before => before, Option.isSome_iff_ne_none.mp seen⟩
  · have fresh : search.index root = none := Option.not_isSome_iff_eq_none.mp seen
    rw [if_neg seen]
    have begins : (({ search with work := [(root, 0)] } : ComponentSearch V).enter).Sound next :=
      sound.number fresh (.inl ⟨working, rfl⟩)
    have bound : turnsLeft next nodes.toFinset
        (({ search with work := [(root, 0)] } : ComponentSearch V).number root) =
          turnsLeft next nodes.toFinset { search with work := [] } :=
      turnsLeft_number (List.mem_toFinset.mpr known) fresh []
    have enough : turnsLeft next nodes.toFinset { search with work := [] } ≤
        componentTurns next nodes := turnsLeft_le rfl
    obtain ⟨after, idle, kept⟩ := explore_finishes
      (fun node other step => List.mem_toFinset.mpr (closed node other step))
      (componentTurns next nodes) { search with work := [(root, 0)] } begins (bound ▸ enough)
    refine ⟨after, idle, fun node before => kept node (enter_index before), kept root ?_⟩
    change (ComponentSearch.number root _).index root ≠ none
    simp [ComponentSearch.number]

theorem Sound.fromRoots {nodes : List V}
    (closed : ∀ node other, other ∈ next node → other ∈ nodes) (roots : List V)
    (known : roots ⊆ nodes) (sound : search.Sound next) (working : search.work = []) :
    (roots.foldl (ComponentSearch.fromRoot next (componentTurns next nodes)) search).Sound next ∧
      (roots.foldl (ComponentSearch.fromRoot next (componentTurns next nodes)) search).work = [] ∧
      (∀ node, search.index node ≠ none →
        (roots.foldl (ComponentSearch.fromRoot next (componentTurns next nodes))
          search).index node ≠ none) ∧
      ∀ root ∈ roots, (roots.foldl (ComponentSearch.fromRoot next (componentTurns next nodes))
        search).index root ≠ none := by
  induction roots generalizing search with
  | nil => exact ⟨sound, working, fun _ seen => seen, fun _ member => by cases member⟩
  | cons root rest ih =>
      obtain ⟨here, others⟩ := List.cons_subset.mp known
      obtain ⟨after, idle, kept, seen⟩ := sound.fromRoot closed working here
      obtain ⟨final, ended, keeps, numbers⟩ := ih others after idle
      refine ⟨final, ended, fun node before => keeps node (kept node before), ?_⟩
      intro node member
      rcases List.mem_cons.mp member with rfl | member
      · exact keeps node seen
      · exact numbers node member

end Turns

end ComponentSearch

theorem mem_nodesOnCycle [DecidableEq V] {next : V → List V} {nodes roots : List V}
    (closed : ∀ node other, other ∈ next node → other ∈ nodes) (known : roots ⊆ nodes) {node : V}
    (rooted : node ∈ roots) :
    node ∈ nodesOnCycle next nodes roots ↔ OnCycle next node := by
  obtain ⟨sound, working, _, seen⟩ :=
    ComponentSearch.Sound.initial.fromRoots closed roots known rfl
  have off : node ∉ (roots.foldl (ComponentSearch.fromRoot next (componentTurns next nodes))
      ComponentSearch.initial).stack := by
    intro member
    obtain ⟨entry, listed, _⟩ := sound.anchored node member
    rw [working] at listed
    cases listed
  rw [nodesOnCycle, sound.collected]
  exact ⟨fun found => found.2.2, fun cycle => ⟨seen node rooted, off, cycle⟩⟩

end Library
