import Assemblix.Execution.TreeAssignment
import Assemblix.Library.JsonHeap

/-
The SET_VARIABLE node in memory.

The state and the project state are objects that other parts of a run hold too. The node copies
what it finds of them and writes in place to the copies and to values that expressions made, so
what it returns is what it computes from the two states as values, and no object that was there
before it started has changed, also when it fails on the way.
-/

namespace Assemblix

open Library

namespace SetVariableNode

/-! ### The node in memory -/

structure Memory (input : NodeInput) where
  heap : Heap
  state : Nat
  project : Nat
  holdsState : ∃ owned, heap.Holds (.obj input.state.entries) (.object state) owned
  holdsProject : ∃ owned, heap.Holds (.obj input.projectState.entries) (.object project) owned

/-- `state_updates` and `project_updates`; nothing but the node refers to the two dicts. -/
structure Slots where
  state : List (String × Slot) := []
  project : List (String × Slot) := []

def Slots.of (slots : Slots) : VariableTarget → List (String × Slot)
  | .state => slots.state
  | .project => slots.project

def Slots.put (slots : Slots) (target : VariableTarget) (fields : List (String × Slot)) : Slots :=
  match target with
  | .state => { slots with state := fields }
  | .project => { slots with project := fields }

def readFields (heap : Heap) (slots : List (String × Slot)) : Data :=
  Dict.ofList (slots.map (fun field => (field.1, heap.load heap.length field.2)))

/-- `copy.deepcopy` of what the state has, or a new dict. -/
def containerIn (heap : Heap) (source accumulator : List (String × Slot)) (top : String) :
    Heap × Slot :=
  match Dict.find top accumulator with
  | some held => (heap, held)
  | none =>
      match Dict.find top source with
      | none | some (.leaf .null) => Heap.allocate (.obj []) heap
      | some held => Heap.allocate (heap.load heap.length held) heap

def writeIn (heap : Heap) (source accumulator : List (String × Slot)) (parsed : Variable)
    (slot : Slot) : Heap × Except String (List (String × Slot)) :=
  match parsed.rest with
  | [] => (heap, .ok (Dict.assign parsed.top slot accumulator))
  | next :: rest =>
      let label := pathLabelPrefix parsed.target
      let fullPath := label ++ String.intercalate "." parsed.path
      match containerIn heap source accumulator parsed.top with
      | (copied, .object address) =>
          match copied.setNested address (next :: rest) slot with
          | (after, .ok ()) => (after, .ok (Dict.assign parsed.top (.object address) accumulator))
          | (after, .error (walked, other)) =>
              let place := String.intercalate "." (parsed.top :: walked)
              (after,
                .error s!"Cannot set '{fullPath}': intermediate '{place}' is {typeName other}, expected dict.")
      | (copied, .leaf other) =>
          (copied,
            .error s!"Cannot set '{fullPath}': intermediate '{label}{parsed.top}' is {typeName other}, expected dict.")

section

variable (cel : CelEvaluator) {input : NodeInput} (memory : Memory input)

def Memory.address : VariableTarget → Nat
  | .state => memory.state
  | .project => memory.project

def Memory.seen (heap : Heap) : NodeInput :=
  { input with
    state := readFields heap (heap.fieldsAt memory.state)
    projectState := readFields heap (heap.fieldsAt memory.project) }

def putIn (heap : Heap) (slots : Slots) (write : Write) : Heap × Except String Slots :=
  let made := Heap.allocate write.value heap
  let done := writeIn made.1 (made.1.fieldsAt (memory.address write.place.target))
    (slots.of write.place.target) write.place made.2
  (done.1, done.2.map (slots.put write.place.target))

def applyUpdateIn (heap : Heap) (slots : Slots) (update : UpdateVariable) :
    Heap × Except String Slots :=
  if isPlaceholder update then (heap, .ok slots)
  else
    match resolve cel (memory.seen heap) update with
    | .error error => (heap, .error error)
    | .ok write => putIn memory heap slots write

def applyUpdatesIn : List UpdateVariable → Heap → Slots → Heap × Except String Slots
  | [], heap, slots => (heap, .ok slots)
  | update :: rest, heap, slots =>
      match applyUpdateIn cel memory heap slots update with
      | (after, .error error) => (after, .error error)
      | (after, .ok next) => applyUpdatesIn rest after next

def executeIn (updates : List UpdateVariable) : Heap × Except String NodeOutput :=
  let done := applyUpdatesIn cel memory updates memory.heap {}
  (done.1, done.2.map (fun slots =>
    { data := input.data
      stateUpdates := reported (readFields done.1 slots.state)
      projectUpdates := reported (readFields done.1 slots.project)
      metadata := some {} }))

end

/-! ### Reading -/

theorem readFields_eq {heap : Heap} {data : Data} {slots : List (String × Slot)}
    {owned : List Nat} (held : heap.HoldsFields data.entries slots owned) :
    readFields heap slots = data := by
  unfold readFields
  rw [held.load_eq data.entries (Heap.owned_length (held.nodup data.entries))]
  exact Dict.empty_merge data

theorem fieldsAt_holds {heap : Heap} {fields : List (String × Json)} {address : Nat}
    {owned : List Nat} (held : heap.Holds (.obj fields) (.object address) owned) :
    ∃ below, heap.HoldsFields fields (heap.fieldsAt address) below := by
  rw [Heap.holds_object] at held
  obtain ⟨place, slots, below, same, found, _, _, inner⟩ := held
  cases same
  rw [Heap.fieldsAt, found, Option.getD_some]
  exact ⟨below, inner⟩

theorem Memory.source_holds {input : NodeInput} (memory : Memory input) {heap : Heap}
    (grown : memory.heap <+: heap) (target : VariableTarget) :
    ∃ below, heap.HoldsFields (sourceState input target).entries
      (heap.fieldsAt (memory.address target)) below := by
  cases target with
  | state =>
      obtain ⟨owned, held⟩ := memory.holdsState
      exact fieldsAt_holds (held.of_begins grown)
  | project =>
      obtain ⟨owned, held⟩ := memory.holdsProject
      exact fieldsAt_holds (held.of_begins grown)

theorem Memory.seen_eq {input : NodeInput} (memory : Memory input) {heap : Heap}
    (grown : memory.heap <+: heap) : memory.seen heap = input := by
  obtain ⟨_, state⟩ := memory.source_holds grown .state
  obtain ⟨_, project⟩ := memory.source_holds grown .project
  have stateSame : readFields heap (heap.fieldsAt memory.state) = input.state :=
    readFields_eq state
  have projectSame : readFields heap (heap.fieldsAt memory.project) = input.projectState :=
    readFields_eq project
  unfold Memory.seen
  rw [stateSame, projectSame]

/-! ### One write -/

section

variable {heap : Heap} {source accumulator : Data} {sourceSlots slots : List (String × Slot)}
  {sourceOwned owned : List Nat}

theorem containerIn_spec (top : String) {part : List Nat}
    (given : heap.HoldsFields source.entries sourceSlots sourceOwned)
    (reads : match Dict.find top accumulator.entries with
      | none => Dict.find top slots = none
      | some value => ∃ slot, Dict.find top slots = some slot ∧ heap.Holds value slot part) :
    heap <+: (containerIn heap sourceSlots slots top).1 ∧
      ∃ new, (containerIn heap sourceSlots slots top).1.Holds (container source accumulator top)
          (containerIn heap sourceSlots slots top).2 new ∧
        ∀ address ∈ new, address ∈ part ∨ heap.length ≤ address := by
  unfold containerIn container Dict.lookup
  cases found : Dict.find top accumulator.entries with
  | some value =>
      rw [found] at reads
      obtain ⟨slot, place, held⟩ := reads
      rw [place]
      exact ⟨List.prefix_refl heap, part, held, fun address member => .inl member⟩
  | none =>
      rw [found] at reads
      rw [reads]
      obtain ⟨other, _, _, _, copies, _⟩ := given.split top
      have new : ∀ value : Json, heap <+: (Heap.allocate value heap).1 ∧
          ∃ new, (Heap.allocate value heap).1.Holds value (Heap.allocate value heap).2 new ∧
            ∀ address ∈ new, address ∈ part ∨ heap.length ≤ address := by
        intro value
        obtain ⟨grown, new, held, after⟩ := Heap.allocate_spec value heap
        exact ⟨grown, new, held, fun address member => .inr (after address member)⟩
      cases present : Dict.find top source.entries with
      | none =>
          rw [present] at copies
          rw [copies]
          exact new (.obj [])
      | some value =>
          rw [present] at copies
          obtain ⟨slot, place, held⟩ := copies
          have loaded : heap.load heap.length slot = value :=
            held.load_eq value (Heap.owned_length (held.nodup value))
          rw [place]
          cases value with
          | null =>
              rw [Heap.holds_leaf _ (by simp)] at held
              rw [held.1]
              exact new (.obj [])
          | obj fields =>
              obtain ⟨address, _, _, rfl, _⟩ := (Heap.holds_object _ _ _ _).mp held
              dsimp only
              rw [loaded]
              exact new (.obj fields)
          | _ =>
              rw [Heap.holds_leaf _ (by simp)] at held
              rw [held.1] at loaded ⊢
              dsimp only
              rw [loaded]
              exact new _

/-- A write in memory is the write to the values; it changes no object but those of the updates
it adds to. -/
theorem writeIn_spec (parsed : Variable) {value : Json} {slot : Slot} {own : List Nat}
    (given : heap.HoldsFields source.entries sourceSlots sourceOwned)
    (held : heap.HoldsFields accumulator.entries slots owned)
    (made : heap.Holds value slot own) (apart : owned.Disjoint own) :
    heap.Kept owned (writeIn heap sourceSlots slots parsed slot).1 ∧
      match writeVariable source accumulator parsed value with
      | .ok data =>
          ∃ fields all, (writeIn heap sourceSlots slots parsed slot).2 = .ok fields ∧
            (writeIn heap sourceSlots slots parsed slot).1.HoldsFields data.entries fields all ∧
            ∀ address ∈ all, address ∈ owned ∨ address ∈ own ∨ heap.length ≤ address
      | .error error => (writeIn heap sourceSlots slots parsed slot).2 = .error error := by
  obtain ⟨target, top, rest⟩ := parsed
  obtain ⟨part, others, covers, disjoint, reads, replaced⟩ := held.split top
  have partOwned : part ⊆ owned := fun address member => (covers address).mpr (.inl member)
  have othersOwned : others ⊆ owned := fun address member => (covers address).mpr (.inr member)
  have bounded := (held.nodup accumulator.entries).2
  cases rest with
  | nil =>
      obtain ⟨all, holds, within⟩ := replaced heap value slot own (fun _ _ => rfl) made
        (fun address member taken => apart (othersOwned taken) member)
      refine ⟨Heap.Kept.refl heap owned, Dict.assign top slot slots, all, rfl, holds, ?_⟩
      intro address member
      rcases within address member with member | member
      · exact .inr (.inl member)
      · exact .inl (othersOwned member)
  | cons next rest =>
      obtain ⟨grown, new, heldNew, fresh⟩ := containerIn_spec top given reads
      unfold writeIn writeVariable
      dsimp only
      cases copied : containerIn heap sourceSlots slots top with
      | mk copy first =>
          rw [copied] at grown heldNew
          dsimp only at grown heldNew ⊢
          have keptAfter : ∀ {after : Heap}, copy.Kept new after → heap.Kept owned after := by
            rintro after ⟨longer, same⟩
            refine ⟨Nat.le_trans grown.length_le longer, fun address bound free => ?_⟩
            rw [same address (Nat.lt_of_lt_of_le bound grown.length_le) (fun member =>
              (fresh address member).elim (fun member => free (partOwned member))
                (fun taken => absurd bound (Nat.not_lt.mpr taken)))]
            exact Heap.getElem?_of_begins grown bound
          cases whole : container source accumulator top with
          | obj fields =>
              rw [whole] at heldNew
              obtain ⟨address, _, _, rfl, _⟩ := (Heap.holds_object _ _ _ _).mp heldNew
              have ownBound := (made.nodup value).2
              have apartNew : new.Disjoint own := by
                intro other member taken
                rcases fresh other member with member | member
                · exact apart (partOwned member) taken
                · exact absurd (ownBound other taken) (Nat.not_lt.mpr member)
              obtain ⟨kept, result⟩ := Heap.setsInPlace (next :: rest) heldNew
                (made.of_begins grown) apartNew
              dsimp only
              cases walked : copy.setNested address (next :: rest) slot with
              | mk after done =>
                  rw [walked] at kept result
                  dsimp only at kept result ⊢
                  cases nested : Json.setNested fields (next :: rest) value with
                  | error error =>
                      rw [nested] at result
                      dsimp only at result
                      rw [result]
                      exact ⟨keptAfter kept, rfl⟩
                  | ok written =>
                      rw [nested] at result
                      obtain ⟨finished, all, holds, within⟩ := result
                      rw [finished]
                      have known : ∀ other ∈ all, other ∈ part ∨ other ∈ own ∨
                          heap.length ≤ other := by
                        intro other member
                        rcases within other member with member | member | member
                        · exact (fresh other member).imp_right .inr
                        · exact .inr (.inl member)
                        · exact .inr (.inr (Nat.le_trans grown.length_le member))
                      have apartOthers : ∀ other ∈ all, other ∉ others := by
                        intro other member taken
                        rcases known other member with member | member | member
                        · exact disjoint member taken
                        · exact apart (othersOwned taken) member
                        · exact absurd (bounded other (othersOwned taken)) (Nat.not_lt.mpr member)
                      have keptOthers : ∀ other ∈ others, after[other]? = heap[other]? := by
                        intro other member
                        have bound := bounded other (othersOwned member)
                        rw [kept.2 other (Nat.lt_of_lt_of_le bound grown.length_le) (fun taken =>
                          (fresh other taken).elim (fun taken => disjoint taken member)
                            (fun taken => absurd bound (Nat.not_lt.mpr taken)))]
                        exact Heap.getElem?_of_begins grown bound
                      obtain ⟨every, holdsAll, inEvery⟩ := replaced after (.obj written)
                        (.object address) all keptOthers holds apartOthers
                      refine ⟨keptAfter kept, _, every, rfl, holdsAll, fun other member => ?_⟩
                      rcases inEvery other member with member | member
                      · exact (known other member).imp_left (fun member => partOwned member)
                      · exact .inl (othersOwned member)
          | _ =>
              rw [whole, Heap.holds_leaf _ (by simp)] at heldNew
              rw [heldNew.1]
              exact ⟨keptAfter (Heap.Kept.refl copy new), rfl⟩

end

/-! ### All writes -/

section

variable {cel : CelEvaluator} {input : NodeInput} {memory : Memory input} {heap : Heap}
  {writes : Writes} {slots : Slots}

/-- The updates so far, in objects of their own that the node made. -/
def Memory.Holding (memory : Memory input) (heap : Heap) (writes : Writes) (slots : Slots) :
    Prop :=
  memory.heap <+: heap ∧ ∃ owned : VariableTarget → List Nat,
    (∀ target, heap.HoldsFields (writes.of target).entries (slots.of target) (owned target)) ∧
    (∀ target, ∀ address ∈ owned target, memory.heap.length ≤ address) ∧
    ∀ target other, target ≠ other → (owned target).Disjoint (owned other)

theorem begins_of_kept {first after : Heap} {owned : List Nat} (grown : first <+: heap)
    (kept : heap.Kept owned after) (apart : ∀ address ∈ owned, first.length ≤ address) :
    first <+: after := by
  rw [List.prefix_iff_getElem?]
  intro address bound
  have inside : address < heap.length := Nat.lt_of_lt_of_le bound grown.length_le
  rw [kept.2 address inside (fun member => absurd bound (Nat.not_lt.mpr (apart address member))),
    Heap.getElem?_of_begins grown bound, List.getElem?_eq_getElem bound]

theorem Slots.of_put (slots : Slots) (target : VariableTarget) (fields : List (String × Slot)) :
    (slots.put target fields).of target = fields := by
  cases target <;> rfl

theorem Slots.of_put_other (slots : Slots) {target other : VariableTarget}
    (fields : List (String × Slot)) (different : other ≠ target) :
    (slots.put target fields).of other = slots.of other := by
  cases target <;> cases other <;> first | rfl | exact absurd rfl different

theorem putIn_spec (holding : memory.Holding heap writes slots) (write : Write) :
    memory.heap <+: (putIn memory heap slots write).1 ∧
      match put input writes write with
      | .ok after =>
          ∃ next, (putIn memory heap slots write).2 = .ok next ∧
            memory.Holding (putIn memory heap slots write).1 after next
      | .error error => (putIn memory heap slots write).2 = .error error := by
  obtain ⟨grown, owned, holds, above, apart⟩ := holding
  obtain ⟨more, own, made, new⟩ := Heap.allocate_spec write.value heap
  unfold putIn put
  dsimp only
  generalize write.place.target = target
  have grownMore := grown.trans more
  obtain ⟨_, given⟩ := memory.source_holds grownMore target
  have moved := fun other => (holds other).of_begins more
  have bounded := fun other => ((holds other).nodup _).2
  have apartOwn : (owned target).Disjoint own := Heap.disjoint_of_bounds (bounded target) new
  obtain ⟨kept, result⟩ := writeIn_spec write.place given (moved target) made apartOwn
  have begins := begins_of_kept grownMore kept (above target)
  refine ⟨begins, ?_⟩
  cases written : writeVariable (sourceState input target) (writes.of target) write.place
      write.value with
  | error error =>
      rw [written] at result
      dsimp only at result ⊢
      rw [result]
      rfl
  | ok data =>
      rw [written] at result
      obtain ⟨fields, all, done, holdsAll, within⟩ := result
      dsimp only
      rw [done]
      obtain ⟨parts, mine, others⟩ : ∃ parts : VariableTarget → List Nat,
          parts target = all ∧ ∀ other, other ≠ target → parts other = owned other :=
        ⟨Function.update owned target all, Function.update_self target all owned,
          fun other different => Function.update_of_ne different all owned⟩
      have separate : ∀ other, other ≠ target → all.Disjoint (owned other) := by
        intro other different address member taken
        have bound := bounded other address taken
        rcases within address member with member | member | member
        · exact apart other target different taken member
        · exact absurd bound (Nat.not_lt.mpr (new address member))
        · exact absurd bound (Nat.not_lt.mpr (Nat.le_trans more.length_le member))
      refine ⟨slots.put target fields, rfl, begins, parts, ?_, ?_, ?_⟩
      · intro other
        by_cases same : other = target
        · rw [same, of_put, Slots.of_put, mine]
          exact holdsAll
        · rw [of_put_other _ _ same, Slots.of_put_other _ _ same, others other same]
          refine (moved other).of_same _ (fun address member => ?_)
          refine kept.2 address ?_ (fun taken => apart other target same member taken)
          exact Nat.lt_of_lt_of_le (bounded other address member) more.length_le
      · intro other address member
        by_cases same : other = target
        · rw [same, mine] at member
          rcases within address member with member | member | member
          · exact above target address member
          · exact Nat.le_trans grown.length_le (new address member)
          · exact Nat.le_trans grownMore.length_le member
        · rw [others other same] at member
          exact above other address member
      · intro left right different
        by_cases first : left = target
        · rw [first] at different ⊢
          rw [mine, others right (Ne.symm different)]
          exact separate right (Ne.symm different)
        · rw [others left first]
          by_cases second : right = target
          · rw [second, mine]
            exact (separate left first).symm
          · rw [others right second]
            exact apart left right different

theorem applyUpdateIn_spec (holding : memory.Holding heap writes slots) (update : UpdateVariable) :
    memory.heap <+: (applyUpdateIn cel memory heap slots update).1 ∧
      match applyUpdate cel input writes update with
      | .ok after =>
          ∃ next, (applyUpdateIn cel memory heap slots update).2 = .ok next ∧
            memory.Holding (applyUpdateIn cel memory heap slots update).1 after next
      | .error error => (applyUpdateIn cel memory heap slots update).2 = .error error := by
  unfold applyUpdateIn
  rw [applyUpdate_eq, memory.seen_eq holding.1]
  by_cases placeholder : isPlaceholder update = true
  · rw [if_pos placeholder, if_pos placeholder]
    exact ⟨holding.1, slots, rfl, holding⟩
  · rw [if_neg placeholder, if_neg placeholder]
    cases resolve cel input update with
    | error error => exact ⟨holding.1, rfl⟩
    | ok write => exact putIn_spec holding write

theorem applyUpdatesIn_spec (updates : List UpdateVariable) :
    ∀ {heap : Heap} {writes : Writes} {slots : Slots}, memory.Holding heap writes slots →
      memory.heap <+: (applyUpdatesIn cel memory updates heap slots).1 ∧
        match updates.foldlM (applyUpdate cel input) writes with
        | .ok after =>
            ∃ next, (applyUpdatesIn cel memory updates heap slots).2 = .ok next ∧
              memory.Holding (applyUpdatesIn cel memory updates heap slots).1 after next
        | .error error => (applyUpdatesIn cel memory updates heap slots).2 = .error error := by
  induction updates with
  | nil => exact fun {heap writes slots} holding => ⟨holding.1, slots, rfl, holding⟩
  | cons update rest ih =>
      intro heap writes slots holding
      obtain ⟨begins, result⟩ := @applyUpdateIn_spec cel input memory heap writes slots holding update
      rw [applyUpdatesIn, List.foldlM_cons]
      cases done : applyUpdateIn cel memory heap slots update with
      | mk after made =>
          rw [done] at begins result
          cases applied : applyUpdate cel input writes update with
          | error error =>
              rw [applied] at result
              dsimp only at result ⊢
              rw [result]
              exact ⟨begins, rfl⟩
          | ok next =>
              rw [applied] at result
              obtain ⟨filled, finished, still⟩ := result
              dsimp only at finished still ⊢
              rw [finished]
              exact ih still

/-- What the node in memory returns is what the node computes from the states as values, and the
objects that were there have not changed. -/
theorem executeIn_eq (updates : List UpdateVariable) :
    memory.heap <+: (executeIn cel memory updates).1 ∧
      (executeIn cel memory updates).2 = execute cel input { updates } := by
  have start : memory.Holding memory.heap {} {} := by
    refine ⟨List.prefix_refl _, fun _ => [], ?_, by simp, by simp⟩
    intro target
    cases target <;> simp [Writes.of, Slots.of, Dict.empty, Heap.HoldsFields]
  obtain ⟨begins, result⟩ := @applyUpdatesIn_spec cel input memory updates _ _ _ start
  refine ⟨begins, ?_⟩
  rw [execute_eq]
  unfold executeIn
  dsimp only
  cases applied : updates.foldlM (applyUpdate cel input) {} with
  | error error =>
      rw [applied] at result
      dsimp only at result
      rw [result]
      rfl
  | ok writes =>
      rw [applied] at result
      obtain ⟨slots, finished, _, owned, holds, _⟩ := result
      have state : readFields (applyUpdatesIn cel memory updates memory.heap {}).1 slots.state =
          writes.state := readFields_eq (holds .state)
      have project : readFields (applyUpdatesIn cel memory updates memory.heap {}).1 slots.project =
          writes.project := readFields_eq (holds .project)
      rw [finished]
      simp only [Except.map, state, project]

end

def Memory.loaded (input : NodeInput) : Memory input where
  heap := (Heap.allocate (.obj input.projectState.entries)
    (Heap.allocate (.obj input.state.entries) []).1).1
  state := (Heap.allocateFields input.state.entries []).1.length
  project := (Heap.allocateFields input.projectState.entries
    (Heap.allocate (.obj input.state.entries) []).1).1.length
  holdsState := by
    obtain ⟨_, owned, held, _⟩ := Heap.allocate_spec (.obj input.state.entries) []
    exact ⟨owned, held.of_begins (Heap.allocate_spec _ _).1⟩
  holdsProject := by
    obtain ⟨_, owned, held, _⟩ := Heap.allocate_spec (.obj input.projectState.entries)
      (Heap.allocate (.obj input.state.entries) []).1
    exact ⟨owned, held⟩

/-! ### The node as tree assignment -/

/-- The node leaves every object that was there as it was; a name or an expression that is not
known is a failure; and the node assigns to the trees exactly where an assignment is not possible
at all or none is below a variable that was last assigned `null`. -/
theorem assigns_iff (cel : CelEvaluator) {input : NodeInput} (memory : Memory input)
    (updates : List UpdateVariable) :
    memory.heap <+: (executeIn cel memory updates).1 ∧
      match resolveAll cel input updates with
      | .error _ => ∃ error, (executeIn cel memory updates).2 = .error error
      | .ok all =>
          AssignsTrees input all (executeIn cel memory updates).2 ↔
            assignAll (given input) all = none ∨ ¬ BelowNull all := by
  obtain ⟨begins, same⟩ := @executeIn_eq cel input memory updates
  refine ⟨begins, ?_⟩
  rw [same]
  cases known : resolveAll cel input updates with
  | ok all => exact assignsTrees_execute known
  | error error =>
      obtain ⟨failure, failed⟩ := foldlM_updates_error known {}
      refine ⟨failure, ?_⟩
      rw [execute_eq, failed]
      rfl

/-- `null` is the text `null`, and anything else a string. -/
def wordEvaluator : CelEvaluator where
  text := literalEvaluator.text
  evaluate := fun text _ => .ok (if text = "null" then .null else .str text)
  round := id

def emptyStates : NodeInput where
  data := Dict.empty
  state := Dict.empty
  projectState := Dict.empty
  stepNumber := 1

def nullThenNested : List UpdateVariable :=
  [{ variableName := "a", value := .str "null" }, { variableName := "a.b", value := .str "one" }]

theorem ok_of_toOption {α : Type} {result : Except String α} {value : α}
    (done : result.toOption = some value) : result = .ok value := by
  cases result with
  | error error => cases done
  | ok other => exact congrArg Except.ok (Option.some.inj done)

/-- Both assignments are possible, and the node refuses the second. -/
theorem null_then_nested :
    ∃ all, resolveAll wordEvaluator emptyStates nullThenNested = .ok all ∧
      (assignAll (given emptyStates) all).map (fun trees => trees.state.entries) =
        some [("a", .obj [("b", .str "one")])] ∧
      (executeIn wordEvaluator (Memory.loaded emptyStates) nullThenNested).2 =
        .error "Cannot set 'a.b': intermediate 'a' is NoneType, expected dict." ∧
      ¬ AssignsTrees emptyStates all
        (executeIn wordEvaluator (Memory.loaded emptyStates) nullThenNested).2 := by
  have known : (resolveAll wordEvaluator emptyStates nullThenNested).toOption =
      some [⟨⟨.state, "a", []⟩, .null⟩, ⟨⟨.state, "a", ["b"]⟩, .str "one"⟩] := by
    decide +kernel
  have assigned : (assignAll (given emptyStates)
      [⟨⟨.state, "a", []⟩, .null⟩, ⟨⟨.state, "a", ["b"]⟩, .str "one"⟩]).map
        (fun trees => trees.state.entries) = some [("a", .obj [("b", .str "one")])] := by
    decide +kernel
  have refused : (((executeIn wordEvaluator (Memory.loaded emptyStates) nullThenNested).2.map
      (fun _ => "")).tryCatch .ok).toOption =
        some "Cannot set 'a.b': intermediate 'a' is NoneType, expected dict." := by
    decide +kernel
  generalize (executeIn wordEvaluator (Memory.loaded emptyStates) nullThenNested).2 = result
    at refused ⊢
  cases result with
  | ok output =>
      have blank : "" = "Cannot set 'a.b': intermediate 'a' is NoneType, expected dict." :=
        Option.some.inj refused
      exact absurd blank (by decide)
  | error error =>
      cases refused
      refine ⟨_, ok_of_toOption known, assigned, rfl, fun assigns => ?_⟩
      unfold AssignsTrees at assigns
      obtain ⟨trees, possible, _⟩ := Option.map_eq_some_iff.mp assigned
      rw [possible] at assigns
      obtain ⟨output, impossible, _⟩ := assigns
      cases impossible

end SetVariableNode
end Assemblix
