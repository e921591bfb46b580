import Assemblix.Library.JsonPath
import Mathlib.Data.List.Nodup
import Mathlib.Data.List.Perm.Subperm

/-
Objects in memory.

An object is known by its address, so a write to it is seen through every reference. A value held
in memory owns the objects it is made of; two values with no object in common do not see each
other's writes, and what owns no object of an old heap cannot change it.
-/

namespace Library

inductive Slot
  | leaf (value : Json)
  | object (address : Nat)

/-- The fields of the objects. -/
abbrev Heap := List (List (String × Slot))

namespace Heap

def fieldsAt (heap : Heap) (address : Nat) : List (String × Slot) := heap[address]?.getD []

def load (heap : Heap) : Nat → Slot → Json
  | _, .leaf value => value
  | 0, .object _ => .null
  | fuel + 1, .object address =>
      .obj ((heap.fieldsAt address).map (fun field => (field.1, load heap fuel field.2)))

mutual

def allocate : Json → Heap → Heap × Slot
  | .obj fields, heap =>
      ((allocateFields fields heap).1 ++ [(allocateFields fields heap).2],
        .object (allocateFields fields heap).1.length)
  | .null, heap => (heap, .leaf .null)
  | .bool value, heap => (heap, .leaf (.bool value))
  | .int value, heap => (heap, .leaf (.int value))
  | .number value, heap => (heap, .leaf (.number value))
  | .str value, heap => (heap, .leaf (.str value))
  | .arr items, heap => (heap, .leaf (.arr items))

def allocateFields : List (String × Json) → Heap → Heap × List (String × Slot)
  | [], heap => (heap, [])
  | (name, value) :: rest, heap =>
      ((allocateFields rest (allocate value heap).1).1,
        (name, (allocate value heap).2) :: (allocateFields rest (allocate value heap).1).2)

end

def addObject (heap : Heap) (address : Nat) (name : String) : Heap :=
  (heap ++ [[]]).set address (Dict.assign name (.object heap.length) (heap.fieldsAt address))

def under (name : String) (done : Heap × Except (JsonPath × Json) Unit) :
    Heap × Except (JsonPath × Json) Unit :=
  (done.1, done.2.mapError (fun error => (name :: error.1, error.2)))

/-- Write below an object, in place. An object that is missing on the way is in its place before
the walk goes on. -/
def setNested (heap : Heap) (address : Nat) : JsonPath → Slot →
    Heap × Except (JsonPath × Json) Unit
  | [], _ => (heap, .ok ())
  | [name], slot => (heap.set address (Dict.assign name slot (heap.fieldsAt address)), .ok ())
  | name :: next :: rest, slot =>
      match Dict.find name (heap.fieldsAt address) with
      | none | some (.leaf .null) =>
          under name (setNested (heap.addObject address name) heap.length (next :: rest) slot)
      | some (.object inner) => under name (setNested heap inner (next :: rest) slot)
      | some (.leaf other) => (heap, .error ([name], other))

/-! ### Values in memory -/

mutual

def Holds (heap : Heap) : Json → Slot → List Nat → Prop
  | .obj fields, .object address, owned =>
      ∃ slots below, heap[address]? = some slots ∧ owned = address :: below ∧ address ∉ below ∧
        HoldsFields heap fields slots below
  | .null, .leaf held, owned => held = .null ∧ owned = []
  | .bool value, .leaf held, owned => held = .bool value ∧ owned = []
  | .int value, .leaf held, owned => held = .int value ∧ owned = []
  | .number value, .leaf held, owned => held = .number value ∧ owned = []
  | .str value, .leaf held, owned => held = .str value ∧ owned = []
  | .arr items, .leaf held, owned => held = .arr items ∧ owned = []
  | _, _, _ => False

def HoldsFields (heap : Heap) : List (String × Json) → List (String × Slot) → List Nat → Prop
  | [], [], owned => owned = []
  | (name, value) :: fields, (key, slot) :: slots, owned =>
      key = name ∧ ∃ own others, owned = own ++ others ∧ own.Disjoint others ∧
        Holds heap value slot own ∧ HoldsFields heap fields slots others
  | _, _, _ => False

end

theorem holds_leaf (heap : Heap) {value : Json} (flat : ∀ fields, value ≠ .obj fields)
    (slot : Slot) (owned : List Nat) :
    Holds heap value slot owned ↔ slot = .leaf value ∧ owned = [] := by
  cases value with
  | obj fields => exact absurd rfl (flat fields)
  | _ => cases slot <;> simp [Holds]

theorem holds_object (heap : Heap) (fields : List (String × Json)) (slot : Slot)
    (owned : List Nat) :
    Holds heap (.obj fields) slot owned ↔
      ∃ address slots below, slot = .object address ∧ heap[address]? = some slots ∧
        owned = address :: below ∧ address ∉ below ∧ HoldsFields heap fields slots below := by
  cases slot with
  | leaf held => simp [Holds]
  | object address => simp [Holds]

mutual

theorem Holds.of_same {heap after : Heap} (value : Json) {slot : Slot} {owned : List Nat}
    (held : Holds heap value slot owned)
    (same : ∀ address ∈ owned, after[address]? = heap[address]?) :
    Holds after value slot owned := by
  cases value with
  | obj fields =>
      rw [holds_object] at held ⊢
      obtain ⟨address, slots, below, rfl, found, rfl, outside, inner⟩ := held
      refine ⟨address, slots, below, rfl, ?_, rfl, outside, ?_⟩
      · rw [same address List.mem_cons_self, found]
      · exact HoldsFields.of_same fields inner
          (fun other member => same other (List.mem_cons_of_mem address member))
  | _ =>
      rw [holds_leaf _ (by simp)] at held ⊢
      exact held

theorem HoldsFields.of_same {heap after : Heap} (fields : List (String × Json))
    {slots : List (String × Slot)} {owned : List Nat} (held : HoldsFields heap fields slots owned)
    (same : ∀ address ∈ owned, after[address]? = heap[address]?) :
    HoldsFields after fields slots owned := by
  cases fields with
  | nil =>
      cases slots with
      | nil => simpa [HoldsFields] using held
      | cons => simp [HoldsFields] at held
  | cons field fields =>
      obtain ⟨name, value⟩ := field
      cases slots with
      | nil => simp [HoldsFields] at held
      | cons entry slots =>
          rw [HoldsFields] at held ⊢
          obtain ⟨named, own, others, rfl, apart, first, rest⟩ := held
          refine ⟨named, own, others, rfl, apart, ?_, ?_⟩
          · exact Holds.of_same value first
              (fun address member => same address (List.mem_append_left others member))
          · exact HoldsFields.of_same fields rest
              (fun address member => same address (List.mem_append_right own member))

end

mutual

theorem Holds.nodup {heap : Heap} (value : Json) {slot : Slot} {owned : List Nat}
    (held : Holds heap value slot owned) :
    owned.Nodup ∧ ∀ address ∈ owned, address < heap.length := by
  cases value with
  | obj fields =>
      rw [holds_object] at held
      obtain ⟨address, slots, below, rfl, found, rfl, outside, inner⟩ := held
      obtain ⟨distinct, inside⟩ := HoldsFields.nodup fields inner
      refine ⟨List.nodup_cons.mpr ⟨outside, distinct⟩, ?_⟩
      intro other member
      rcases List.mem_cons.mp member with rfl | member
      · exact (List.getElem?_eq_some_iff.mp found).1
      · exact inside other member
  | _ =>
      rw [holds_leaf _ (by simp)] at held
      simp [held.2]

theorem HoldsFields.nodup {heap : Heap} (fields : List (String × Json))
    {slots : List (String × Slot)} {owned : List Nat}
    (held : HoldsFields heap fields slots owned) :
    owned.Nodup ∧ ∀ address ∈ owned, address < heap.length := by
  cases fields with
  | nil =>
      cases slots with
      | nil => simp [show owned = [] by simpa [HoldsFields] using held]
      | cons => simp [HoldsFields] at held
  | cons field fields =>
      obtain ⟨name, value⟩ := field
      cases slots with
      | nil => simp [HoldsFields] at held
      | cons entry slots =>
          rw [HoldsFields] at held
          obtain ⟨named, own, others, rfl, apart, first, rest⟩ := held
          obtain ⟨distinct, inside⟩ := Holds.nodup value first
          obtain ⟨distinctRest, insideRest⟩ := HoldsFields.nodup fields rest
          refine ⟨List.nodup_append'.mpr ⟨distinct, distinctRest, apart⟩, ?_⟩
          intro address member
          rcases List.mem_append.mp member with member | member
          · exact inside address member
          · exact insideRest address member

end

mutual

theorem Holds.load_eq {heap : Heap} (value : Json) {slot : Slot} {owned : List Nat}
    (held : Holds heap value slot owned) {fuel : Nat} (enough : owned.length ≤ fuel) :
    heap.load fuel slot = value := by
  cases value with
  | obj fields =>
      rw [holds_object] at held
      obtain ⟨address, slots, below, rfl, found, rfl, outside, inner⟩ := held
      rw [List.length_cons] at enough
      obtain ⟨fuel, rfl⟩ : ∃ rest, fuel = rest + 1 := ⟨fuel - 1, by omega⟩
      rw [load, fieldsAt, found, Option.getD_some]
      exact congrArg Json.obj (HoldsFields.load_eq fields inner (by omega))
  | _ =>
      rw [holds_leaf _ (by simp)] at held
      obtain ⟨rfl, _⟩ := held
      cases fuel <;> rfl

theorem HoldsFields.load_eq {heap : Heap} (fields : List (String × Json))
    {slots : List (String × Slot)} {owned : List Nat}
    (held : HoldsFields heap fields slots owned) {fuel : Nat} (enough : owned.length ≤ fuel) :
    slots.map (fun field => (field.1, heap.load fuel field.2)) = fields := by
  cases fields with
  | nil =>
      cases slots with
      | nil => rfl
      | cons => simp [HoldsFields] at held
  | cons field fields =>
      obtain ⟨name, value⟩ := field
      cases slots with
      | nil => simp [HoldsFields] at held
      | cons entry slots =>
          rw [HoldsFields] at held
          obtain ⟨rfl, own, others, rfl, apart, first, rest⟩ := held
          rw [List.length_append] at enough
          rw [List.map_cons, Holds.load_eq value first (by omega),
            HoldsFields.load_eq fields rest (by omega)]

end

theorem owned_length {heap : Heap} {owned : List Nat}
    (sound : owned.Nodup ∧ ∀ address ∈ owned, address < heap.length) :
    owned.length ≤ heap.length := by
  have inside : owned ⊆ List.range heap.length :=
    fun address member => List.mem_range.mpr (sound.2 address member)
  simpa using (sound.1.subperm inside).length_le

theorem HoldsFields.split {heap : Heap} (name : String) {fields : List (String × Json)} :
    ∀ {slots : List (String × Slot)} {owned : List Nat}, HoldsFields heap fields slots owned →
      ∃ own others, (∀ address, address ∈ owned ↔ address ∈ own ∨ address ∈ others) ∧
        own.Disjoint others ∧
        (match Dict.find name fields with
          | none => Dict.find name slots = none
          | some value => ∃ slot, Dict.find name slots = some slot ∧ Holds heap value slot own) ∧
        ∀ (after : Heap) (value : Json) (slot : Slot) (new : List Nat),
          (∀ address ∈ others, after[address]? = heap[address]?) →
          Holds after value slot new → new.Disjoint others →
          ∃ all, HoldsFields after (Dict.assign name value fields) (Dict.assign name slot slots) all ∧
            ∀ address ∈ all, address ∈ new ∨ address ∈ others := by
  induction fields with
  | nil =>
      intro slots owned held
      cases slots with
      | cons => simp [HoldsFields] at held
      | nil =>
          have nothing : owned = [] := by simpa [HoldsFields] using held
          subst nothing
          refine ⟨[], [], by simp, by simp, rfl, ?_⟩
          intro after value slot new _ made _
          refine ⟨new, ?_, fun address member => .inl member⟩
          rw [Dict.assign, Dict.assign, HoldsFields]
          exact ⟨rfl, new, [], by simp, by simp, made, by simp [HoldsFields]⟩
  | cons field fields ih =>
      obtain ⟨head, value⟩ := field
      intro slots owned held
      cases slots with
      | nil => simp [HoldsFields] at held
      | cons entry slots =>
          obtain ⟨key, slot⟩ := entry
          rw [HoldsFields] at held
          obtain ⟨rfl, own, others, rfl, apart, first, rest⟩ := held
          by_cases same : key = name
          · subst same
            refine ⟨own, others, by simp, apart, ?_, ?_⟩
            · rw [Dict.find, if_pos rfl]
              exact ⟨slot, by rw [Dict.find, if_pos rfl], first⟩
            · intro after value slot new kept made separate
              refine ⟨new ++ others, ?_, fun address member => List.mem_append.mp member⟩
              rw [Dict.assign, if_pos rfl, Dict.assign, if_pos rfl, HoldsFields]
              exact ⟨rfl, new, others, rfl, separate, made, rest.of_same fields kept⟩
          · obtain ⟨part, left, covers, disjoint, found, replaced⟩ := ih rest
            refine ⟨part, own ++ left, ?_, ?_, ?_, ?_⟩
            · intro address
              rw [List.mem_append, List.mem_append, covers]
              tauto
            · rw [List.disjoint_append_right]
              refine ⟨fun address member taken => ?_, disjoint⟩
              exact apart taken ((covers address).mpr (.inl member))
            · rw [Dict.find, if_neg same, Dict.find, if_neg same]
              exact found
            · intro after value' slot' new kept made separate
              rw [List.disjoint_append_right] at separate
              obtain ⟨all, holds, inside⟩ := replaced after value' slot' new
                (fun address member => kept address (List.mem_append_right own member)) made
                separate.2
              refine ⟨own ++ all, ?_, ?_⟩
              · rw [Dict.assign, if_neg same, Dict.assign, if_neg same, HoldsFields]
                refine ⟨rfl, own, all, rfl, ?_, ?_, holds⟩
                · intro address member taken
                  rcases inside address taken with taken | taken
                  · exact separate.1 taken member
                  · exact apart member ((covers address).mpr (.inr taken))
                · exact first.of_same value
                    (fun address member => kept address (List.mem_append_left left member))
              · intro address member
                rw [List.mem_append]
                rcases List.mem_append.mp member with member | member
                · exact .inr (.inl member)
                · exact (inside address member).imp_right .inr

/-! ### New values -/

theorem disjoint_of_bounds {heap : Heap} {old new : List Nat}
    (before : ∀ address ∈ old, address < heap.length)
    (after : ∀ address ∈ new, heap.length ≤ address) : old.Disjoint new :=
  fun address member taken => absurd (before address member) (Nat.not_lt.mpr (after address taken))

theorem getElem?_of_begins {heap after : Heap} (grown : heap <+: after) {address : Nat}
    (inside : address < heap.length) : after[address]? = heap[address]? := by
  obtain ⟨more, rfl⟩ := grown
  exact List.getElem?_append_left inside

theorem Holds.of_begins {heap after : Heap} (grown : heap <+: after) {value : Json} {slot : Slot}
    {owned : List Nat} (held : Holds heap value slot owned) : Holds after value slot owned :=
  held.of_same value
    (fun address member => getElem?_of_begins grown ((held.nodup value).2 address member))

theorem HoldsFields.of_begins {heap after : Heap} (grown : heap <+: after)
    {fields : List (String × Json)} {slots : List (String × Slot)} {owned : List Nat}
    (held : HoldsFields heap fields slots owned) : HoldsFields after fields slots owned :=
  held.of_same fields
    (fun address member => getElem?_of_begins grown ((held.nodup fields).2 address member))

mutual

theorem allocate_spec (value : Json) (heap : Heap) :
    heap <+: (allocate value heap).1 ∧
      ∃ owned, Holds (allocate value heap).1 value (allocate value heap).2 owned ∧
        ∀ address ∈ owned, heap.length ≤ address := by
  cases value with
  | obj fields =>
      obtain ⟨grown, owned, held, new⟩ := allocateFields_spec fields heap
      rw [allocate]
      refine ⟨grown.trans (List.prefix_append _ _),
        (allocateFields fields heap).1.length :: owned, ?_, ?_⟩
      · rw [holds_object]
        refine ⟨_, (allocateFields fields heap).2, owned, rfl, by simp, rfl, ?_,
          held.of_begins (List.prefix_append _ _)⟩
        exact fun member => absurd ((held.nodup fields).2 _ member) (Nat.lt_irrefl _)
      · intro address member
        rcases List.mem_cons.mp member with rfl | member
        · exact grown.length_le
        · exact new address member
  | _ =>
      refine ⟨List.prefix_refl heap, [], ?_, by simp⟩
      rw [holds_leaf _ (by simp)]
      exact ⟨rfl, rfl⟩

theorem allocateFields_spec (fields : List (String × Json)) (heap : Heap) :
    heap <+: (allocateFields fields heap).1 ∧
      ∃ owned, HoldsFields (allocateFields fields heap).1 fields (allocateFields fields heap).2
          owned ∧
        ∀ address ∈ owned, heap.length ≤ address := by
  cases fields with
  | nil =>
      rw [allocateFields]
      exact ⟨List.prefix_refl heap, [], by simp [HoldsFields], by simp⟩
  | cons field rest =>
      obtain ⟨name, value⟩ := field
      obtain ⟨grown, own, first, new⟩ := allocate_spec value heap
      obtain ⟨more, others, held, later⟩ := allocateFields_spec rest (allocate value heap).1
      rw [allocateFields]
      refine ⟨grown.trans more, own ++ others, ?_, ?_⟩
      · rw [HoldsFields]
        exact ⟨rfl, own, others, rfl, disjoint_of_bounds (first.nodup value).2 later,
          first.of_begins more, held⟩
      · intro address member
        rcases List.mem_append.mp member with member | member
        · exact new address member
        · exact Nat.le_trans grown.length_le (later address member)

end

/-! ### Writes in place -/

def Kept (heap : Heap) (owned : List Nat) (after : Heap) : Prop :=
  heap.length ≤ after.length ∧
    ∀ address < heap.length, address ∉ owned → after[address]? = heap[address]?

theorem Kept.refl (heap : Heap) (owned : List Nat) : Kept heap owned heap :=
  ⟨Nat.le_refl _, fun _ _ _ => rfl⟩

theorem Holds.field {heap : Heap} {fields : List (String × Json)} {address : Nat}
    {owned : List Nat} (held : Holds heap (.obj fields) (.object address) owned) (name : String) :
    ∃ slots own others, heap.fieldsAt address = slots ∧ address ∈ owned ∧ own ⊆ owned ∧
      others ⊆ owned ∧ address ∉ own ∧ address ∉ others ∧ own.Disjoint others ∧
      (match Dict.find name fields with
        | none => Dict.find name slots = none
        | some value => ∃ slot, Dict.find name slots = some slot ∧ Holds heap value slot own) ∧
      ∀ (after : Heap) (value : Json) (slot : Slot) (new : List Nat),
        after[address]? = some (Dict.assign name slot slots) →
        (∀ other ∈ others, after[other]? = heap[other]?) →
        Holds after value slot new → address ∉ new → new.Disjoint others →
        ∃ all, Holds after (.obj (Dict.assign name value fields)) (.object address) all ∧
          ∀ other ∈ all, other ∈ new ∨ other ∈ owned := by
  rw [holds_object] at held
  obtain ⟨place, slots, below, same, found, rfl, outside, inner⟩ := held
  cases same
  obtain ⟨own, others, covers, disjoint, reads, replaced⟩ := inner.split name
  have ownBelow : own ⊆ below := fun other member => (covers other).mpr (.inl member)
  have othersBelow : others ⊆ below := fun other member => (covers other).mpr (.inr member)
  refine ⟨slots, own, others, by rw [fieldsAt, found, Option.getD_some], List.mem_cons_self,
    fun other member => List.mem_cons_of_mem address (ownBelow member),
    fun other member => List.mem_cons_of_mem address (othersBelow member),
    fun member => outside (ownBelow member), fun member => outside (othersBelow member),
    disjoint, reads, ?_⟩
  intro after value slot new cell kept made fresh separate
  obtain ⟨all, holds, within⟩ := replaced after value slot new kept made separate
  refine ⟨address :: all, ?_, ?_⟩
  · rw [holds_object]
    refine ⟨address, Dict.assign name slot slots, all, rfl, cell, rfl, ?_, holds⟩
    intro member
    rcases within address member with member | member
    · exact fresh member
    · exact outside (othersBelow member)
  · intro other member
    rcases List.mem_cons.mp member with rfl | member
    · exact .inr List.mem_cons_self
    · exact (within other member).imp_right
        (fun kept => List.mem_cons_of_mem address (othersBelow kept))

/-- The write in place is the write to the value: it changes objects of the value only, and what
the value owns afterwards is its own, the written value's or new. -/
def SetsAt (heap : Heap) (fields : List (String × Json)) (address : Nat) (owned : List Nat)
    (value : Json) (slot : Slot) (own : List Nat) (path : JsonPath) : Prop :=
  Kept heap owned (heap.setNested address path slot).1 ∧
    match Json.setNested fields path value with
    | .ok written =>
        (heap.setNested address path slot).2 = .ok () ∧
          ∃ all, Holds (heap.setNested address path slot).1 (.obj written) (.object address) all ∧
            ∀ other ∈ all, other ∈ owned ∨ other ∈ own ∨ heap.length ≤ other
    | .error error => (heap.setNested address path slot).2 = .error error

def SetsInPlace (path : JsonPath) : Prop :=
  ∀ {heap : Heap} {fields : List (String × Json)} {address : Nat} {owned : List Nat}
    {value : Json} {slot : Slot} {own : List Nat},
    Holds heap (.obj fields) (.object address) owned → Holds heap value slot own →
    owned.Disjoint own → SetsAt heap fields address owned value slot own path

theorem SetsInPlace.last (name : String) : SetsInPlace [name] := by
  intro heap fields address owned value slot own held given apart
  obtain ⟨slots, part, others, here, member, partOwned, othersOwned, outPart, outOthers,
    disjoint, reads, replaced⟩ := held.field name
  have inside : address < heap.length := (held.nodup _).2 address member
  have untouched : ∀ other ∈ own, other ≠ address :=
    fun other taken same => apart (same ▸ member) taken
  rw [SetsAt, setNested, here]
  have still : ∀ other, other ≠ address →
      (heap.set address (Dict.assign name slot slots))[other]? = heap[other]? :=
    fun other different => List.getElem?_set_ne (Ne.symm different)
  refine ⟨⟨by simp, ?_⟩, rfl, ?_⟩
  · intro other _ free
    refine still other ?_
    rintro rfl
    exact free member
  · obtain ⟨all, holds, within⟩ :=
      replaced (heap.set address (Dict.assign name slot slots)) value slot own
        (List.getElem?_set_self inside)
        (fun other taken => still other (fun same => outOthers (same ▸ taken)))
        (given.of_same value (fun other taken => still other (untouched other taken)))
        (fun taken => untouched address taken rfl)
        (fun other taken kept => apart (othersOwned kept) taken)
    refine ⟨all, holds, fun other taken => ?_⟩
    rcases within other taken with taken | taken
    · exact .inr (.inl taken)
    · exact .inl taken

theorem lift_result {name : String} {below : Except (JsonPath × Json) (List (String × Json))}
    {done : Heap × Except (JsonPath × Json) Unit}
    {change : List (String × Json) → List (String × Json)}
    {inner outer : List (String × Json) → Prop}
    (found : match below with
      | .ok written => done.2 = .ok () ∧ inner written
      | .error error => done.2 = .error error)
    (lifts : ∀ written, inner written → outer (change written)) :
    match (below.map change).mapError (fun error => (name :: error.1, error.2)) with
    | .ok written => (under name done).2 = .ok () ∧ outer written
    | .error error => (under name done).2 = .error error := by
  unfold under
  cases below with
  | error error =>
      dsimp only at found
      rw [found]
      rfl
  | ok written =>
      obtain ⟨finished, holds⟩ := found
      rw [finished]
      exact ⟨rfl, lifts written holds⟩

section

variable {heap : Heap} {address : Nat} {name : String}

theorem length_addObject : (heap.addObject address name).length = heap.length + 1 := by
  simp [addObject]

theorem addObject_self (inside : address < heap.length) :
    (heap.addObject address name)[address]? =
      some (Dict.assign name (.object heap.length) (heap.fieldsAt address)) :=
  List.getElem?_set_self (by simp; omega)

theorem addObject_new (inside : address < heap.length) :
    (heap.addObject address name)[heap.length]? = some [] := by
  rw [addObject, List.getElem?_set_ne (by omega)]
  simp

theorem addObject_other {other : Nat} (bound : other < heap.length) (different : other ≠ address) :
    (heap.addObject address name)[other]? = heap[other]? := by
  rw [addObject, List.getElem?_set_ne (Ne.symm different), List.getElem?_append_left bound]

end

theorem SetsInPlace.inside {next : String} {rest : JsonPath} (ih : SetsInPlace (next :: rest))
    {heap : Heap} {fields innerFields : List (String × Json)} {address : Nat} {owned : List Nat}
    {value : Json} {slot : Slot} {own : List Nat} {name : String}
    (held : Holds heap (.obj fields) (.object address) owned) (given : Holds heap value slot own)
    (apart : owned.Disjoint own) (found : Dict.find name fields = some (.obj innerFields)) :
    SetsAt heap fields address owned value slot own (name :: next :: rest) := by
  obtain ⟨slots, part, others, here, member, partOwned, othersOwned, outPart, outOthers,
    disjoint, reads, replaced⟩ := held.field name
  have bounded := (held.nodup _).2
  rw [found] at reads
  obtain ⟨inner, place, holdsInner⟩ := reads
  obtain ⟨innerAddress, _, _, rfl, _⟩ := (holds_object _ _ _ _).mp holdsInner
  have apartPart : part.Disjoint own := fun other taken more => apart (partOwned taken) more
  obtain ⟨⟨longer, same⟩, result⟩ := ih holdsInner given apartPart
  have cell : (heap.setNested innerAddress (next :: rest) slot).1[address]? =
      some (Dict.assign name (.object innerAddress) slots) := by
    rw [same address (bounded address member) outPart, Dict.assign_of_find place, ← here, fieldsAt,
      List.getElem?_eq_getElem (bounded address member), Option.getD_some]
  have apartAll : ∀ {all : List Nat}, (∀ other ∈ all, other ∈ part ∨ other ∈ own ∨
      heap.length ≤ other) → ∀ other ∈ all, other ∈ owned → other ∈ part := by
    intro all within other taken left
    rcases within other taken with taken | taken | taken
    · exact taken
    · exact absurd taken (apart left)
    · exact absurd (bounded other left) (Nat.not_lt.mpr taken)
  rw [SetsAt, setNested, here, place, Json.setNested, found]
  refine ⟨⟨longer, fun other bound free =>
    same other bound (fun taken => free (partOwned taken))⟩, lift_result result ?_⟩
  rintro written ⟨all, holds, within⟩
  obtain ⟨every, made, inEvery⟩ := replaced _ (.obj written) (.object innerAddress) all cell
    (fun other taken => same other (bounded other (othersOwned taken))
      (fun more => disjoint more taken))
    holds
    (fun taken => outPart (apartAll within address taken member))
    (fun other taken left => disjoint (apartAll within other taken (othersOwned left)) left)
  refine ⟨every, made, fun other taken => ?_⟩
  rcases inEvery other taken with taken | taken
  · exact (within other taken).imp_left (fun more => partOwned more)
  · exact .inl taken

theorem SetsInPlace.created {next : String} {rest : JsonPath} (ih : SetsInPlace (next :: rest))
    {heap : Heap} {fields : List (String × Json)} {address : Nat} {owned : List Nat}
    {value : Json} {slot : Slot} {own : List Nat} {name : String}
    (held : Holds heap (.obj fields) (.object address) owned) (given : Holds heap value slot own)
    (apart : owned.Disjoint own)
    (missing : Dict.find name fields = none ∨ Dict.find name fields = some .null) :
    SetsAt heap fields address owned value slot own (name :: next :: rest) := by
  obtain ⟨slots, part, others, here, member, partOwned, othersOwned, outPart, outOthers,
    disjoint, reads, replaced⟩ := held.field name
  have bounded := (held.nodup _).2
  have inside : address < heap.length := bounded address member
  have unfolded : heap.setNested address (name :: next :: rest) slot =
      under name ((heap.addObject address name).setNested heap.length (next :: rest) slot) := by
    rw [setNested, here]
    rcases missing with missing | missing
    · rw [missing] at reads
      rw [reads]
    · rw [missing] at reads
      obtain ⟨old, found, null⟩ := reads
      rw [holds_leaf _ (by simp)] at null
      rw [found, null.1]
  have pure : Json.setNested fields (name :: next :: rest) value =
      ((Json.setNested [] (next :: rest) value).map (fun inner =>
        Dict.assign name (.obj inner) fields)).mapError
          (fun error => (name :: error.1, error.2)) := by
    rw [Json.setNested]
    rcases missing with missing | missing
    · rw [missing]
    · rw [missing]
  have empty : Holds (heap.addObject address name) (.obj []) (.object heap.length)
      [heap.length] := by
    rw [holds_object]
    exact ⟨heap.length, [], [], rfl, addObject_new inside, rfl, by simp, by simp [HoldsFields]⟩
  have ownBound := (given.nodup value).2
  have moved : Holds (heap.addObject address name) value slot own :=
    given.of_same value (fun other taken => addObject_other (ownBound other taken)
      (fun same => apart (same ▸ member) taken))
  have fresh : [heap.length].Disjoint own := by
    intro other taken more
    rw [List.mem_singleton.mp taken] at more
    exact Nat.lt_irrefl _ (ownBound _ more)
  obtain ⟨⟨longer, same⟩, result⟩ := ih empty moved fresh
  rw [length_addObject] at longer same
  have ahead : ∀ {other}, other < heap.length → other ∉ [heap.length] :=
    fun bound taken => absurd (List.mem_singleton.mp taken) (Nat.ne_of_lt bound)
  have kept : ∀ other < heap.length, other ≠ address →
      ((heap.addObject address name).setNested heap.length (next :: rest) slot).1[other]? =
        heap[other]? := by
    intro other bound different
    rw [same other (by omega) (ahead bound), addObject_other bound different]
  rw [SetsAt, unfolded, pure]
  refine ⟨⟨Nat.le_of_succ_le longer, ?_⟩, lift_result result ?_⟩
  · intro other bound free
    refine kept other bound ?_
    rintro rfl
    exact free member
  · rintro written ⟨all, holds, within⟩
    have apartAll : ∀ other ∈ all, other < heap.length → other ∈ own := by
      intro other taken bound
      rcases within other taken with taken | taken | taken
      · exact absurd taken (ahead bound)
      · exact taken
      · rw [length_addObject] at taken
        omega
    have cell := (same address (by omega) (ahead inside)).trans (addObject_self inside)
    rw [here] at cell
    obtain ⟨every, made, inEvery⟩ := replaced _ (.obj written) (.object heap.length) all cell
      (fun other taken => kept other (bounded other (othersOwned taken))
        (fun same => outOthers (same ▸ taken)))
      holds
      (fun taken => apart member (apartAll address taken inside))
      (fun other taken left => apart (othersOwned left)
        (apartAll other taken (bounded other (othersOwned left))))
    refine ⟨every, made, fun other taken => ?_⟩
    rcases inEvery other taken with taken | taken
    · rcases Nat.lt_or_ge other heap.length with bound | bound
      · exact .inr (.inl (apartAll other taken bound))
      · exact .inr (.inr bound)
    · exact .inl taken

theorem setsInPlace (path : JsonPath) : SetsInPlace path := by
  induction path with
  | nil =>
      intro heap fields address owned value slot own held _ _
      exact ⟨Kept.refl heap owned, rfl, owned, held, fun other member => .inl member⟩
  | cons name rest ih =>
      cases rest with
      | nil => exact SetsInPlace.last name
      | cons next rest =>
          intro heap fields address owned value slot own held given apart
          cases found : Dict.find name fields with
          | none => exact ih.created held given apart (.inl found)
          | some below =>
              obtain ⟨slots, part, _, here, _, _, _, _, _, _, reads, _⟩ := held.field name
              rw [found] at reads
              obtain ⟨inner, place, holdsInner⟩ := reads
              cases below with
              | null => exact ih.created held given apart (.inr found)
              | obj innerFields => exact ih.inside held given apart found
              | _ =>
                  rw [holds_leaf _ (by simp)] at holdsInner
                  rw [SetsAt, setNested, here, place, holdsInner.1, Json.setNested, found]
                  exact ⟨Kept.refl heap owned, rfl⟩

end Heap
end Library
