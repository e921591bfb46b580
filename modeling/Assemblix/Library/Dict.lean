import Mathlib.Data.List.Nodup
import Mathlib.Data.List.Induction
import Mathlib.Data.List.Lookmap

/-
Insertion-ordered dictionaries with distinct keys.

Assignment keeps the position of a key that is present and appends a new one, so
iteration order is the order of first assignment. Merging `left` with `right` assigns
the entries of `right` one after another. Distinctness is a field of the value: no
later argument has to re-establish it.
-/

namespace Library

structure Dict (K V : Type) where
  entries : List (K × V)
  distinct : (entries.map Prod.fst).Nodup

namespace Dict

variable {K V : Type}

instance [DecidableEq K] [DecidableEq V] : DecidableEq (Dict K V) := fun left right =>
  decidable_of_iff (left.entries = right.entries) (by
    cases left
    cases right
    simp)

def empty : Dict K V := ⟨[], List.nodup_nil⟩

def keys (dict : Dict K V) : List K := dict.entries.map Prod.fst

def size (dict : Dict K V) : Nat := dict.entries.length

@[simp] theorem size_empty : (empty : Dict K V).size = 0 := rfl

theorem size_eq_keys_length (dict : Dict K V) : dict.size = dict.keys.length :=
  (List.length_map Prod.fst).symm

theorem ext_entries {left right : Dict K V} (same : left.entries = right.entries) :
    left = right := by
  cases left
  cases right
  cases same
  rfl

def restrict (dict : Dict K V) (keep : K → Bool) : Dict K V :=
  ⟨dict.entries.filter (fun entry => keep entry.1),
    (List.Sublist.map Prod.fst List.filter_sublist).nodup dict.distinct⟩

def mapValues {W : Type} (dict : Dict K V) (change : V → W) : Dict K W where
  entries := dict.entries.map (fun entry => (entry.1, change entry.2))
  distinct := by
    rw [List.map_map]
    exact dict.distinct

def Renamed {L : Type} (rename : K → L) (dict : Dict K V) (image : Dict L V) : Prop :=
  image.entries = dict.entries.map (fun entry => (rename entry.1, entry.2))

theorem Renamed.empty {L : Type} {rename : K → L} :
    Renamed rename (empty : Dict K V) (empty : Dict L V) := rfl

theorem Renamed.size {L : Type} {rename : K → L} {dict : Dict K V} {image : Dict L V}
    (renamed : Renamed rename dict image) : image.size = dict.size := by
  rw [Dict.size, renamed, List.length_map, Dict.size]

def keysWhere (dict : Dict K V) (selected : V → Bool) : List K :=
  (dict.entries.filter (fun entry => selected entry.2)).map Prod.fst

theorem keysWhere_head (dict : Dict K V) (selected : V → Bool) :
    (dict.keysWhere selected).head? =
      (dict.entries.find? (fun entry => selected entry.2)).map Prod.fst := by
  rw [keysWhere, List.head?_map, List.head?_filter]

variable [DecidableEq K]

def find (key : K) : List (K × V) → Option V
  | [] => none
  | (head, value) :: rest => if head = key then some value else find key rest

def lookup (dict : Dict K V) (key : K) : Option V := find key dict.entries

/-- Overwrite in place, or append at the end. -/
def assign (key : K) (value : V) : List (K × V) → List (K × V)
  | [] => [(key, value)]
  | (head, old) :: rest =>
      if head = key then (head, value) :: rest else (head, old) :: assign key value rest

theorem mem_assign_keys (key : K) (value : V) (items : List (K × V)) (other : K) :
    other ∈ (assign key value items).map Prod.fst ↔
      other = key ∨ other ∈ items.map Prod.fst := by
  induction items with
  | nil => simp [assign]
  | cons head rest ih =>
      obtain ⟨first, old⟩ := head
      by_cases same : first = key
      · simp [assign, same]
      · simp only [assign, if_neg same, List.map_cons, List.mem_cons, ih]
        tauto

theorem assign_distinct (key : K) (value : V) (items : List (K × V))
    (distinct : (items.map Prod.fst).Nodup) :
    ((assign key value items).map Prod.fst).Nodup := by
  induction items with
  | nil => simp [assign]
  | cons head rest ih =>
      obtain ⟨first, old⟩ := head
      have parts := List.nodup_cons.mp distinct
      by_cases same : first = key
      · simpa [assign, same] using distinct
      · simp only [assign, if_neg same, List.map_cons]
        refine List.nodup_cons.mpr ⟨?_, ih parts.2⟩
        intro member
        rcases (mem_assign_keys key value rest first).mp member with equal | old
        · exact same equal
        · exact parts.1 old

def set (dict : Dict K V) (key : K) (value : V) : Dict K V :=
  ⟨assign key value dict.entries, assign_distinct key value dict.entries dict.distinct⟩

/-- `{**dict, **updates}`: the updates are assigned in their own order. -/
def merge (dict updates : Dict K V) : Dict K V :=
  updates.entries.foldl (fun acc entry => acc.set entry.1 entry.2) dict

def contains (dict : Dict K V) (key : K) : Bool := (dict.lookup key).isSome

def ofList (items : List (K × V)) : Dict K V :=
  items.foldl (fun acc entry => acc.set entry.1 entry.2) empty

/-! ### Reading after a write -/

theorem find_assign (key other : K) (value : V) (items : List (K × V)) :
    find other (assign key value items) = if key = other then some value else find other items := by
  induction items with
  | nil => simp [assign, find]
  | cons head rest ih =>
      obtain ⟨first, old⟩ := head
      by_cases same : first = key
      · subst same
        by_cases chosen : first = other <;> simp [assign, find, chosen]
      · by_cases chosen : first = other
        · subst chosen
          have different : ¬ key = first := fun equal => same equal.symm
          simp [assign, find, same, different]
        · simp [assign, find, same, chosen, ih]

omit [DecidableEq K] in
@[simp] theorem keys_empty : (empty : Dict K V).keys = [] := rfl

theorem mem_keys_set (dict : Dict K V) (key other : K) (value : V) :
    other ∈ (dict.set key value).keys ↔ other = key ∨ other ∈ dict.keys :=
  mem_assign_keys key value dict.entries other

@[simp] theorem lookup_empty (key : K) : (empty : Dict K V).lookup key = none := rfl

theorem lookup_set (dict : Dict K V) (key other : K) (value : V) :
    (dict.set key value).lookup other = if key = other then some value else dict.lookup other :=
  find_assign key other value dict.entries

@[simp] theorem lookup_set_self (dict : Dict K V) (key : K) (value : V) :
    (dict.set key value).lookup key = some value := by
  rw [lookup_set, if_pos rfl]

theorem lookup_set_of_ne (dict : Dict K V) {key other : K} (value : V) (different : key ≠ other) :
    (dict.set key value).lookup other = dict.lookup other := by
  rw [lookup_set, if_neg different]

theorem find_eq_none (key : K) (items : List (K × V)) :
    find key items = none ↔ key ∉ items.map Prod.fst := by
  induction items with
  | nil => simp [find]
  | cons head rest ih =>
      obtain ⟨first, old⟩ := head
      by_cases same : first = key
      · simp [find, same]
      · have different : ¬ key = first := fun equal => same equal.symm
        rw [find, if_neg same, ih, List.map_cons, List.mem_cons, not_or]
        exact ⟨fun absent => ⟨different, absent⟩, fun both => both.2⟩

theorem lookup_eq_none (dict : Dict K V) (key : K) :
    dict.lookup key = none ↔ key ∉ dict.keys :=
  find_eq_none key dict.entries

theorem mem_keys (dict : Dict K V) (key : K) :
    key ∈ dict.keys ↔ ∃ value, dict.lookup key = some value := by
  rw [← Option.isSome_iff_exists, Option.isSome_iff_ne_none, ne_eq, lookup_eq_none, not_not]

theorem mem_of_find {key : K} {value : V} (items : List (K × V))
    (found : find key items = some value) : (key, value) ∈ items := by
  induction items with
  | nil => cases found
  | cons head rest ih =>
      obtain ⟨first, old⟩ := head
      unfold find at found
      split at found
      case isTrue same =>
        cases found
        rw [same]
        exact List.mem_cons_self
      case isFalse => exact List.mem_cons_of_mem _ (ih found)

theorem mem_of_lookup (dict : Dict K V) {key : K} {value : V}
    (found : dict.lookup key = some value) : (key, value) ∈ dict.entries :=
  mem_of_find dict.entries found

theorem find_of_mem {key : K} {value : V} (items : List (K × V))
    (distinct : (items.map Prod.fst).Nodup) (member : (key, value) ∈ items) :
    find key items = some value := by
  induction items with
  | nil => cases member
  | cons head rest ih =>
      obtain ⟨first, old⟩ := head
      have parts := List.nodup_cons.mp distinct
      rcases List.mem_cons.mp member with here | later
      · cases here
        rw [find, if_pos rfl]
      · have different : first ≠ key := by
          intro same
          apply parts.1
          rw [same]
          exact List.mem_map.mpr ⟨(key, value), later, rfl⟩
        rw [find, if_neg different]
        exact ih parts.2 later

theorem lookup_of_mem (dict : Dict K V) {key : K} {value : V}
    (member : (key, value) ∈ dict.entries) : dict.lookup key = some value :=
  find_of_mem dict.entries dict.distinct member

/-! ### Changing every value -/

theorem find_map {W : Type} (change : V → W) (key : K) (items : List (K × V)) :
    find key (items.map (fun entry => (entry.1, change entry.2))) =
      (find key items).map change := by
  induction items with
  | nil => rfl
  | cons head rest ih =>
      obtain ⟨first, old⟩ := head
      by_cases same : first = key
      · simp [find, same]
      · simp [find, same, ih]

theorem lookup_mapValues {W : Type} (dict : Dict K V) (change : V → W) (key : K) :
    (dict.mapValues change).lookup key = (dict.lookup key).map change :=
  find_map change key dict.entries

theorem assign_map {W : Type} (change : V → W) (key : K) (value : V)
    (items : List (K × V)) :
    assign key (change value) (items.map (fun entry => (entry.1, change entry.2))) =
      (assign key value items).map (fun entry => (entry.1, change entry.2)) := by
  induction items with
  | nil => rfl
  | cons head rest ih =>
      obtain ⟨first, old⟩ := head
      by_cases same : first = key
      · simp [assign, same]
      · simp [assign, same, ih]

theorem set_mapValues {W : Type} (dict : Dict K V) (change : V → W) (key : K) (value : V) :
    (dict.mapValues change).set key (change value) = (dict.set key value).mapValues change :=
  ext_entries (assign_map change key value dict.entries)

/-! ### Renaming the keys -/

section Renaming

variable {L : Type} [DecidableEq L] {rename : K → L} {dict : Dict K V} {image : Dict L V}

private theorem find_renamed (key : K) (items : List (K × V))
    (apart : ∀ other ∈ items.map Prod.fst, rename other = rename key → other = key) :
    find (rename key) (items.map (fun entry => (rename entry.1, entry.2))) = find key items := by
  induction items with
  | nil => rfl
  | cons head rest ih =>
      obtain ⟨first, old⟩ := head
      rw [List.map_cons, List.forall_mem_cons] at apart
      by_cases same : first = key
      · simp [find, same]
      · have different : rename first ≠ rename key := fun equal => same (apart.1 equal)
        rw [List.map_cons, find, find, if_neg different, if_neg same, ih apart.2]

private theorem assign_renamed (key : K) (value : V) (items : List (K × V))
    (apart : ∀ other ∈ items.map Prod.fst, rename other = rename key → other = key) :
    assign (rename key) value (items.map (fun entry => (rename entry.1, entry.2))) =
      (assign key value items).map (fun entry => (rename entry.1, entry.2)) := by
  induction items with
  | nil => rfl
  | cons head rest ih =>
      obtain ⟨first, old⟩ := head
      rw [List.map_cons, List.forall_mem_cons] at apart
      by_cases same : first = key
      · simp [assign, same]
      · have different : rename first ≠ rename key := fun equal => same (apart.1 equal)
        rw [List.map_cons, assign, assign, if_neg different, if_neg same, ih apart.2, List.map_cons]

theorem Renamed.lookup (renamed : Renamed rename dict image) {key : K}
    (apart : ∀ other ∈ dict.keys, rename other = rename key → other = key) :
    image.lookup (rename key) = dict.lookup key := by
  rw [Dict.lookup, renamed]
  exact find_renamed key dict.entries apart

theorem Renamed.set (renamed : Renamed rename dict image) {key : K} (value : V)
    (apart : ∀ other ∈ dict.keys, rename other = rename key → other = key) :
    Renamed rename (dict.set key value) (image.set (rename key) value) := by
  change assign (rename key) value image.entries = _
  rw [renamed]
  exact assign_renamed key value dict.entries apart

end Renaming

/-! ### Merging -/

def assignAll (items updates : List (K × V)) : List (K × V) :=
  updates.foldl (fun acc entry => assign entry.1 entry.2 acc) items

theorem find_assignAll (items updates : List (K × V)) (distinct : (updates.map Prod.fst).Nodup)
    (key : K) :
    find key (assignAll items updates) = (find key updates).or (find key items) := by
  unfold assignAll
  induction updates generalizing items with
  | nil => rfl
  | cons head rest ih =>
      obtain ⟨first, value⟩ := head
      have parts := List.nodup_cons.mp distinct
      rw [List.foldl_cons, ih _ parts.2, find_assign]
      by_cases same : first = key
      · subst same
        have absent := (find_eq_none first rest).mpr parts.1
        simp [find, absent]
      · simp [find, same]

theorem merge_entries (dict updates : Dict K V) :
    (dict.merge updates).entries = assignAll dict.entries updates.entries := by
  unfold merge assignAll
  generalize updates.entries = items
  induction items generalizing dict with
  | nil => rfl
  | cons head rest ih => exact ih (dict.set head.1 head.2)

theorem lookup_merge (dict updates : Dict K V) (key : K) :
    (dict.merge updates).lookup key = (updates.lookup key).or (dict.lookup key) := by
  unfold lookup
  rw [merge_entries]
  exact find_assignAll dict.entries updates.entries updates.distinct key

theorem lookup_merge_left (dict updates : Dict K V) {key : K} {value : V}
    (found : updates.lookup key = some value) :
    (dict.merge updates).lookup key = some value := by
  rw [lookup_merge, found, Option.some_or]

theorem lookup_merge_right (dict updates : Dict K V) {key : K} (absent : updates.lookup key = none) :
    (dict.merge updates).lookup key = dict.lookup key := by
  rw [lookup_merge, absent, Option.none_or]

@[simp] theorem merge_empty (dict : Dict K V) : dict.merge empty = dict := rfl

theorem assign_assign (key : K) (old value : V) (items : List (K × V)) :
    assign key value (assign key old items) = assign key value items := by
  induction items with
  | nil => simp [assign]
  | cons head rest ih =>
      obtain ⟨first, held⟩ := head
      by_cases same : first = key
      · simp [assign, same]
      · simp [assign, same, ih]

theorem assign_comm {key other : K} (different : key ≠ other) (value more : V)
    (items : List (K × V)) (present : key ∈ items.map Prod.fst) :
    assign key value (assign other more items) = assign other more (assign key value items) := by
  induction items with
  | nil => cases present
  | cons head rest ih =>
      obtain ⟨first, held⟩ := head
      rcases List.mem_cons.mp present with same | later
      · have here : first = key := same.symm
        simp [assign, here, different]
      · by_cases same : first = key
        · simp [assign, same, different]
        · by_cases there : first = other
          · simp [assign, there, different.symm]
          · simp [assign, same, there, ih later]

theorem assignAll_comm (items updates : List (K × V)) {key : K} (value : V)
    (absent : key ∉ updates.map Prod.fst) (present : key ∈ items.map Prod.fst) :
    assign key value (assignAll items updates) = assignAll (assign key value items) updates := by
  unfold assignAll
  induction updates generalizing items with
  | nil => rfl
  | cons head rest ih =>
      obtain ⟨first, more⟩ := head
      rw [List.map_cons, List.mem_cons, not_or] at absent
      rw [List.foldl_cons, List.foldl_cons, ih _ absent.2
        ((mem_assign_keys first more items key).mpr (.inr present)),
        assign_comm absent.1 value more items present]

theorem merge_set (dict updates : Dict K V) (key : K) (value : V) :
    dict.merge (updates.set key value) = (dict.merge updates).set key value := by
  refine ext_entries ?_
  rw [merge_entries]
  change assignAll dict.entries (assign key value updates.entries) =
    assign key value (dict.merge updates).entries
  rw [merge_entries]
  have distinct := updates.distinct
  generalize dict.entries = items
  generalize updates.entries = written at distinct
  induction written generalizing items with
  | nil => rfl
  | cons head rest ih =>
      obtain ⟨first, old⟩ := head
      have parts := List.nodup_cons.mp distinct
      by_cases same : first = key
      · subst same
        have present : first ∈ (assign first old items).map Prod.fst :=
          (mem_assign_keys first old items first).mpr (.inl rfl)
        rw [assign, if_pos rfl]
        change assignAll (assign first value items) rest =
          assign first value (assignAll (assign first old items) rest)
        rw [assignAll_comm _ rest value parts.1 present, assign_assign]
      · rw [assign, if_neg same]
        exact ih (assign first old items) parts.2

private theorem assign_append (key : K) (value : V) (items : List (K × V))
    (absent : key ∉ items.map Prod.fst) :
    assign key value items = items ++ [(key, value)] := by
  induction items with
  | nil => rfl
  | cons head rest ih =>
      obtain ⟨first, old⟩ := head
      rw [List.map_cons, List.mem_cons, not_or] at absent
      rw [assign, if_neg (fun equal => absent.1 equal.symm), ih absent.2, List.cons_append]

private theorem foldl_set_entries (items : List (K × V)) (dict : Dict K V)
    (distinct : ((dict.entries ++ items).map Prod.fst).Nodup) :
    (items.foldl (fun acc entry => acc.set entry.1 entry.2) dict).entries =
      dict.entries ++ items := by
  induction items generalizing dict with
  | nil => simp
  | cons head rest ih =>
      obtain ⟨first, value⟩ := head
      have absent : first ∉ dict.entries.map Prod.fst := by
        intro member
        rw [List.map_append, List.map_cons] at distinct
        exact (List.nodup_append.mp distinct).2.2 first member first List.mem_cons_self rfl
      have appended : (dict.set first value).entries = dict.entries ++ [(first, value)] :=
        assign_append first value dict.entries absent
      rw [List.foldl_cons, ih]
      · rw [appended, List.append_assoc, List.singleton_append]
      · rw [appended, List.append_assoc, List.singleton_append]
        exact distinct

theorem assign_of_find {key : K} {value : V} {items : List (K × V)}
    (found : find key items = some value) : assign key value items = items := by
  induction items with
  | nil => cases found
  | cons head rest ih =>
      obtain ⟨first, old⟩ := head
      by_cases same : first = key
      · rw [find, if_pos same] at found
        cases found
        rw [assign, if_pos same]
      · rw [find, if_neg same] at found
        rw [assign, if_neg same, ih found]

theorem set_of_lookup (dict : Dict K V) {key : K} {value : V}
    (found : dict.lookup key = some value) : dict.set key value = dict :=
  ext_entries (assign_of_find found)

theorem keysWhere_set_absent (dict : Dict K V) {selected : V → Bool} {key : K} {value : V}
    (absent : dict.contains key = false) (chosen : selected value = true) :
    (dict.set key value).keysWhere selected = dict.keysWhere selected ++ [key] := by
  have missing : dict.lookup key = none :=
    Option.isNone_iff_eq_none.mp (Option.isSome_eq_false_iff.mp absent)
  have appended : (dict.set key value).entries = dict.entries ++ [(key, value)] :=
    assign_append key value dict.entries ((dict.lookup_eq_none key).mp missing)
  rw [keysWhere, keysWhere, appended, List.filter_append, List.map_append]
  simp [chosen]

theorem keysWhere_set_present (dict : Dict K V) {selected : V → Bool} {key : K} {old new : V}
    (found : dict.lookup key = some old) (alike : selected new = selected old) :
    (dict.set key new).keysWhere selected = dict.keysWhere selected := by
  have unchanged : ∀ items : List (K × V), find key items = some old →
      ((assign key new items).filter (fun entry => selected entry.2)).map Prod.fst =
        (items.filter (fun entry => selected entry.2)).map Prod.fst := by
    intro items
    induction items with
    | nil =>
        intro impossible
        cases impossible
    | cons head rest ih =>
        obtain ⟨first, value⟩ := head
        intro present
        by_cases same : first = key
        · rw [find, if_pos same] at present
          cases present
          rw [assign, if_pos same]
          cases chosen : selected old <;> simp [alike, chosen]
        · rw [find, if_neg same] at present
          rw [assign, if_neg same]
          cases chosen : selected value <;> simp [chosen, ih present]
  exact unchanged dict.entries found

theorem empty_merge (dict : Dict K V) : (empty : Dict K V).merge dict = dict := by
  apply ext_entries
  exact foldl_set_entries dict.entries empty dict.distinct

theorem ofList_append (items : List (K × V)) (last : K × V) :
    ofList (items ++ [last]) = (ofList items).set last.1 last.2 := by
  unfold ofList
  rw [List.foldl_append, List.foldl_cons, List.foldl_nil]

theorem mem_of_lookup_ofList (items : List (K × V)) {key : K} {value : V}
    (found : (ofList items).lookup key = some value) : (key, value) ∈ items := by
  induction items using List.reverseRecOn with
  | nil => cases found
  | append_singleton earlier last ih =>
      rw [ofList_append, lookup_set] at found
      by_cases same : last.1 = key
      · rw [if_pos same] at found
        cases same
        cases found
        exact List.mem_append_right _ List.mem_cons_self
      · rw [if_neg same] at found
        exact List.mem_append_left _ (ih found)

/-! ### Restriction -/

theorem find_filter (items : List (K × V)) (keep : K → Bool) (key : K) :
    find key (items.filter (fun entry => keep entry.1)) =
      if keep key then find key items else none := by
  induction items with
  | nil => simp [find]
  | cons head rest ih =>
      obtain ⟨first, value⟩ := head
      by_cases same : first = key
      · subst same
        cases kept : keep first <;> simp [find, kept, ih]
      · cases kept : keep first <;> simp [find, kept, same, ih]

theorem lookup_restrict (dict : Dict K V) (keep : K → Bool) (key : K) :
    (dict.restrict keep).lookup key = if keep key then dict.lookup key else none :=
  find_filter dict.entries keep key

end Dict
end Library
