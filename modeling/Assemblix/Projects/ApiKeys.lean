import Assemblix.Library.Run
import Mathlib.Data.List.Nodup

/-
API keys: how they are made, stored and found again.

A key is stored as a salted hash beside its first eleven characters; the lookup goes by those, and
only then to the hash. Hashing is a parameter.
-/

namespace Assemblix.Projects

open Library

/-- `PasswordHash`: `verify` may raise. -/
structure PasswordHash (Hash : Type) where
  hash : String → Nat → Hash
  verify : String → Hash → Except Unit Bool

def PasswordHash.Documented {Hash : Type} (passwords : PasswordHash Hash) : Prop :=
  ∀ plain other salt, passwords.verify plain (passwords.hash other salt) = .ok (decide (plain = other))

/-! ### Keys -/

/-- `secrets.token_bytes(16)`. -/
structure TokenBytes where
  bytes : List (Fin 256)
  sixteen : bytes.length = 16

def hexDigits (byte : Fin 256) : List Char :=
  [Nat.digitChar (byte.val / 16), Nat.digitChar (byte.val % 16)]

/-- "sk_". -/
def keyMark : List Char := ['s', 'k', '_']

def generateApiKey (random : TokenBytes) : String :=
  String.ofList (keyMark ++ random.bytes.flatMap hexDigits)

/-- The first eleven characters and three dots. -/
def getKeyPrefix (apiKey : String) : String :=
  if apiKey.length < 11 then apiKey else String.ofList (apiKey.toList.take 11) ++ "..."

def looksLikeKey (plainKey : String) : Bool :=
  keyMark.isPrefixOf plainKey.toList && decide (plainKey.length = 35)

structure ApiKeyRow (Hash : Type) where
  id : String
  projectId : String
  name : String
  keyHash : Hash
  keyPrefix : String
  isActive : Bool
  deriving DecidableEq

inductive LookupError
  | multipleResultsFound
  deriving DecidableEq

/-- `scalar_one_or_none`. -/
def scalarOneOrNone {A : Type} : List A → Except LookupError (Option A)
  | [] => .ok none
  | [row] => .ok (some row)
  | _ => .error .multipleResultsFound

namespace ApiKeyTable

variable {Hash : Type}

def activeWith (table : List (ApiKeyRow Hash)) (keyPrefix : String) : List (ApiKeyRow Hash) :=
  table.filter (fun row => decide (row.keyPrefix = keyPrefix) && row.isActive)

def getByPrefix (table : List (ApiKeyRow Hash)) (keyPrefix : String) :
    Except LookupError (Option (ApiKeyRow Hash)) :=
  scalarOneOrNone (activeWith table keyPrefix)

end ApiKeyTable

/-! ### The service -/

structure ApiKeyService (Hash : Type) where
  table : List (ApiKeyRow Hash) := []
  issued : List (String × String) := []

/-- `salt` is drawn by the hash and `id` by the row. -/
inductive ApiKeyLabel
  | create (id projectId name : String) (random : TokenBytes) (salt : Nat)
  | deactivate (id projectId : String)
  | delete (id projectId : String)

namespace ApiKeyService

section

variable {Hash : Type} (passwords : PasswordHash Hash)

def getApiKeyObject (service : ApiKeyService Hash) (plainKey : String) :
    Except LookupError (Option (ApiKeyRow Hash)) :=
  if looksLikeKey plainKey then
    match ApiKeyTable.getByPrefix service.table (getKeyPrefix plainKey) with
    | .error failure => .error failure
    | .ok none => .ok none
    | .ok (some row) =>
        if row.isActive then
          match passwords.verify plainKey row.keyHash with
          | .ok true => .ok (some row)
          | _ => .ok none
        else .ok none
  else .ok none

def createdKey (id projectId name plain : String) (salt : Nat) : ApiKeyRow Hash where
  id := id
  projectId := projectId
  name := name
  keyHash := passwords.hash plain salt
  keyPrefix := getKeyPrefix plain
  isActive := true

def next (service : ApiKeyService Hash) : ApiKeyLabel → Option (ApiKeyService Hash)
  | .create id projectId name random salt =>
      let plain := generateApiKey random
      if plain ∉ service.issued.map Prod.fst ∧ id ∉ service.issued.map Prod.snd then
        some
          { table := service.table ++ [createdKey passwords id projectId name plain salt]
            issued := service.issued ++ [(plain, id)] }
      else none
  | .deactivate id projectId =>
      some { service with
        table := service.table.map (fun row =>
          if row.id = id ∧ row.projectId = projectId then { row with isActive := false } else row) }
  | .delete id projectId =>
      some { service with
        table := service.table.filter (fun row =>
          !(decide (row.id = id) && decide (row.projectId = projectId))) }

def Step (service : ApiKeyService Hash) (label : ApiKeyLabel) (after : ApiKeyService Hash) : Prop :=
  service.next passwords label = some after

def issuedRow (service : ApiKeyService Hash) (plainKey : String) : Option (ApiKeyRow Hash) :=
  service.table.find? (fun row => row.isActive && decide ((plainKey, row.id) ∈ service.issued))

def Resolves (service : ApiKeyService Hash) : Prop :=
  ∀ plainKey, service.getApiKeyObject passwords plainKey = .ok (service.issuedRow plainKey)

def Concerns (service : ApiKeyService Hash) (plainKey : String) : ApiKeyLabel → Prop
  | .create _ _ _ random _ => plainKey = generateApiKey random
  | .deactivate id _ => (plainKey, id) ∈ service.issued
  | .delete id _ => (plainKey, id) ∈ service.issued

def FreshPrefix (service : ApiKeyService Hash) : ApiKeyLabel → Prop
  | .create _ _ _ random _ =>
      ∀ row ∈ service.table, row.isActive = true →
        row.keyPrefix ≠ getKeyPrefix (generateApiKey random)
  | _ => True

/-! ### Keys apart -/

open ApiKeyTable (activeWith getByPrefix)

def Apart (table : List (ApiKeyRow Hash)) : Prop :=
  ∀ keyPrefix, (activeWith table keyPrefix).length ≤ 1

theorem generateApiKey_looksLikeKey (random : TokenBytes) :
    looksLikeKey (generateApiKey random) = true := by
  unfold looksLikeKey generateApiKey
  rw [String.toList_ofList, String.length_ofList, List.length_append, List.length_flatMap]
  have digits : random.bytes.map (fun byte => (hexDigits byte).length) =
      List.replicate 16 2 := by
    rw [← random.sixteen]
    exact List.map_eq_replicate_iff.mpr (fun _ _ => rfl)
  rw [digits, Bool.and_eq_true]
  exact ⟨List.isPrefixOf_iff_prefix.mpr (List.prefix_append _ _), by decide⟩

structure Valid (service : ApiKeyService Hash) : Prop where
  stored : ∀ row ∈ service.table, ∃ plain salt, (plain, row.id) ∈ service.issued ∧
    row.keyHash = passwords.hash plain salt ∧ row.keyPrefix = getKeyPrefix plain
  formed : ∀ entry ∈ service.issued, looksLikeKey entry.1 = true
  ids : (service.issued.map Prod.snd).Nodup

variable {passwords}

section Lookup

variable {service : ApiKeyService Hash}

theorem Valid.plain_unique (valid : service.Valid passwords) {plain other id : String}
    (issued : (plain, id) ∈ service.issued) (again : (other, id) ∈ service.issued) :
    plain = other := by
  have same : (plain, id) = (other, id) := List.inj_on_of_nodup_map valid.ids issued again rfl
  exact congrArg Prod.fst same

theorem Valid.issuedRow_active (valid : service.Valid passwords) {plainKey : String}
    {row : ApiKeyRow Hash} (found : service.issuedRow plainKey = some row) :
    row ∈ activeWith service.table (getKeyPrefix plainKey) ∧
      (plainKey, row.id) ∈ service.issued ∧ ∃ salt, row.keyHash = passwords.hash plainKey salt := by
  have member := List.mem_of_find?_eq_some found
  have holds := List.find?_some found
  rw [Bool.and_eq_true, decide_eq_true_iff] at holds
  obtain ⟨active, issued⟩ := holds
  obtain ⟨plain, salt, under, hashed, named⟩ := valid.stored row member
  have same := valid.plain_unique under issued
  subst same
  refine ⟨List.mem_filter.mpr ⟨member, ?_⟩, issued, salt, hashed⟩
  rw [Bool.and_eq_true, decide_eq_true_iff]
  exact ⟨named, active⟩

theorem mem_activeWith {table : List (ApiKeyRow Hash)} {keyPrefix : String} {row : ApiKeyRow Hash} :
    row ∈ activeWith table keyPrefix ↔
      row ∈ table ∧ row.keyPrefix = keyPrefix ∧ row.isActive = true := by
  unfold activeWith
  rw [List.mem_filter, Bool.and_eq_true, decide_eq_true_iff]

theorem Apart.alone {table : List (ApiKeyRow Hash)} (apart : Apart table) {keyPrefix : String}
    {row : ApiKeyRow Hash} (member : row ∈ activeWith table keyPrefix) :
    activeWith table keyPrefix = [row] := by
  obtain ⟨only, same⟩ := List.length_eq_one_iff.mp
    (Nat.le_antisymm (apart keyPrefix) (List.length_pos_of_mem member))
  rw [same, List.mem_singleton] at member
  rw [same, member]

theorem getApiKeyObject_alone {plainKey : String} {row : ApiKeyRow Hash}
    (looks : looksLikeKey plainKey = true)
    (alone : activeWith service.table (getKeyPrefix plainKey) = [row])
    (active : row.isActive = true) :
    service.getApiKeyObject passwords plainKey =
      match passwords.verify plainKey row.keyHash with
      | .ok true => .ok (some row)
      | _ => .ok none := by
  unfold getApiKeyObject getByPrefix
  rw [if_pos looks, alone]
  change (if row.isActive = true then _ else _) = _
  rw [if_pos active]

theorem Valid.resolves_of_apart (valid : service.Valid passwords)
    (documented : passwords.Documented) (apart : Apart service.table) :
    service.Resolves passwords := by
  intro plainKey
  cases issued : service.issuedRow plainKey with
  | some row =>
      obtain ⟨member, under, salt, hashed⟩ := valid.issuedRow_active issued
      have looks : looksLikeKey plainKey = true := valid.formed _ under
      rw [getApiKeyObject_alone looks (apart.alone member) (mem_activeWith.mp member).2.2, hashed,
        documented, decide_eq_true rfl]
  | none =>
      by_cases looks : looksLikeKey plainKey = true
      · cases listed : activeWith service.table (getKeyPrefix plainKey) with
        | nil =>
            unfold getApiKeyObject getByPrefix
            rw [if_pos looks, listed]
            rfl
        | cons row rest =>
            have member : row ∈ activeWith service.table (getKeyPrefix plainKey) := by
              rw [listed]
              exact List.mem_cons_self
            obtain ⟨stored, _, active⟩ := mem_activeWith.mp member
            obtain ⟨plain, salt, under, hashed, _⟩ := valid.stored row stored
            have other : plainKey ≠ plain := by
              intro same
              subst same
              have refused := List.find?_eq_none.mp issued row stored
              rw [active, decide_eq_true under] at refused
              exact refused rfl
            rw [getApiKeyObject_alone looks (apart.alone member) active, hashed, documented,
              decide_eq_false other]
      · unfold getApiKeyObject
        rw [if_neg looks]

theorem Valid.apart_of_resolves (valid : service.Valid passwords)
    (resolves : service.Resolves passwords) : Apart service.table := by
  intro keyPrefix
  match listed : activeWith service.table keyPrefix with
  | [] => exact Nat.zero_le 1
  | [_] => exact Nat.le_refl 1
  | row :: other :: rest =>
      have member : row ∈ activeWith service.table keyPrefix := by
        rw [listed]
        exact List.mem_cons_self
      obtain ⟨stored, named, _⟩ := mem_activeWith.mp member
      obtain ⟨plain, salt, under, _, same⟩ := valid.stored row stored
      have raised : service.getApiKeyObject passwords plain = .error .multipleResultsFound := by
        unfold getApiKeyObject getByPrefix
        rw [if_pos (valid.formed _ under), ← same, named, listed]
        rfl
      have resolved := resolves plain
      rw [raised] at resolved
      cases resolved

end Lookup

/-! ### Steps -/

section Steps

variable {service after : ApiKeyService Hash} {label : ApiKeyLabel}

theorem Valid.of_same (valid : service.Valid passwords) (issued : after.issued = service.issued)
    (same : ∀ row ∈ after.table, ∃ old ∈ service.table, old.id = row.id ∧
      old.keyHash = row.keyHash ∧ old.keyPrefix = row.keyPrefix) : after.Valid passwords where
  stored := by
    intro row member
    obtain ⟨old, oldMember, id, hash, named⟩ := same row member
    rw [issued, ← id, ← hash, ← named]
    exact valid.stored old oldMember
  formed := by
    rw [issued]
    exact valid.formed
  ids := by
    rw [issued]
    exact valid.ids

theorem Valid.step (valid : service.Valid passwords) (step : Step passwords service label after) :
    after.Valid passwords := by
  unfold Step next at step
  cases label with
  | create id projectId name random salt =>
      simp only at step
      split at step
      · rename_i unused
        cases step
        refine ⟨?_, ?_, ?_⟩
        · intro row member
          rcases List.mem_append.mp member with old | new
          · obtain ⟨plain, earlier, under, hashed⟩ := valid.stored row old
            exact ⟨plain, earlier, List.mem_append_left _ under, hashed⟩
          · rw [List.mem_singleton.mp new]
            exact ⟨generateApiKey random, salt,
              List.mem_append_right _ (List.mem_singleton.mpr rfl), rfl, rfl⟩
        · intro entry member
          rcases List.mem_append.mp member with old | new
          · exact valid.formed entry old
          · rw [List.mem_singleton.mp new]
            exact generateApiKey_looksLikeKey random
        · rw [List.map_append]
          exact valid.ids.append (List.nodup_singleton id)
            (List.disjoint_singleton.mpr unused.2)
      · cases step
  | deactivate id projectId =>
      cases step
      refine valid.of_same rfl ?_
      intro row member
      obtain ⟨old, oldMember, changed⟩ := List.mem_map.mp member
      refine ⟨old, oldMember, ?_⟩
      rw [← changed]
      split <;> exact ⟨rfl, rfl, rfl⟩
  | delete id projectId =>
      cases step
      refine valid.of_same rfl ?_
      intro row member
      exact ⟨row, (List.mem_filter.mp member).1, rfl, rfl, rfl⟩

theorem apart_created_iff {table : List (ApiKeyRow Hash)} (apart : Apart table)
    {row : ApiKeyRow Hash} (active : row.isActive = true) :
    Apart (table ++ [row]) ↔
      ∀ other ∈ table, other.isActive = true → other.keyPrefix ≠ row.keyPrefix := by
  have listed : ∀ keyPrefix, activeWith (table ++ [row]) keyPrefix =
      activeWith table keyPrefix ++ if row.keyPrefix = keyPrefix then [row] else [] := by
    intro keyPrefix
    unfold activeWith
    rw [List.filter_append, List.filter_singleton, active, Bool.and_true]
    by_cases named : row.keyPrefix = keyPrefix
    · rw [decide_eq_true named, cond_true, if_pos named]
    · rw [decide_eq_false named, cond_false, if_neg named]
  constructor
  · intro later other member alive shared
    have short := later row.keyPrefix
    rw [listed, if_pos rfl, List.length_append, List.length_singleton] at short
    have taken := List.length_pos_of_mem (mem_activeWith.mpr ⟨member, shared, alive⟩)
    omega
  · intro free keyPrefix
    rw [listed]
    split
    · rename_i named
      have none : activeWith table keyPrefix = [] := by
        refine List.eq_nil_iff_forall_not_mem.mpr ?_
        intro other member
        obtain ⟨stored, shared, alive⟩ := mem_activeWith.mp member
        exact free other stored alive (shared.trans named.symm)
      rw [none]
      exact Nat.le_refl 1
    · rw [List.append_nil]
      exact apart keyPrefix

theorem Apart.deactivated {table : List (ApiKeyRow Hash)} (apart : Apart table)
    (id projectId : String) :
    Apart (table.map (fun row =>
      if row.id = id ∧ row.projectId = projectId then { row with isActive := false } else row)) := by
  intro keyPrefix
  refine Nat.le_trans ?_ (apart keyPrefix)
  unfold activeWith
  rw [← List.countP_eq_length_filter, ← List.countP_eq_length_filter, List.countP_map]
  refine List.countP_mono_left ?_
  intro row _ holds
  rw [Function.comp_apply] at holds
  split at holds
  · rw [Bool.and_false] at holds
    cases holds
  · exact holds

theorem Apart.deleted {table : List (ApiKeyRow Hash)} (apart : Apart table)
    (keep : ApiKeyRow Hash → Bool) : Apart (table.filter keep) := by
  intro keyPrefix
  refine Nat.le_trans ?_ (apart keyPrefix)
  exact (List.filter_sublist.filter _).length_le

theorem Step.apart_iff (step : Step passwords service label after) (apart : Apart service.table) :
    Apart after.table ↔ service.FreshPrefix label := by
  unfold Step next at step
  cases label with
  | create id projectId name random salt =>
      simp only at step
      split at step
      · cases step
        exact apart_created_iff apart rfl
      · cases step
  | deactivate id projectId =>
      cases step
      exact iff_of_true (apart.deactivated id projectId) trivial
  | delete id projectId =>
      cases step
      exact iff_of_true (apart.deleted _) trivial

theorem find_map_of_spared {A : Type} {sought : A → Bool} {change : A → A} {items : List A}
    (spared : ∀ item, sought item = true → change item = item)
    (made : ∀ item, sought (change item) = true → sought item = true) :
    (items.map change).find? sought = items.find? sought := by
  induction items with
  | nil => rfl
  | cons item rest ih =>
      rw [List.map_cons]
      by_cases wanted : sought item = true
      · rw [spared item wanted, List.find?_cons_of_pos wanted, List.find?_cons_of_pos wanted]
      · have unwanted : ¬ sought (change item) = true := fun holds => wanted (made item holds)
        rw [List.find?_cons_of_neg unwanted, List.find?_cons_of_neg wanted, ih]

theorem Step.issuedRow (step : Step passwords service label after) {plainKey : String}
    (other : ¬ service.Concerns plainKey label) :
    after.issuedRow plainKey = service.issuedRow plainKey := by
  unfold Step next at step
  cases label with
  | create id projectId name random salt =>
      simp only at step
      split at step
      · rename_i unused
        cases step
        have kept : ∀ key, (plainKey, key) ∈ service.issued ++ [(generateApiKey random, id)] ↔
            (plainKey, key) ∈ service.issued := by
          intro key
          rw [List.mem_append, List.mem_singleton, Prod.mk.injEq]
          exact or_iff_left (fun both => other both.1)
        have unissued : (plainKey, id) ∉ service.issued :=
          fun issued => unused.2 (List.mem_map_of_mem issued)
        unfold ApiKeyService.issuedRow
        simp only [kept]
        rw [List.find?_append, List.find?_singleton]
        change Option.or _
          (if (true && decide ((plainKey, id) ∈ service.issued)) = true then _ else _) = _
        rw [decide_eq_false unissued, Bool.and_false, if_neg Bool.false_ne_true, Option.or_none]
      · cases step
  | deactivate id projectId =>
      cases step
      refine find_map_of_spared ?_ ?_
      · intro row sought
        rw [Bool.and_eq_true, decide_eq_true_iff] at sought
        refine if_neg ?_
        rintro ⟨same, _⟩
        rw [same] at sought
        exact other sought.2
      · intro row sought
        split at sought
        · cases sought
        · exact sought
  | delete id projectId =>
      cases step
      unfold ApiKeyService.issuedRow
      rw [List.find?_filter]
      congr 1
      funext row
      by_cases same : row.id = id
      · have unissued : (plainKey, row.id) ∉ service.issued := by
          rw [same]
          exact other
        simp [unissued]
      · simp [same]

theorem Step.functional (service : ApiKeyService Hash) (label : ApiKeyLabel)
    (after other : ApiKeyService Hash) (step : Step passwords service label after)
    (again : Step passwords service label other) : after = other :=
  Option.some.inj (step.symm.trans again)

end Steps

theorem initial_valid : Valid passwords {} where
  stored := fun _ none => by cases none
  formed := fun _ none => by cases none
  ids := List.nodup_nil

theorem initial_apart : Apart ({} : ApiKeyService Hash).table := fun _ => Nat.zero_le 1

theorem Valid.resolves_iff {service : ApiKeyService Hash} (valid : service.Valid passwords)
    (documented : passwords.Documented) : service.Resolves passwords ↔ Apart service.table :=
  ⟨valid.apart_of_resolves, valid.resolves_of_apart documented⟩

/-- In all states of a run every text resolves to the active row issued for it and to nothing
else, and no label changes what the texts of other keys resolve to, exactly when no key is created
whose prefix an active key has. -/
theorem keys_resolve_iff (documented : passwords.Documented) {labels : List ApiKeyLabel}
    {last : ApiKeyService Hash} (run : Run (Step passwords) {} labels last) :
    ((∀ past middle, past <+: labels → Run (Step passwords) {} past middle →
          middle.Resolves passwords) ∧
        ∀ past label middle after, past ++ [label] <+: labels →
          Run (Step passwords) {} past middle → Step passwords middle label after →
            ∀ plainKey, ¬ middle.Concerns plainKey label →
              after.getApiKeyObject passwords plainKey = middle.getApiKeyObject passwords plainKey) ↔
      Run (fun service label after => Step passwords service label after ∧
        service.FreshPrefix label) {} labels last := by
  have everywhere := Run.everywhere_iff (Valid passwords) (Resolves passwords) FreshPrefix
    Step.functional initial_valid (fun _ _ _ valid step _ => valid.step step)
    (initial_valid.resolves_of_apart documented initial_apart)
    (by
      intro service label after valid resolves step
      rw [(valid.step step).resolves_iff documented]
      exact step.apart_iff ((valid.resolves_iff documented).mp resolves)) run
  rw [← everywhere]
  refine and_iff_left_of_imp ?_
  intro resolves past label middle after begun reached step plainKey other
  have before := resolves past middle ((List.prefix_append past [label]).trans begun) reached
  have later := resolves (past ++ [label]) after begun (reached.snoc step)
  rw [before plainKey, later plainKey, step.issuedRow other]

end

/-! ### Two keys under one prefix -/

def plainPasswords : PasswordHash String where
  hash := fun plain _ => plain
  verify := fun plain hash => .ok (decide (plain = hash))

theorem plainPasswords_documented : plainPasswords.Documented := fun _ _ _ => rfl

def fourBytes (first fifth : Fin 256) : TokenBytes where
  bytes := [first, 0, 0, 0, fifth, 0, 0, 0, 0, 0, 0, 0, 0, 0, 0, 0]
  sixteen := rfl

def twoKeys (first second : TokenBytes) : List ApiKeyLabel :=
  [.create "1" "p" "web" first 0, .create "2" "p" "cron" second 0]

instance (service : ApiKeyService Hash) : (label : ApiKeyLabel) →
    Decidable (service.FreshPrefix label)
  | .create _ _ _ random _ => inferInstanceAs (Decidable (∀ row ∈ service.table,
      row.isActive = true → row.keyPrefix ≠ getKeyPrefix (generateApiKey random)))
  | .deactivate _ _ | .delete _ _ => isTrue trivial

theorem keys_resolve_iff_apart :
    ∃ last, Run (Step plainPasswords) {} (twoKeys (fourBytes 1 0) (fourBytes 2 0)) last ∧
      last.issued.length = 2 ∧ last.Resolves plainPasswords := by
  obtain ⟨last, fresh, two⟩ := Run.of_guardedStep (next plainPasswords) FreshPrefix {}
    (twoKeys (fourBytes 1 0) (fourBytes 2 0)) (fun last => last.issued.length) 2 (by decide +kernel)
  have run := fresh.mono (fun _ _ _ both => both.1)
  have resolves := ((keys_resolve_iff plainPasswords_documented run).mpr fresh).1
  exact ⟨last, run, two, resolves _ last (List.prefix_refl _) run⟩

/-- The lookup of a key raises once another one shares its first four bytes. -/
theorem keys_collide :
    ∃ last, Run (Step plainPasswords) {} (twoKeys (fourBytes 1 0) (fourBytes 1 1)) last ∧
      last.getApiKeyObject plainPasswords (generateApiKey (fourBytes 1 0)) =
        .error .multipleResultsFound ∧
      ¬ last.Resolves plainPasswords := by
  obtain ⟨last, run, raises⟩ := Run.of_foldlM_map (next plainPasswords) {}
    (twoKeys (fourBytes 1 0) (fourBytes 1 1))
    (fun last => match last.getApiKeyObject plainPasswords (generateApiKey (fourBytes 1 0)) with
      | .error .multipleResultsFound => true
      | .ok _ => false) true (by decide +kernel)
  have raised : last.getApiKeyObject plainPasswords (generateApiKey (fourBytes 1 0)) =
      .error .multipleResultsFound := by
    split at raises
    · assumption
    · cases raises
  refine ⟨last, run, raised, ?_⟩
  intro resolves
  have resolved := resolves (generateApiKey (fourBytes 1 0))
  rw [raised] at resolved
  cases resolved

end ApiKeyService

end Assemblix.Projects
