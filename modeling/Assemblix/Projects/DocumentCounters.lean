import Assemblix.Execution.SetVariableNode
import Assemblix.Library.ListUpdate
import Assemblix.Library.Run
import Assemblix.Library.Words
import Assemblix.Projects.KnowledgeBases
import Mathlib.Algebra.Group.Prod

/-
The counters of a knowledge base under concurrent requests.

An upload or a deletion reads the row once, at its start, and overwrites the counters at its end
with values computed from what it has read; the size limit is checked against the same reading.
Each repository call is atomic, and between two of them other requests come in.
-/

namespace Assemblix.Projects

open Library

namespace DocumentCounters

/-! ### The store -/

/-- `document_count` and `total_characters`. -/
structure Counters where
  documentCount : Nat
  totalCharacters : Nat
  deriving DecidableEq, Repr

inductive SourceType
  | text
  | pdf
  deriving DecidableEq, Repr

/-- What a new document is made of. -/
structure Draft where
  name : String
  sourceType : SourceType
  content : String
  deriving DecidableEq, Repr

structure Document where
  id : Nat
  knowledgeBaseId : String
  name : String
  sourceType : SourceType
  content : String
  contentHash : String
  characterCount : Nat
  /-- Documents are only made with the length of their content. -/
  measured : characterCount = content.length
  deriving DecidableEq

/-- The row of one knowledge base, and the documents of all; ids are never used again. -/
structure Store where
  counters : Counters
  documents : List Document
  nextId : Nat

/-! ### Requests -/

inductive Failure
  | http (status : Nat) (detail : String)
  /-- `scalar_one_or_none` with more than one row. -/
  | multipleResultsFound
  deriving DecidableEq, Repr

inductive Request
  | uploadText (name content : String)
  | uploadPdf (filename : String) (fileContent : List UInt8)
  | deleteDocument (docId : Nat)
  deriving DecidableEq, Repr

/-- Where a request is: what it has read, and which call is its next one. -/
inductive Phase
  | arrived
  | parsing (kb : Counters)
  | checked (kb : Counters) (draft : Draft)
  | unique (kb : Counters) (draft : Draft)
  | created (kb : Counters) (document : Document)
  | located (kb : Counters)
  | found (kb : Counters) (document : Document)
  | deleted (kb : Counters) (document : Document)
  | finished (result : Except Failure (Option Document))

/-- The PDF parser, which may refuse a file with a message, and SHA-256. -/
structure Outside where
  extractTextFromPdf : List UInt8 → Except String String
  computeHash : String → String

/-- `_check_size_limit`. -/
def checkSizeLimit (currentTotal newContentSize : Nat) : Except Failure Unit :=
  if currentTotal + newContentSize > maxCombinedCharacters then
    .error (.http 422
      ("Документ слишком большой: добавление " ++ withThousands newContentSize ++
        " символов превысит лимит базы знаний (" ++ withThousands maxCombinedCharacters ++
        " символов). Доступно ещё " ++ withThousands (maxCombinedCharacters - currentTotal) ++
        " символов. Сократите документ или удалите другие документы из базы знаний."))
  else .ok ()

section

variable (outside : Outside) (kbId : String)

def Store.documentsOf (store : Store) : List Document :=
  store.documents.filter (fun document => decide (document.knowledgeBaseId = kbId))

def Store.getByContentHash (store : Store) (contentHash : String) :
    Except Failure (Option Document) :=
  match (store.documentsOf kbId).filter (fun document =>
      decide (document.contentHash = contentHash)) with
  | [] => .ok none
  | [document] => .ok (some document)
  | _ => .error .multipleResultsFound

def Counters.update (row loaded new : Counters) : Counters where
  documentCount :=
    if new.documentCount = loaded.documentCount then row.documentCount else new.documentCount
  totalCharacters :=
    if new.totalCharacters = loaded.totalCharacters then row.totalCharacters
    else new.totalCharacters

def sizeChecked (kb : Counters) (draft : Draft) : Phase :=
  match checkSizeLimit kb.totalCharacters draft.content.length with
  | .error failure => .finished (.error failure)
  | .ok () => .checked kb draft

def stripped (content : String) : String :=
  String.ofList (strip SetVariableNode.isSpace content.toList)

def newDocument (store : Store) (draft : Draft) : Document where
  id := store.nextId
  knowledgeBaseId := kbId
  name := draft.name
  sourceType := draft.sourceType
  content := draft.content
  contentHash := outside.computeHash draft.content
  characterCount := draft.content.length
  measured := rfl

def call (store : Store) : Request → Phase → Option (Store × Phase)
  | .uploadText name content, .arrived =>
      some (store, sizeChecked store.counters ⟨name, .text, stripped content⟩)
  | .uploadPdf _ _, .arrived => some (store, .parsing store.counters)
  | .deleteDocument _, .arrived => some (store, .located store.counters)
  | .uploadPdf filename fileContent, .parsing kb =>
      match outside.extractTextFromPdf fileContent with
      | .error detail => some (store, .finished (.error (.http 422 detail)))
      | .ok content => some (store, sizeChecked kb ⟨filename, .pdf, content⟩)
  | _, .checked kb draft =>
      match store.getByContentHash kbId (outside.computeHash draft.content) with
      | .error failure => some (store, .finished (.error failure))
      | .ok (some _) =>
          some (store, .finished (.error
            (.http 409 "Документ с таким содержимым уже существует в этой базе знаний")))
      | .ok none => some (store, .unique kb draft)
  | _, .unique kb draft =>
      some
        ({ store with
            documents := store.documents ++ [newDocument outside kbId store draft]
            nextId := store.nextId + 1 },
          .created kb (newDocument outside kbId store draft))
  | _, .created kb document =>
      some
        ({ store with
            counters := store.counters.update kb
              { documentCount := kb.documentCount + 1
                totalCharacters := kb.totalCharacters + document.characterCount } },
          .finished (.ok (some document)))
  | .deleteDocument docId, .located kb =>
      let notFound : Failure :=
        .http 404 s!"Документ с ID {docId} не найден в этой базе знаний"
      match store.documents.find? (fun document => decide (document.id = docId)) with
      | none => some (store, .finished (.error notFound))
      | some document =>
          if document.knowledgeBaseId ≠ kbId then some (store, .finished (.error notFound))
          else some (store, .found kb document)
  | _, .found kb document =>
      some
        ({ store with
            documents := store.documents.filter (fun other => !decide (other.id = document.id)) },
          .deleted kb document)
  | _, .deleted kb document =>
      some
        ({ store with
            -- `max(0, ..)` is the subtraction of natural numbers.
            counters := store.counters.update kb
              { documentCount := kb.documentCount - 1
                totalCharacters := kb.totalCharacters - document.characterCount } },
          .finished (.ok none))
  | _, _ => none

/-! ### Interleavings -/

structure Service where
  store : Store
  requests : List (Request × Phase)

inductive Event
  | arrive (request : Request)
  | call (index : Nat)
  /-- The parser of the request has had its time. -/
  | timeout (index : Nat)
  deriving DecidableEq

def Service.enter (service : Service) (index : Nat) (store : Store) (phase : Phase) : Service where
  store := store
  requests := service.requests.modify index (fun request => (request.1, phase))

def step (service : Service) : Event → Option Service
  | .arrive request => some { service with requests := service.requests ++ [(request, .arrived)] }
  | .call index =>
      (service.requests[index]?).bind (fun request =>
        (call outside kbId service.store request.1 request.2).map (fun done =>
          service.enter index done.1 done.2))
  | .timeout index =>
      match service.requests[index]? with
      | some (_, .parsing _) =>
          some (service.enter index service.store
            (.finished (.error (.http 422 "Не удалось обработать PDF за отведённое время"))))
      | _ => none

def Store.size (store : Store) : Nat × Nat :=
  ((store.documentsOf kbId).map (fun document => (1, document.characterCount))).sum

def Store.Exact (store : Store) : Prop :=
  store.counters.documentCount = (store.documentsOf kbId).length ∧
    store.counters.totalCharacters =
      ((store.documentsOf kbId).map (fun document => document.content.length)).sum

def Store.Within (store : Store) : Prop :=
  ((store.documentsOf kbId).map (fun document => document.content.length)).sum ≤
    maxCombinedCharacters

end

/-! ### Steps on what was read -/

/-- The next call of the request does not act on a reading that is out of date: a document is
stored on a total that covers the stored sum, the counters are overwritten where they are the ones
that were read, and a document is deleted, and counted as deleted, where it is stored, and counted. -/
def current (kbId : String) (service : Service) : Event → Bool
  | .call index =>
      match service.requests[index]? with
      | some (_, .unique kb _) =>
          decide (((service.store.documentsOf kbId).map (fun document =>
            document.content.length)).sum ≤ kb.totalCharacters)
      | some (_, .created kb document) =>
          decide (service.store.counters.documentCount = kb.documentCount) &&
            (decide (document.content.length = 0) ||
              decide (service.store.counters.totalCharacters = kb.totalCharacters))
      | some (_, .found _ document) => decide (document ∈ service.store.documents)
      | some (_, .deleted kb document) =>
          decide (service.store.counters.documentCount = kb.documentCount) &&
            decide (1 ≤ kb.documentCount) &&
            (decide (document.content.length = 0) ||
              decide (service.store.counters.totalCharacters = kb.totalCharacters) &&
                decide (document.content.length ≤ kb.totalCharacters))
      | _ => true
  | _ => true

def Step (outside : Outside) (kbId : String) (service : Service) (event : Event)
    (next : Service) : Prop :=
  step outside kbId service event = some next

def CurrentStep (outside : Outside) (kbId : String) (service : Service) (event : Event)
    (next : Service) : Prop :=
  Step outside kbId service event next ∧ current kbId service event = true

structure Opened (kbId : String) (service : Service) : Prop where
  requests : service.requests = []
  ids : (service.store.documents.map Document.id).Nodup
  below : ∀ document ∈ service.store.documents, document.id < service.store.nextId
  exact : service.store.Exact kbId
  within : service.store.Within kbId

def Finished (service : Service) : Prop :=
  ∀ request ∈ service.requests, ∃ result, request.2 = .finished result

/-! ### What is stored and not yet counted -/

def Document.weight (document : Document) : Nat × Nat := (1, document.characterCount)

def Counters.weight (counters : Counters) : Nat × Nat :=
  (counters.documentCount, counters.totalCharacters)

def Phase.uncounted : Phase → Nat × Nat
  | .created _ document => document.weight
  | _ => 0

def Phase.overcounted : Phase → Nat × Nat
  | .deleted _ document => document.weight
  | _ => 0

def Phase.Sound (kbId : String) : Phase → Prop
  | .checked kb draft | .unique kb draft =>
      kb.totalCharacters + draft.content.length ≤ maxCombinedCharacters
  | .found _ document => document.knowledgeBaseId = kbId
  | _ => True

/-- The counters with what is stored and not yet counted are what is stored with what is deleted
and still counted. -/
structure Balanced (kbId : String) (service : Service) : Prop where
  ids : (service.store.documents.map Document.id).Nodup
  below : ∀ document ∈ service.store.documents, document.id < service.store.nextId
  sound : ∀ request ∈ service.requests, request.2.Sound kbId
  within : (service.store.size kbId).2 ≤ maxCombinedCharacters
  amounts : service.store.counters.weight +
      (service.requests.map (fun request => request.2.uncounted)).sum =
    service.store.size kbId + (service.requests.map (fun request => request.2.overcounted)).sum

section

variable {kbId : String}

theorem sum_weights (documents : List Document) :
    (documents.map Document.weight).sum =
      (documents.length, (documents.map (fun document => document.content.length)).sum) := by
  induction documents with
  | nil => rfl
  | cons document rest ih =>
      rw [List.map_cons, List.sum_cons, ih, List.map_cons, List.sum_cons, List.length_cons,
        Document.weight, document.measured, Prod.mk_add_mk, Nat.add_comm 1]

theorem Store.size_eq (store : Store) :
    store.size kbId = ((store.documentsOf kbId).length,
      ((store.documentsOf kbId).map (fun document => document.content.length)).sum) :=
  sum_weights (store.documentsOf kbId)

theorem Store.exact_iff (store : Store) :
    store.Exact kbId ↔ store.counters.weight = store.size kbId := by
  rw [Store.size_eq, Counters.weight, Prod.mk.injEq]
  rfl

theorem Store.within_iff (store : Store) :
    store.Within kbId ↔ (store.size kbId).2 ≤ maxCombinedCharacters := by
  rw [Store.size_eq]
  rfl

theorem Opened.balanced {service : Service} (opened : Opened kbId service) :
    Balanced kbId service := by
  refine ⟨opened.ids, opened.below, ?_, (Store.within_iff _).mp opened.within, ?_⟩
  · rw [opened.requests]
    simp
  · rw [opened.requests, (Store.exact_iff _).mp opened.exact]
    rfl

theorem Balanced.exact {service : Service} (balanced : Balanced kbId service)
    (finished : Finished service) : service.store.Exact kbId := by
  have nothing : ∀ view : Phase → Nat × Nat, (∀ result, view (.finished result) = 0) →
      (service.requests.map (fun request => view request.2)).sum = 0 := by
    intro view zero
    refine List.sum_eq_zero ?_
    intro amount member
    obtain ⟨request, known, rfl⟩ := List.mem_map.mp member
    obtain ⟨result, ended⟩ := finished request known
    rw [ended, zero]
  have amounts := balanced.amounts
  rw [nothing Phase.uncounted (fun _ => rfl), nothing Phase.overcounted (fun _ => rfl), add_zero,
    add_zero] at amounts
  exact (Store.exact_iff _).mpr amounts

/-! ### The two updates -/

theorem update_created {row kb : Counters} {length : Nat}
    (count : row.documentCount = kb.documentCount)
    (total : length = 0 ∨ row.totalCharacters = kb.totalCharacters) :
    (row.update kb ⟨kb.documentCount + 1, kb.totalCharacters + length⟩).weight =
      row.weight + (1, length) := by
  unfold Counters.update Counters.weight
  rw [if_neg (by simp), count, Prod.mk_add_mk]
  rcases total with rfl | total
  · simp
  · by_cases empty : length = 0
    · simp [empty]
    · rw [if_neg (by simpa using empty), total]

theorem update_deleted {row kb : Counters} {length : Nat}
    (count : row.documentCount = kb.documentCount) (counted : 1 ≤ kb.documentCount)
    (total : length = 0 ∨ row.totalCharacters = kb.totalCharacters ∧ length ≤ kb.totalCharacters) :
    (row.update kb ⟨kb.documentCount - 1, kb.totalCharacters - length⟩).weight + (1, length) =
      row.weight := by
  unfold Counters.update Counters.weight
  rw [if_neg (show ¬ kb.documentCount - 1 = kb.documentCount by omega), count, Prod.mk_add_mk,
    Nat.sub_add_cancel counted]
  rcases total with rfl | ⟨same, covered⟩
  · simp
  · by_cases empty : length = 0
    · simp [empty]
    · rw [if_neg (show ¬ kb.totalCharacters - length = kb.totalCharacters by omega), same,
        Nat.sub_add_cancel covered]

/-! ### One call -/

variable {outside : Outside} {service next : Service} {event : Event}

theorem Balanced.enter (balanced : Balanced kbId service) {index : Nat} {request : Request}
    {phase : Phase} (known : service.requests[index]? = some (request, phase))
    {store : Store} {after : Phase} (ids : (store.documents.map Document.id).Nodup)
    (below : ∀ document ∈ store.documents, document.id < store.nextId)
    (sound : after.Sound kbId) (within : (store.size kbId).2 ≤ maxCombinedCharacters)
    (moved : store.counters.weight + after.uncounted +
        (service.store.size kbId + phase.overcounted) =
      store.size kbId + after.overcounted + (service.store.counters.weight + phase.uncounted)) :
    Balanced kbId (service.enter index store after) := by
  refine ⟨ids, below, ?_, within, ?_⟩
  · intro other member
    obtain ⟨place, found⟩ := List.mem_iff_getElem?.mp member
    obtain ⟨before, there, ⟨_, rfl⟩ | ⟨_, rfl⟩⟩ := get_modify found
    · exact sound
    · exact balanced.sound other (List.mem_of_getElem? there)
  · have uncounted := sum_modify (fun request : Request × Phase => request.2.uncounted) known
      (fun request => (request.1, after))
    have overcounted := sum_modify (fun request : Request × Phase => request.2.overcounted) known
      (fun request => (request.1, after))
    have amounts := balanced.amounts
    unfold Service.enter
    dsimp only at uncounted overcounted ⊢
    simp only [Prod.ext_iff, Prod.fst_add, Prod.snd_add] at *
    omega

theorem Balanced.quiet (balanced : Balanced kbId service) {index : Nat} {request : Request}
    {phase : Phase} (known : service.requests[index]? = some (request, phase)) {after : Phase}
    (sound : after.Sound kbId) (uncounted : after.uncounted = phase.uncounted)
    (overcounted : after.overcounted = phase.overcounted) :
    Balanced kbId (service.enter index service.store after) := by
  refine balanced.enter known balanced.ids balanced.below sound balanced.within ?_
  rw [uncounted, overcounted, add_comm]

theorem sizeChecked_cases (kb : Counters) (draft : Draft) :
    (∃ failure, sizeChecked kb draft = .finished (.error failure)) ∨
      sizeChecked kb draft = .checked kb draft ∧
        kb.totalCharacters + draft.content.length ≤ maxCombinedCharacters := by
  unfold sizeChecked checkSizeLimit
  by_cases large : kb.totalCharacters + draft.content.length > maxCombinedCharacters
  · rw [if_pos large]
    exact .inl ⟨_, rfl⟩
  · rw [if_neg large]
    exact .inr ⟨rfl, Nat.not_lt.mp large⟩

theorem Balanced.sizeChecked (balanced : Balanced kbId service) {index : Nat} {request : Request}
    {phase : Phase} (known : service.requests[index]? = some (request, phase))
    (uncounted : phase.uncounted = 0) (overcounted : phase.overcounted = 0) (kb : Counters)
    (draft : Draft) :
    Balanced kbId (service.enter index service.store (sizeChecked kb draft)) := by
  rcases sizeChecked_cases kb draft with ⟨failure, refused⟩ | ⟨checked, fits⟩
  · rw [refused]
    exact balanced.quiet known trivial uncounted.symm overcounted.symm
  · rw [checked]
    exact balanced.quiet known fits uncounted.symm overcounted.symm

theorem Store.size_concat (store : Store) {document : Document}
    (ours : document.knowledgeBaseId = kbId) (documents : List Document)
    (stored : documents = store.documents ++ [document]) (nextId : Nat) (counters : Counters) :
    Store.size kbId ⟨counters, documents, nextId⟩ = store.size kbId + document.weight := by
  subst stored
  unfold Store.size Store.documentsOf
  rw [List.filter_append, List.filter_cons, if_pos (decide_eq_true ours), List.map_append,
    List.sum_append]
  rfl

theorem Store.size_remove (store : Store) {document : Document}
    (ours : document.knowledgeBaseId = kbId) (member : document ∈ store.documents)
    (ids : (store.documents.map Document.id).Nodup) :
    Store.size kbId { store with
      documents := store.documents.filter (fun other => !decide (other.id = document.id)) } +
        document.weight = store.size kbId := by
  unfold Store.size Store.documentsOf
  obtain ⟨counters, documents, nextId⟩ := store
  dsimp only at member ids ⊢
  induction documents with
  | nil => cases member
  | cons first rest ih =>
      rw [List.map_cons, List.nodup_cons] at ids
      rcases List.mem_cons.mp member with rfl | later
      · have others : rest.filter (fun other => !decide (other.id = document.id)) = rest := by
          refine List.filter_eq_self.mpr ?_
          intro other known
          have different : other.id ≠ document.id :=
            fun same => ids.1 (List.mem_map.mpr ⟨other, known, same⟩)
          simp [different]
        rw [List.filter_cons_of_neg (by simp), others,
          List.filter_cons_of_pos (by simp [ours]), List.map_cons, List.sum_cons, add_comm]
        rfl
      · have different : first.id ≠ document.id :=
          fun same => ids.1 (List.mem_map.mpr ⟨document, later, same.symm⟩)
        rw [List.filter_cons_of_pos (by simp [different])]
        by_cases mine : first.knowledgeBaseId = kbId
        · rw [List.filter_cons_of_pos (by simp [mine]),
            List.filter_cons_of_pos (by simp [mine]), List.map_cons, List.map_cons,
            List.sum_cons, List.sum_cons, add_assoc, ih later ids.2]
        · rw [List.filter_cons_of_neg (by simp [mine]), List.filter_cons_of_neg (by simp [mine]),
            ih later ids.2]

theorem ids_concat {documents : List Document} {nextId : Nat} {document : Document}
    (ids : (documents.map Document.id).Nodup)
    (below : ∀ document ∈ documents, document.id < nextId) (new : document.id = nextId) :
    ((documents ++ [document]).map Document.id).Nodup ∧
      ∀ other ∈ documents ++ [document], other.id < nextId + 1 := by
  constructor
  · rw [List.map_append, List.map_singleton, List.nodup_append']
    refine ⟨ids, List.nodup_singleton _, ?_⟩
    rw [List.disjoint_singleton]
    intro member
    obtain ⟨other, known, same⟩ := List.mem_map.mp member
    have := below other known
    omega
  · intro other member
    rcases List.mem_append.mp member with member | member
    · exact Nat.lt_succ_of_lt (below other member)
    · rw [List.mem_singleton.mp member, new]
      exact Nat.lt_succ_self nextId

theorem Balanced.call (balanced : Balanced kbId service) {index : Nat} {request : Request}
    {phase : Phase} (known : service.requests[index]? = some (request, phase))
    (obeys : current kbId service (.call index) = true) {store : Store} {after : Phase}
    (called : call outside kbId service.store request phase = some (store, after)) :
    Balanced kbId (service.enter index store after) := by
  have sound := balanced.sound _ (List.mem_of_getElem? known)
  unfold current at obeys
  dsimp only at obeys
  rw [known] at obeys
  unfold DocumentCounters.call at called
  split at called
  case h_1 name content =>
    cases called
    exact balanced.sizeChecked known rfl rfl _ _
  case h_2 =>
    cases called
    exact balanced.quiet known trivial rfl rfl
  case h_3 =>
    cases called
    exact balanced.quiet known trivial rfl rfl
  case h_4 filename fileContent kb =>
    split at called
    case h_1 =>
      cases called
      exact balanced.quiet known trivial rfl rfl
    case h_2 content _ =>
      cases called
      exact balanced.sizeChecked known rfl rfl _ _
  case h_5 kb draft =>
    split at called
    case h_1 => cases called; exact balanced.quiet known trivial rfl rfl
    case h_2 => cases called; exact balanced.quiet known trivial rfl rfl
    case h_3 => cases called; exact balanced.quiet known sound rfl rfl
  case h_6 kb draft =>
    cases called
    have fits : kb.totalCharacters + draft.content.length ≤ maxCombinedCharacters := sound
    have covered := of_decide_eq_true obeys
    obtain ⟨ids, below⟩ := @ids_concat service.store.documents service.store.nextId
      (newDocument outside kbId service.store draft) balanced.ids balanced.below rfl
    have size := @Store.size_concat kbId service.store
      (newDocument outside kbId service.store draft) rfl _ rfl (service.store.nextId + 1)
      service.store.counters
    refine balanced.enter known ids below trivial ?_ ?_
    · rw [size, Store.size_eq]
      exact Nat.le_trans (Nat.add_le_add_right covered _) fits
    · rw [size]
      change service.store.counters.weight + _ + (_ + 0) = _ + 0 + (_ + 0)
      unfold Phase.uncounted
      abel
  case h_7 kb document =>
    cases called
    rw [Bool.and_eq_true, Bool.or_eq_true, decide_eq_true_iff, decide_eq_true_iff,
      decide_eq_true_iff, ← document.measured] at obeys
    refine balanced.enter known balanced.ids balanced.below trivial balanced.within ?_
    change (Counters.update _ _ _).weight + 0 + (service.store.size kbId + 0) = _
    rw [update_created obeys.1 obeys.2]
    change _ = service.store.size kbId + 0 + (_ + (1, document.characterCount))
    abel
  case h_8 docId kb =>
    dsimp only at called
    split at called
    case h_1 => cases called; exact balanced.quiet known trivial rfl rfl
    case h_2 document _ =>
      split at called
      case isTrue => cases called; exact balanced.quiet known trivial rfl rfl
      case isFalse ours =>
        cases called
        exact balanced.quiet known (not_not.mp ours) rfl rfl
  case h_9 kb document =>
    cases called
    have stored := of_decide_eq_true obeys
    have ours : document.knowledgeBaseId = kbId := sound
    have size := service.store.size_remove ours stored balanced.ids
    have kept : ∀ other ∈ service.store.documents.filter
        (fun other => !decide (other.id = document.id)), other ∈ service.store.documents :=
      fun other member => List.mem_of_mem_filter member
    refine balanced.enter known ?_ (fun other member => balanced.below other (kept other member))
      trivial ?_ ?_
    · exact balanced.ids.sublist (List.filter_sublist.map Document.id)
    · have within := balanced.within
      rw [← size] at within
      exact Nat.le_trans (Nat.le_add_right _ _) within
    · rw [← size]
      change service.store.counters.weight + 0 + (_ + document.weight + 0) =
        _ + document.weight + (_ + 0)
      abel
  case h_10 kb document =>
    cases called
    simp only [Bool.and_eq_true, Bool.or_eq_true, decide_eq_true_iff, ← document.measured] at obeys
    obtain ⟨⟨count, counted⟩, total⟩ := obeys
    refine balanced.enter known balanced.ids balanced.below trivial balanced.within ?_
    have updated := update_deleted count counted total
    change (Counters.update _ _ _).weight + 0 + (service.store.size kbId +
      (1, document.characterCount)) = service.store.size kbId + 0 + (_ + 0)
    rw [← updated]
    abel
  case h_11 => cases called

theorem Balanced.step (balanced : Balanced kbId service)
    (taken : CurrentStep outside kbId service event next) : Balanced kbId next := by
  obtain ⟨taken, obeys⟩ := taken
  unfold Step DocumentCounters.step at taken
  cases event with
  | arrive request =>
      cases taken
      refine ⟨balanced.ids, balanced.below, ?_, balanced.within, ?_⟩
      · intro other member
        rcases List.mem_append.mp member with member | member
        · exact balanced.sound other member
        · rw [List.mem_singleton.mp member]
          trivial
      · rw [List.map_append, List.map_append, List.sum_append, List.sum_append]
        exact congrArg (· + 0) balanced.amounts
  | call index =>
      obtain ⟨⟨request, phase⟩, known, called⟩ := Option.bind_eq_some_iff.mp taken
      obtain ⟨⟨store, after⟩, done, rfl⟩ := Option.map_eq_some_iff.mp called
      exact balanced.call known obeys done
  | timeout index =>
      dsimp only at taken
      split at taken
      case h_1 request kb known =>
        cases taken
        exact balanced.quiet known trivial rfl rfl
      case h_2 => cases taken

/-- Where every call acts on a reading that is not out of date, the counters are exact whenever
all requests have finished, and the stored sum is never above the limit. -/
theorem counters_exact {start last : Service} {events : List Event}
    (opened : Opened kbId start) (run : Run (CurrentStep outside kbId) start events last) :
    last.store.Within kbId ∧ (Finished last → last.store.Exact kbId) := by
  have balanced : Balanced kbId last :=
    run.invariant (Balanced kbId) start opened.balanced (fun _ _ _ kept taken => kept.step taken)
  exact ⟨(Store.within_iff _).mpr balanced.within, balanced.exact⟩

end

/-! ### Two uploads -/

def plainFiles : Outside where
  extractTextFromPdf := fun fileContent =>
    .ok (String.ofList (fileContent.map (fun byte => Char.ofNat byte.toNat)))
  computeHash := id

def emptyBase : Service where
  store := ⟨⟨0, 0⟩, [], 0⟩
  requests := []

theorem emptyBase_opened : Opened "base" emptyBase :=
  ⟨rfl, List.nodup_nil, by simp [emptyBase], ⟨rfl, rfl⟩, Nat.zero_le _⟩

def oneByOne : List Event :=
  [.arrive (.uploadText "first" " one "), .call 0, .call 0, .call 0, .call 0,
    .arrive (.uploadPdf "second.pdf" [116, 119, 111]), .call 1, .call 1, .call 1, .call 1, .call 1,
    .arrive (.deleteDocument 0), .call 2, .call 2, .call 2, .call 2]

def atOnce : List Event :=
  [.arrive (.uploadText "first" "one"), .arrive (.uploadText "second" "four"), .call 0, .call 1,
    .call 0, .call 1, .call 0, .call 1, .call 0, .call 1]

def Service.view (kbId : String) (service : Service) : Counters × List Nat × List Bool :=
  (service.store.counters,
    (service.store.documentsOf kbId).map (fun document => document.content.length),
    service.requests.map (fun request =>
      match request.2 with
      | .finished _ => true
      | _ => false))

theorem finished_of_view (kbId : String) {service : Service}
    (all : ∀ done ∈ (service.view kbId).2.2, done = true) : Finished service := by
  intro request member
  have done := all _ (List.mem_map.mpr ⟨request, member, rfl⟩)
  split at done
  case h_1 result ended => exact ⟨result, ended⟩
  case h_2 => cases done

theorem counters_exact_one_by_one :
    ∃ last, Run (CurrentStep plainFiles "base") emptyBase oneByOne last ∧ Finished last ∧
      last.store.Within "base" ∧ last.store.Exact "base" ∧
      last.store.counters = ⟨1, 3⟩ := by
  obtain ⟨last, steps, view⟩ := Run.of_guardedStep (step plainFiles "base")
    (fun service event => current "base" service event = true) emptyBase oneByOne
    (Service.view "base") (⟨1, 3⟩, [3], [true, true, true]) (by decide +kernel)
  have finished : Finished last := finished_of_view "base" (by rw [view]; simp)
  obtain ⟨within, exact⟩ := counters_exact emptyBase_opened steps
  exact ⟨last, steps, finished, within, exact finished, congrArg Prod.fst view⟩

/-- Two documents are stored, and one is counted. -/
theorem upload_not_counted :
    ∃ last, Opened "base" emptyBase ∧ Run (Step plainFiles "base") emptyBase atOnce last ∧
      Finished last ∧ last.store.counters = ⟨1, 4⟩ ∧ (last.store.documentsOf "base").length = 2 ∧
      ¬ last.store.Exact "base" := by
  obtain ⟨last, run, view⟩ := Run.of_foldlM_map (step plainFiles "base") emptyBase atOnce
    (Service.view "base") (⟨1, 4⟩, [3, 4], [true, true]) (by decide +kernel)
  have finished : Finished last := finished_of_view "base" (by rw [view]; simp)
  have counted : last.store.counters = ⟨1, 4⟩ := congrArg Prod.fst view
  have lengths : (last.store.documentsOf "base").map (fun document => document.content.length) =
      [3, 4] := congrArg (fun seen => seen.2.1) view
  have two : (last.store.documentsOf "base").length = 2 := by
    simpa using congrArg List.length lengths
  refine ⟨last, emptyBase_opened, run, finished, counted, two, fun exact => ?_⟩
  have one := exact.1
  rw [counted, two] at one
  cases one

end DocumentCounters
end Assemblix.Projects
