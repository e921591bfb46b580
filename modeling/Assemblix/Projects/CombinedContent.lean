import Assemblix.Projects.DocumentCounters

/-
What an agent node reads of a knowledge base that was filled by uploads.

Requests come one after another. An upload is measured by its content, and what is read also has
the names of the documents, and separators between them.
-/

namespace Assemblix.Projects.CombinedContent

open Library DocumentCounters

/-! ### One request after another -/

structure Arrival where
  request : Request
  inTime : Bool
  deriving DecidableEq, Repr

section

variable (outside : Outside) (kbId : String)

def calls (arrival : Arrival) : Nat → Store → Phase → Store × Phase
  | 0, store, phase => (store, phase)
  | more + 1, store, phase =>
      match arrival.inTime, phase with
      | false, .parsing _ =>
          (store, .finished (.error (.http 422 "Не удалось обработать PDF за отведённое время")))
      | _, _ =>
          match call outside kbId store arrival.request phase with
          | none => (store, phase)
          | some (after, next) => calls arrival more after next

def serve (store : Store) (arrival : Arrival) : Store × Phase :=
  calls outside kbId arrival 5 store .arrived

def Served (store : Store) (arrival : Arrival) (next : Store) : Prop :=
  (serve outside kbId store arrival).1 = next

def knowledge (bases : List KnowledgeBase) (store : Store) : KnowledgeStore where
  bases := bases
  documents := store.documents.map (fun document =>
    ⟨document.knowledgeBaseId, document.name, document.content⟩)

/-- `get_combined_content` of the base alone does not raise. -/
def Readable (bases : List KnowledgeBase) (store : Store) : Prop :=
  ∃ text, (knowledge bases store).getCombinedContent [kbId] = .ok text

structure Created (store : Store) : Prop where
  counters : store.counters = ⟨0, 0⟩
  documents : store.documentsOf kbId = []

/-! ### Room for a document -/

def draftOf (arrival : Arrival) : Option Draft :=
  match arrival.request with
  | .uploadText name content => some ⟨name, .text, stripped content⟩
  | .uploadPdf filename fileContent =>
      if arrival.inTime then
        (outside.extractTextFromPdf fileContent).toOption.map (fun content =>
          ⟨filename, .pdf, content⟩)
      else none
  | .deleteDocument _ => none

def Accepts (store : Store) (draft : Draft) : Prop :=
  store.counters.totalCharacters + draft.content.length ≤ maxCombinedCharacters ∧
    ∀ document ∈ store.documentsOf kbId,
      document.contentHash ≠ outside.computeHash draft.content

/-- A stored document takes its content, its name with three letters around it, and a separator of
seven to the next one. -/
def space (document : Document) : Nat :=
  document.name.length + 3 + document.content.length + 7

def HasRoom (store : Store) (draft : Draft) : Prop :=
  ((store.documentsOf kbId).map space).sum +
    (draft.name.length + 3 + draft.content.length) ≤ maxCombinedCharacters

instance (store : Store) (draft : Draft) : Decidable (HasRoom kbId store draft) :=
  Nat.decLe _ _

def RoomForNames (store : Store) (arrival : Arrival) : Prop :=
  ∀ draft, draftOf outside arrival = some draft → Accepts outside kbId store draft →
    HasRoom kbId store draft

end

/-! ### What a request leaves -/

section

variable {outside : Outside} {kbId : String} {store : Store} {arrival : Arrival}

theorem getByContentHash_none {contentHash : String}
    (new : ∀ document ∈ store.documentsOf kbId, document.contentHash ≠ contentHash) :
    store.getByContentHash kbId contentHash = .ok none := by
  have none : (store.documentsOf kbId).filter (fun document =>
      decide (document.contentHash = contentHash)) = [] := by
    refine List.filter_eq_nil_iff.mpr ?_
    intro document member
    rw [decide_eq_true_iff]
    exact new document member
  unfold Store.getByContentHash
  rw [none]

theorem getByContentHash_of_none {contentHash : String}
    (none : store.getByContentHash kbId contentHash = .ok none) :
    ∀ document ∈ store.documentsOf kbId, document.contentHash ≠ contentHash := by
  unfold Store.getByContentHash at none
  split at none
  case h_1 empty =>
    intro document member same
    have absent := List.filter_eq_nil_iff.mp empty document member
    exact absent (decide_eq_true same)
  case h_2 => cases none
  case h_3 => cases none

theorem calls_succ (more : Nat) {phase after : Phase} {next : Store}
    (waiting : ∀ kb, phase = .parsing kb → arrival.inTime = true)
    (called : call outside kbId store arrival.request phase = some (next, after)) :
    calls outside kbId arrival (more + 1) store phase =
      calls outside kbId arrival more next after := by
  rw [calls, called]
  intro kb late same
  rw [waiting kb same] at late
  cases late

theorem calls_finished (more : Nat) (result : Except Failure (Option Document)) :
    calls outside kbId arrival more store (.finished result) = (store, .finished result) := by
  have nothing : call outside kbId store arrival.request (.finished result) = none := by
    cases arrival.request <;> rfl
  cases more with
  | zero => rfl
  | succ more =>
      rw [calls, nothing]
      intro kb _ wrong
      cases wrong

theorem call_checked (kb : Counters) (draft : Draft) :
    call outside kbId store arrival.request (.checked kb draft) =
      match store.getByContentHash kbId (outside.computeHash draft.content) with
      | .error failure => some (store, .finished (.error failure))
      | .ok (some _) =>
          some (store, .finished (.error
            (.http 409 "Документ с таким содержимым уже существует в этой базе знаний")))
      | .ok none => some (store, .unique kb draft) := by
  cases arrival.request <;> rfl

theorem calls_checked (more : Nat) (kb : Counters) (draft : Draft) :
    ((∀ document ∈ store.documentsOf kbId,
        document.contentHash ≠ outside.computeHash draft.content) →
      (calls outside kbId arrival (more + 3) store (.checked kb draft)).1.documents =
        store.documents ++ [newDocument outside kbId store draft]) ∧
    (¬ (∀ document ∈ store.documentsOf kbId,
        document.contentHash ≠ outside.computeHash draft.content) →
      (calls outside kbId arrival (more + 3) store (.checked kb draft)).1.documents =
        store.documents) := by
  have checked := @call_checked outside kbId store arrival kb draft
  constructor
  · intro new
    rw [getByContentHash_none new] at checked
    rw [calls_succ _ (fun _ wrong => by cases wrong) checked]
    rw [calls_succ _ (fun _ wrong => by cases wrong) (by cases arrival.request <;> rfl)]
    rw [calls_succ _ (fun _ wrong => by cases wrong) (by cases arrival.request <;> rfl)]
    rw [calls_finished]
  · intro known
    split at checked
    case h_1 =>
      rw [calls_succ _ (fun _ wrong => by cases wrong) checked, calls_finished]
    case h_2 =>
      rw [calls_succ _ (fun _ wrong => by cases wrong) checked, calls_finished]
    case h_3 none => exact absurd (getByContentHash_of_none none) known

theorem calls_sizeChecked (more : Nat) (draft : Draft) :
    (Accepts outside kbId store draft →
      (calls outside kbId arrival (more + 3) store
        (sizeChecked store.counters draft)).1.documents =
          store.documents ++ [newDocument outside kbId store draft]) ∧
    (¬ Accepts outside kbId store draft →
      (calls outside kbId arrival (more + 3) store
        (sizeChecked store.counters draft)).1.documents = store.documents) := by
  unfold sizeChecked checkSizeLimit
  by_cases large : store.counters.totalCharacters + draft.content.length > maxCombinedCharacters
  · rw [if_pos large]
    refine ⟨fun accepted => absurd accepted.1 (Nat.not_le.mpr large), fun _ => ?_⟩
    dsimp only
    rw [calls_finished]
  · rw [if_neg large]
    obtain ⟨new, known⟩ := @calls_checked outside kbId store arrival more store.counters draft
    refine ⟨fun accepted => new accepted.2, fun refused => known fun others => ?_⟩
    exact refused ⟨Nat.not_lt.mp large, others⟩

theorem call_located {docId : Nat} (request : arrival.request = .deleteDocument docId) :
    call outside kbId store arrival.request (.located store.counters) =
      match store.documents.find? (fun document => decide (document.id = docId)) with
      | none => some (store, .finished (.error
          (.http 404 s!"Документ с ID {docId} не найден в этой базе знаний")))
      | some document =>
          if document.knowledgeBaseId ≠ kbId then
            some (store, .finished (.error
              (.http 404 s!"Документ с ID {docId} не найден в этой базе знаний")))
          else some (store, .found store.counters document) := by
  rw [request]
  rfl

theorem serve_deleteDocument {docId : Nat} (request : arrival.request = .deleteDocument docId) :
    (serve outside kbId store arrival).1.documents.Sublist store.documents := by
  have arrived : call outside kbId store arrival.request .arrived =
      some (store, .located store.counters) := by
    rw [request]
    rfl
  unfold serve
  rw [calls_succ _ (fun _ wrong => by cases wrong) arrived]
  have located := @call_located outside kbId store arrival _ request
  split at located
  case h_1 =>
    rw [calls_succ _ (fun _ wrong => by cases wrong) located, calls_finished]
  case h_2 document _ =>
    split at located
    case isTrue =>
      rw [calls_succ _ (fun _ wrong => by cases wrong) located, calls_finished]
    case isFalse =>
      rw [calls_succ _ (fun _ wrong => by cases wrong) located]
      rw [calls_succ _ (fun _ wrong => by cases wrong) (by rw [request]; rfl)]
      rw [calls_succ _ (fun _ wrong => by cases wrong) (by rw [request]; rfl)]
      rw [calls_finished]
      exact List.filter_sublist

theorem call_parsing {filename : String} {fileContent : List UInt8}
    (request : arrival.request = .uploadPdf filename fileContent) :
    call outside kbId store arrival.request (.parsing store.counters) =
      match outside.extractTextFromPdf fileContent with
      | .error detail => some (store, .finished (.error (.http 422 detail)))
      | .ok content => some (store, sizeChecked store.counters ⟨filename, .pdf, content⟩) := by
  rw [request]
  rfl

/-- The documents after a request: an upload that is let in adds its own, and nothing else adds
one. -/
theorem serve_documents :
    (∀ draft, draftOf outside arrival = some draft → Accepts outside kbId store draft →
      (serve outside kbId store arrival).1.documents =
        store.documents ++ [newDocument outside kbId store draft]) ∧
    ((∀ draft, draftOf outside arrival = some draft → ¬ Accepts outside kbId store draft) →
      (serve outside kbId store arrival).1.documents.Sublist store.documents) := by
  cases request : arrival.request with
  | uploadText name content =>
      have brought : draftOf outside arrival = some ⟨name, .text, stripped content⟩ := by
        rw [draftOf, request]
      have arrived : call outside kbId store arrival.request .arrived =
          some (store, sizeChecked store.counters ⟨name, .text, stripped content⟩) := by
        rw [request]
        rfl
      obtain ⟨added, refused⟩ :=
        @calls_sizeChecked outside kbId store arrival 1 ⟨name, .text, stripped content⟩
      rw [serve, calls_succ _ (fun _ wrong => by cases wrong) arrived, brought]
      refine ⟨fun draft same accepted => ?_, fun none => ?_⟩
      · cases same
        exact added accepted
      · rw [refused (none _ rfl)]
  | uploadPdf filename fileContent =>
      have arrived : call outside kbId store arrival.request .arrived =
          some (store, .parsing store.counters) := by
        rw [request]
        rfl
      rw [serve, calls_succ _ (fun _ wrong => by cases wrong) arrived]
      cases inTime : arrival.inTime with
      | false =>
          have brought : draftOf outside arrival = none := by
            rw [draftOf, request]
            simp only [inTime, Bool.false_eq_true, if_false]
          have late : calls outside kbId arrival 4 store (.parsing store.counters) =
              (store, .finished (.error
                (.http 422 "Не удалось обработать PDF за отведённое время"))) := by
            rw [calls]
            exact inTime
          rw [late, brought]
          exact ⟨fun _ same => (by cases same), fun _ => List.Sublist.refl _⟩
      | true =>
          have parsed := @call_parsing outside kbId store arrival _ _ request
          have brought : draftOf outside arrival =
              (outside.extractTextFromPdf fileContent).toOption.map
                (fun content => ⟨filename, .pdf, content⟩) := by
            rw [draftOf, request]
            simp only [inTime, if_true]
          rw [brought]
          cases extracted : outside.extractTextFromPdf fileContent with
          | error detail =>
              rw [extracted] at parsed
              rw [calls_succ _ (fun _ _ => inTime) parsed, calls_finished]
              exact ⟨fun _ same => (by cases same), fun _ => List.Sublist.refl _⟩
          | ok content =>
              rw [extracted] at parsed
              obtain ⟨added, refused⟩ :=
                @calls_sizeChecked outside kbId store arrival 0 ⟨filename, .pdf, content⟩
              rw [calls_succ _ (fun _ _ => inTime) parsed]
              refine ⟨fun draft same accepted => ?_, fun none => ?_⟩
              · cases same
                exact added accepted
              · rw [refused (none _ rfl)]
  | deleteDocument docId =>
      have brought : draftOf outside arrival = none := by
        rw [draftOf, request]
      rw [brought]
      exact ⟨fun _ same => (by cases same), fun _ => serve_deleteDocument request⟩

end

/-! ### The length of what is read -/

theorem length_intercalate (separator : String) {texts : List String} (some : texts ≠ []) :
    (separator.intercalate texts).length + separator.length =
      (texts.map (fun text => text.length + separator.length)).sum := by
  induction texts with
  | nil => exact absurd rfl some
  | cons text rest ih =>
      by_cases last : rest = []
      · subst last
        rw [String.intercalate_singleton, List.map_singleton, List.sum_singleton]
      · rw [String.intercalate_cons_of_ne_nil last, String.length_append, String.length_append,
          Nat.add_assoc, ih last, List.map_cons, List.sum_cons]

section

variable {kbId : String} {bases : List KnowledgeBase} {store : Store}

theorem documentsOf_knowledge :
    ((knowledge bases store).documentsOf [kbId]).Perm
      ((store.documentsOf kbId).map (fun document =>
        ⟨document.knowledgeBaseId, document.name, document.content⟩)) := by
  refine (List.perm_insertionSort _ _).trans (List.Perm.of_eq ?_)
  change (List.map _ _).filter _ = (List.filter _ _).map _
  rw [List.filter_map]
  congr 1
  refine List.filter_congr fun document _ => ?_
  simp only [Function.comp_apply, List.mem_singleton]

theorem length_allContent (some : store.documentsOf kbId ≠ []) :
    ((knowledge bases store).getAllContentByKbIds [kbId]).length + 7 =
      ((store.documentsOf kbId).map space).sum := by
  have read := @documentsOf_knowledge kbId bases store
  have nonempty : (knowledge bases store).documentsOf [kbId] ≠ [] := by
    intro none
    rw [none, List.nil_perm, List.map_eq_nil_iff] at read
    exact some read
  have parts := @length_intercalate "\n\n---\n\n"
    (((knowledge bases store).documentsOf [kbId]).map (fun document =>
      "[" ++ document.name ++ "]\n" ++ document.content))
    (fun none => nonempty (List.map_eq_nil_iff.mp none))
  rw [List.map_map] at parts
  refine Eq.trans parts (((read.map _).sum_nat).trans ?_)
  rw [List.map_map]
  refine congrArg List.sum (List.map_congr_left fun document _ => ?_)
  simp only [Function.comp_apply, String.length_append, space]
  change 1 + document.name.length + 2 + document.content.length + 7 = _
  omega

/-- The base is read as long as its documents with their names and separators are not above the
limit; there is no separator after the last one. -/
theorem readable_iff :
    Readable kbId bases store ↔
      ((store.documentsOf kbId).map space).sum ≤ maxCombinedCharacters + 7 := by
  have raises : Readable kbId bases store ↔
      ((knowledge bases store).getAllContentByKbIds [kbId]).length ≤ maxCombinedCharacters := by
    unfold Readable KnowledgeStore.getCombinedContent
    dsimp only
    by_cases large : ((knowledge bases store).getAllContentByKbIds [kbId]).length >
        maxCombinedCharacters
    · rw [if_pos large]
      exact iff_of_false (fun ⟨text, wrong⟩ => by cases wrong) (Nat.not_le.mpr large)
    · rw [if_neg large]
      exact iff_of_true ⟨_, rfl⟩ (Nat.not_lt.mp large)
  rw [raises]
  by_cases none : store.documentsOf kbId = []
  · have read := @documentsOf_knowledge kbId bases store
    rw [none, List.map_nil, List.perm_nil] at read
    unfold KnowledgeStore.getAllContentByKbIds
    rw [read, none]
    exact iff_of_true (Nat.zero_le _) (Nat.zero_le _)
  · rw [← @length_allContent kbId bases store none]
    exact (Nat.add_le_add_iff_right).symm

end

/-! ### Every run -/

section

variable {outside : Outside} {kbId : String} {bases : List KnowledgeBase} {store : Store}
  {arrival : Arrival}

theorem sum_space_serve {draft : Draft} (brought : draftOf outside arrival = some draft)
    (accepted : Accepts outside kbId store draft) :
    (((serve outside kbId store arrival).1.documentsOf kbId).map space).sum =
      ((store.documentsOf kbId).map space).sum +
        (draft.name.length + 3 + draft.content.length + 7) := by
  have stored := serve_documents.1 draft brought accepted
  have added : (serve outside kbId store arrival).1.documentsOf kbId =
      store.documentsOf kbId ++ [newDocument outside kbId store draft] := by
    unfold Store.documentsOf
    rw [stored, List.filter_append]
    exact congrArg (List.filter _ store.documents ++ ·)
      (List.filter_cons_of_pos (decide_eq_true rfl))
  rw [added, List.map_append, List.sum_append, List.map_singleton, List.sum_singleton]
  rfl

theorem readable_serve_iff (readable : Readable kbId bases store) :
    Readable kbId bases (serve outside kbId store arrival).1 ↔
      RoomForNames outside kbId store arrival := by
  rw [readable_iff] at readable ⊢
  by_cases accepted : ∃ draft, draftOf outside arrival = some draft ∧
      Accepts outside kbId store draft
  · obtain ⟨draft, brought, accepted⟩ := accepted
    rw [sum_space_serve brought accepted]
    have room : RoomForNames outside kbId store arrival ↔ HasRoom kbId store draft := by
      constructor
      · intro room
        exact room draft brought accepted
      · intro room other same _
        rw [brought] at same
        cases same
        exact room
    rw [room, HasRoom]
    omega
  · have refused : ∀ draft, draftOf outside arrival = some draft →
        ¬ Accepts outside kbId store draft :=
      fun draft brought accepts => accepted ⟨draft, brought, accepts⟩
    have kept := serve_documents.2 refused
    refine iff_of_true (Nat.le_trans ?_ readable) ?_
    · exact ((kept.filter _).map space).sum_le_sum (fun _ _ => Nat.zero_le _)
    · intro draft brought accepts
      exact absurd accepts (refused draft brought)

theorem Created.readable (created : Created kbId store) : Readable kbId bases store := by
  rw [readable_iff, created.documents]
  exact Nat.zero_le _

/-- After every one of the requests the base is read without the size error exactly if each upload
that was let in had room for its name and its separator. -/
theorem combined_content_readable_iff {start last : Store} {arrivals : List Arrival}
    (created : Created kbId start) (run : Run (Served outside kbId) start arrivals last) :
    (∀ past middle, past <+: arrivals → Run (Served outside kbId) start past middle →
      Readable kbId bases middle) ↔
    Run (fun store arrival next => Served outside kbId store arrival next ∧
      RoomForNames outside kbId store arrival) start arrivals last :=
  run.everywhere_iff (fun _ => True) (Readable kbId bases) (RoomForNames outside kbId)
    (fun _ _ _ _ served again => served.symm.trans again) trivial (fun _ _ _ _ _ _ => trivial)
    created.readable (by
      rintro store arrival _ - readable rfl
      exact readable_serve_iff readable)

end

/-! ### Up to the limit -/

theorem emptyBase_created : Created "base" emptyBase.store := ⟨rfl, rfl⟩

def roomyStep (outside : Outside) (kbId : String) (store : Store) (arrival : Arrival) :
    Option Store :=
  if (draftOf outside arrival).all (fun draft =>
      decide (HasRoom kbId store draft)) then
    some (serve outside kbId store arrival).1
  else none

theorem roomyStep_eq {outside : Outside} {kbId : String} {store next : Store} {arrival : Arrival}
    (taken : roomyStep outside kbId store arrival = some next) :
    Served outside kbId store arrival next ∧ RoomForNames outside kbId store arrival := by
  unfold roomyStep at taken
  split at taken
  case isTrue room =>
    refine ⟨Option.some.inj taken, fun draft brought _ => ?_⟩
    rw [brought] at room
    exact of_decide_eq_true room
  case isFalse => cases taken

def twoUploads : List Arrival :=
  [⟨.uploadText "first" " one ", true⟩, ⟨.uploadPdf "second.pdf" [116, 119, 111], true⟩,
    ⟨.deleteDocument 0, true⟩]

theorem twoUploads_readable :
    (∃ last, Run (Served plainFiles "base") emptyBase.store twoUploads last) ∧
      ∀ past middle, past <+: twoUploads →
        Run (Served plainFiles "base") emptyBase.store past middle →
          Readable "base" [] middle := by
  obtain ⟨last, run, -⟩ := Run.of_foldlM_map (roomyStep plainFiles "base") emptyBase.store twoUploads
    (fun store => store.counters) ⟨1, 3⟩ (by decide +kernel)
  have roomy := run.mono (fun _ _ _ taken => roomyStep_eq taken)
  have served := roomy.mono (fun _ _ _ both => both.1)
  exact ⟨⟨last, served⟩, (combined_content_readable_iff emptyBase_created served).mpr roomy⟩

theorem stripped_letters {count : Nat} (some : count ≠ 0) :
    stripped (String.ofList (List.replicate count 'a')) =
      String.ofList (List.replicate count 'a') := by
  have plain : SetVariableNode.isSpace 'a' = false := by decide
  unfold stripped
  rw [String.toList_ofList, Trimmed.strip_eq]
  refine ⟨?_, fun letter first => ?_, fun letter last => ?_⟩
  · rw [Ne, List.replicate_eq_nil_iff]
    exact some
  · rw [List.eq_of_mem_replicate (List.mem_of_mem_head? first)]
    exact plain
  · rw [List.eq_of_mem_replicate (List.mem_of_getLast? last)]
    exact plain

theorem not_readable_of_full {name text : String} (kept : stripped text = text)
    (full : text.length = maxCombinedCharacters) :
    ¬ Readable "base" [] (serve plainFiles "base" emptyBase.store ⟨.uploadText name text, true⟩).1 := by
  intro readable
  have brought : draftOf plainFiles ⟨.uploadText name text, true⟩ = some ⟨name, .text, text⟩ := by
    rw [draftOf]
    simp only [kept]
  have accepted : Accepts plainFiles "base" emptyBase.store ⟨name, .text, text⟩ :=
    ⟨Nat.le_of_eq ((Nat.zero_add _).trans full),
      fun document member => absurd member List.not_mem_nil⟩
  rw [readable_iff, sum_space_serve brought accepted] at readable
  have above : 0 + (name.length + 3 + text.length + 7) ≤ maxCombinedCharacters + 7 := readable
  omega

/-- A text of the length that the upload lets in is too long to be read. -/
theorem full_base_unreadable :
    Created "base" emptyBase.store ∧
      ∃ last, Run (Served plainFiles "base") emptyBase.store
          [⟨.uploadText "a" (String.ofList (List.replicate 200000 'a')), true⟩] last ∧
        ¬ Readable "base" [] last := by
  have full : (String.ofList (List.replicate 200000 'a')).length = maxCombinedCharacters := by
    rw [String.length_ofList, List.length_replicate, maxCombinedCharacters]
  exact ⟨emptyBase_created, _, Run.nil.snoc rfl,
    not_readable_of_full (stripped_letters (by decide)) full⟩

end Assemblix.Projects.CombinedContent
