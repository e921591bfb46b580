import Assemblix.Projects.WorkflowTable
import Assemblix.Library.Run

/-
Publishing among other requests on the same workflows.

A request is a row of repository calls, and other requests come in between. Its one write lands
with its commit. What it has loaded stays as it was in the identity map of its session.
-/

namespace Assemblix.Projects

open Library

/-! ### Requests -/

inductive WorkflowRequest
  | create (data : WorkflowCreate)
  | update (id : String) (data : WorkflowUpdate)
  | delete (id : String)
  | publish (id : String)
  | copy (id : String)
  | move (id target : String)

inductive RepositoryCall
  | getById (id : String)
  | existsById (id : String)
  | getLatestPublished (id : String)
  | write
  deriving DecidableEq

def WorkflowRequest.calls : WorkflowRequest → List RepositoryCall
  | .create _ => [.write]
  | .update id _ => [.getById id, .getById id, .getById id, .write]
  | .delete id => [.getById id, .getById id, .existsById id, .write]
  | .publish id => [.getById id, .getById id, .getLatestPublished id, .write]
  | .copy id => [.getById id, .getById id, .write]
  | .move id _ => [.getById id, .getById id, .write, .getById id]

/-- "Публикуйте только драфты" and "Переносите только драфты". -/
def WorkflowRequest.draftsOnly : WorkflowRequest → Bool
  | .publish _ => true
  | .move _ _ => true
  | _ => false

structure WorkflowCall where
  request : WorkflowRequest
  remaining : List RepositoryCall
  loaded : Option WorkflowRow := none
  latest : Option WorkflowRow := none

namespace WorkflowCall

/-- The highest version that `get_next_version` saw. -/
def seen (call : WorkflowCall) : Int := (call.latest.bind WorkflowRow.version).getD 0

def refuses (call : WorkflowCall) : Bool :=
  call.request.draftsOnly && call.loaded.any (fun row => row.publishedForWorkflowId.isSome)

end WorkflowCall

structure Publication where
  draft : Nat
  row : Nat
  number : Int
  -- The draft's when the version is made.
  content : WorkflowContent
  deriving DecidableEq

/-! ### What lands -/

def defaulted (data : WorkflowCreate) (generated : Generated) : WorkflowContent :=
  if data.content.nodes = .arr [] then
    { data.content with nodes := generated.nodes, edges := generated.edges }
  else data.content

def createdRow (data : WorkflowCreate) (generated : Generated) (serial : Nat) : WorkflowRow where
  id := data.id.getD generated.id
  projectId := data.projectId
  content := defaulted data generated
  publishedForWorkflowId := data.publishedForWorkflowId
  version := data.version
  serial := serial

def publishedRow (draft : WorkflowRow) (seen : Int) (generated : Generated) (serial : Nat) :
    WorkflowRow where
  id := generated.id
  projectId := draft.projectId
  content := draft.content
  publishedForWorkflowId := some draft.id
  version := some (seen + 1)
  serial := serial

def copiedRow (source : WorkflowRow) (generated : Generated) (serial : Nat) : WorkflowRow where
  id := generated.id
  projectId := source.projectId
  content := source.content
  publishedForWorkflowId := none
  version := none
  serial := serial

def WorkflowCall.land (call : WorkflowCall) (table : WorkflowTable) (generated : Generated)
    (serial : Nat) : Option (WorkflowTable × List Publication) :=
  match call.request, call.loaded with
  | .create data, _ => (table.create (createdRow data generated serial)).map (fun rows => (rows, []))
  | .update _ data, some loaded => (table.update loaded data).map (fun rows => (rows, []))
  | .delete id, _ => some (table.delete id, [])
  | .publish _, some draft => do
      let current ← table.getById draft.id
      let rows ← table.create (publishedRow draft call.seen generated serial)
      some (rows,
        [{ draft := draft.serial, row := serial, number := call.seen + 1,
           content := current.content }])
  | .copy _, some source =>
      (table.create (copiedRow source generated serial)).map (fun rows => (rows, []))
  | .move id target, _ => some (table.moveToProject id target, [])
  | _, none => none

/-! ### The service -/

structure WorkflowService where
  table : WorkflowTable := []
  calls : List WorkflowCall := []
  inserted : Nat := 0
  handedOut : List Publication := []

/-- A request comes in, one goes on, one is given up: unauthorized, or something raised. -/
inductive WorkflowLabel
  | receive (request : WorkflowRequest)
  | perform (index : Nat) (generated : Generated)
  | abort (index : Nat)

namespace WorkflowService

def setCall (service : WorkflowService) (index : Nat) (call : WorkflowCall) : WorkflowService :=
  { service with calls := service.calls.set index call }

def dropCall (service : WorkflowService) (index : Nat) : WorkflowService :=
  { service with calls := service.calls.modify index (fun call => { call with remaining := [] }) }

def perform (service : WorkflowService) (index : Nat) (call : WorkflowCall)
    (generated : Generated) (next : RepositoryCall) (rest : List RepositoryCall) :
    WorkflowService :=
  match next with
  | .getById id =>
      match service.table.getById id with
      | none => service.dropCall index
      | some row =>
          service.setCall index { call with loaded := call.loaded.or (some row), remaining := rest }
  | .existsById id =>
      if service.table.hasId id then service.setCall index { call with remaining := rest }
      else service.dropCall index
  | .getLatestPublished id =>
      if call.refuses then service.dropCall index
      else
        service.setCall index
          { call with latest := service.table.getLatestPublished id, remaining := rest }
  | .write =>
      if call.refuses then service.dropCall index
      else
        match call.land service.table generated service.inserted with
        | none => service.dropCall index
        | some (rows, published) =>
            { service.setCall index { call with remaining := rest } with
              table := rows
              inserted := service.inserted + 1
              handedOut := service.handedOut ++ published }

def next (service : WorkflowService) : WorkflowLabel → Option WorkflowService
  | .receive request =>
      some { service with
        calls := service.calls ++ [{ request := request, remaining := request.calls }] }
  | .perform index generated =>
      match service.calls[index]? with
      | none => none
      | some call =>
          match call.remaining with
          | [] => none
          | next :: rest => some (service.perform index call generated next rest)
  | .abort index => some (service.dropCall index)

def Step (service : WorkflowService) (label : WorkflowLabel) (after : WorkflowService) : Prop :=
  service.next label = some after

/-! ### Versions -/

structure Kept (service : WorkflowService) : Prop where
  immutable : ∀ publication ∈ service.handedOut, ∀ row ∈ service.table,
    row.serial = publication.row → row.content = publication.content
  numbered : service.handedOut.Pairwise (fun earlier later =>
    earlier.draft = later.draft → earlier.number < later.number)

def isVersion (service : WorkflowService) (row : WorkflowRow) : Bool :=
  service.handedOut.any (fun publication => decide (publication.row = row.serial))

def SparesVersions (service : WorkflowService) (loaded : WorkflowRow) (data : WorkflowUpdate) :
    Prop :=
  ∀ row ∈ service.table, row.id = loaded.id → service.isVersion row = true →
    (data.onto loaded row).content = row.content

/-- The draft is still as the publish loaded it, and every number handed out for it was reached by
a version the publish saw. -/
structure UpToDate (service : WorkflowService) (draft : WorkflowRow) (seen : Int) : Prop where
  content : ∀ current, service.table.getById draft.id = some current →
    current.content = draft.content
  reached : ∀ publication ∈ service.handedOut, publication.draft = draft.serial →
    publication.number ≤ seen

def CarefulWrite (service : WorkflowService) (call : WorkflowCall) : Prop :=
  match call.request, call.loaded with
  | .update _ data, some loaded => service.SparesVersions loaded data
  | .publish _, some draft => service.UpToDate draft call.seen
  | _, _ => True

def Lands (service : WorkflowService) (index : Nat) (generated : Generated) (call : WorkflowCall) :
    Prop :=
  service.calls[index]? = some call ∧ call.remaining.head? = some .write ∧ call.refuses = false ∧
    (call.land service.table generated service.inserted).isSome = true

def Careful (service : WorkflowService) : WorkflowLabel → Prop
  | .perform index generated =>
      ∀ call, service.Lands index generated call → service.CarefulWrite call
  | _ => True

/-! ### What a step does -/

inductive Landing (service : WorkflowService) (call : WorkflowCall) :
    WorkflowTable → List Publication → Prop
  | added (row : WorkflowRow) (new : row.serial = service.inserted)
      (free : service.CarefulWrite call) : Landing service call (service.table ++ [row]) []
  | kept (rows : WorkflowTable) (free : service.CarefulWrite call)
      (same : ∀ row ∈ rows, ∃ old ∈ service.table,
        old.serial = row.serial ∧ old.content = row.content) : Landing service call rows []
  | updated (loaded : WorkflowRow) (data : WorkflowUpdate)
      (asked : service.CarefulWrite call ↔ service.SparesVersions loaded data) :
      Landing service call (service.table.map (fun row =>
        if row.id = loaded.id then data.onto loaded row else row)) []
  | published (draft current : WorkflowRow) (generated : Generated)
      (found : service.table.getById draft.id = some current)
      (asked : service.CarefulWrite call ↔ service.UpToDate draft call.seen) :
      Landing service call
        (service.table ++ [publishedRow draft call.seen generated service.inserted])
        [{ draft := draft.serial, row := service.inserted, number := call.seen + 1,
           content := current.content }]

theorem create_eq_some {table rows : WorkflowTable} {row : WorkflowRow}
    (created : table.create row = some rows) : rows = table ++ [row] := by
  unfold WorkflowTable.create at created
  split at created
  · cases created
    rfl
  · cases created

theorem update_eq_some {table rows : WorkflowTable} {loaded : WorkflowRow} {data : WorkflowUpdate}
    (updated : table.update loaded data = some rows) :
    rows = table.map (fun row => if row.id = loaded.id then data.onto loaded row else row) := by
  unfold WorkflowTable.update at updated
  simp only at updated
  split at updated
  · cases updated
    rfl
  · cases updated

theorem landing (service : WorkflowService) (call : WorkflowCall) (generated : Generated)
    {rows : WorkflowTable} {published : List Publication}
    (landed : call.land service.table generated service.inserted = some (rows, published)) :
    Landing service call rows published := by
  obtain ⟨request, remaining, loaded, latest⟩ := call
  cases request with
  | create data =>
      obtain ⟨made, created, same⟩ := Option.map_eq_some_iff.mp landed
      cases same
      rw [create_eq_some created]
      exact .added _ rfl trivial
  | delete id =>
      cases landed
      refine .kept _ trivial ?_
      intro row member
      exact ⟨row, (List.mem_filter.mp member).1, rfl, rfl⟩
  | move id target =>
      cases landed
      refine .kept _ trivial ?_
      intro row member
      obtain ⟨old, oldMember, same⟩ := List.mem_map.mp member
      refine ⟨old, oldMember, ?_⟩
      rw [← same]
      split <;> exact ⟨rfl, rfl⟩
  | update id data =>
      cases loaded with
      | none => cases landed
      | some loaded =>
          obtain ⟨made, updated, same⟩ := Option.map_eq_some_iff.mp landed
          cases same
          rw [update_eq_some updated]
          exact .updated loaded data Iff.rfl
  | copy id =>
      cases loaded with
      | none => cases landed
      | some source =>
          obtain ⟨made, created, same⟩ := Option.map_eq_some_iff.mp landed
          cases same
          rw [create_eq_some created]
          exact .added _ rfl trivial
  | publish id =>
      cases loaded with
      | none => cases landed
      | some draft =>
          obtain ⟨current, found, landed⟩ := Option.bind_eq_some_iff.mp landed
          obtain ⟨made, created, same⟩ := Option.bind_eq_some_iff.mp landed
          cases same
          rw [create_eq_some created]
          exact .published draft current generated found Iff.rfl

structure Untouched (service after : WorkflowService) : Prop where
  table : after.table = service.table
  handedOut : after.handedOut = service.handedOut
  inserted : after.inserted = service.inserted

structure Landed (service : WorkflowService) (label : WorkflowLabel) (after : WorkflowService)
    (call : WorkflowCall) (published : List Publication) : Prop where
  landing : Landing service call after.table published
  handedOut : after.handedOut = service.handedOut ++ published
  inserted : after.inserted = service.inserted + 1
  careful : service.Careful label ↔ service.CarefulWrite call

theorem careful_of_not_landing {service : WorkflowService} {index : Nat} {generated : Generated}
    {call : WorkflowCall} (held : service.calls[index]? = some call)
    (unlanded : ¬ service.Lands index generated call) :
    service.Careful (.perform index generated) := by
  intro other lands
  have same : call = other := Option.some.inj (held.symm.trans lands.1)
  rw [same] at unlanded
  exact absurd lands unlanded

theorem careful_iff {service : WorkflowService} {index : Nat} {generated : Generated}
    {call : WorkflowCall} (lands : service.Lands index generated call) :
    service.Careful (.perform index generated) ↔ service.CarefulWrite call := by
  constructor
  · intro careful
    exact careful call lands
  · intro careful other again
    have same : call = other := Option.some.inj (lands.1.symm.trans again.1)
    rwa [← same]

theorem careful_of_reading {service : WorkflowService} {index : Nat} {generated : Generated}
    {call : WorkflowCall} {next : RepositoryCall} {rest : List RepositoryCall}
    (held : service.calls[index]? = some call) (left : call.remaining = next :: rest)
    (reading : next ≠ .write) : service.Careful (.perform index generated) := by
  refine careful_of_not_landing held ?_
  intro lands
  have head := lands.2.1
  rw [left] at head
  exact reading (Option.some.inj head)

theorem perform_cases {service : WorkflowService} {index : Nat} {call : WorkflowCall}
    {generated : Generated} {next : RepositoryCall} {rest : List RepositoryCall}
    (held : service.calls[index]? = some call) (left : call.remaining = next :: rest) :
    (service.Untouched (service.perform index call generated next rest) ∧
        service.Careful (.perform index generated)) ∨
      ∃ published, service.Landed (.perform index generated)
        (service.perform index call generated next rest) call published := by
  cases next with
  | getById id =>
      refine Or.inl ⟨?_, careful_of_reading held left (by simp)⟩
      unfold perform
      simp only
      split <;> exact ⟨rfl, rfl, rfl⟩
  | existsById id =>
      refine Or.inl ⟨?_, careful_of_reading held left (by simp)⟩
      unfold perform
      simp only
      split <;> exact ⟨rfl, rfl, rfl⟩
  | getLatestPublished id =>
      refine Or.inl ⟨?_, careful_of_reading held left (by simp)⟩
      unfold perform
      simp only
      split <;> exact ⟨rfl, rfl, rfl⟩
  | write =>
      unfold perform
      simp only
      split
      · rename_i refused
        refine Or.inl ⟨⟨rfl, rfl, rfl⟩, careful_of_not_landing held ?_⟩
        intro lands
        rw [lands.2.2.1] at refused
        cases refused
      · rename_i accepted
        split
        · rename_i failed
          refine Or.inl ⟨⟨rfl, rfl, rfl⟩, careful_of_not_landing held ?_⟩
          intro lands
          have made := lands.2.2.2
          rw [failed] at made
          cases made
        · rename_i rows published landed
          have lands : service.Lands index generated call :=
            ⟨held, by rw [left]; rfl, Bool.eq_false_iff.mpr accepted, by rw [landed]; rfl⟩
          exact Or.inr ⟨published, landing service call generated landed, rfl, rfl,
            careful_iff lands⟩

theorem step_cases {service after : WorkflowService} {label : WorkflowLabel}
    (step : Step service label after) :
    (service.Untouched after ∧ service.Careful label) ∨
      ∃ call published, service.Landed label after call published := by
  unfold Step next at step
  cases label with
  | receive request =>
      cases step
      exact Or.inl ⟨⟨rfl, rfl, rfl⟩, trivial⟩
  | abort index =>
      cases step
      exact Or.inl ⟨⟨rfl, rfl, rfl⟩, trivial⟩
  | perform index generated =>
      simp only at step
      cases held : service.calls[index]? with
      | none =>
          rw [held] at step
          cases step
      | some call =>
          rw [held] at step
          simp only at step
          cases left : call.remaining with
          | nil =>
              rw [left] at step
              cases step
          | cons next rest =>
              rw [left] at step
              cases step
              exact (perform_cases held left).imp_right (fun landed => ⟨call, landed⟩)

/-! ### Runs -/

structure Dated (service : WorkflowService) : Prop where
  rows : ∀ row ∈ service.table, row.serial < service.inserted
  published : ∀ publication ∈ service.handedOut, publication.row < service.inserted

theorem Dated.land {service : WorkflowService} {call : WorkflowCall} {rows : WorkflowTable}
    {published : List Publication} (dated : service.Dated)
    (landing : service.Landing call rows published) :
    (∀ row ∈ rows, row.serial < service.inserted + 1) ∧
      ∀ publication ∈ published, publication.row < service.inserted + 1 := by
  have before : ∀ row ∈ service.table, row.serial < service.inserted + 1 :=
    fun row member => Nat.lt_succ_of_lt (dated.rows row member)
  have appended : ∀ row : WorkflowRow, row.serial = service.inserted →
      ∀ other ∈ service.table ++ [row], other.serial < service.inserted + 1 := by
    intro row new other member
    rcases List.mem_append.mp member with old | last
    · exact before other old
    · rw [List.mem_singleton.mp last, new]
      exact Nat.lt_succ_self _
  cases landing with
  | added row new _ => exact ⟨appended row new, fun _ none => by cases none⟩
  | kept _ _ same =>
      refine ⟨?_, fun _ none => by cases none⟩
      intro row member
      obtain ⟨old, oldMember, serial, -⟩ := same row member
      rw [← serial]
      exact before old oldMember
  | updated loaded data _ =>
      refine ⟨?_, fun _ none => by cases none⟩
      intro row member
      obtain ⟨old, oldMember, same⟩ := List.mem_map.mp member
      rw [← same]
      split
      · exact before old oldMember
      · exact before old oldMember
  | published draft current generated _ _ =>
      refine ⟨appended _ rfl, ?_⟩
      intro publication member
      rw [List.mem_singleton.mp member]
      exact Nat.lt_succ_self _

theorem Dated.step {service after : WorkflowService} {label : WorkflowLabel}
    (dated : service.Dated) (step : Step service label after) : after.Dated := by
  rcases step_cases step with ⟨untouched, -⟩ | ⟨call, published, landed⟩
  · constructor
    · rw [untouched.table, untouched.inserted]
      exact dated.rows
    · rw [untouched.handedOut, untouched.inserted]
      exact dated.published
  · obtain ⟨rows, new⟩ := dated.land landed.landing
    constructor
    · rw [landed.inserted]
      exact rows
    · rw [landed.handedOut, landed.inserted]
      intro publication member
      rcases List.mem_append.mp member with old | last
      · exact Nat.lt_succ_of_lt (dated.published publication old)
      · exact new publication last

def Keeps (publications : List Publication) (rows : WorkflowTable) : Prop :=
  ∀ publication ∈ publications, ∀ row ∈ rows,
    row.serial = publication.row → row.content = publication.content

theorem Dated.keeps_new {service : WorkflowService} (dated : service.Dated)
    (kept : Keeps service.handedOut service.table) {row : WorkflowRow}
    (new : row.serial = service.inserted) :
    Keeps service.handedOut (service.table ++ [row]) := by
  intro publication member other otherMember same
  rcases List.mem_append.mp otherMember with old | last
  · exact kept publication member other old same
  · have earlier := dated.published publication member
    rw [← same, List.mem_singleton.mp last, new] at earlier
    exact absurd earlier (Nat.lt_irrefl _)

theorem keeps_updated_iff {service : WorkflowService}
    (kept : Keeps service.handedOut service.table) (loaded : WorkflowRow) (data : WorkflowUpdate) :
    Keeps service.handedOut (service.table.map (fun row =>
        if row.id = loaded.id then data.onto loaded row else row)) ↔
      service.SparesVersions loaded data := by
  constructor
  · intro keeps row member named version
    obtain ⟨publication, published, same⟩ := List.any_eq_true.mp version
    have serial : publication.row = row.serial := of_decide_eq_true same
    have updated := keeps publication published (data.onto loaded row)
      (List.mem_map.mpr ⟨row, member, if_pos named⟩) serial.symm
    rw [updated, kept publication published row member serial.symm]
  · intro spares publication published row member serial
    obtain ⟨old, oldMember, same⟩ := List.mem_map.mp member
    by_cases named : old.id = loaded.id
    · rw [if_pos named] at same
      rw [← same] at serial ⊢
      have version : service.isVersion old = true :=
        List.any_eq_true.mpr ⟨publication, published, decide_eq_true serial.symm⟩
      rw [spares old oldMember named version]
      exact kept publication published old oldMember serial
    · rw [if_neg named] at same
      rw [← same] at serial ⊢
      exact kept publication published old oldMember serial

/-- A publish keeps both promises exactly when it is up to date. -/
theorem kept_published_iff {service after : WorkflowService} (dated : service.Dated)
    (kept : service.Kept) {draft current : WorkflowRow} {generated : Generated} {seen : Int}
    (found : service.table.getById draft.id = some current)
    (table : after.table =
      service.table ++ [publishedRow draft seen generated service.inserted])
    (handedOut : after.handedOut = service.handedOut ++
      [{ draft := draft.serial, row := service.inserted, number := seen + 1,
         content := current.content }]) :
    after.Kept ↔ service.UpToDate draft seen := by
  constructor
  · intro promised
    constructor
    · intro other again
      rw [found] at again
      cases again
      have same := promised.immutable
        { draft := draft.serial, row := service.inserted, number := seen + 1,
          content := current.content }
        (by rw [handedOut]; exact List.mem_append_right _ (List.mem_singleton.mpr rfl))
        (publishedRow draft seen generated service.inserted)
        (by rw [table]; exact List.mem_append_right _ (List.mem_singleton.mpr rfl)) rfl
      exact same.symm
    · intro publication member sameDraft
      have numbered := promised.numbered
      rw [handedOut, List.pairwise_append] at numbered
      have below := numbered.2.2 publication member _ (List.mem_singleton.mpr rfl) sameDraft
      exact Int.le_of_lt_add_one below
  · intro upToDate
    constructor
    · rw [table, handedOut]
      intro publication member row rowMember same
      rcases List.mem_append.mp member with old | last
      · exact dated.keeps_new kept.immutable rfl publication old row rowMember same
      · rw [List.mem_singleton.mp last] at same ⊢
        rcases List.mem_append.mp rowMember with earlier | new
        · have before := dated.rows row earlier
          rw [same] at before
          exact absurd before (Nat.lt_irrefl _)
        · rw [List.mem_singleton.mp new]
          exact (upToDate.content current found).symm
    · rw [handedOut, List.pairwise_append]
      refine ⟨kept.numbered, List.pairwise_singleton _ _, ?_⟩
      intro publication member last lastMember sameDraft
      rw [List.mem_singleton.mp lastMember] at sameDraft ⊢
      exact Int.lt_add_one_of_le (upToDate.reached publication member sameDraft)

theorem Kept.of_same {service after : WorkflowService} (kept : service.Kept)
    (handedOut : after.handedOut = service.handedOut)
    (keeps : Keeps service.handedOut after.table) : after.Kept where
  immutable := by
    rw [handedOut]
    exact keeps
  numbered := by
    rw [handedOut]
    exact kept.numbered

theorem Kept.step_iff {service after : WorkflowService} {label : WorkflowLabel}
    (dated : service.Dated) (kept : service.Kept) (step : Step service label after) :
    after.Kept ↔ service.Careful label := by
  rcases step_cases step with ⟨untouched, careful⟩ | ⟨call, published, landed⟩
  · refine iff_of_true (kept.of_same untouched.handedOut ?_) careful
    rw [untouched.table]
    exact kept.immutable
  · rw [landed.careful]
    have handedOut := landed.handedOut
    have landing := landed.landing
    clear landed step
    obtain ⟨table, calls, inserted, handed⟩ := after
    cases landing with
    | added row new free =>
        rw [List.append_nil] at handedOut
        exact iff_of_true (kept.of_same handedOut (dated.keeps_new kept.immutable new)) free
    | kept _ free same =>
        rw [List.append_nil] at handedOut
        refine iff_of_true (kept.of_same handedOut ?_) free
        intro publication member row rowMember serial
        obtain ⟨old, oldMember, oldSerial, content⟩ := same row rowMember
        rw [← content]
        exact kept.immutable publication member old oldMember (oldSerial.trans serial)
    | updated loaded data asked =>
        rw [List.append_nil] at handedOut
        rw [asked, ← keeps_updated_iff kept.immutable]
        constructor
        · intro promised
          rw [← handedOut]
          exact promised.immutable
        · intro keeps
          exact kept.of_same handedOut keeps
    | published draft current generated found asked =>
        rw [asked]
        exact kept_published_iff dated kept found rfl handedOut

theorem Step.functional (service : WorkflowService) (label : WorkflowLabel)
    (after other : WorkflowService) (step : Step service label after)
    (again : Step service label other) : after = other :=
  Option.some.inj (step.symm.trans again)

/-- Whatever requests come and however they interleave: in all states published versions are as
their drafts were when they were made, and the numbers of a draft go up, exactly when no update
lands on a version with other content and every publish is up to date when it lands. -/
theorem versions_kept_iff {labels : List WorkflowLabel} {last : WorkflowService}
    (run : Run Step {} labels last) :
    (∀ past middle, past <+: labels → Run Step {} past middle → middle.Kept) ↔
      Run (fun service label after => Step service label after ∧ service.Careful label)
        {} labels last :=
  Run.everywhere_iff Dated Kept Careful Step.functional
    ⟨fun _ none => (by cases none), fun _ none => (by cases none)⟩
    (fun _ _ _ dated step _ => dated.step step)
    ⟨fun _ none => (by cases none), List.Pairwise.nil⟩
    (fun _ _ _ dated kept step => kept.step_iff dated step) run

/-! ### A version edited, and a number handed out again -/

instance (service : WorkflowService) : Decidable service.Kept :=
  decidable_of_iff
    ((∀ publication ∈ service.handedOut, ∀ row ∈ service.table,
        row.serial = publication.row → row.content = publication.content) ∧
      service.handedOut.Pairwise (fun earlier later =>
        earlier.draft = later.draft → earlier.number < later.number))
    ⟨fun both => ⟨both.1, both.2⟩, fun kept => ⟨kept.immutable, kept.numbered⟩⟩

def generatedIds (id : String) : Generated where
  id := id
  nodes := .arr []
  edges := .arr []

def served (index : Nat) (request : WorkflowRequest) (id : String) : List WorkflowLabel :=
  .receive request :: request.calls.map (fun _ => .perform index (generatedIds id))

def blank : WorkflowCreate where
  projectId := "p"
  content := { nodes := .arr [.str "start"], edges := .arr [], state := .arr [], config := .obj [] }

def versionPatched : List WorkflowLabel :=
  served 0 (.create blank) "draft" ++ served 1 (.publish "draft") "first" ++
    served 2 (.update "first" { nodes := some (.arr [.str "end"]) }) ""

def latestDeleted : List WorkflowLabel :=
  served 0 (.create blank) "draft" ++ served 1 (.publish "draft") "first" ++
    served 2 (.delete "first") "" ++ served 3 (.publish "draft") "second"

/-- The third request is careless: it updates the version by its id. -/
theorem versions_kept_iff_patched :
    ∃ last, Run Step {} versionPatched last ∧
      ¬ Run (fun service label after => Step service label after ∧ service.Careful label)
        {} versionPatched last := by
  obtain ⟨last, run, broken⟩ := Run.of_foldlM_map next {} versionPatched
    (fun last => decide last.Kept) false (by decide +kernel)
  refine ⟨last, run, ?_⟩
  intro careful
  have kept := (versions_kept_iff run).mpr careful versionPatched last (List.prefix_refl _) run
  exact of_decide_eq_false broken kept

theorem versions_not_kept :
    (∃ last, Run Step {} versionPatched last ∧ ¬ last.Kept) ∧
      ∃ last, Run Step {} latestDeleted last ∧ ¬ last.Kept := by
  constructor
  · obtain ⟨last, run, broken⟩ := Run.of_foldlM_map next {} versionPatched
      (fun last => decide last.Kept) false (by decide +kernel)
    exact ⟨last, run, of_decide_eq_false broken⟩
  · obtain ⟨last, run, broken⟩ := Run.of_foldlM_map next {} latestDeleted
      (fun last => decide last.Kept) false (by decide +kernel)
    exact ⟨last, run, of_decide_eq_false broken⟩

end WorkflowService

end Assemblix.Projects
