import Assemblix.Library.Run
import Assemblix.Sessions.ExecuteRequest

/-
Concurrent first contacts of one client.

Preparation looks the client session up and inserts it where it is missing, takes over the
metadata and synchronises the schema; a checkpoint of the run commits all of it. A session
of the database sees what is committed and what it has written itself. A write to the row
waits while another run has written it and not committed; an insert beside a committed row
violates the constraint, and the run fails before it has a record.
-/

namespace Assemblix

open Library

/-! ### The rows of a client -/

namespace Database

def clientSessionIds (database : Database) (projectId clientId : String) : List String :=
  database.clientSessions.keysWhere (fun session =>
    decide (session.projectId = projectId) && decide (session.clientId = clientId))

variable {database changed : Database} {projectId clientId : String}

theorem getByClientId_eq_head :
    database.getByClientId projectId clientId =
      (database.clientSessionIds projectId clientId).head? := by
  unfold getByClientId clientSessionIds
  rw [Dict.keysWhere_head]

theorem getByClientId_lookup {sessionId : String}
    (found : database.getByClientId projectId clientId = some sessionId) :
    ∃ session, database.clientSessions.lookup sessionId = some session := by
  obtain ⟨entry, chosen, rfl⟩ := Option.map_eq_some_iff.mp found
  exact ⟨entry.2, Dict.lookup_of_mem _ (List.mem_of_find?_eq_some chosen)⟩

theorem getByClientId_eq_none :
    database.getByClientId projectId clientId = none ↔
      database.clientSessionIds projectId clientId = [] := by
  rw [getByClientId_eq_head, List.head?_eq_none_iff]

theorem createClientSession_ids {sessionId : String} {session : ClientSession}
    (created : database.createClientSession sessionId session = some changed)
    (sameProject : session.projectId = projectId) (sameClient : session.clientId = clientId) :
    changed.clientSessionIds projectId clientId =
      database.clientSessionIds projectId clientId ++ [sessionId] := by
  unfold createClientSession at created
  split at created
  case isTrue => cases created
  case isFalse absent =>
    cases created
    exact Dict.keysWhere_set_absent _ (Bool.not_eq_true _ ▸ absent)
      (by simp [sameProject, sameClient])

theorem createClientSession_lookup {sessionId : String} {session : ClientSession}
    (created : database.createClientSession sessionId session = some changed) :
    changed.clientSessions.lookup sessionId = some session := by
  unfold createClientSession at created
  split at created
  case isTrue => cases created
  case isFalse =>
    cases created
    exact Dict.lookup_set_self _ _ _

theorem modifyClient_ids {sessionId : String} {change : ClientSession → ClientSession}
    (modified : database.modifyClient sessionId change = some changed)
    (sameProject : ∀ session, (change session).projectId = session.projectId)
    (sameClient : ∀ session, (change session).clientId = session.clientId) :
    changed.clientSessionIds projectId clientId = database.clientSessionIds projectId clientId := by
  obtain ⟨session, found, rfl⟩ := Option.map_eq_some_iff.mp modified
  exact Dict.keysWhere_set_present _ found (by simp [sameProject, sameClient])

end Database

/-! ### The runs -/

/-- What a run brings: the schema of the project as it has loaded it, the metadata of its
request, and the id of the row it would insert. -/
structure Contact where
  stateSchema : List StateVariable
  metadata : Data
  isDebug : Bool
  newId : String

structure FirstContact (Id : Type) where
  projectId : String
  clientId : String
  contact : Id → Contact
  before : Database
  unknown : before.getByClientId projectId clientId = none

inductive SessionProgress
  | opened
  | merged
  | synced
  deriving DecidableEq, Repr

/-- `loaded` is the session as the run has it in memory. -/
inductive ContactPhase
  | absent
  | missed
  | holding (progress : SessionProgress) (sessionId : String) (loaded : ClientSession)
  | committed (sessionId : String)
  | violated
  | aborted
  deriving DecidableEq

namespace ContactPhase

def held : ContactPhase → Option String
  | .holding _ sessionId _ => some sessionId
  | _ => none

def session : ContactPhase → Option String
  | .holding _ sessionId _ => some sessionId
  | .committed sessionId => some sessionId
  | _ => none

end ContactPhase

/-- `database` is what is committed, `writer` the run with uncommitted writes to the row of the
client, if there is one, and the database as that run sees it. -/
structure ClientTable (Id : Type) where
  database : Database
  writer : Option (Id × Database)
  runs : Id → ContactPhase

inductive ContactLabel (Id : Type)
  | lookup (id : Id)
  | insert (id : Id)
  | updateMetadata (id : Id)
  | syncSchema (id : Id)
  | commit (id : Id)
  | abort (id : Id)

namespace ClientTable

section

variable {Id : Type} (contacts : FirstContact Id)

def initial : ClientTable Id :=
  { database := contacts.before, writer := none, runs := fun _ => .absent }

def lookupPhase (database : Database) : ContactPhase :=
  match database.getByClientId contacts.projectId contacts.clientId with
  | none => .missed
  | some sessionId =>
      match database.clientSessions.lookup sessionId with
      | none => .missed
      | some session => .holding .opened sessionId session

def newSession (id : Id) : ClientSession :=
  { contacts with
    state := defaultProjectState (contacts.contact id).stateSchema
    isDebug := (contacts.contact id).isDebug }

variable [DecidableEq Id]

def view (table : ClientTable Id) (id : Id) : Database :=
  match table.writer with
  | some (other, written) => if other = id then written else table.database
  | none => table.database

def free (table : ClientTable Id) (id : Id) : Bool :=
  table.writer.all (fun writer => decide (writer.1 = id))

def setRun (table : ClientTable Id) (id : Id) (phase : ContactPhase) : ClientTable Id :=
  { table with runs := Function.update table.runs id phase }

def write (table : ClientTable Id) (id : Id) (phase : ContactPhase) (written : Database) :
    ClientTable Id :=
  { table.setRun id phase with writer := some (id, written) }

/-- The end of a transaction: the locks are released. -/
def finish (table : ClientTable Id) (id : Id) (phase : ContactPhase) (database : Database) :
    ClientTable Id :=
  { table.setRun id phase with
    database := database
    writer := table.writer.filter (fun writer => !decide (writer.1 = id)) }

def insertStep (table : ClientTable Id) (id : Id) : Option (ClientTable Id) :=
  match table.writer with
  | some _ => none
  | none =>
      if (table.database.getByClientId contacts.projectId contacts.clientId).isSome then
        some (table.setRun id .violated)
      else
        (table.database.createClientSession (contacts.contact id).newId
          (newSession contacts id)).map
            (table.write id (.holding .opened (contacts.contact id).newId (newSession contacts id)))

/-- One `UPDATE` of the row, and the row that is read back. -/
def update (table : ClientTable Id) (id : Id) (progress : SessionProgress) (sessionId : String)
    (loaded : ClientSession) (change : ClientSession → ClientSession) : Option (ClientTable Id) :=
  if table.free id then
    ((table.view id).modifyClient sessionId change).map (fun written =>
      table.write id
        (.holding progress sessionId ((written.clientSessions.lookup sessionId).getD loaded))
        written)
  else none

def step (table : ClientTable Id) : ContactLabel Id → Option (ClientTable Id)
  | .lookup id =>
      match table.runs id with
      | .absent => some (table.setRun id (lookupPhase contacts table.database))
      | _ => none
  | .insert id =>
      match table.runs id with
      | .missed => table.insertStep contacts id
      | _ => none
  | .updateMetadata id =>
      match table.runs id with
      | .holding .opened sessionId loaded =>
          if (contacts.contact id).metadata.entries.isEmpty then
            some (table.setRun id (.holding .merged sessionId loaded))
          else
            table.update id .merged sessionId loaded (fun session =>
              { session with metaData := loaded.metaData.merge (contacts.contact id).metadata })
      | _ => none
  | .syncSchema id =>
      match table.runs id with
      | .holding .merged sessionId loaded =>
          let newVars := Database.missingVariables loaded.state (contacts.contact id).stateSchema
          if newVars.entries.isEmpty then
            some (table.setRun id (.holding .synced sessionId loaded))
          else
            table.update id .synced sessionId loaded (fun session =>
              { session with state := loaded.state.merge newVars })
      | _ => none
  | .commit id =>
      match table.runs id with
      | .holding .synced sessionId _ =>
          some (table.finish id (.committed sessionId) (table.view id))
      | _ => none
  | .abort id =>
      match table.runs id with
      | .missed => some (table.finish id .aborted table.database)
      | .holding _ _ _ => some (table.finish id .aborted table.database)
      | _ => none

def Step (table : ClientTable Id) (label : ContactLabel Id) (next : ClientTable Id) : Prop :=
  table.step contacts label = some next

def rows (database : Database) : List String :=
  database.clientSessionIds contacts.projectId contacts.clientId

/-- One session for all runs, one row once a run has committed, and no run has failed for
another one. -/
structure Shared (table : ClientTable Id) : Prop where
  agreed : ∀ id other sessionId otherId, (table.runs id).session = some sessionId →
    (table.runs other).session = some otherId → sessionId = otherId
  single : (rows contacts table.database).length ≤ 1
  stored : ∀ id sessionId, table.runs id = .committed sessionId →
    rows contacts table.database = [sessionId]
  unharmed : ∀ id, table.runs id ≠ .violated

def SharedStep (table : ClientTable Id) (label : ContactLabel Id) (next : ClientTable Id) : Prop :=
  table.Step contacts label next ∧ next.Shared contacts

def Unpreceded (table : ClientTable Id) : ContactLabel Id → Prop
  | .insert _ => table.database.getByClientId contacts.projectId contacts.clientId = none
  | _ => True

def UnprecededStep (table : ClientTable Id) (label : ContactLabel Id) (next : ClientTable Id) :
    Prop :=
  table.Step contacts label next ∧ table.Unpreceded contacts label

end

section

variable {Id : Type} {contacts : FirstContact Id} {table next : ClientTable Id} {id : Id}

theorem lookupPhase_of_found {database : Database} {sessionId : String} {session : ClientSession}
    (found : database.getByClientId contacts.projectId contacts.clientId = some sessionId)
    (current : database.clientSessions.lookup sessionId = some session) :
    lookupPhase contacts database = .holding .opened sessionId session := by
  unfold lookupPhase
  rw [found]
  dsimp only
  rw [current]

theorem lookupPhase_of_none {database : Database}
    (missing : database.getByClientId contacts.projectId contacts.clientId = none) :
    lookupPhase contacts database = .missed := by
  unfold lookupPhase
  rw [missing]

theorem lookupPhase_held {database : Database} {sessionId : String}
    (held : (lookupPhase contacts database).held = some sessionId) :
    database.getByClientId contacts.projectId contacts.clientId = some sessionId := by
  unfold lookupPhase at held
  split at held
  case h_1 => cases held
  case h_2 found =>
    split at held
    case h_1 => cases held
    case h_2 =>
      cases held
      exact found

theorem lookupPhase_fresh (database : Database) :
    (∀ sessionId, lookupPhase contacts database ≠ .committed sessionId) ∧
      lookupPhase contacts database ≠ .violated := by
  unfold lookupPhase
  split
  case h_1 => simp
  case h_2 => split <;> simp

theorem singleton_of_head {items : List String} {first : String} (head : items.head? = some first)
    (short : items.length ≤ 1) : items = [first] := by
  obtain ⟨rest, rfl⟩ := List.head?_eq_some_iff.mp head
  rw [List.length_cons] at short
  have nothingLeft : rest.length = 0 := by omega
  rw [List.length_eq_zero_iff.mp nothingLeft]

variable [DecidableEq Id]

theorem view_of_writer {written : Database} (writes : table.writer = some (id, written)) :
    table.view id = written := by
  unfold view
  rw [writes]
  exact if_pos rfl

theorem view_of_reader (reads : ∀ written, table.writer ≠ some (id, written)) :
    table.view id = table.database := by
  unfold view
  split
  case h_1 other written writes =>
    refine if_neg ?_
    intro same
    subst same
    exact reads written writes
  case h_2 => rfl

theorem view_of_free (free : table.free id = true) {other : Id} (different : other ≠ id) :
    table.view other = table.database := by
  apply view_of_reader
  intro written writes
  unfold ClientTable.free at free
  rw [writes, Option.all_some] at free
  exact different (of_decide_eq_true free)

/-! ### What a step can be -/

/-- The kinds of steps: an update comes with what it keeps of the row. -/
inductive Moves (contacts : FirstContact Id) (table : ClientTable Id) :
    ContactLabel Id → ClientTable Id → Prop
  | lookup {id : Id} (absent : table.runs id = .absent) :
      Moves contacts table (.lookup id)
        (table.setRun id (lookupPhase contacts table.database))
  | insert {id : Id} {next : ClientTable Id} (missed : table.runs id = .missed)
      (inserted : table.insertStep contacts id = some next) :
      Moves contacts table (.insert id) next
  | advance {label : ContactLabel Id} {id : Id} {progress after : SessionProgress}
      {sessionId : String} {loaded : ClientSession}
      (own : label = .updateMetadata id ∨ label = .syncSchema id)
      (holding : table.runs id = .holding progress sessionId loaded) :
      Moves contacts table label (table.setRun id (.holding after sessionId loaded))
  | update {label : ContactLabel Id} {id : Id} {progress after : SessionProgress}
      {sessionId : String} {loaded : ClientSession} {change : ClientSession → ClientSession}
      {next : ClientTable Id} (own : label = .updateMetadata id ∨ label = .syncSchema id)
      (holding : table.runs id = .holding progress sessionId loaded)
      (sameProject : ∀ session, (change session).projectId = session.projectId)
      (sameClient : ∀ session, (change session).clientId = session.clientId)
      (updated : table.update id after sessionId loaded change = some next) :
      Moves contacts table label next
  | commit {id : Id} {progress : SessionProgress} {sessionId : String} {loaded : ClientSession}
      (holding : table.runs id = .holding progress sessionId loaded) :
      Moves contacts table (.commit id) (table.finish id (.committed sessionId) (table.view id))
  | abort {id : Id}
      (begun : table.runs id = .missed ∨ (table.runs id).held.isSome = true) :
      Moves contacts table (.abort id) (table.finish id .aborted table.database)

theorem Step.moves {label : ContactLabel Id} (taken : table.Step contacts label next) :
    Moves contacts table label next := by
  unfold Step at taken
  cases label with
  | lookup id =>
      simp only [step] at taken
      split at taken
      case h_1 absent =>
        cases taken
        exact .lookup absent
      case h_2 => cases taken
  | insert id =>
      simp only [step] at taken
      split at taken
      case h_1 missed => exact .insert missed taken
      case h_2 => cases taken
  | updateMetadata id =>
      simp only [step] at taken
      split at taken
      case h_1 sessionId loaded holding =>
        split at taken
        case isTrue =>
          cases taken
          exact .advance (.inl rfl) holding
        case isFalse =>
          refine .update (.inl rfl) holding ?_ ?_ taken <;> exact fun _ => rfl
      case h_2 => cases taken
  | syncSchema id =>
      simp only [step] at taken
      split at taken
      case h_1 sessionId loaded holding =>
        split at taken
        case isTrue =>
          cases taken
          exact .advance (.inr rfl) holding
        case isFalse =>
          refine .update (.inr rfl) holding ?_ ?_ taken <;> exact fun _ => rfl
      case h_2 => cases taken
  | commit id =>
      simp only [step] at taken
      split at taken
      case h_1 sessionId loaded holding =>
        cases taken
        exact .commit holding
      case h_2 => cases taken
  | abort id =>
      simp only [step] at taken
      split at taken
      case h_1 missed =>
        cases taken
        exact .abort (.inl missed)
      case h_2 sessionId loaded holding =>
        cases taken
        refine .abort (.inr ?_)
        rw [holding]
        rfl
      case h_3 => cases taken

/-! ### What every step keeps -/

/-- Every run sees its session as the only row of the client, and a writer has added nothing to
a committed row. -/
structure Kept (contacts : FirstContact Id) (table : ClientTable Id) : Prop where
  single : (rows contacts table.database).length ≤ 1
  held : ∀ id sessionId, (table.runs id).held = some sessionId →
    rows contacts (table.view id) = [sessionId]
  stored : ∀ id sessionId, table.runs id = .committed sessionId →
    rows contacts table.database = [sessionId]
  writing : ∀ id written, table.writer = some (id, written) →
    (table.runs id).held.isSome = true ∧
      (rows contacts table.database = [] ∨
        rows contacts table.database = rows contacts written)
  unharmed : ∀ id, table.runs id ≠ .violated

namespace Kept

theorem initial : (initial contacts).Kept contacts where
  single := by
    change (rows contacts contacts.before).length ≤ 1
    rw [rows, Database.getByClientId_eq_none.mp contacts.unknown]
    exact Nat.zero_le _
  held := by
    intro id sessionId impossible
    cases impossible
  stored := by
    intro id sessionId impossible
    cases impossible
  writing := by
    intro id written impossible
    cases impossible
  unharmed := by
    intro id impossible
    cases impossible

section

variable (kept : table.Kept contacts)
include kept

theorem view_rows (id : Id) :
    rows contacts table.database = [] ∨
      rows contacts table.database = rows contacts (table.view id) := by
  by_cases writes : ∃ written, table.writer = some (id, written)
  · obtain ⟨written, writes⟩ := writes
    rw [view_of_writer writes]
    exact (kept.writing id written writes).2
  · refine .inr ?_
    rw [view_of_reader (fun written same => writes ⟨written, same⟩)]

theorem setRun {phase : ContactPhase} (fits : ∀ sessionId, phase.held = some sessionId →
      rows contacts (table.view id) = [sessionId])
    (holds : (table.runs id).held.isSome = true → phase.held.isSome = true)
    (uncommitted : ∀ sessionId, phase ≠ .committed sessionId) (fine : phase ≠ .violated) :
    (table.setRun id phase).Kept contacts where
  single := kept.single
  held := (Function.forall_update_iff table.runs (fun other reached =>
      ∀ sessionId, reached.held = some sessionId →
        rows contacts (table.view other) = [sessionId])).mpr
    ⟨fits, fun other _ => kept.held other⟩
  stored := (Function.forall_update_iff table.runs (fun _ reached =>
      ∀ sessionId, reached = .committed sessionId →
        rows contacts table.database = [sessionId])).mpr
    ⟨fun sessionId same => absurd same (uncommitted sessionId), fun other _ => kept.stored other⟩
  writing := (Function.forall_update_iff table.runs (fun other reached =>
      ∀ written, table.writer = some (other, written) → reached.held.isSome = true ∧
        (rows contacts table.database = [] ∨
          rows contacts table.database = rows contacts written))).mpr
    ⟨fun written writes =>
        ⟨holds (kept.writing id written writes).1, (kept.writing id written writes).2⟩,
      fun other _ => kept.writing other⟩
  unharmed := (Function.forall_update_iff table.runs (fun _ reached => reached ≠ .violated)).mpr
    ⟨fine, fun other _ => kept.unharmed other⟩

theorem write (free : table.free id = true) {progress : SessionProgress} {sessionId : String}
    {loaded : ClientSession} {written : Database} (only : rows contacts written = [sessionId])
    (grown : rows contacts table.database = [] ∨ rows contacts table.database = [sessionId]) :
    (table.write id (.holding progress sessionId loaded) written).Kept contacts where
  single := kept.single
  held := by
    apply (Function.forall_update_iff table.runs (fun other reached =>
      ∀ otherId, reached.held = some otherId →
        rows contacts ((table.write id (.holding progress sessionId loaded) written).view other) =
          [otherId])).mpr
    constructor
    · intro otherId same
      cases same
      rw [view_of_writer rfl, only]
    · intro other different otherId holding
      have reads : (table.write id (.holding progress sessionId loaded) written).view other =
          table.database := by
        apply view_of_reader
        intro _ writes
        cases writes
        exact different rfl
      rw [reads, ← view_of_free free different]
      exact kept.held other otherId holding
  stored := (Function.forall_update_iff table.runs (fun _ reached =>
      ∀ otherId, reached = .committed otherId → rows contacts table.database = [otherId])).mpr
    ⟨(fun _ impossible => by cases impossible), fun other _ => kept.stored other⟩
  writing := by
    intro other _ writes
    cases writes
    refine ⟨?_, ?_⟩
    · exact congrArg (fun phase => phase.held.isSome) (Function.update_self id _ table.runs)
    · rw [only]
      exact grown
  unharmed := (Function.forall_update_iff table.runs (fun _ reached => reached ≠ .violated)).mpr
    ⟨(fun impossible => by cases impossible), fun other _ => kept.unharmed other⟩

theorem finish {phase : ContactPhase} {database : Database} (unheld : phase.held = none)
    (fine : phase ≠ .violated)
    (stores : ∀ sessionId, phase = .committed sessionId → rows contacts database = [sessionId])
    (grown : rows contacts database = rows contacts table.database ∨
      rows contacts table.database = [] ∧ table.writer = some (id, database)) :
    (table.finish id phase database).Kept contacts where
  single := by
    change (rows contacts database).length ≤ 1
    rcases grown with unchanged | ⟨_, writes⟩
    · rw [unchanged]
      exact kept.single
    · obtain ⟨sessionId, holding⟩ := Option.isSome_iff_exists.mp (kept.writing _ _ writes).1
      have only := kept.held id sessionId holding
      rw [view_of_writer writes] at only
      rw [only]
      exact Nat.le_refl 1
  held := by
    apply (Function.forall_update_iff table.runs (fun other reached =>
      ∀ otherId, reached.held = some otherId →
        rows contacts ((table.finish id phase database).view other) = [otherId])).mpr
    constructor
    · intro otherId holding
      rw [unheld] at holding
      cases holding
    · intro other different otherId holding
      have seen := kept.held other otherId holding
      by_cases writes : ∃ written, table.writer = some (other, written)
      · obtain ⟨written, writes⟩ := writes
        have still : (table.finish id phase database).writer = some (other, written) := by
          simp [ClientTable.finish, writes, different]
        rw [view_of_writer writes] at seen
        rw [view_of_writer still]
        exact seen
      · have released : (table.finish id phase database).view other = database := by
          apply view_of_reader
          intro written impossible
          exact writes ⟨written, (Option.filter_eq_some_iff.mp impossible).1⟩
        rw [view_of_reader (fun written same => writes ⟨written, same⟩)] at seen
        rw [released]
        rcases grown with unchanged | ⟨empty, _⟩
        · rw [unchanged]
          exact seen
        · rw [empty] at seen
          cases seen
  stored := by
    apply (Function.forall_update_iff table.runs (fun _ reached =>
      ∀ otherId, reached = .committed otherId → rows contacts database = [otherId])).mpr
    constructor
    · exact stores
    · intro other _ otherId committed
      have seen := kept.stored other otherId committed
      rcases grown with unchanged | ⟨empty, _⟩
      · rw [unchanged]
        exact seen
      · rw [empty] at seen
        cases seen
  writing := by
    intro other written writes
    obtain ⟨wrote, unlike⟩ := Option.filter_eq_some_iff.mp writes
    have different : other ≠ id := by simpa using unlike
    obtain ⟨holding, earlier⟩ := kept.writing other written wrote
    refine ⟨?_, ?_⟩
    · change (Function.update table.runs id phase other).held.isSome = true
      rw [Function.update_of_ne different]
      exact holding
    · change rows contacts database = [] ∨ rows contacts database = rows contacts written
      rcases grown with unchanged | ⟨_, mine⟩
      · rw [unchanged]
        exact earlier
      · rw [wrote] at mine
        cases mine
        exact absurd rfl different
  unharmed := (Function.forall_update_iff table.runs (fun _ reached => reached ≠ .violated)).mpr
    ⟨fine, fun other _ => kept.unharmed other⟩

theorem view_of_unheld (unheld : (table.runs id).held = none) : table.view id = table.database := by
  apply view_of_reader
  intro written writes
  have holding := (kept.writing id written writes).1
  rw [unheld] at holding
  cases holding

theorem lookup (absent : table.runs id = .absent) :
    (table.setRun id (lookupPhase contacts table.database)).Kept contacts := by
  have unheld : (table.runs id).held = none := congrArg ContactPhase.held absent
  apply kept.setRun
  · intro sessionId holding
    have found := lookupPhase_held holding
    rw [Database.getByClientId_eq_head] at found
    rw [kept.view_of_unheld unheld]
    exact singleton_of_head found kept.single
  · intro impossible
    rw [unheld] at impossible
    cases impossible
  · exact (lookupPhase_fresh table.database).1
  · exact (lookupPhase_fresh table.database).2

theorem insertStep
    (unpreceded : table.database.getByClientId contacts.projectId contacts.clientId = none)
    (taken : table.insertStep contacts id = some next) : next.Kept contacts := by
  unfold ClientTable.insertStep at taken
  split at taken
  case h_1 => cases taken
  case h_2 unlocked =>
    have empty : rows contacts table.database = [] := Database.getByClientId_eq_none.mp unpreceded
    rw [unpreceded, Option.isSome_none, if_neg Bool.false_ne_true] at taken
    obtain ⟨written, created, rfl⟩ := Option.map_eq_some_iff.mp taken
    apply kept.write
    · rw [ClientTable.free, unlocked]
      rfl
    · have inserted : rows contacts written =
          rows contacts table.database ++ [(contacts.contact id).newId] :=
        Database.createClientSession_ids created rfl rfl
      rw [inserted, empty]
      rfl
    · exact .inl empty

theorem update {progress after : SessionProgress} {sessionId : String} {loaded : ClientSession}
    {change : ClientSession → ClientSession}
    (holding : table.runs id = .holding progress sessionId loaded)
    (sameProject : ∀ session, (change session).projectId = session.projectId)
    (sameClient : ∀ session, (change session).clientId = session.clientId)
    (taken : table.update id after sessionId loaded change = some next) : next.Kept contacts := by
  unfold ClientTable.update at taken
  split at taken
  case isTrue free =>
    obtain ⟨written, modified, rfl⟩ := Option.map_eq_some_iff.mp taken
    have seen := kept.held id sessionId (congrArg ContactPhase.held holding)
    apply kept.write free
    · exact (Database.modifyClient_ids modified sameProject sameClient).trans seen
    · rw [← seen]
      exact kept.view_rows id
  case isFalse => cases taken

/-- A run that goes on to the next step of its preparation without a write. -/
theorem advance {progress after : SessionProgress} {sessionId : String} {loaded : ClientSession}
    (holding : table.runs id = .holding progress sessionId loaded) :
    (table.setRun id (.holding after sessionId loaded)).Kept contacts := by
  apply kept.setRun
  · intro otherId same
    cases same
    exact kept.held id sessionId (congrArg ContactPhase.held holding)
  · intro _
    rfl
  · intro otherId impossible
    cases impossible
  · intro impossible
    cases impossible

theorem commit {progress : SessionProgress} {sessionId : String} {loaded : ClientSession}
    (holding : table.runs id = .holding progress sessionId loaded) :
    (table.finish id (.committed sessionId) (table.view id)).Kept contacts := by
  have seen := kept.held id sessionId (congrArg ContactPhase.held holding)
  apply kept.finish
  · rfl
  · intro impossible
    cases impossible
  · intro otherId same
    cases same
    exact seen
  · by_cases writes : ∃ written, table.writer = some (id, written)
    · obtain ⟨written, writes⟩ := writes
      have mine := view_of_writer writes
      rcases kept.view_rows id with empty | unchanged
      · refine .inr ⟨empty, ?_⟩
        rw [mine]
        exact writes
      · exact .inl unchanged.symm
    · refine .inl ?_
      rw [view_of_reader (fun written same => writes ⟨written, same⟩)]

theorem abort : (table.finish id .aborted table.database).Kept contacts := by
  apply kept.finish
  · rfl
  · intro impossible
    cases impossible
  · intro otherId impossible
    cases impossible
  · exact .inl rfl

theorem step {label : ContactLabel Id} (taken : table.UnprecededStep contacts label next) :
    next.Kept contacts := by
  obtain ⟨taken, unpreceded⟩ := taken
  cases taken.moves with
  | lookup absent => exact kept.lookup absent
  | insert _ inserted => exact kept.insertStep unpreceded inserted
  | advance _ holding => exact kept.advance holding
  | update _ holding sameProject sameClient updated =>
      exact kept.update holding sameProject sameClient updated
  | commit holding => exact kept.commit holding
  | abort _ => exact kept.abort

theorem session {sessionId : String} (used : (table.runs id).session = some sessionId) :
    rows contacts table.database = [sessionId] ∨
      rows contacts table.database = [] ∧
        ∃ written, table.writer = some (id, written) ∧ rows contacts written = [sessionId] := by
  cases reached : table.runs id with
  | holding progress heldId loaded =>
      rw [reached] at used
      cases used
      have seen := kept.held id sessionId (congrArg ContactPhase.held reached)
      by_cases writes : ∃ written, table.writer = some (id, written)
      · obtain ⟨written, writes⟩ := writes
        rw [view_of_writer writes] at seen
        rcases (kept.writing id written writes).2 with empty | unchanged
        · exact .inr ⟨empty, written, writes, seen⟩
        · exact .inl (unchanged.trans seen)
      · rw [view_of_reader (fun written same => writes ⟨written, same⟩)] at seen
        exact .inl seen
  | committed storedId =>
      rw [reached] at used
      cases used
      exact .inl (kept.stored id sessionId reached)
  | _ =>
      rw [reached] at used
      cases used

theorem shared : table.Shared contacts where
  agreed := by
    intro id other sessionId otherId used usedToo
    rcases kept.session used with row | ⟨empty, written, writes, row⟩
    · rcases kept.session usedToo with otherRow | ⟨empty, _⟩
      · exact List.singleton_inj.mp (row.symm.trans otherRow)
      · rw [empty] at row
        cases row
    · rcases kept.session usedToo with otherRow | ⟨_, otherWritten, otherWrites, otherRow⟩
      · rw [empty] at otherRow
        cases otherRow
      · rw [writes] at otherWrites
        cases otherWrites
        exact List.singleton_inj.mp (row.symm.trans otherRow)
  single := kept.single
  stored := kept.stored
  unharmed := kept.unharmed

end

end Kept

theorem Step.unpreceded {label : ContactLabel Id} (taken : table.Step contacts label next)
    (unharmed : ∀ id, next.runs id ≠ .violated) : table.Unpreceded contacts label := by
  cases taken.moves with
  | @insert id _ _ inserted =>
      unfold insertStep at inserted
      split at inserted
      case h_1 => cases inserted
      case h_2 =>
        split at inserted
        case isTrue =>
          cases inserted
          exact absurd (Function.update_self id _ table.runs) (unharmed id)
        case isFalse missing => exact Option.not_isSome_iff_eq_none.mp missing
  | advance own _ => rcases own with rfl | rfl <;> trivial
  | update own _ _ _ _ => rcases own with rfl | rfl <;> trivial
  | _ => trivial

theorem unpreceded_run_shared {labels : List (ContactLabel Id)} {last : ClientTable Id}
    (run : Run (UnprecededStep contacts) (initial contacts) labels last) :
    Run (SharedStep contacts) (initial contacts) labels last := by
  apply run.mono_within (Kept contacts) Kept.initial
  · intro table label next kept taken
    exact kept.step taken
  · intro table label next kept taken
    exact ⟨taken.1, (kept.step taken).shared⟩

/-- In every interleaving of any number of first contacts: all runs share one session and none
fails for another one, throughout, exactly when no run inserts the session after another run
has committed it. -/
theorem first_contacts_share_iff (contacts : FirstContact Id) (labels : List (ContactLabel Id))
    (last : ClientTable Id) :
    Run (SharedStep contacts) (initial contacts) labels last ↔
      Run (UnprecededStep contacts) (initial contacts) labels last := by
  constructor
  · intro run
    apply run.mono
    intro table label next taken
    exact ⟨taken.1, taken.1.unpreceded taken.2.unharmed⟩
  · exact unpreceded_run_shared

/-! ### A run on its own -/

def contactOf (project : Project) (call : ExecuteCall) (inputData metadata : Data) : Contact where
  stateSchema := project.stateSchema
  metadata := metadata
  isDebug := flag inputData "is_debug"
  newId := call.environment.newClientSessionId

structure Working (table : ClientTable Id) (id : Id) (progress : SessionProgress)
    (sessionId : String) (loaded : ClientSession) (seen : Database) : Prop where
  holding : table.runs id = .holding progress sessionId loaded
  current : seen.clientSessions.lookup sessionId = some loaded
  view : table.view id = seen
  free : table.free id = true

namespace Working

variable {progress after : SessionProgress} {sessionId : String} {loaded : ClientSession}
  {seen changed : Database}

theorem update (working : Working table id progress sessionId loaded seen)
    {change computed : ClientSession → ClientSession}
    (modified : seen.modifyClient sessionId change = some changed)
    (same : computed loaded = change loaded) :
    ∃ next reloaded, table.update id after sessionId loaded computed = some next ∧
      Working next id after sessionId reloaded changed := by
  have modifies : (table.view id).modifyClient sessionId computed = some changed := by
    rw [working.view, ← modified]
    unfold Database.modifyClient
    rw [working.current, Option.map_some, Option.map_some, same]
  have current : changed.clientSessions.lookup sessionId = some (change loaded) := by
    rw [Database.modifyClient_lookup modified, if_pos rfl, working.current, Option.map_some]
  refine ⟨table.write id (.holding after sessionId (change loaded)) changed, change loaded, ?_, ?_⟩
  · unfold ClientTable.update
    rw [if_pos working.free, modifies, Option.map_some, current, Option.getD_some]
  · constructor
    · exact Function.update_self _ _ _
    · exact current
    · exact view_of_writer rfl
    · exact decide_eq_true rfl

theorem advance (working : Working table id progress sessionId loaded seen) :
    Working (table.setRun id (.holding after sessionId loaded)) id after sessionId loaded seen where
  holding := Function.update_self _ _ _
  current := working.current
  view := working.view
  free := working.free

variable (contacts)

theorem updateMetadata (working : Working table id .opened sessionId loaded seen)
    (updated : (if (contacts.contact id).metadata.entries.isEmpty then some seen
      else seen.updateMetadata sessionId (contacts.contact id).metadata) = some changed) :
    ∃ next reloaded, table.Step contacts (.updateMetadata id) next ∧
      Working next id .merged sessionId reloaded changed := by
  unfold Step
  simp only [ClientTable.step]
  rw [working.holding]
  dsimp only
  split at updated
  case isTrue given =>
    cases updated
    rw [if_pos given]
    exact ⟨_, loaded, rfl, working.advance⟩
  case isFalse given =>
    rw [if_neg given]
    exact working.update updated rfl

theorem syncSchema (working : Working table id .merged sessionId loaded seen)
    (synced : seen.syncSchema sessionId (contacts.contact id).stateSchema = some changed) :
    ∃ next reloaded, table.Step contacts (.syncSchema id) next ∧
      Working next id .synced sessionId reloaded changed := by
  unfold Step
  simp only [ClientTable.step]
  rw [working.holding]
  dsimp only
  by_cases complete :
      (Database.missingVariables loaded.state (contacts.contact id).stateSchema).entries.isEmpty
  · rw [if_pos complete]
    have nothing : Database.missingVariables loaded.state (contacts.contact id).stateSchema =
        Dict.empty := Dict.ext_entries (List.isEmpty_iff.mp complete)
    have unchanged : changed = seen := by
      unfold Database.syncSchema Database.modifyClient at synced
      rw [working.current, Option.map_some] at synced
      dsimp only at synced
      rw [nothing, Dict.merge_empty,
        Dict.set_of_lookup _ working.current] at synced
      cases synced
      rfl
    rw [unchanged]
    exact ⟨_, loaded, rfl, working.advance⟩
  · rw [if_neg complete]
    exact working.update synced rfl

theorem commit (working : Working table id .synced sessionId loaded seen) :
    ∃ next, table.Step contacts (.commit id) next ∧ next.database = seen ∧
      next.runs id = .committed sessionId := by
  unfold Step
  simp only [ClientTable.step]
  rw [working.holding]
  exact ⟨_, rfl, working.view, Function.update_self _ _ _⟩

end Working

theorem Step.lookup (absent : table.runs id = .absent) :
    table.Step contacts (.lookup id)
      (table.setRun id (lookupPhase contacts table.database)) := by
  unfold Step
  simp only [step]
  rw [absent]

theorem Step.insert {written : Database} (missed : table.runs id = .missed)
    (unlocked : table.writer = none)
    (missing : table.database.getByClientId contacts.projectId contacts.clientId = none)
    (created : table.database.createClientSession (contacts.contact id).newId
      (newSession contacts id) = some written) :
    table.Step contacts (.insert id)
      (table.write id (.holding .opened (contacts.contact id).newId (newSession contacts id))
        written) := by
  unfold Step
  simp only [step]
  rw [missed]
  dsimp only
  unfold insertStep
  rw [unlocked]
  dsimp only
  rw [missing, Option.isSome_none, if_neg Bool.false_ne_true, created, Option.map_some]

theorem getOrCreateByClientId_run {sessionId : String} {opened : Database}
    (absent : table.runs id = .absent) (unlocked : table.writer = none)
    (ran : getOrCreateByClientId contacts.projectId contacts.clientId
      (defaultProjectState (contacts.contact id).stateSchema) (contacts.contact id).isDebug
      (contacts.contact id).newId table.database = some (sessionId, opened)) :
    ∃ labels next loaded, Run (Step contacts) table labels next ∧
      Working next id .opened sessionId loaded opened := by
  have looks : table.Step contacts (.lookup id) _ := Step.lookup absent
  unfold getOrCreateByClientId at ran
  obtain ⟨existing, middle, asked, rest⟩ := Transaction.bind_eq_some.mp ran
  cases asked
  cases found : table.database.getByClientId contacts.projectId contacts.clientId with
  | some foundId =>
      rw [found] at rest
      cases rest
      obtain ⟨session, current⟩ := Database.getByClientId_lookup found
      rw [lookupPhase_of_found found current] at looks
      refine ⟨_, _, session, Run.nil.snoc looks, ?_⟩
      constructor
      · exact Function.update_self _ _ _
      · exact current
      · unfold view
        rw [ClientTable.setRun, unlocked]
      · rw [free, ClientTable.setRun, unlocked]
        rfl
  | none =>
      rw [found] at rest
      obtain ⟨_, written, changed, last⟩ := Transaction.bind_eq_some.mp rest
      cases last
      obtain ⟨_, created, same⟩ := Option.map_eq_some_iff.mp changed
      cases same
      rw [lookupPhase_of_none found] at looks
      have missed : (table.setRun id .missed).runs id = .missed := Function.update_self _ _ _
      have inserts := Step.insert missed unlocked found created
      refine ⟨_, _, newSession contacts id, (Run.nil.snoc looks).snoc inserts, ?_⟩
      constructor
      · exact Function.update_self _ _ _
      · exact Database.createClientSession_lookup created
      · exact view_of_writer rfl
      · exact decide_eq_true rfl

/-- The preparation of a run on its own, step by step: it commits what the whole preparation
writes. -/
theorem prepareClientSession_run {project : Project} {call : ExecuteCall}
    {inputData metadata : Data} {sessionId : String} {prepared : Database}
    (absent : table.runs id = .absent) (unlocked : table.writer = none)
    (given : overridesOf inputData "metadata" = some metadata)
    (brings : contacts.contact id = contactOf project call inputData metadata)
    (ran : prepareClientSession project contacts.projectId call inputData contacts.clientId
      table.database = some (sessionId, prepared)) :
    ∃ labels last, Run (Step contacts) table labels last ∧ last.database = prepared ∧
      last.runs id = .committed sessionId := by
  unfold prepareClientSession at ran
  obtain ⟨_, opened, opens, ran⟩ := Transaction.bind_eq_some.mp ran
  obtain ⟨_, _, asked, ran⟩ := Transaction.bind_eq_some.mp ran
  rw [Transaction.ask, given] at asked
  cases asked
  obtain ⟨_, merged, merges, ran⟩ := Transaction.bind_eq_some.mp ran
  obtain ⟨_, synced, syncs, ran⟩ := Transaction.bind_eq_some.mp ran
  cases ran
  obtain ⟨_, updated, same⟩ := Option.map_eq_some_iff.mp merges
  cases same
  obtain ⟨_, completed, same⟩ := Option.map_eq_some_iff.mp syncs
  cases same
  have opening : getOrCreateByClientId contacts.projectId contacts.clientId
      (defaultProjectState (contacts.contact id).stateSchema) (contacts.contact id).isDebug
      (contacts.contact id).newId table.database = some (sessionId, opened) := by
    rw [brings]
    exact opens
  obtain ⟨labels, first, loaded, run, working⟩ := getOrCreateByClientId_run absent unlocked opening
  obtain ⟨second, _, toSecond, working⟩ :=
    working.updateMetadata contacts (by rw [brings]; exact updated)
  obtain ⟨third, _, toThird, working⟩ :=
    working.syncSchema contacts (by rw [brings]; exact completed)
  obtain ⟨last, toLast, stored, committed⟩ := working.commit contacts
  exact ⟨_, last, ((run.snoc toSecond).snoc toThird).snoc toLast, stored, committed⟩

end

/-! ### Two first contacts at once -/

def turnAndFinal : FirstContact Nat where
  projectId := "p"
  clientId := "caller"
  contact := fun id =>
    { stateSchema := [], metadata := Dict.empty, isDebug := false, newId := toString id }
  before :=
    { projects := Dict.empty.set "p" { organizationId := "o", stateSchema := [] }
      workflows := Dict.empty
      chatSessions := Dict.empty
      clientSessions := Dict.empty
      executions := Dict.empty
      published := publishedTogether_empty }
  unknown := rfl

def firstCall : ExecuteCall where
  workflowId := "draft"
  tokenId := none
  isDebug := false
  request := { input := Dict.empty }
  environment :=
    { newSessionId := "n"
      newClientSessionId := "0"
      executionId := "x"
      refused := none
      credits := fun _ => 0
      inTime := true
      run := fun _ _ => ⟨[], .error ""⟩ }

theorem prepareClientSession_run_first :
    ∃ labels last, Run (Step turnAndFinal) (initial turnAndFinal) labels last ∧
      last.database.getByClientId "p" "caller" = some "0" ∧ last.runs 0 = .committed "0" := by
  have ran : ∃ prepared, prepareClientSession ⟨"o", []⟩ "p" firstCall Dict.empty "caller"
      (initial turnAndFinal).database = some ("0", prepared) ∧
        prepared.getByClientId "p" "caller" = some "0" := ⟨_, rfl, by decide +kernel⟩
  obtain ⟨prepared, ran, found⟩ := ran
  obtain ⟨labels, last, run, stored, committed⟩ :=
    @prepareClientSession_run Nat turnAndFinal (initial turnAndFinal) 0 _ ⟨"o", []⟩ firstCall
      Dict.empty Dict.empty "0" prepared rfl rfl rfl rfl ran
  exact ⟨labels, last, run, by rw [stored]; exact found, committed⟩

def overtaken : List (ContactLabel Nat) :=
  [.lookup 0, .lookup 1, .insert 0, .updateMetadata 0, .syncSchema 0, .commit 0, .insert 1]

/-- Both lookups miss; the insert of the second run meets the row of the first. -/
theorem first_contacts_collide :
    ∃ last, Run (Step turnAndFinal) (initial turnAndFinal) overtaken last ∧
      last.runs 0 = .committed "0" ∧ last.runs 1 = .violated ∧ ¬ last.Shared turnAndFinal := by
  have run := @Run.of_foldlM _ _ (step turnAndFinal) (initial turnAndFinal) overtaken _ rfl
  exact ⟨_, run, rfl, rfl, fun shared => shared.unharmed 1 rfl⟩

end ClientTable

end Assemblix
