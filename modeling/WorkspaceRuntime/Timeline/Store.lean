import WorkspaceRuntime.Lib.Numerals
import WorkspaceRuntime.Lib.Run
import WorkspaceRuntime.Lib.Versioned
import WorkspaceRuntime.Service.Ledger

/-!
# Timelines, their shots and their references

A timeline has a version, and shots and references that have versions of their own. Commands on the
timeline (`updateTimeline`, `archiveTimeline`, `recoverTimeline`) name the timeline's version and
advance it; commands on one shot or one reference name the item's version and advance that. Each
command stores the listing of the timeline under the timeline's current version, unless a listing is
stored there already.

The composition document of a timeline, its immutable internal revisions and its event stream are
written by these commands and not read by them; only the ids of the documents are kept here. A
request hash stands for the value it is taken of.
-/

namespace WorkspaceRuntime.Timeline

open Fallible Json

abbrev TimelineId := String
abbrev ShotId := String
abbrev ReferenceId := String

/-! ## Rows -/

/-- A row of `timelines`. -/
structure Row where
  projectId : ProjectId
  version : Nat
  name : Option String
  archivedAt : Option Time
  deriving DecidableEq, Repr

/-- The columns of `timeline_shots` besides the keys. -/
structure Shot where
  startMs : Int
  durationMs : Int
  /-- `reference_ids_json`. -/
  referenceIds : Json
  deriving DecidableEq, Repr

/-- The columns of `timeline_references` besides the keys. -/
structure Reference where
  objectId : String
  role : Option String
  deriving DecidableEq, Repr

/-- A reference as a resource shows it: an empty role is left out. -/
def Reference.shown (r : Reference) : Reference := { r with role := r.role.filter (· ≠ "") }

/-- The shots and the references of a timeline, as a row of `timeline_revisions` keeps them. -/
structure Listing where
  shots : List (ShotId × Shot)
  references : List (ReferenceId × Reference)
  deriving DecidableEq, Repr

/-- The kinds of the commands, by which the ledger keeps them apart. -/
inductive Kind where
  | timelineCreate | timelineDocumentCreate | timelineUpdate | timelineArchive | timelineRecover
  | shotCreate | shotUpdate | shotArchive | shotRecover
  | referenceCreate | referenceUpdate | referenceArchive | referenceRecover
  deriving DecidableEq, Repr

/-- What a command answers: a timeline, or one of its items with its version. -/
inductive Answer where
  | timeline (id : TimelineId) (row : Row) (listing : Listing)
  | shot (id : ShotId) (entry : Versioned.Item TimelineId Shot × Versioned.Stamp)
  | reference (id : ReferenceId) (entry : Versioned.Item TimelineId Reference × Versioned.Stamp)
  deriving DecidableEq

/-- The tables that the timeline commands read and write. -/
structure State where
  /-- `projects`: ids to slugs. -/
  projects : Table ProjectId String := .empty
  timelines : Table TimelineId Row := .empty
  /-- `timeline_shots` and `timeline_shot_state`. -/
  shots : Versioned ShotId TimelineId Shot := {}
  /-- `timeline_references` and `timeline_reference_state`. -/
  references : Versioned ReferenceId TimelineId Reference := {}
  /-- `timeline_revisions`. -/
  revisions : Table (TimelineId × Nat) Listing := .empty
  /-- The ids of `project_documents`. -/
  documents : List String := []
  ledger : CommandLedger Kind Answer := .empty
  deriving DecidableEq

/-- The clock, and the conversions of the interpreter and of the database. -/
structure Env where
  now : Time
  numerals : Numerals := {}

/-! ## Bodies -/

/-- `_require_object_body`. -/
def objectBody (body : Json) : Except Err Fields :=
  orThrow body.asObj (.invalidRequest "request body must be a JSON object")

theorem objectBody_eq_ok {body : Json} {fields : Fields} (h : objectBody body = .ok fields) :
    body = .obj fields :=
  asObj_eq_some.mp (orThrow_eq_ok.mp h)

/-- `_expected_version`. -/
def expectedVersion (fields : Fields) : Except Err Nat :=
  let shape := Err.validation "expected_version must be a positive integer"
  match fields.get "expected_version" with
  | some (.int n) => do
    require (1 ≤ n) shape
    return n.toNat
  | _ => .error shape

/-- `int` of a value. -/
def intOf (num : Numerals) (v : Json) : Except Err Int :=
  orThrow (v.toInt num) (.keyError "int")

/-- An integer bound to a column. -/
def columnInt (n : Int) : Except Err Int := do
  require (FitsColumn n) (.keyError "Python int too large to convert to SQLite INTEGER")
  return n

/-- A value bound to a column of texts that is not null. -/
def columnText (num : Numerals) (v : Json) : Except Err String := do
  let text ← orThrow (v.bindText num) (.keyError "type is not supported")
  orThrow text (.integrity "NOT NULL")

/-- `_timeline_name`. -/
def timelineName (v : Json) : Except Err String := do
  let text ← orThrow v.asStr (.validation "timeline name must be a string")
  let name := ((text.toList.dropWhile Char.isWhitespace).reverse.dropWhile Char.isWhitespace).reverse
  require (1 ≤ name.length ∧ name.length ≤ 120)
    (.validation "timeline name must be 1–120 characters after trimming")
  return String.ofList name

/-- The items of a list whose identities are pairwise different, as a set compares them. -/
def uniqueItems (num : Numerals) (list : Json) (id : String) (shape : Err) :
    Except Err (List Fields) := do
  let items ← orThrow list.asArr shape
  let objects := items.filterMap asObj
  let ids ← objects.mapM fun fields =>
    orThrow (((fields.get id).getD .null).member num) (.keyError "unhashable type")
  require (ids.eraseDups.length = items.length) shape
  return objects

/-- The checks of `update_timeline` on one shot, and the row it becomes. -/
def shotOf (num : Numerals) (fields : Fields) : Except Err (ShotId × Shot) := do
  let id := (fields.get "shot_id").getD .null
  require (id.truthy = true) (.validation "invalid shot timing")
  let start ← intOf num ((fields.get "start_ms").getD (.int (-1)))
  require (0 ≤ start) (.validation "invalid shot timing")
  let duration ← intOf num ((fields.get "duration_ms").getD (.int 0))
  require (1 ≤ duration) (.validation "invalid shot timing")
  let key ← columnText num id
  let startMs ← columnInt start
  let durationMs ← columnInt duration
  return (key, { startMs, durationMs, referenceIds := (fields.get "reference_ids").getD (.arr []) })

/-- The checks of `update_timeline` on one reference, and the row it becomes. -/
def referenceOf (num : Numerals) (fields : Fields) :
    Except Err (ReferenceId × Reference) := do
  let id := (fields.get "reference_id").getD .null
  let object := (fields.get "object_id").getD .null
  require (id.truthy = true ∧ object.truthy = true)
    (.validation "references require reference_id and object_id")
  let key ← columnText num id
  let objectId ← columnText num object
  let role ← orThrow (((fields.get "role").getD .null).bindText num)
    (.keyError "type is not supported")
  return (key, { objectId, role })

namespace State

variable (s : State) (env : Env) (t : TimelineId)

/-- `get_project`: the id of the project that an id or a slug selects. -/
def getProject (selector : String) : Except Err ProjectId :=
  orThrow ((s.projects.entries.find? fun e => e.1 = selector ∨ e.2 = selector).map Prod.fst)
    (.notFound "project not found")

/-- The shots and the references of a timeline, as `_timeline_resource` lists them. -/
def listing (s : State) (t : TimelineId) : Listing where
  shots := s.shots.listing t
  references := (s.references.listing t).map fun e => (e.1, e.2.shown)

/-- `_timeline_resource`: the row of a timeline, beside its listing. -/
def timelineRow (t : TimelineId) : Except Err Row :=
  orThrow (s.timelines.lookup t) (.notFound "timeline not found")

/-- `_record_timeline_revision`. -/
def recordTimelineRevision (row : Row) : State :=
  { s with revisions := s.revisions.insertIgnore (t, row.version) (s.listing t) }

/-- `_timeline_revision`. -/
def timelineRevision (row : Row) (version : Nat) : Except Err Listing :=
  match s.revisions.lookup (t, version) with
  | some listing => .ok listing
  | none => do
    require (row.version = version) (.notFound "timeline revision not found")
    return s.listing t

/-- The end of a command: the revision of the timeline and the row of the ledger. -/
def finish (row : Row) (kind : Kind) (aggregate : String) (key : Option String) (request : Json)
    (answer : Answer) (now : Time) : Except Err (State × Answer) := do
  let recorded := s.recordTimelineRevision t row
  let ledger ← recorded.ledger.record kind aggregate key request answer now
  return ({ recorded with ledger }, answer)

/-- The end of a command on a timeline. -/
def finishTimeline (row : Row) (kind : Kind) (aggregate : String) (key : Option String)
    (request : Json) (now : Time) : Except Err (State × Answer) :=
  s.finish t row kind aggregate key request (.timeline t row (s.listing t)) now

/-! ## Creation -/

/-- Insert a timeline at version 1. -/
def insertTimeline (row : Row) : Except Err State := do
  let timelines ← orThrow (s.timelines.insertNew t row) (.conflict "timeline already exists")
  return { s with timelines }

/-- `create_timeline`. -/
def createTimeline (project : String) (id : Json) (name : Option Json) (key : Option String) :
    Except Err (State × Answer) := do
  let t ← orThrow id.asStr (.validation "timeline_id is required")
  require (t ≠ "") (.validation "timeline_id is required")
  let name ← name.mapM timelineName
  let projectId ← s.getProject project
  let request := .obj [("name", name.elim .null .str), ("project_id", .str projectId),
    ("timeline_id", .str t)]
  match ← s.ledger.replay .timelineCreate "timelines" key request env.now with
  | some answer => return (s, answer)
  | none => do
    let row : Row := { projectId, version := 1, name, archivedAt := none }
    let created ← s.insertTimeline t row
    created.finishTimeline t row .timelineCreate "timelines" key request env.now

/-- The name of a new composition document's timeline. -/
def documentName (fields : Fields) : Except Err (Option String) :=
  match fields.get "name" with
  | none => .ok none
  | some v => some <$> timelineName v

/-- `create_timeline_document`. -/
def createTimelineDocument (project : String) (body : Json) (key : Option String) :
    Except Err (State × Answer) := do
  let fields ← objectBody body
  let projectId ← s.getProject project
  let text := fun field default =>
    if ((fields.get field).getD .null).truthy then ((fields.get field).getD .null).toText env.numerals
    else default
  let t := text "timeline_id" ""
  require (t ≠ "") (.validation "timeline_id is required")
  let config := (fields.get "config").getD (.obj [])
  let registry := (fields.get "registry").getD (.obj [])
  require (config.asObj.isSome ∧ registry.asObj.isSome)
    (.validation "config and registry must be objects")
  let request := .obj [("config", config), ("name", .str (text "name" (text "slug" t))),
    ("project_id", .str projectId), ("registry", registry), ("slug", .str (text "slug" t)),
    ("timeline_id", .str t)]
  match ← s.ledger.replay .timelineDocumentCreate t key request env.now with
  | some answer => return (s, answer)
  | none => do
    require (s.timelines.lookup t = none) (.conflict "timeline already exists")
    require ("timeline:" ++ t ∉ s.documents) (.conflict "timeline document already exists")
    let name ← documentName fields
    let row : Row := { projectId, version := 1, name, archivedAt := none }
    let created ← s.insertTimeline t row
    { created with documents := created.documents ++ ["timeline:" ++ t] }.finishTimeline t row
      .timelineDocumentCreate t key request env.now

/-! ## Commands on a timeline -/

/-- The items of a timeline are removed and inserted again. -/
def replaceItems (listing : Listing) : Except Err State := do
  let shots ← orThrow (s.shots.replaceAll t listing.shots) (.integrity "timeline_shots")
  let references ← orThrow (s.references.replaceAll t listing.references)
    (.integrity "timeline_references")
  return { s with shots, references }

/-- Set the row of a timeline. -/
def setTimeline (row : Row) : State :=
  { s with timelines := s.timelines.modify t fun _ => row }

/-- The shots that `update_timeline` stores: the named ones, or the current ones. -/
def namedShots (num : Numerals) (t : TimelineId) (fields : Fields) :
    Except Err (List (ShotId × Shot)) :=
  match presentField fields "shots" with
  | none => .ok (s.listing t).shots
  | some list => do
    let items ← uniqueItems num list "shot_id"
      (.validation "shots must be a list with unique shot_id values")
    items.mapM (shotOf num)

/-- The references that `update_timeline` stores: the named ones, or the current ones. -/
def namedReferences (num : Numerals) (t : TimelineId) (fields : Fields) :
    Except Err (List (ReferenceId × Reference)) :=
  match presentField fields "references" with
  | none => .ok (s.listing t).references
  | some list => do
    let items ← uniqueItems num list "reference_id"
      (.validation "references must be a list with unique reference_id values")
    items.mapM (referenceOf num)

/-- `update_timeline`. -/
def updateTimeline (body : Json) (key : Option String) : Except Err (State × Answer) := do
  let fields ← objectBody body
  let expected ← expectedVersion fields
  let row ← s.timelineRow t
  let request := .obj [("body", body), ("timeline_id", .str t)]
  match ← s.ledger.replay .timelineUpdate t key request env.now with
  | some answer => return (s, answer)
  | none => do
    require (row.version = expected) (.conflict "timeline version conflict")
    let shots ← s.namedShots env.numerals t fields
    let references ← s.namedReferences env.numerals t fields
    let replaced ← s.replaceItems t { shots, references }
    let row := { row with version := expected + 1 }
    (replaced.setTimeline t row).finishTimeline t row .timelineUpdate t key request env.now

/-- `archive_timeline`. -/
def archiveTimeline (body : Json) (key : Option String) : Except Err (State × Answer) := do
  let fields ← objectBody body
  let expected ← expectedVersion fields
  let row ← s.timelineRow t
  let request := .obj [("action", .str "archive"), ("body", body), ("timeline_id", .str t)]
  match ← s.ledger.replay .timelineArchive t key request env.now with
  | some answer => return (s, answer)
  | none => do
    require (row.version = expected) (.conflict "timeline version conflict")
    let row := { row with version := expected + 1, archivedAt := some env.now }
    (s.setTimeline t row).finishTimeline t row .timelineArchive t key request env.now

/-- The version that `recover_timeline` goes back to. -/
def targetVersion (fields : Fields) : Except Err Nat :=
  let shape := Err.validation "version must be a positive integer"
  match fields.get "version" with
  | some (.int n) => do
    require (1 ≤ n) shape
    return n.toNat
  | _ => .error shape

/-- `recover_timeline`. -/
def recoverTimeline (body : Json) (key : Option String) : Except Err (State × Answer) := do
  let fields ← objectBody body
  let expected ← expectedVersion fields
  let target ← targetVersion fields
  let row ← s.timelineRow t
  let request := .obj [("action", .str "recover"), ("body", body), ("timeline_id", .str t)]
  match ← s.ledger.replay .timelineRecover t key request env.now with
  | some answer => return (s, answer)
  | none => do
    require (row.version = expected) (.conflict "timeline version conflict")
    let revision ← s.timelineRevision t row target
    let replaced ← s.replaceItems t revision
    let row := { row with version := expected + 1, archivedAt := none }
    (replaced.setTimeline t row).finishTimeline t row .timelineRecover t key request env.now

/-! ## Commands on an item -/

/-- `create_shot`. -/
def createShot (body : Json) (key : Option String) : Except Err (State × Answer) := do
  let fields ← objectBody body
  let id ← wireString fields "shot_id"
  let duration ← intOf env.numerals ((fields.get "duration_ms").getD (.int 0))
  require (1 ≤ duration) (.validation "invalid shot timing")
  let start ← intOf env.numerals ((fields.get "start_ms").getD (.int 0))
  require (0 ≤ start) (.validation "invalid shot timing")
  let referenceIds := (fields.get "reference_ids").getD (.arr [])
  require (∃ ids ∈ referenceIds.asArr, ∀ v ∈ ids, ∃ text ∈ v.asStr, text ≠ "")
    (.validation "reference_ids must be a list of non-empty strings")
  let row ← s.timelineRow t
  let request := .obj [("shot", body), ("timeline_id", .str t)]
  match ← s.ledger.replay .shotCreate "timeline.shots" key request env.now with
  | some answer => return (s, answer)
  | none => do
    require ((fields.get "start_ms").isSome) (.keyError "start_ms")
    let startMs ← columnInt start
    let durationMs ← columnInt duration
    let shot : Shot := { startMs, durationMs, referenceIds }
    let shots ← orThrow (s.shots.create t id shot) (.conflict "shot already exists")
    { s with shots }.finish t row .shotCreate "timeline.shots" key request
      (.shot id (⟨t, shot⟩, .fresh)) env.now

/-- `create_reference`. -/
def createReference (body : Json) (key : Option String) : Except Err (State × Answer) := do
  let fields ← objectBody body
  let id ← wireString fields "reference_id"
  let objectId ← wireString fields "object_id"
  let row ← s.timelineRow t
  let request := .obj [("reference", body), ("timeline_id", .str t)]
  match ← s.ledger.replay .referenceCreate "timeline.references" key request env.now with
  | some answer => return (s, answer)
  | none => do
    let role ← orThrow (((fields.get "role").getD .null).bindText env.numerals)
      (.keyError "type is not supported")
    let reference : Reference := { objectId, role }
    let references ← orThrow (s.references.create t id reference)
      (.conflict "reference already exists")
    { s with references }.finish t row .referenceCreate "timeline.references" key request
      (.reference id (⟨t, reference⟩, .fresh)) env.now

end State

/-- What a command on an item does with it. -/
inductive Action where
  | update | archive | recover
  deriving DecidableEq, Repr

/-- The archival time that an action leaves. -/
def Action.archivedAt (action : Action) (now : Time) (stored : Option Time) : Option Time :=
  match action with
  | .update => stored
  | .archive => some now
  | .recover => none

/-- The content that an action leaves; `revise` reads a new one from the body. -/
def Action.content {γ : Type} (action : Action) (stamp : Versioned.Stamp) (archived : Err)
    (revise : γ → Except Err γ) (content : γ) : Except Err γ :=
  match action with
  | .update => do
    require (stamp.archivedAt = none) archived
    revise content
  | .archive | .recover => .ok content

/-- The checks of `_update_shot_state` and `_update_reference_state` on the version and on the
content, and the change. -/
def changeItem {γ : Type} (items : Versioned String TimelineId γ) (id : String) (content : γ)
    (expected : Nat) (action : Action) (stale archived : Err) (revise : γ → Except Err γ)
    (now : Time) : Except Err (Versioned String TimelineId γ) := do
  let stamp := items.stampOf id
  require (expected = stamp.version) stale
  let revised ← action.content stamp archived revise content
  return items.change id revised (action.archivedAt now stamp.archivedAt)

/-- The content that `update_shot` gives a shot. -/
def reviseShot (num : Numerals) (fields : Fields) (shot : Shot) : Except Err Shot := do
  let start ← intOf num ((fields.get "start_ms").getD (.int shot.startMs))
  let duration ← intOf num ((fields.get "duration_ms").getD (.int shot.durationMs))
  let referenceIds := (fields.get "reference_ids").getD shot.referenceIds
  require (0 ≤ start ∧ 1 ≤ duration ∧ referenceIds.asArr.isSome)
    (.validation "invalid shot timing or reference_ids")
  let startMs ← columnInt start
  let durationMs ← columnInt duration
  return { startMs, durationMs, referenceIds }

/-- The content that `update_reference` gives a reference. -/
def reviseReference (num : Numerals) (fields : Fields) (reference : Reference) :
    Except Err Reference := do
  let object := (fields.get "object_id").getD (.str reference.objectId)
  require (object.truthy = true) (.validation "reference object_id is required")
  let objectId ← columnText num object
  let role ← orThrow (((fields.get "role").getD (reference.role.elim .null .str)).bindText num)
    (.keyError "type is not supported")
  return { objectId, role }

/-- The fields of a body that may be missing. -/
def itemBody (body : Json) : Except Err Fields :=
  if body.truthy then orThrow body.asObj (.keyError "get") else .ok []

namespace State

/-- The kind of a command on a shot. -/
def shotKind : Action → Kind
  | .update => .shotUpdate
  | .archive => .shotArchive
  | .recover => .shotRecover

/-- The kind of a command on a reference. -/
def referenceKind : Action → Kind
  | .update => .referenceUpdate
  | .archive => .referenceArchive
  | .recover => .referenceRecover

/-- `_update_shot_state`: `update_shot`, `archive_shot` and `recover_shot`. -/
def updateShotState (s : State) (env : Env) (id : ShotId) (body : Json) (action : Action)
    (key : Option String) : Except Err (State × Answer) := do
  let fields ← itemBody body
  let expected ← expectedVersion fields
  let item ← orThrow (s.shots.items.lookup id) (.notFound "shot not found")
  match ← s.ledger.replay (shotKind action) id key body env.now with
  | some answer => return (s, answer)
  | none => do
    let shots ← changeItem s.shots id item.content expected action
      (.conflict "shot version conflict") (.conflict "archived shot must be recovered before update")
      (reviseShot env.numerals fields) env.now
    let entry ← orThrow (shots.entry id) (.notFound "shot not found")
    let row ← s.timelineRow item.owner
    { s with shots }.finish item.owner row (shotKind action) id key body (.shot id entry) env.now

/-- `_update_reference_state`: `update_reference`, `archive_reference` and `recover_reference`. -/
def updateReferenceState (s : State) (env : Env) (id : ReferenceId) (body : Json) (action : Action)
    (key : Option String) : Except Err (State × Answer) := do
  let fields ← itemBody body
  let expected ← expectedVersion fields
  let item ← orThrow (s.references.items.lookup id) (.notFound "reference not found")
  match ← s.ledger.replay (referenceKind action) id key body env.now with
  | some answer => return (s, answer)
  | none => do
    let references ← changeItem s.references id item.content expected action
      (.conflict "reference version conflict")
      (.conflict "archived reference must be recovered before update")
      (reviseReference env.numerals fields) env.now
    let entry ← orThrow (references.entry id) (.notFound "reference not found")
    let row ← s.timelineRow item.owner
    { s with references }.finish item.owner row (referenceKind action) id key body
      (.reference id entry) env.now

end State

/-! ## Runs -/

/-- A call of a timeline command. -/
inductive Command where
  | createTimeline (project : String) (id : Json) (name : Option Json) (key : Option String)
  | createTimelineDocument (project : String) (body : Json) (key : Option String)
  | updateTimeline (t : TimelineId) (body : Json) (key : Option String)
  | archiveTimeline (t : TimelineId) (body : Json) (key : Option String)
  | recoverTimeline (t : TimelineId) (body : Json) (key : Option String)
  | createShot (t : TimelineId) (body : Json) (key : Option String)
  | createReference (t : TimelineId) (body : Json) (key : Option String)
  | updateShot (id : ShotId) (body : Json) (action : Action) (key : Option String)
  | updateReference (id : ReferenceId) (body : Json) (action : Action) (key : Option String)

/-- The call's outcome. -/
def Command.outcome (env : Env) (s : State) : Command → Except Err (State × Answer)
  | .createTimeline project id name key => s.createTimeline env project id name key
  | .createTimelineDocument project body key => s.createTimelineDocument env project body key
  | .updateTimeline t body key => s.updateTimeline env t body key
  | .archiveTimeline t body key => s.archiveTimeline env t body key
  | .recoverTimeline t body key => s.recoverTimeline env t body key
  | .createShot t body key => s.createShot env t body key
  | .createReference t body key => s.createReference env t body key
  | .updateShot id body action key => s.updateShotState env id body action key
  | .updateReference id body action key => s.updateReferenceState env id body action key

/-- The state after a call; one that raises is rolled back. -/
def State.next (s : State) (call : Env × Command) : State :=
  match call.2.outcome call.1 s with
  | .ok (s', _) => s'
  | .error _ => s

/-- A realm with projects and without timelines. -/
def State.initial (projects : Table ProjectId String) : State := { projects }

end WorkspaceRuntime.Timeline
