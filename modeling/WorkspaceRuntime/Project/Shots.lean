import WorkspaceRuntime.Project.Publication

/-!
# Commands on shots

These commands write the rows of a shot and then materialise them: `_record_legacy_shot_revision`
reads the rows back as the payload of a new shot revision, which pins an internal revision of its own
and becomes the head of the shot.
-/

namespace WorkspaceRuntime.Project

open Fallible Timeline Json

/-! ## Resources -/

/-- `f"{index:08d}"`. -/
def sortKey (index : Nat) : String :=
  let digits := (toString index).toList
  String.ofList (List.replicate (8 - digits.length) '0' ++ digits)

variable (host : Host) (shot : ShotId)

/-- `_shot_item_resource`, of the item at an index. -/
def itemResource (item : Item) (index : Nat) : Json :=
  .obj [("created_at", .str (host.stamp item.createdAt)), ("item_id", .str item.id),
    ("media_id", .str item.mediaId), ("metadata", item.metadata), ("shot_id", .str shot),
    ("sort_key", .str (sortKey index)), ("source_frame", item.sourceFrame)]

/-- The items of a shot, as resources. -/
def itemResources (row : Shot) : List Json :=
  row.items.zipIdx.map fun e => itemResource host shot e.1 e.2

/-- `_project_shot_resource`. -/
def shotResource (row : Shot) : Fields :=
  [("archived", .bool row.archivedAt.isSome), ("created_at", .str (host.stamp row.createdAt)),
   ("items", .arr (itemResources host shot row)), ("metadata", row.metadata),
   ("name", .str row.name), ("project_id", .str row.projectId), ("shot_id", .str shot),
   ("updated_at", .str (host.stamp row.updatedAt)), ("version", .int row.version)]

/-- `_shot_revision_payload`. -/
def shotRevisionPayload (row : Shot) : Fields :=
  [("archived", .bool row.archivedAt.isSome), ("items", .arr (itemResources host shot row)),
   ("metadata", row.metadata), ("name", .str row.name)]

/-- The payload of the internal revision that goes with it. -/
def scopedPayload (row : Shot) : Json :=
  .obj [("archived", .bool row.archivedAt.isSome), ("items", .arr (itemResources host shot row)),
    ("metadata", row.metadata), ("shot_id", .str shot)]

/-- A text of a body: `str(body.get(name) or default)`. -/
def textOr (num : Numerals) (fields : Fields) (name default : String) : String :=
  if (field fields name).truthy then (field fields name).toText num else default

/-- `name.strip()` is not empty. -/
def hasInk (name : String) : Bool := name.toList.any fun c => !host.isSpace c

/-- The fields that a command adds to the resource of a shot. -/
structure Recorded where
  revisionId : RevisionId
  internalId : RevisionId
  contentDigest : String
  deriving DecidableEq, Repr

def Recorded.fields (r : Recorded) (resource : Fields) : Fields :=
  ((resource.set "revision_id" (.str r.revisionId)).set "internal_timeline_revision_id"
    (.str r.internalId)).set "content_digest" (.str r.contentDigest)

namespace State

/-! ## Materialisation -/

variable (s : State) (host : Host) (project : ProjectId) (env : Env) (shot : ShotId)

/-- The scope of an internal revision of a shot: a timeline of the project, or else the shot. -/
def checkScope (shot : ShotId) : Except Err Unit :=
  let identity :=
    Err.validation "internal timeline revision has an invalid project/timeline identity"
  match s.timelines.lookup ("shot:" ++ shot) with
  | some owner => require (owner = project) identity
  | none => require (shot ≠ "" ∧ (s.shots.lookup shot).any (·.projectId = project) = true) identity

/-- `_record_internal_revision`, for the scope of a shot. -/
def recordInternalRevision (payload : Json) (id : String) : Except Err State := do
  s.checkScope project shot
  let id ← revisionId (.str id) "internal timeline revision_id"
  s.insertInternal host project
    { revisionId := id, timelineId := "shot:" ++ shot, payload
      contentDigest := host.revisionDigest payload }

/-- `_record_legacy_shot_revision`. The draws of `new_id` are the first placeholder, the internal
revision and the shot revision. -/
def recordLegacyShotRevision (project : ProjectId) (shot : ShotId) (row : Shot) :
    Except Err (State × Recorded) := do
  let payload ← completeShotPayload (shotRevisionPayload host shot row) (env.newId 1)
  let internalId := env.newId 2
  let s ← s.recordInternalRevision host project shot (scopedPayload host shot row) internalId
  let payload := obj (payload.set "internal_timeline_revision_id" (.str internalId))
  let contentDigest := host.revisionDigest payload
  let revisionId := env.newId 3
  let payload ← jsonColumn host.numerals payload
  let shotRevisions ← orThrow (s.shotRevisions.insertNew revisionId
    { projectId := project, shotId := shot, internalId, payload, contentDigest })
    (.integrity "shot_revisions")
  let head : ShotHead := { projectId := project, revisionId }
  return ({ s with shotRevisions, shotHeads := s.shotHeads.upsert shot head },
    { revisionId, internalId, contentDigest })

/-- The row of a shot is written and materialised, and the command is recorded. -/
def finishShot (project : ProjectId) (shot : ShotId) (row : Shot) (kind : Kind) (aggregate : String)
    (key : Option String) (request : Json) : Except Err (State × Answer) := do
  let s := { s with shots := s.shots.upsert shot row }
  let (s, recorded) ← s.recordLegacyShotRevision host env project shot row
  let data := obj (recorded.fields (shotResource host shot row))
  let ledger ← s.ledger.record kind aggregate key request data env.now
  return ({ s with ledger }, { data, receipted := key.isSome })

/-! ## Commands -/

/-- A shot of a project. -/
def projectShot (shot : ShotId) : Except Err Shot :=
  orThrow ((s.shots.lookup shot).filter (·.projectId = project)) (.notFound "shot not found")

/-- `create_project_shot`. -/
def createProjectShot (selector : String) (body : Json) (key : Option String) :
    Except Err (State × Answer) := do
  let fields ← objectBody body
  let project ← s.getProject selector
  let name := textOr host.numerals fields "name" ""
  require (hasInk host name = true) (.validation "name is required")
  let metadata := (fields.get "metadata").getD (.obj [])
  require (metadata.asObj.isSome = true) (.validation "metadata must be an object")
  let shot := textOr host.numerals fields "shot_id" (env.newId 0)
  match ← s.ledger.replay .shotCreate project key body env.now with
  | some data => return (s, { data, receipted := true })
  | none => do
    require (s.shots.lookup shot = none) (.conflict "shot already exists")
    require (name.toList.any (· ≠ ' ') = true) (.integrity "project_shots")
    let metadata ← jsonColumn host.numerals metadata
    let row : Shot :=
      { projectId := project, name, metadata, version := 1, createdAt := env.now
        updatedAt := env.now, archivedAt := none, items := [] }
    s.finishShot host env project shot row .shotCreate project key body

/-- The three commands of `update_project_shot`. -/
inductive ShotAction where
  | update | archive | recover
  deriving DecidableEq, Repr

def ShotAction.kind : ShotAction → Kind
  | .update => .shotUpdate
  | .archive => .shotArchive
  | .recover => .shotRecover

/-- What a command makes of `archived_at`. -/
def ShotAction.archivedAt (now : Time) (old : Option Time) : ShotAction → Option Time
  | .update => old
  | .archive => some now
  | .recover => none

/-- `update_project_shot`. -/
def updateProjectShot (action : ShotAction) (selector : String) (shot : ShotId) (body : Json)
    (key : Option String) : Except Err (State × Answer) := do
  let _ ← requireIdempotencyKey key
  let fields ← objectBody body
  let project ← s.getProject selector
  let expected ← expectedVersion fields
  match ← s.ledger.replay action.kind shot key body env.now with
  | some data => return (s, { data, receipted := true })
  | none => do
    let row ← s.projectShot project shot
    require (row.version = expected) (.conflict "shot version conflict")
    let name := (fields.get "name").elim row.name (·.toText host.numerals)
    let metadata := (fields.get "metadata").getD row.metadata
    require (hasInk host name = true ∧ metadata.asObj.isSome = true)
      (.validation "invalid shot name or metadata")
    require (name.toList.any (· ≠ ' ') = true) (.integrity "project_shots")
    let metadata ← jsonColumn host.numerals metadata
    let row : Shot :=
      { row with name, metadata, version := expected + 1, updatedAt := env.now
                 archivedAt := action.archivedAt env.now row.archivedAt }
    s.finishShot host env project shot row action.kind shot key body

/-- The place of a new item among the items of a shot. -/
def itemPosition (fields : Fields) (count : Nat) : Except Err Nat :=
  let range := Err.validation "position is out of range"
  match field fields "position" with
  | .null => .ok count
  | .int n => do
    require (0 ≤ n ∧ n ≤ count) range
    return n.toNat
  | _ => .error range

/-- The row that `add_shot_item` inserts. -/
def newItem (fields : Fields) (mediaId : String) (metadata : Json) : Except Err Item := do
  let id := textOr host.numerals fields "item_id" (env.newId 0)
  require (∀ e ∈ s.shots.entries, ∀ item ∈ e.2.items, item.id ≠ id) (.integrity "shot_items")
  let sourceFrame ← orThrow ((field fields "source_frame").bindInteger host.numerals)
    (.keyError "type is not supported")
  let metadata ← jsonColumn host.numerals metadata
  return { id, mediaId, sourceFrame, metadata, createdAt := env.now }

/-- `add_shot_item`. -/
def addShotItem (selector : String) (shot : ShotId) (body : Json) (key : Option String) :
    Except Err (State × Answer) := do
  let fields ← objectBody body
  let project ← s.getProject selector
  let mediaId := withoutScheme (textOr host.numerals fields "media_id" "")
  require (mediaId ≠ "") (.validation "media_id is required")
  let metadata := (fields.get "metadata").getD (.obj [])
  require (metadata.asObj.isSome = true) (.validation "metadata must be an object")
  let row ← s.projectShot project shot
  match ← s.ledger.replay .shotItemAdd shot key body env.now with
  | some data => return (s, { data, receipted := true })
  | none => do
    require (∃ e ∈ s.projectObjects, e.1 = project ∧ e.2.1 = mediaId)
      (.notFound "media is not owned by project")
    let position ← itemPosition fields row.items.length
    let item ← s.newItem host env fields mediaId metadata
    let row : Shot :=
      { row with items := row.items.insertIdx position item, version := row.version + 1
                 updatedAt := env.now }
    s.finishShot host env project shot row .shotItemAdd shot key body

/-- `remove_shot_item`. -/
def removeShotItem (selector : String) (shot : ShotId) (itemId : String) (body : Json)
    (key : Option String) : Except Err (State × Answer) := do
  let fields ← objectBody body
  let project ← s.getProject selector
  let row ← s.projectShot project shot
  let expected ← expectedVersion fields
  let request := obj (setDefault fields ("item_id", .str itemId))
  match ← s.ledger.replay .shotItemRemove shot key request env.now with
  | some data => return (s, { data, receipted := true })
  | none => do
    require (row.version = expected) (.conflict "shot version conflict")
    require (∃ item ∈ row.items, item.id = itemId) (.notFound "shot item not found")
    let row : Shot :=
      { row with items := row.items.filter (·.id ≠ itemId), version := row.version + 1
                 updatedAt := env.now }
    s.finishShot host env project shot row .shotItemRemove shot key request

/-- `item_ids` of a body. -/
def itemIds (fields : Fields) : Except Err (List String) := do
  require (fields.get "items" = none) (.validation "items is not supported; use item_ids")
  let shape := Err.validation "items must be a unique complete permutation"
  let raw ← orThrow (field fields "item_ids").asArr shape
  let ids ← raw.mapM fun v => orThrow v.asStr shape
  require ids.Nodup shape
  return ids

/-- `reorder_shot_items`. -/
def reorderShotItems (selector : String) (shot : ShotId) (body : Json) (key : Option String) :
    Except Err (State × Answer) := do
  let fields ← objectBody body
  let project ← s.getProject selector
  let row ← s.projectShot project shot
  let expected ← expectedVersion fields
  let ids ← itemIds fields
  match ← s.ledger.replay .shotItemReorder shot key body env.now with
  | some data => return (s, { data, receipted := true })
  | none => do
    require (row.version = expected) (.conflict "shot version conflict")
    require (SameMembers ids (row.items.map Item.id))
      (.validation "items must name the complete shot permutation")
    let row : Shot :=
      { row with items := ids.filterMap fun id => row.items.find? (·.id = id)
                 version := row.version + 1, updatedAt := env.now }
    s.finishShot host env project shot row .shotItemReorder shot key body

/-! ## Promotion -/

/-- One of the three places in which a candidate says where it comes from. -/
def checkProvenance (mediaId label : String) (v : Json) : Except Err Unit :=
  match v.asObj with
  | none => .ok ()
  | some fields => do
    let same : String → String → Bool := fun name text =>
      field fields name = .null || (field fields name).toText host.numerals = text
    require (same "project_id" project = true)
      (.validation (label ++ " project_id does not match target project"))
    require (same "shot_id" shot = true)
      (.validation (label ++ " shot_id does not match target shot"))
    require (field fields "target_role" = .null ∨ field fields "target_role" = .str "primary_visual")
      (.validation (label ++ " target_role must be primary_visual"))
    let supplied := if (field fields "media_id").truthy then field fields "media_id"
      else field fields "output_media_id"
    require (supplied = .null ∨
        withoutScheme (supplied.toText host.numerals) = withoutScheme mediaId)
      (.validation (label ++ " media_id does not match candidate media"))

/-- An item has a role of a primary visual. -/
def hasStatus (status : String) (item : Item) : Bool :=
  item.metadata.get? "role" = some (.str "primary_visual") &&
    item.metadata.get? "status" = some (.str status)

/-- The item with another status. -/
def withStatus (status : String) (item : Item) : Item :=
  { item with metadata := .obj ((item.metadata.asObj.getD []).set "status" (.str status)) }

/-- The candidate of a promotion, and the item that it supersedes. -/
def candidateOf (row : Shot) (candidateId : String) : Except Err (Option Item) := do
  let candidate ← orThrow (row.items.find? (·.id = candidateId))
    (.notFound "shot candidate not found")
  require (hasStatus "candidate" candidate = true) (.validation
    "candidate item must have role='primary_visual' and status='candidate'")
  let part : String → Json := fun name => (candidate.metadata.get? name).getD .null
  checkProvenance host project shot candidate.mediaId "candidate metadata" candidate.metadata
  checkProvenance host project shot candidate.mediaId "candidate provenance" (part "provenance")
  checkProvenance host project shot candidate.mediaId "candidate recipe" (part "recipe")
  let digest := withoutScheme candidate.mediaId
  require ((s.objects.lookup digest).isSome ∧
      ∃ e ∈ s.projectObjects, e.1 = project ∧ e.2.1 = digest)
    (.notFound "candidate media is not owned by project")
  require ((s.casRead host digest).toOption.isSome = true)
    (.validation "candidate media is unavailable")
  let primaries := row.items.filter (hasStatus "primary")
  require (primaries.length ≤ 1)
    (.validation "shot must contain at most one primary_visual item")
  require (∀ item ∈ primaries, item.id ≠ candidateId)
    (.validation "candidate item is already the primary")
  return primaries.head?

/-- `timeline_assets` of a body. -/
def timelineAssets (fields : Fields) : Except Err (List Json) := do
  let shape := Err.validation "timeline_assets must be a list of objects"
  let assets ← match (fields.get "timeline_assets").getD (.arr []) with
    | .obj assets => .ok (assets.map Prod.snd)
    | v => orThrow v.asArr shape
  require (∀ asset ∈ assets, asset.asObj.isSome = true) shape
  return assets

/-- `expected_head_seq` of a body. -/
def expectedHeadSeq (fields : Fields) : Except Err Nat :=
  let shape := Err.validation "expected_head_seq must be a positive integer"
  match field fields "expected_head_seq" with
  | .int n => do
    require (1 ≤ n) shape
    return n.toNat
  | _ => .error shape

/-- The media of the items as the analysis gets them. -/
def withScheme (resource : Json) : Json :=
  .obj ((resource.asObj.getD []).set "media_id" (.str ("sha256:" ++
    withoutScheme (((resource.get? "media_id").bind asStr).getD ""))))

/-- What a promotion answers. -/
def promotionResult (candidateId : String) (row : Shot) (superseded : Option Item)
    (invalidation : Json) (recorded : Recorded) : Json :=
  .obj (recorded.fields [("invalidation", invalidation),
    ("promotion", .obj [("candidate_item_id", .str candidateId), ("event_head_seq", .int row.version),
      ("item_ids", .arr (row.items.map fun item => .str item.id)),
      ("primary_item_id", .str candidateId), ("project_id", .str project), ("shot_id", .str shot),
      ("superseded_item_id", superseded.elim .null fun item => .str item.id)])])

/-- `promote_project_shot_candidate`. -/
def promoteProjectShotCandidate (selector : String) (shot : ShotId) (body : Json)
    (key : Option String) : Except Err (State × Answer) := do
  let fields ← objectBody body
  let _ ← requireIdempotencyKey key
  let candidateId ← nonEmpty (field fields "candidate_item_id") "candidate_item_id is required"
  let expected ← expectedHeadSeq fields
  let assets ← timelineAssets fields
  let request := obj
    [("candidate_item_id", .str candidateId), ("expected_head_seq", .int expected),
     ("project_id", .str selector), ("shot_id", .str shot), ("timeline_assets", .arr assets)]
  -- the ledger is asked before the project is looked up
  match ← s.ledger.replay .shotPromoteCandidate shot key request env.now with
  | some data => return (s, { data, receipted := true })
  | none => do
    let project ← s.getProject selector
    let row ← s.projectShot project shot
    require (row.version = expected) (.conflict "shot head conflict")
    let superseded ← s.candidateOf host project shot row candidateId
    let row : Shot :=
      { row with
        version := expected + 1, updatedAt := env.now
        items := row.items.map fun item =>
          if item.id = candidateId then withStatus "primary" item
          else if superseded.any (·.id = item.id) then withStatus "superseded" item
          else item }
    let s := { s with shots := s.shots.upsert shot row }
    let (s, recorded) ← s.recordLegacyShotRevision host env project shot row
    let report ← env.invalidation ((itemResources host shot row).map withScheme) assets
    let data := promotionResult project shot candidateId row superseded report recorded
    let ledger ← s.ledger.record .shotPromoteCandidate shot key request data env.now
    return ({ s with ledger }, { data, receipted := true })

end State

end WorkspaceRuntime.Project
