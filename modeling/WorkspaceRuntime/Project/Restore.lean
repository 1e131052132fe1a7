import WorkspaceRuntime.Project.Check

/-!
# Restoring a composition and replacing a medium in it

Both commands build the body of a publication and hand it to `publish_parent_composition`.
`restore_project_parent_composition_revision` publishes the payload of an older revision with the
dependencies that are stored for it, once the integrity report has nothing against them.
`replace_parent_composition_media` changes one clip of one internal timeline, gives new identities to
the revisions above it, and computes the manifest of the result from the old composition.
-/

namespace WorkspaceRuntime.Project

open Fallible Timeline Json

/-- The entry of a shot in the body of a publication. -/
def shotBody (e : ShotEntry) : Json :=
  .obj [("content_digest", .str e.contentDigest), ("internal_timeline_revision_id", .str e.internalId),
    ("payload", e.payload), ("revision_id", .str e.revisionId), ("shot_id", .str e.shotId)]

/-- The entry of an internal timeline in the body of a publication. -/
def internalBody (e : InternalEntry) : Json :=
  .obj [("content_digest", .str e.contentDigest), ("payload", e.payload),
    ("revision_id", .str e.revisionId), ("timeline_id", .str e.timelineId)]

/-- The member of a manifest that a shot is. -/
def shotPin (e : ShotEntry) : Json :=
  .obj [("content_digest", .str e.contentDigest), ("internal_timeline_revision_id", .str e.internalId),
    ("revision_id", .str e.revisionId), ("shot_id", .str e.shotId)]

/-- The member of a manifest that an internal timeline is. -/
def internalPin (e : InternalEntry) : Json :=
  .obj [("content_digest", .str e.contentDigest), ("revision_id", .str e.revisionId),
    ("timeline_id", .str e.timelineId)]

/-- The manifest of a body: shots and internal timelines in their order, and the media. -/
def manifestBody (shots : List ShotEntry) (internal : List InternalEntry) (media : Json) : Json :=
  .obj [
    ("internal_timelines", .arr ((internal.insertionSort fun e e' => State.keyOrder e.key e'.key).map
      internalPin)),
    ("media", media),
    ("shots", .arr ((shots.insertionSort fun e e' => State.keyOrder e.key e'.key).map shotPin))]

/-- An identity that is made of the hash of a value. -/
def stableId (host : Host) (tag : String) (v : Json) : RevisionId :=
  tag ++ "-" ++ String.ofList ((host.digest v).toList.take 48)

namespace State

/-! ## Restore -/

variable (s : State) (host : Host) (project : ProjectId) (timeline : TimelineId)

/-- The parent revision of a timeline. -/
def parentRevisionOf (revision : RevisionId) : Except Err ParentRevision :=
  orThrow ((s.parentRevisions.lookup revision).filter fun row =>
    row.projectId = project && row.timelineId = timeline)
    (.notFound "parent composition revision not found")

/-- One occurrence of a restored composition: its pinned revisions, as they are committed. -/
def restoreOccurrence (children : Children) (occurrence : Json) : Except Err Children := do
  let fields ← orThrow occurrence.asObj
    (.validation "historical parent composition occurrence must be an object")
  let pinned := Err.validation "historical occurrence is missing its pinned shot identity"
  let shot ← orThrow (field fields "shot_id").asStr pinned
  let revision ← orThrow (field fields "shot_revision_id").asStr pinned
  if (children.shots.lookup (shot, revision)).isSome then return children
  else do
    let row ← orThrow ((s.shotRevisions.lookup revision).filter fun row =>
      row.projectId = project && row.shotId = shot)
      (.conflict "historical shot revision dependency is missing")
    require (host.revisionDigest row.payload = row.contentDigest)
      (.conflict "historical shot revision failed immutable verification")
    let internal ← orThrow ((s.internalRevisions.lookup row.internalId).filter
      (·.projectId = project)) (.conflict "historical internal timeline dependency is missing")
    require (host.revisionDigest internal.payload = internal.contentDigest)
      (.conflict "historical internal timeline revision failed immutable verification")
    return {
      shots := children.shots.upsert (shot, revision)
        { revisionId := revision, shotId := shot, internalId := row.internalId
          payload := row.payload, contentDigest := row.contentDigest, existing := true }
      internal := children.internal.upsert (internal.timelineId, row.internalId)
        (entryOfInternal row.internalId internal) }

/-- The issues that stand against a revision. -/
def issuesOf (issues : List Issue) (revision : RevisionId) : List Issue :=
  issues.filter fun issue =>
    issue.identity = revision || (revision ++ ":").toList.isPrefixOf issue.identity.toList

/-- The body of the publication that restores a revision. -/
def restoreBody (revision : RevisionId) (expected : Option RevisionId) (key : String) :
    Except Err Json := do
  let source ← s.parentRevisionOf project timeline revision
  require (host.revisionDigest source.payload = source.contentDigest)
    (.conflict "historical parent composition failed immutable verification")
  let (canonical, occurrences) ← completeParentPayload source.payload
  require (obj canonical = source.payload)
    (.conflict "historical parent composition is non-canonical and cannot be restored exactly")
  require (issuesOf (s.revisionIssues host) revision = [] ∧
      chainValid host s.timelineEvents timeline = true) (.conflict
    "historical parent composition dependency closure failed immutable verification")
  let children ← occurrences.foldlM (s.restoreOccurrence host project) ⟨.empty, .empty⟩
  let shots := children.shots.entries.map Prod.snd
  let internal := children.internal.entries.map Prod.snd
  let stored := (s.storedDependencies revision).filterMap fun d =>
    if d.2.1 = .media then some d.2.2.1 else none
  let media := sortedSet (stored ++ shots.flatMap (fun e => collectDigestMedia e.payload) ++
    internal.flatMap fun e => collectDigestMedia e.payload)
  let parentId := stableId host "restore" (.obj
    [("expected_head", idOrNull expected), ("idempotency_key", .str key),
     ("project_id", .str project), ("source_revision_id", .str revision),
     ("timeline_id", .str timeline)])
  return .obj [
    ("dependency_manifest", manifestBody shots internal (.arr (media.map .str))),
    ("expected_head", idOrNull expected),
    ("internal_timeline_revisions", .arr (internal.map internalBody)),
    ("parent_composition", source.payload), ("parent_revision_id", .str parentId),
    ("project_id", .str project), ("shot_revisions", .arr (shots.map shotBody)),
    ("timeline_id", .str timeline)]

/-- `restore_project_parent_composition_revision`. -/
def restoreProjectParentCompositionRevision (env : Env) (selector : String) (timeline : TimelineId)
    (revision : RevisionId) (body : Json) (key : Option String) : Except Err (State × Answer) := do
  let k ← requireIdempotencyKey key
  let fields ← objectBody body
  require (∀ f ∈ fields, f.1 = "expected_head")
    (.validation "parent composition restore contains unsupported fields")
  require ((fields.get "expected_head").isSome = true)
    (.validation "expected_head is required for parent composition restore")
  let expected ← expectedParentHead fields
  let project ← s.getProject selector
  let publication ← s.restoreBody host project timeline revision expected k
  s.publishParentComposition host env project timeline publication key

/-! ## Replace -/

/-- The fields of a body of `replace_parent_composition_media`. -/
structure Replacement where
  occurrenceId : String
  clipId : String
  sourceObjectId : String
  expectedHead : RevisionId
  deriving DecidableEq, Repr

/-- The object without its scheme. -/
def Replacement.sourceDigest (r : Replacement) : Digest := withoutScheme r.sourceObjectId

/-- The checks of a body. -/
def readReplacement (fields : Fields) : Except Err Replacement := do
  require (∀ f ∈ fields, f.1 ∈ ["occurrence_id", "clip_id", "source_object_id", "expected_head",
      "timing"])
    (.validation "parent-composition replacement contains unsupported fields")
  let message := "occurrence_id, clip_id, source_object_id, and expected_head are required"
  let occurrenceId ← nonEmpty (field fields "occurrence_id") message
  let clipId ← nonEmpty (field fields "clip_id") message
  let sourceObjectId ← nonEmpty (field fields "source_object_id") message
  let expectedHead ← nonEmpty (field fields "expected_head") message
  require ((fields.get "timing").getD (.str "preserve-duration") = .str "preserve-duration")
    (.validation "timing must be preserve-duration")
  require ("sha256:".toList.isPrefixOf sourceObjectId.toList = true ∧
      isDigest (withoutScheme sourceObjectId) = true)
    (.validation "source_object_id must be a canonical SHA-256 object id")
  return { occurrenceId, clipId, sourceObjectId, expectedHead }

/-- The only member of a list that has a property. -/
def onlyMember {α : Type} (p : α → Bool) (l : List α) (e : Err) : Except Err α :=
  match l.filter p with
  | [a] => .ok a
  | _ => .error e

/-- What is replaced: the pinned shot revision of the occurrence, and the internal revision that it
pins. -/
structure Target where
  shotId : ShotId
  revisionId : RevisionId
  shot : ShotRevision
  internal : InternalRevision
  deriving DecidableEq, Repr

/-- The occurrence, its revisions and its clip. -/
def replacementTarget (r : Replacement) (occurrences : List Json) : Except Err Target := do
  let occurrence ← onlyMember (fun o => o.get? "occurrence_id" = some (.str r.occurrenceId))
    occurrences (.validation "occurrence_id must identify exactly one parent occurrence")
  let pinned := Err.validation "target occurrence is missing its pinned shot identity"
  let shotId ← orThrow ((occurrence.get? "shot_id").bind asStr) pinned
  let revisionId ← orThrow ((occurrence.get? "shot_revision_id").bind asStr) pinned
  let _ ← onlyMember (fun o => o.get? "shot_revision_id" = some (.str revisionId)) occurrences
    (.validation
      "selected occurrence shares its shot revision; use an occurrence-specific authoring candidate")
  let shot ← orThrow ((s.shotRevisions.lookup revisionId).filter fun row =>
    row.projectId = project && row.shotId = shotId) (.notFound "target shot revision not found")
  let internal ← orThrow ((s.internalRevisions.lookup shot.internalId).filter
    (·.projectId = project)) (.notFound "target internal timeline revision not found")
  let clips ← orThrow ((internal.payload.get? "clips").bind asArr)
    (.validation "target internal timeline clips must be a list")
  let _ ← onlyMember (fun c => c.get? "id" = some (.str r.clipId)) clips
    (.validation "clip_id must identify exactly one internal clip")
  return { shotId, revisionId, shot, internal }

/-- The identities that an asset of the registry has; they are put in a set. -/
def assetIdentities (asset : Fields) : Except Err (List Json) :=
  ["media_id", "object_id", "digest", "content_sha256"].mapM fun name =>
    match field asset name with
    | .arr _ | .obj _ => .error (.keyError "unhashable type")
    | v => .ok v

/-- The key of the first asset that is the source object. -/
def findAsset (r : Replacement) : Fields → Except Err (Option String)
  | [] => .ok none
  | (key, v) :: assets =>
    match v.asObj with
    | none => findAsset r assets
    | some asset => do
      let ids ← assetIdentities asset
      if .str r.sourceObjectId ∈ ids ∨ .str r.sourceDigest ∈ ids then return some key
      else findAsset r assets

/-- The assets of a registry with the source object among them, and its key. -/
def withAsset (r : Replacement) (assets : Fields) : Except Err (String × Fields) := do
  match ← findAsset r assets with
  | some key => return (key, assets)
  | none =>
    let key := "media_" ++ String.ofList (r.sourceDigest.toList.take 24)
    return (key, assets.set key (.obj
      [("content_sha256", .str r.sourceDigest), ("media_id", .str r.sourceObjectId),
       ("origin", .str "runtime-parent-media-replacement"), ("type", .str "image")]))

/-- The clip with another asset. -/
def changeClip (r : Replacement) (asset : String) (clip : Json) : Json :=
  match clip.asObj with
  | some fields =>
    if field fields "id" = .str r.clipId then
      .obj ((["asset", "asset_id", "media_id", "object_id"].foldl Fields.erase fields).set "asset"
        (.str asset))
    else clip
  | none => clip

/-- The payload of the internal timeline with the clip changed. -/
def changeInternal (r : Replacement) (payload : Fields) : Except Err Fields := do
  let registry := ((payload.get "registry").bind asObj).getD []
  let assets := ((registry.get "assets").bind asObj).getD []
  let (key, assets) ← withAsset r assets
  let clips := ((payload.get "clips").bind asArr).getD []
  return (payload.set "registry" (.obj (registry.set "assets" (.obj assets)))).set "clips"
    (.arr (clips.map (changeClip r key)))

/-- The occurrences with the target pinned to another revision. -/
def repinOccurrence (r : Replacement) (revision : RevisionId) (occurrence : Json) : Json :=
  match occurrence.asObj with
  | some fields =>
    if field fields "occurrence_id" = .str r.occurrenceId then
      .obj (fields.set "shot_revision_id" (.str revision))
    else occurrence
  | none => occurrence

/-- The revisions that a replacement makes. -/
structure Changed where
  internal : InternalEntry
  shot : ShotEntry
  parentId : RevisionId
  parent : Fields
  deriving DecidableEq, Repr

/-- The changed payloads and their identities. -/
def changedRevisions (r : Replacement) (t : Target) (internal parent : Fields)
    (occurrences : List Json) : Changed :=
  let internalPayload := obj internal
  let internalId := stableId host "parent-media-internal" (.obj
    [("base_revision", .str t.shot.internalId), ("clip_id", .str r.clipId),
     ("payload", internalPayload), ("project_id", .str project),
     ("source_object_id", .str r.sourceObjectId), ("timeline_id", .str t.internal.timelineId)])
  let shotPayload := obj ((t.shot.payload.asObj.getD []).set "internal_timeline_revision_id"
    (.str internalId))
  let shotRevision := stableId host "parent-media-shot" (.obj
    [("base_revision", .str t.revisionId), ("internal_revision", .str internalId),
     ("payload", shotPayload), ("project_id", .str project), ("shot_id", .str t.shotId)])
  let parentPayload := parent.set "occurrences"
    (.arr (occurrences.map (repinOccurrence r shotRevision)))
  { internal := { revisionId := internalId, timelineId := t.internal.timelineId
                  payload := internalPayload, contentDigest := host.revisionDigest internalPayload }
    shot := { revisionId := shotRevision, shotId := t.shotId, internalId, payload := shotPayload
              contentDigest := host.revisionDigest shotPayload, existing := false }
    parentId := stableId host "parent-media-parent" (.obj
      [("clip_id", .str r.clipId), ("expected_head", .str r.expectedHead),
       ("occurrence_id", .str r.occurrenceId), ("payload", .obj parentPayload),
       ("project_id", .str project), ("source_object_id", .str r.sourceObjectId),
       ("timeline_id", .str timeline)])
    parent := parentPayload }

/-- The manifest of a replacement while it is computed. The two tables are keyed by the identities
of the old composition. -/
structure OldClosure where
  shots : Table ShotKey ShotEntry := .empty
  internal : Table InternalKey InternalEntry := .empty
  media : List String := []

/-- One occurrence of the old composition. -/
def closureOccurrence (t : Target) (c : Changed) (old : OldClosure) (occurrence : Json) :
    Except Err OldClosure :=
  match (occurrence.get? "shot_id").bind asStr,
      (occurrence.get? "shot_revision_id").bind asStr with
  | some shot, some revision =>
    if revision = t.revisionId then
      .ok { old with
        shots := old.shots.upsert (shot, revision) { c.shot with shotId := shot }
        internal := old.internal.upsert (t.internal.timelineId, t.shot.internalId) c.internal }
    else do
      let row ← orThrow ((s.shotRevisions.lookup revision).filter fun row =>
        row.projectId = project && row.shotId = shot)
        (.notFound "parent composition shot dependency is missing")
      let internal ← orThrow ((s.internalRevisions.lookup row.internalId).filter
        (·.projectId = project)) (.notFound "parent composition internal dependency is missing")
      return {
        shots := old.shots.upsert (shot, revision)
          { revisionId := revision, shotId := shot, internalId := row.internalId
            payload := row.payload, contentDigest := row.contentDigest, existing := true }
        internal := old.internal.upsert (internal.timelineId, row.internalId)
          (entryOfInternal row.internalId internal)
        media := old.media ++ collectDigestMedia row.payload ++ collectDigestMedia internal.payload }
  | _, _ => .ok old

/-- The body of the publication that replaces a medium. -/
def replacementBody (r : Replacement) : Except Err Json := do
  require ((s.managedObject project r.sourceDigest).isSome = true)
    (.notFound "managed source object not found in timeline project")
  let head ← s.parentRevisionOf project timeline r.expectedHead
  let parent := head.payload.asObj.getD []
  let occurrences ← orThrow ((head.payload.get? "occurrences").bind asArr)
    (.validation "parent composition occurrences must be a list")
  let t ← s.replacementTarget project r occurrences
  let internal ← changeInternal r (t.internal.payload.asObj.getD [])
  let c := changedRevisions host project timeline r t internal parent occurrences
  let old ← occurrences.foldlM (s.closureOccurrence project t c) {
    media := collectDigestMedia (.obj c.parent) ++ collectDigestMedia c.shot.payload ++
      collectDigestMedia c.internal.payload }
  return .obj [
    ("content_digest", .str (host.revisionDigest (.obj c.parent))),
    ("dependency_manifest", manifestBody (old.shots.entries.map Prod.snd)
      (old.internal.entries.map Prod.snd) (.arr ((sortedSet old.media).map fun m =>
        .obj [("content_digest", .str m), ("media_id", .str m)]))),
    ("expected_head", .str r.expectedHead),
    ("internal_timeline_revisions", .arr [internalBody c.internal]),
    ("parent_composition", .obj c.parent), ("parent_revision_id", .str c.parentId),
    ("project_id", .str project), ("shot_revisions", .arr [shotBody c.shot]),
    ("timeline_id", .str timeline)]

/-- `replace_parent_composition_media`. -/
def replaceParentCompositionMedia (env : Env) (selector : String) (timeline : TimelineId)
    (body : Json) (key : Option String) : Except Err (State × Answer) := do
  let _ ← requireIdempotencyKey key
  let fields ← objectBody body
  let r ← readReplacement fields
  let project ← s.getProject selector
  require (s.timelines.lookup timeline = some project) (.notFound "timeline not found")
  let request := obj
    [("clip_id", .str r.clipId), ("expected_head", .str r.expectedHead),
     ("occurrence_id", .str r.occurrenceId), ("project_id", .str project),
     ("source_object_id", .str r.sourceObjectId), ("timeline_id", .str timeline),
     ("timing", .str "preserve-duration")]
  match ← s.ledger.replay .parentCompositionMediaReplace timeline key request env.now with
  | some data => return (s, { data, receipted := true })
  | none => do
    let publication ← s.replacementBody host project timeline r
    s.publishParentComposition host env project timeline publication key

end State

end WorkspaceRuntime.Project
