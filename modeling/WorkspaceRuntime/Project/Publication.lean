import WorkspaceRuntime.Project.Projection
import WorkspaceRuntime.Project.Text

/-!
# Publication of a composition

`publish_parent_composition` works in three parts. `State.draft` reads the body: the child revisions
that it declares, those that its occurrences link, the occurrences themselves and the media that the
manifest declares. `State.closure` takes the pinned shot revisions in the order in which they come
out of a set, recomputes what the composition depends on and compares it with the manifest.
`State.commit` writes the revisions, moves the heads of the shots and of the timeline, and appends
the event.

An occurrence whose pinned identities are not texts links nothing, since `_normalize_occurrence`
refuses it. A publication that is answered from the ledger is answered with its recorded result; of a
compacted result the source rebuilds the same value or refuses.
-/

namespace WorkspaceRuntime.Project

open Fallible Timeline Json

abbrev InternalKey := TimelineId × RevisionId
abbrev ShotKey := ShotId × RevisionId

def InternalEntry.key (e : InternalEntry) : InternalKey := (e.timelineId, e.revisionId)

def ShotEntry.key (e : ShotEntry) : ShotKey := (e.shotId, e.revisionId)

/-- The committed row is the entry. -/
def InternalRevision.Agrees (row : InternalRevision) (project : ProjectId) (e : InternalEntry) :
    Prop :=
  row.projectId = project ∧ row.timelineId = e.timelineId ∧ row.contentDigest = e.contentDigest ∧
    row.payload = e.payload

instance (row : InternalRevision) (project : ProjectId) (e : InternalEntry) :
    Decidable (row.Agrees project e) :=
  inferInstanceAs (Decidable (_ ∧ _))

/-- The committed row is the entry. -/
def ShotRevision.Agrees (row : ShotRevision) (project : ProjectId) (e : ShotEntry) : Prop :=
  row.projectId = project ∧ row.shotId = e.shotId ∧ row.internalId = e.internalId ∧
    row.contentDigest = e.contentDigest ∧ row.payload = e.payload

instance (row : ShotRevision) (project : ProjectId) (e : ShotEntry) :
    Decidable (row.Agrees project e) :=
  inferInstanceAs (Decidable (_ ∧ _))

/-- The check of a digest that the body supplies. -/
def checkDigest (supplied : Json) (digest : String) (message : String) : Except Err Unit :=
  require (supplied = .null ∨ supplied = .str digest) (.conflict message)

/-- The members of a set in increasing order. -/
def sortedSet (l : List String) : List String := l.eraseDups.insertionSort (· ≤ ·)

/-! ## Reading the body -/

namespace State

variable (s : State) (host : Host) (project : ProjectId) (env : Env) (timeline : TimelineId)
  (now : Time) (shot : ShotId)

/-- The timeline of an internal revision is one of the project, or the one that is published for the
first time. -/
def checkInternalTimeline (key : TimelineId) : Except Err Unit :=
  match s.timelines.lookup key with
  | none => require (key = timeline) (.notFound "internal timeline dependency is missing")
  | some owner =>
    require (owner = project) (.conflict "internal timeline belongs to a different project")

/-- One entry of `internal_timeline_revisions`. -/
def readInternal (entry : Json) : Except Err InternalEntry := do
  let name := "internal timeline revision_id"
  let fields ← orThrow entry.asObj (.validation (name ++ " must be a non-empty revision identity"))
  let id ← revisionId (fieldOr fields "revision_id" "id" .null) name
  let timelineId ← nonEmpty ((fields.get "timeline_id").getD (.str timeline))
    "internal timeline timeline_id is required"
  s.checkInternalTimeline project timeline timelineId
  let payload ← revisionPayload fields
    ["revision_id", "id", "timeline_id", "content_digest", "payload", "content"]
  let payload ← completeInternalTimelinePayload payload
  let contentDigest := host.revisionDigest (.obj payload)
  checkDigest (field fields "content_digest") contentDigest
    "internal timeline content digest mismatch"
  return { revisionId := id, timelineId, payload := .obj payload, contentDigest }

/-- One entry of `shot_revisions`. -/
def readShot (entry : Json) : Except Err ShotEntry := do
  let name := "shot revision_id"
  let fields ← orThrow entry.asObj (.validation (name ++ " must be a non-empty revision identity"))
  let id ← revisionId (fieldOr fields "revision_id" "id" .null) name
  let shotId ← nonEmpty (field fields "shot_id") "shot revision shot_id is required"
  let internalId ← revisionId
    (fieldOr fields "internal_timeline_revision_id" "timeline_revision_id" .null)
    "internal_timeline_revision_id"
  let payload ← revisionPayload fields
    ["revision_id", "id", "shot_id", "internal_timeline_revision_id", "timeline_revision_id",
     "content_digest", "payload", "content"]
  let payload ← completeShotPayload payload internalId
  let contentDigest := host.revisionDigest (.obj payload)
  checkDigest (field fields "content_digest") contentDigest "shot content digest mismatch"
  return { revisionId := id, shotId, internalId, payload := .obj payload, contentDigest
           existing := false }

/-- The entries of `internal_timeline_revisions`; an identity may be repeated with the same bytes. -/
def readInternals (entries : List Json) : Except Err (Table InternalKey InternalEntry) :=
  entries.foldlM (fun internal entry => do
    let e ← s.readInternal host project timeline entry
    require (∀ old ∈ internal.lookup e.key, old.contentDigest = e.contentDigest)
      (.conflict "internal timeline revision identity was reused with different bytes")
    return internal.upsert e.key e) .empty

/-- The entries of `shot_revisions`; an identity may be repeated with the same bytes. -/
def readShots (entries : List Json) : Except Err (Table ShotKey ShotEntry) :=
  entries.foldlM (fun shots entry => do
    let e ← readShot host entry
    require (∀ old ∈ shots.lookup e.key, old.contentDigest = e.contentDigest)
      (.conflict "shot revision identity was reused with different bytes")
    return shots.upsert e.key e) .empty

/-- The entry is new, or it is what is committed under its identity. -/
def checkInternal (e : InternalEntry) : Except Err Unit :=
  match s.internalRevisions.lookup e.revisionId with
  | none => .ok ()
  | some row => do
    require (row.projectId = project ∧ row.timelineId = e.timelineId)
      (.conflict "internal timeline revision has the wrong project or timeline identity")
    require (row.contentDigest = e.contentDigest ∧ row.payload = e.payload)
      (.conflict "internal timeline revision identity was reused with different bytes")

/-- A timeline identity of the project: a timeline, or the scope of a shot. -/
def ownsTimeline (timeline : TimelineId) : Bool :=
  s.timelines.lookup timeline = some project ||
    ("shot:".toList.isPrefixOf timeline.toList && timeline.toList.length ≠ 5 &&
      (s.shots.lookup (String.ofList (timeline.toList.drop 5))).any (·.projectId = project))

/-- A committed internal revision, as an entry. -/
def entryOfInternal (id : RevisionId) (row : InternalRevision) : InternalEntry :=
  { revisionId := id, timelineId := row.timelineId, payload := row.payload
    contentDigest := row.contentDigest }

/-- The internal revision that a declared shot revision pins, when the body does not declare it. -/
def linkDeclared (internal : Table InternalKey InternalEntry) (e : ShotEntry) :
    Except Err (Table InternalKey InternalEntry) := do
  require (∀ row ∈ s.shots.lookup e.shotId, row.projectId = project)
    (.conflict "shot belongs to a different project")
  if internal.entries.any (fun i => i.2.revisionId = e.internalId) then return internal
  else do
    let row ← orThrow (s.internalRevisions.lookup e.internalId)
      (.notFound "shot revision internal timeline dependency is missing")
    require (row.projectId = project)
      (.conflict "internal timeline revision belongs to a different project")
    require (s.ownsTimeline project row.timelineId = true)
      (.conflict "internal timeline revision has the wrong project or timeline identity")
    require (host.revisionDigest row.payload = row.contentDigest)
      (.conflict "internal timeline revision bytes failed immutable verification")
    return internal.upsert (row.timelineId, e.internalId) (entryOfInternal e.internalId row)

/-- The entries of the child revisions. -/
structure Children where
  shots : Table ShotKey ShotEntry
  internal : Table InternalKey InternalEntry

/-- A committed shot revision that an occurrence links, and the internal revision it pins. -/
def linkCommitted (children : Children) (shot : ShotId) (revision : RevisionId) (row : ShotRevision) :
    Except Err Children := do
  require (row.projectId = project)
    (.conflict "occurrence shot revision belongs to a different project")
  require (host.revisionDigest row.payload = row.contentDigest)
    (.conflict "occurrence shot revision bytes failed immutable verification")
  require ((s.shots.lookup shot).any (·.projectId = project))
    (.conflict "occurrence shot revision has the wrong project or shot identity")
  require (row.payload.get? "internal_timeline_revision_id" = some (.str row.internalId))
    (.conflict "occurrence shot revision internal timeline identity is corrupt")
  let internal ← orThrow (s.internalRevisions.lookup row.internalId)
    (.notFound "shot revision internal timeline dependency is missing")
  require (internal.projectId = project)
    (.conflict "internal timeline revision belongs to a different project")
  require (host.revisionDigest internal.payload = internal.contentDigest)
    (.conflict "internal timeline revision bytes failed immutable verification")
  return {
    shots := children.shots.upsert (shot, revision)
      { revisionId := revision, shotId := shot, internalId := row.internalId, payload := row.payload
        contentDigest := row.contentDigest, existing := true }
    internal := children.internal.upsert (internal.timelineId, row.internalId)
      (entryOfInternal row.internalId internal) }

/-- What an occurrence links, when the body does not declare it. -/
def linkOccurrence (children : Children) (occurrence : Json) : Except Err Children :=
  match (occurrence.get? "shot_id").bind asStr,
      (occurrence.get? "shot_revision_id").bind asStr with
  | some shot, some revision =>
    if (children.shots.lookup (shot, revision)).isSome then .ok children
    else
      match (s.shotRevisions.lookup revision).filter (·.shotId = shot) with
      | some row => s.linkCommitted host project children shot revision row
      | none => .ok children
  | _, _ => .ok children

/-- The child revisions that a body declares or links. -/
def readChildren (fields : Fields) : Except Err (Children × Fields × List Json) := do
  let lists := Err.validation "internal_timeline_revisions and shot_revisions must be lists"
  let rawInternal ← orThrow
    (fieldOr fields "internal_timeline_revisions" "timelines" (.arr [])).asArr lists
  let rawShots ← orThrow (fieldOr fields "shot_revisions" "shots" (.arr [])).asArr lists
  let internal ← s.readInternals host project timeline rawInternal
  let shots ← readShots host rawShots
  internal.entries.forM fun e => s.checkInternal project e.2
  let internal ← (shots.entries.map Prod.snd).foldlM (s.linkDeclared host project) internal
  let source := (fields.get "parent_composition").getD (fieldOr fields "parent" "composition" .null)
  require (source ≠ .null) (.validation "parent_composition is required")
  let (parent, occurrences) ← completeParentPayload source
  let children ← occurrences.foldlM (s.linkOccurrence host project) ⟨shots, internal⟩
  return (children, parent, occurrences)

/-! ## Media -/

/-- `cas.read`. -/
def casRead (digest : Digest) : Except Err (List UInt8) :=
  match s.files.lookup digest with
  | some (.regular data) => do
    require (host.sha256 data = digest) (.conflict "CAS object failed hash verification")
    return data
  | some .other => .error (.conflict "CAS object must be a regular file")
  | none => .error (.notFound "object not found")

/-- The fields of a member of a list of media. -/
def mediaFields : Json → Except Err Fields
  | .str text => .ok [("media_id", .str text)]
  | .obj fields => .ok fields
  | _ => .error (.validation "media dependencies must be objects")

/-- One round of `_validate_media_dependencies`: the object of a member, by its digest with its
scheme. -/
def mediaDependency (item : Json) : Except Err String := do
  let fields ← mediaFields item
  let id ← orThrow ((fields.get "media_id").getD (fieldOr fields "object_id" "digest" .null)).asStr
    (.validation "media dependency requires media_id")
  let bare := withoutScheme id
  require (isDigest bare = true) (.validation "media dependency identity must be a SHA-256 digest")
  let missing := Err.notFound "media dependency is missing or not owned by project"
  let object ← orThrow (s.objects.lookup bare) missing
  require (∃ e ∈ s.projectObjects, e.1 = project ∧ e.2.1 = bare) missing
  let data ← s.casRead host bare
  require (data.length = object.size) (.conflict "media dependency bytes do not match identity")
  require (field fields "size" = .null ∨ field fields "size" = .int object.size)
    (.conflict "media dependency size mismatch")
  let supplied := (fields.get "content_digest").getD (.str ("sha256:" ++ bare))
  require (supplied = .str ("sha256:" ++ bare)) (.conflict "media dependency content digest mismatch")
  return "sha256:" ++ bare

/-- `_validate_media_dependencies`. -/
def validateMediaDependencies (items : List Json) : Except Err (List String) := do
  let media ← items.mapM (s.mediaDependency host project)
  return media.eraseDups

/-! ## Text bindings -/

/-- What the checks of the text bindings of a payload remember. -/
structure SeenTexts where
  ids : List BindingId := []
  slots : List (String × Option String) := []
  scripts : List String := []

/-- The descriptor of a pinned text against the event it pins and the object of the event. -/
def checkPinnedText (descriptor : Fields) (row : TextBinding) (event : TextBindingEvent) :
    Except Err String := do
  let provenance := Err.conflict "pinned shot text binding event has invalid content provenance"
  let mediaId ← orThrow ((event.payload.get? "media_id").bind asStr) provenance
  require ("sha256:".toList.isPrefixOf mediaId.toList = true ∧
      event.payload.get? "content_hash" = some (.str mediaId)) provenance
  require (field descriptor "media_id" = .str mediaId ∧ field descriptor "content_hash" = .str mediaId)
    (.conflict "shot text binding descriptor does not match its pinned event")
  let (digest, media) ← s.verifyTextObject host project mediaId false
  require ((field descriptor "byte_size").Equals host.numerals (.int media.size))
    (.conflict "shot text binding byte_size does not match its pinned media")
  require (field descriptor "mime_type" = .str media.mediaType)
    (.conflict "shot text binding mime_type does not match its pinned media")
  require (∀ v ∈ descriptor.get "created_at", v = .str (host.stamp row.createdAt))
    (.conflict "shot text binding created_at does not match its registered identity")
  require (∀ v ∈ descriptor.get "updated_at", v = .str (host.stamp event.createdAt))
    (.conflict "shot text binding updated_at does not match its pinned event")
  let data ← s.casRead host digest
  let text ← orThrow (host.decode data)
    (.conflict "pinned shot text binding bytes are not valid UTF-8")
  require (∀ v ∈ descriptor.get "text", v = .str text)
    (.conflict "embedded text does not match its registered shot text binding")
  return text

/-- One text binding of a payload, which must pin the current head. -/
def checkPublishedText (seen : SeenTexts) (v : Json) : Except Err SeenTexts := do
  let descriptor ← orThrow v.asObj (.validation "shot text binding must be an object")
  let id ← nonEmpty (field descriptor "binding_id")
    "embedded shot text is not authoritative; register it with the shot text binding service, then publish its binding_id and head"
  require (id ∉ seen.ids) (.validation "shot text_bindings contain a duplicate binding_id")
  let row ← orThrow ((s.textBindings.lookup id).filter (·.projectId = project))
    (.conflict "shot text binding is not registered in this project; register it before publishing")
  require (row.shotId = shot) (.conflict "shot text binding belongs to a different shot")
  require (isPositiveInt (field descriptor "head") = true)
    (.validation "shot text binding descriptor requires its positive pinned head")
  require (field descriptor "head" = .int row.headSeq)
    (.conflict "shot text binding head is stale; read the current binding and republish the shot")
  let resource ← s.textBindingResource host id row
  require (∀ name ∈ ["project_id", "shot_id", "kind", "slot", "event_stream_id"],
      ∀ v ∈ descriptor.get name, resource.get? name = some v)
    (.conflict "shot text binding descriptor identity does not match its registered binding")
  require ((row.kind, row.slot) ∉ seen.slots)
    (.validation "shot text_bindings contain duplicate kind/slot descriptors")
  let event ← orThrow (s.textBindingEvents.lookup (id, row.headSeq))
    (.conflict "pinned shot text binding event is missing")
  let text ← s.checkPinnedText host project descriptor row event
  return { ids := id :: seen.ids, slots := (row.kind, row.slot) :: seen.slots
           scripts := if row.kind = "voiceover_script" then text :: seen.scripts else seen.scripts }

/-- `_validate_published_text_bindings`, for a revision that is to pin the current heads. -/
def validatePublishedTextBindings (payload : Json) : Except Err Unit := do
  let bindings ← orThrow ((payload.get? "text_bindings").getD (.arr [])).asArr
    (.validation "shot text_bindings must be a list")
  let seen ← bindings.foldlM (s.checkPublishedText host project shot) {}
  match (payload.get? "metadata").bind (·.get? "voiceover_script") with
  | none => .ok ()
  | some script => do
    require (seen.scripts ≠ []) (.validation
      "metadata.voiceover_script has no registered voiceover_script binding; register the script and publish its text binding descriptor")
    require (∃ text ∈ seen.scripts, script = .str text)
      (.conflict "metadata.voiceover_script does not match the registered voiceover_script binding")

/-! ## The draft -/

/-- What a body says, before the pinned revisions are resolved. -/
structure Draft where
  children : Children
  parentId : RevisionId
  /-- The parent payload, with its occurrences in their canonical spelling. -/
  parent : Json
  parentDigest : String
  occurrences : List NormalOccurrence
  /-- `dependency_manifest`. -/
  source : Fields
  /-- The media that the manifest declares. -/
  media : List String

/-- The pinned revisions: a set. -/
def Draft.keys (d : Draft) : List ShotKey := (d.occurrences.map NormalOccurrence.key).eraseDups

/-- `dependency_manifest` of a body. -/
def manifestSource (fields : Fields) : Except Err Fields := do
  let v := match fieldOr fields "dependency_manifest" "dependencies" (.obj []) with
    | .arr media => obj [("media", .arr media)]
    | v => v
  let source ← orThrow v.asObj (.validation "dependency_manifest must be an object")
  require (∀ f ∈ source, f.1 ∈ ["media", "shots", "internal_timelines", "timelines"])
    (.validation "dependency_manifest contains unsupported fields")
  ["shots", "internal_timelines", "timelines"].forM fun name =>
    require (∀ v ∈ source.get name, v.asArr.isSome = true)
      (.validation ("dependency_manifest." ++ name ++ " must be a list"))
  let listOf : String → List Json := fun name => ((source.get name).bind asArr).getD []
  require (∀ item ∈ listOf "timelines" ++ listOf "internal_timelines",
      item.get? "parent_revision_id" = none ∧ item.get? "composition_revision_id" = none)
    (.validation "nested composition dependencies are not supported")
  return source

/-- The part of `publish_parent_composition` that reads the body. -/
def draft (project : ProjectId) (timeline : TimelineId) (fields : Fields) : Except Err Draft := do
  let (children, parent, raw) ← s.readChildren host project timeline fields
  let occurrences ← raw.mapM (normalizeOccurrence host.numerals
    fun key => (children.shots.lookup key).isSome)
  require (occurrences.map NormalOccurrence.occurrenceId).Nodup
    (.validation "occurrence_id values must be unique")
  let parent := obj (parent.set "occurrences" (.arr (occurrences.map fun o => .obj o.fields)))
  let parentId ← revisionId (fieldOr fields "parent_revision_id" "revision_id" (.str (env.newId 0)))
    "parent_revision_id"
  let parentDigest := host.revisionDigest parent
  checkDigest (field fields "content_digest") parentDigest
    "parent composition content digest mismatch"
  let source ← manifestSource fields
  let declared ← orThrow ((source.get "media").getD (.arr [])).asArr
    (.validation "dependency_manifest.media must be a list")
  let media ← s.validateMediaDependencies host project declared
  return { children, parentId, parent, parentDigest, occurrences, source, media }

/-! ## The closure -/

/-- `dependency_manifest` of an event. -/
structure Manifest where
  /-- Shot, revision, internal revision and digest. -/
  shots : List (ShotId × RevisionId × RevisionId × String)
  /-- Timeline, revision and digest. -/
  internalTimelines : List (TimelineId × RevisionId × String)
  media : List String
  deriving DecidableEq, Repr

/-- A manifest as an event and a receipt hold it. -/
def Manifest.json (m : Manifest) : Json :=
  .obj [
    ("internal_timelines", .arr (m.internalTimelines.map fun e =>
      .obj [("content_digest", .str e.2.2), ("revision_id", .str e.2.1),
        ("timeline_id", .str e.1)])),
    ("media", .arr (m.media.map fun d => .obj [("content_digest", .str d), ("media_id", .str d)])),
    ("shots", .arr (m.shots.map fun e =>
      .obj [("content_digest", .str e.2.2.2), ("internal_timeline_revision_id", .str e.2.2.1),
        ("revision_id", .str e.2.1), ("shot_id", .str e.1)]))]

/-- The pinned revisions and what they depend on. -/
structure Closure where
  /-- `resolved_shots`, in the order of the set. -/
  shots : List ShotEntry
  internal : Table InternalKey InternalEntry
  manifest : Manifest
  report : Json

/-- The entry of an internal revision, by its id. -/
def findInternal (internal : Table InternalKey InternalEntry) (id : RevisionId) :
    Option InternalEntry :=
  (internal.entries.find? fun e => e.2.revisionId = id).map Prod.snd

/-- `resolved_internal`. -/
def resolveInternal (internal : Table InternalKey InternalEntry) (shots : List ShotEntry) :
    Except Err (Table InternalKey InternalEntry) :=
  shots.foldlM (fun resolved e => do
    let found ← orThrow (findInternal internal e.internalId)
      (.notFound "shot revision internal timeline dependency is missing")
    return resolved.upsert found.key found) .empty

/-- A pinned revision is committed with the same bytes, or it is new and pins the current texts. -/
def checkPinned (e : ShotEntry) : Except Err ShotEntry :=
  match s.shotRevisions.lookup e.revisionId with
  | some row => do
    require (row.Agrees project e)
      (.conflict "shot revision identity was reused with different bytes")
    return { e with existing := true }
  | none =>
    if e.existing then .ok e
    else do
      s.validatePublishedTextBindings host project e.shotId e.payload
      return e

/-- The media of the payloads beside those that the manifest declares. -/
def completeMedia (declared : List String) (named : List String) : Except Err (List String) :=
  (sortedSet named).foldlM (fun media digest =>
    if digest ∈ media then .ok media
    else do
      let more ← s.validateMediaDependencies host project [.str digest]
      return media ++ more) declared

/-- Two lists have the same members. -/
def SameMembers {α : Type} (l l' : List α) : Prop := (∀ a ∈ l, a ∈ l') ∧ ∀ a ∈ l', a ∈ l

instance {α : Type} [DecidableEq α] (l l' : List α) : Decidable (SameMembers l l') :=
  inferInstanceAs (Decidable (_ ∧ _))

/-- The shots that a manifest supplies. -/
def suppliedShots (items : List Json) : List (List Json) :=
  (items.filterMap asObj).map fun fields =>
    [field fields "shot_id", fieldOr fields "revision_id" "shot_revision_id" .null,
     field fields "internal_timeline_revision_id", field fields "content_digest"]

/-- The internal timelines that a manifest supplies. -/
def suppliedTimelines (items : List Json) : List (List Json) :=
  (items.filterMap asObj).map fun fields =>
    [field fields "timeline_id", fieldOr fields "revision_id" "timeline_revision_id" .null,
     field fields "content_digest"]

/-- The media that a manifest supplies. -/
def suppliedMedia (items : List Json) : List String :=
  items.filterMap fun
    | .str text =>
      some (if "sha256:".toList.isPrefixOf text.toList then text else "sha256:" ++ text)
    | .obj fields => (field fields "content_digest").asStr
    | _ => none

/-- A manifest that the body supplies is the closure. -/
def checkManifest (source : Fields) (shots : List ShotEntry)
    (internal : Table InternalKey InternalEntry) (media : List String) : Except Err Unit := do
  require (∀ items ∈ (source.get "shots").bind asArr, SameMembers (suppliedShots items)
      (shots.map fun e => [str e.shotId, .str e.revisionId, .str e.internalId,
        .str e.contentDigest]))
    (.conflict "dependency manifest does not match the complete shot closure")
  require (∀ items ∈ (source.get "internal_timelines").bind asArr,
      SameMembers (suppliedTimelines items) (internal.entries.map fun e =>
        [str e.2.timelineId, .str e.2.revisionId, .str e.2.contentDigest]))
    (.conflict "dependency manifest does not match the complete internal timeline closure")
  require (∀ items ∈ (source.get "media").bind asArr, SameMembers (suppliedMedia items) media)
    (.conflict "dependency manifest does not match the complete media closure")

/-- The order of a manifest: by the first identity, then by the revision. -/
def keyOrder (k k' : String × String) : Prop := k.1 < k'.1 ∨ k.1 = k'.1 ∧ k.2 ≤ k'.2

instance : DecidableRel keyOrder := fun _ _ => inferInstanceAs (Decidable (_ ∨ _))

/-- The manifest of the resolved revisions. -/
def manifestOf (shots : List ShotEntry) (internal : Table InternalKey InternalEntry)
    (media : List String) : Manifest where
  shots := (shots.insertionSort fun e e' => keyOrder e.key e'.key).map fun e =>
    (e.shotId, e.revisionId, e.internalId, e.contentDigest)
  internalTimelines := ((internal.entries.map Prod.snd).insertionSort
    fun e e' => keyOrder e.key e'.key).map fun e => (e.timelineId, e.revisionId, e.contentDigest)
  media := media.insertionSort (· ≤ ·)

/-- The part of `publish_parent_composition` that resolves the pinned revisions, for one order of
them. -/
def closure (d : Draft) (keys : List ShotKey) : Except Err Closure := do
  let shots ← keys.mapM fun key => orThrow (d.children.shots.lookup key) (.keyError "shots")
  let internal ← resolveInternal d.children.internal shots
  let shots ← shots.mapM (s.checkPinned host project)
  let named := collectDigestMedia d.parent ++ shots.flatMap (fun e => collectDigestMedia e.payload) ++
    internal.entries.flatMap fun e => collectDigestMedia e.2.payload
  let media ← s.completeMedia host project d.media named
  checkManifest d.source shots internal media
  require (∀ item ∈ ((d.source.get "timelines").bind asArr).getD [],
      ∀ kind ∈ item.get? "dependency_kind",
        kind ∉ [str "composition", .str "parent_composition", .str "nested"])
    (.validation "one-level composition cannot depend on another composition")
  let report ← host.seamReport d.parent (fun key => shots.find? fun e => e.key = key)
    (fun id => findInternal internal id) timeline
  return { shots, internal, manifest := manifestOf shots internal media, report }

/-! ## The commit -/

/-- An internal revision is inserted, or it is what is committed under its identity. -/
def insertInternal (e : InternalEntry) : Except Err State :=
  match s.internalRevisions.lookup e.revisionId with
  | some row => do
    require (row.Agrees project e)
      (.conflict "internal timeline revision identity was reused with different bytes")
    return s
  | none => do
    let payload ← jsonColumn host.numerals e.payload
    let internalRevisions ← orThrow (s.internalRevisions.insertNew e.revisionId
      { projectId := project, timelineId := e.timelineId, payload, contentDigest := e.contentDigest })
      (.integrity "internal_timeline_revisions")
    return { s with internalRevisions }

/-- A shot revision that is new is projected and inserted. -/
def insertShotRevision (e : ShotEntry) (now : Time) : Except Err State := do
  let s ← s.applyPublishedShotProjection host project e.shotId e.payload now
  let payload ← jsonColumn host.numerals e.payload
  let shotRevisions ← orThrow (s.shotRevisions.insertNew e.revisionId
    { projectId := project, shotId := e.shotId, internalId := e.internalId, payload
      contentDigest := e.contentDigest }) (.integrity "shot_revisions")
  return { s with shotRevisions }

/-- One round of the loop over the resolved shots: the state, and the entry with its mark. -/
def insertShot (e : ShotEntry) : Except Err (State × ShotEntry) := do
  validatePublishedShotPayload e.payload
  if e.existing then return (s, e)
  else do
    let internal ← orThrow (s.internalRevisions.lookup e.internalId)
      (.notFound "shot revision internal timeline dependency is missing")
    require (internal.projectId = project)
      (.conflict "internal timeline revision belongs to a different project")
    match s.shotRevisions.lookup e.revisionId with
    | some row => do
      require (row.Agrees project e)
        (.conflict "shot revision identity was reused with different bytes")
      return (s, { e with existing := true })
    | none => do
      let s ← s.insertShotRevision host project e now
      return (s, e)

/-- The loop over the resolved shots. -/
def insertShots (shots : List ShotEntry) : Except Err (State × List ShotEntry) :=
  shots.foldlM (fun done e => do
    let (s, e) ← done.1.insertShot host project now e
    return (s, done.2 ++ [e])) (s, [])

/-- The row of an occurrence. -/
def occurrenceRow (ordinal : Nat) (o : NormalOccurrence) : Except Err Occurrence := do
  require (FitsColumn o.durationMs ∧ (o.gain.bindInteger host.numerals).isSome)
    (.keyError "Python int too large to convert to SQLite INTEGER")
  require (∀ v ∈ [o.placement, o.sourceOffset, o.speed, o.transform, o.provenance],
      v.hasText host.numerals = true) (.integrity "composition_revision_occurrences")
  return { ordinal, projectId := project, shotId := o.shotId, shotRevisionId := o.shotRevisionId
           placement := o.placement, sourceOffset := o.sourceOffset, durationMs := o.durationMs
           speed := o.speed, track := o.track, transform := o.transform
           gain := host.numerals.columnReal o.gain, muted := o.muted, provenance := o.provenance }

/-- The rows of the occurrences of a parent revision. -/
def insertOccurrences (parent : RevisionId) (occurrences : List NormalOccurrence) :
    Except Err State :=
  occurrences.zipIdx.foldlM (fun s o => do
    let row ← occurrenceRow host project o.2 o.1
    let occurrences ← orThrow (s.occurrences.insertNew (parent, o.1.occurrenceId) row)
      (.integrity "composition_revision_occurrences")
    return { s with occurrences }) s

/-- The dependencies of a manifest, in its order: kind, id and digest. -/
def Manifest.dependencies (m : Manifest) : List (DependencyKind × String × String) :=
  m.shots.map (fun e => (.shotRevision, e.2.1, e.2.2.2)) ++
    m.internalTimelines.map (fun e => (.internalTimelineRevision, e.2.1, e.2.2)) ++
    m.media.map fun d => (.media, d, d)

/-- The rows of the dependencies of a parent revision. -/
def insertDependencies (parent : RevisionId) (m : Manifest) : Except Err State :=
  m.dependencies.zipIdx.foldlM (fun s d => do
    let dependencies ← orThrow (s.dependencies.insertNew (parent, d.1.1, d.1.2.1, d.2) d.1.2.2)
      (.integrity "composition_revision_dependencies")
    return { s with dependencies }) s

/-- The parent revision is inserted with its rows, or it is what is committed under its identity. -/
def insertParent (d : Draft) (m : Manifest) : Except Err State :=
  match s.parentRevisions.lookup d.parentId with
  | some row => do
    require (row.projectId = project ∧ row.timelineId = timeline ∧
        row.contentDigest = d.parentDigest ∧ row.payload = d.parent)
      (.conflict "parent composition revision identity was reused with different bytes")
    return s
  | none => do
    let payload ← jsonColumn host.numerals d.parent
    let parentRevisions ← orThrow (s.parentRevisions.insertNew d.parentId
      { projectId := project, timelineId := timeline, payload, contentDigest := d.parentDigest })
      (.integrity "parent_composition_revisions")
    let s ← { s with parentRevisions }.insertOccurrences host project d.parentId d.occurrences
    s.insertDependencies d.parentId m

/-- A committed revision that becomes the first head of its shot is projected. -/
def projectFirstHead (e : ShotEntry) : Except Err State :=
  if e.existing then s.applyPublishedShotProjection host project e.shotId e.payload now else .ok s

/-- One round of the loop over the heads of the shots. A revision that was committed before does not
move a head; the head that is there is verified. -/
def moveShotHead (e : ShotEntry) : Except Err State :=
  match s.shotHeads.lookup e.shotId with
  | none => do
    let s ← s.projectFirstHead host project now e
    let shotHeads ← orThrow (s.shotHeads.insertNew e.shotId
      { projectId := project, revisionId := e.revisionId }) (.integrity "shot_revision_heads")
    return { s with shotHeads }
  | some head => do
    require (head.projectId = project)
      (.conflict "shot revision head belongs to a different project")
    if head.revisionId = e.revisionId ∨ e.existing = true then do
      s.verifyShotHeadProjection host project e.shotId head.revisionId
      return s
    else
      return { s with shotHeads := s.shotHeads.modify e.shotId fun head =>
        { head with revisionId := e.revisionId } }

/-- The head of a timeline, as its project sees it. -/
def parentHead (timeline : TimelineId) : Option RevisionId :=
  ((s.parentHeads.lookup timeline).filter (·.projectId = project)).bind ParentHead.revisionId

/-- The compare-and-set of the head of a timeline. -/
def moveParentHead (expected : Option RevisionId) (new : RevisionId) : Except Err State := do
  let heads := s.parentHeads.insertIgnore timeline { projectId := project, revisionId := none }
  require (heads.lookup timeline = some { projectId := project, revisionId := expected })
    (.conflict "parent composition head is stale")
  let head : ParentHead := { projectId := project, revisionId := some new }
  return { s with parentHeads := heads.upsert timeline head }

/-- `_append_timeline_event`. -/
def appendTimelineEvent (kind : String) (payload : Json) (now : Time) : State :=
  let previous := (((s.timelineEvents.filter (·.timelineId = timeline)).getLast?).map
    TimelineEvent.eventHash).getD ""
  let event : TimelineEvent :=
    { timelineId := timeline, kind, payload, previousHash := previous
      eventHash := host.digest (.obj
        [("created_at", .str (host.stamp now)), ("kind", .str kind), ("payload", payload),
         ("previous_hash", .str previous), ("timeline_id", .str timeline)])
      createdAt := now }
  { s with timelineEvents := s.timelineEvents ++ [event] }

/-- A revision id, or null. -/
def idOrNull (id : Option RevisionId) : Json := id.elim .null .str

/-- The payload of a publication event. -/
def publicationEvent (d : Draft) (m : Manifest) (expected : Option RevisionId) : Json :=
  .obj [("content_digest", .str d.parentDigest), ("dependency_manifest", m.json),
    ("new_head", .str d.parentId), ("old_head", idOrNull expected), ("project_id", .str project),
    ("timeline_id", .str timeline)]

/-- The part of `publish_parent_composition` that writes. -/
def commit (d : Draft) (c : Closure) (expected : Option RevisionId) (now : Time) :
    Except Err State := do
  let s := { s with timelines := s.timelines.insertIgnore timeline project }
  let s ← (c.internal.entries.map Prod.snd).foldlM (fun s e => s.insertInternal host project e) s
  let (s, shots) ← s.insertShots host project now c.shots
  let s ← s.insertParent host project timeline d c.manifest
  let s ← shots.foldlM (fun s e => s.moveShotHead host project now e) s
  let s ← s.moveParentHead project timeline expected d.parentId
  return s.appendTimelineEvent host timeline "parent.composition.published"
    (publicationEvent project timeline d c.manifest expected) now

/-! ## The command -/

/-- What a publication answers. -/
def publicationResult (s : State) (project : ProjectId) (timeline : TimelineId) (d : Draft)
    (c : Closure) (expected : Option RevisionId) (now : Time) : Json :=
  let digests : Fields := [("parent", .str d.parentDigest)]
  let digests := c.manifest.shots.foldl (fun fs e => fs.set e.2.1 (.str e.2.2.2)) digests
  let digests := c.manifest.internalTimelines.foldl (fun fs e => fs.set e.2.1 (.str e.2.2)) digests
  let digests := c.manifest.media.foldl (fun fs m => fs.set m (.str m)) digests
  .obj [("content_digest", .str d.parentDigest), ("content_digests", .obj digests),
    ("created_at", .str (host.stamp now)), ("dependency_manifest", c.manifest.json),
    ("event_id", .str (toString s.timelineEvents.length)), ("new_head", .str d.parentId),
    ("old_head", idOrNull expected), ("parent_revision_id", .str d.parentId), ("payload", d.parent),
    ("project_id", .str project), ("revision_id", .str d.parentId), ("timeline_id", .str timeline),
    ("visual_seam_report", c.report)]

/-- `expected_head` of a body. -/
def expectedParentHead (fields : Fields) : Except Err (Option RevisionId) :=
  match fieldOr fields "expected_head" "expected_head_revision_id" .null with
  | .null => .ok none
  | v => (revisionId v "expected_head").map some

/-- A publication that the ledger does not answer. -/
def publishNew (project : ProjectId) (timeline : TimelineId) (fields : Fields) (key : Option String)
    (request : Json) : Except Err (State × Answer) := do
  let expected ← expectedParentHead fields
  require (∀ owner ∈ s.timelines.lookup timeline, owner = project)
    (.conflict "timeline belongs to a different project")
  require (s.parentHead project timeline = expected) (.conflict "parent composition head is stale")
  let d ← s.draft host env project timeline fields
  let c ← s.closure host project timeline d (env.order.arrange d.keys)
  let s ← s.commit host project timeline d c expected env.now
  let data := publicationResult host s project timeline d c expected env.now
  let ledger ← s.ledger.record .parentCompositionPublish timeline key request data env.now
  return ({ s with ledger }, { data, receipted := true })

/-- `publish_parent_composition`. -/
def publishParentComposition (selector : String) (timeline : TimelineId) (body : Json)
    (key : Option String) : Except Err (State × Answer) := do
  let k ← requireIdempotencyKey key
  let fields ← objectBody body
  let project ← s.getProject selector
  require ((fields.get "project_id").isSome ∧ (fields.get "timeline_id").isSome ∧
      ((fields.get "expected_head").isSome ∨ (fields.get "expected_head_revision_id").isSome))
    (.validation "publication requires project_id, timeline_id, and expected_head")
  require (field fields "project_id" = .str project ∧ field fields "timeline_id" = .str timeline)
    (.conflict "publication identity does not match route scope")
  let request := obj
    [("body", body), ("project_id", .str project), ("timeline_id", .str timeline)]
  let prior := s.ledger.entries.find? fun e => e.1.1 = .parentCompositionPublish && e.1.2.2 = k
  require (∀ row ∈ prior, row.1.2.1 = timeline)
    (.conflict "idempotency key was already used with different input")
  -- the answer of a publication is rebuilt whatever its age
  match s.ledger.lookup (.parentCompositionPublish, timeline, k) with
  | some row => do
    require (row.request = request)
      (.conflict "idempotency key was already used with different input")
    return (s, { data := row.result, receipted := true })
  | none => s.publishNew host env project timeline fields key request

/-- A publication is answered from the ledger, or it commits the closure of its draft. -/
theorem publishParentComposition_eq_ok {s s' : State} {host : Host} {env : Env} {selector : String}
    {timeline : TimelineId} {body : Json} {key : Option String} {answer : Answer}
    (h : s.publishParentComposition host env selector timeline body key = .ok (s', answer)) :
    s' = s ∨ ∃ fields project d c expected s₁ ledger, body = .obj fields ∧
      expectedParentHead fields = .ok expected ∧ s.draft host env project timeline fields = .ok d ∧
      s.closure host project timeline d (env.order.arrange d.keys) = .ok c ∧
      s.commit host project timeline d c expected env.now = .ok s₁ ∧ s' = { s₁ with ledger } := by
  simp only [publishParentComposition, bind_eq_ok] at h
  obtain ⟨k, -, fields, hfields, project, -, -, -, -, -, -, -, h⟩ := h
  split at h
  next =>
    simp only [bind_eq_ok, return_ok, Prod.mk.injEq] at h
    obtain ⟨-, -, rfl, -⟩ := h
    exact .inl rfl
  next =>
    simp only [publishNew, bind_eq_ok, return_ok, Prod.mk.injEq] at h
    obtain ⟨expected, hexpected, -, -, -, -, d, hd, c, hc, s₁, hcommit, ledger, -, rfl, -⟩ := h
    exact .inr ⟨fields, project, d, c, expected, s₁, ledger, objectBody_eq_ok hfields, hexpected, hd,
      hc, hcommit, rfl⟩

end State

end WorkspaceRuntime.Project
