import WorkspaceRuntime.Project.Publication

/-!
# The revision section of the integrity report

`_integrity_report` reads the revision tables again, without the code that wrote them. An issue has
the identity it is about and a reason. Every event and every receipt of a publication is evidence of
it; a parent revision with evidence must have it complete.

The events that one row of the ledger names are the one event of its result.
-/

namespace WorkspaceRuntime.Project

open Json

/-- An entry of `revision_errors`. -/
structure Issue where
  identity : String
  reason : String
  deriving DecidableEq, Repr

/-- An issue when something is wrong. -/
def issueIf (wrong : Bool) (identity reason : String) : List Issue :=
  if wrong then [⟨identity, reason⟩] else []

namespace State

/-! ## Revisions -/

variable (s : State) (host : Host)

/-- `revision_payload`. -/
def payloadIssues (id : RevisionId) (payload : Json) (digest : String) : List Issue :=
  issueIf (host.revisionDigest payload ≠ digest) id "content_digest_mismatch"

/-- The checks of a row of `internal_timeline_revisions`. -/
def internalIssues (id : RevisionId) (row : InternalRevision) : List Issue :=
  payloadIssues host id row.payload row.contentDigest ++
    issueIf ((s.projects.lookup row.projectId).isNone || !s.ownsTimeline row.projectId row.timelineId)
      id "project_timeline_identity"

/-- The checks of a row of `shot_revisions`. -/
def shotIssues (id : RevisionId) (row : ShotRevision) : List Issue :=
  payloadIssues host id row.payload row.contentDigest ++
    issueIf (!((s.projects.lookup row.projectId).isSome &&
        (s.shots.lookup row.shotId).any (·.projectId = row.projectId) &&
        (s.internalRevisions.lookup row.internalId).any (·.projectId = row.projectId)))
      id "shot_internal_project_closure" ++
    issueIf (row.payload.asObj.any
        fun fields => field fields "internal_timeline_revision_id" ≠ .str row.internalId)
      id "declared_internal_timeline_revision_mismatch"

/-- The checks of a row of `parent_composition_revisions`, besides what hangs on it. -/
def parentIssues (id : RevisionId) (row : ParentRevision) : List Issue :=
  payloadIssues host id row.payload row.contentDigest ++
    issueIf ((s.projects.lookup row.projectId).isNone ||
        s.timelines.lookup row.timelineId ≠ some row.projectId)
      id "project_timeline_identity"

/-! ## Occurrences -/

/-- The occurrences of a parent payload, with their places. -/
def expectedSequence (payload : Json) : List (Nat × Fields) :=
  (((payload.get? "occurrences").bind asArr).getD []).zipIdx.filterMap
    fun o => o.1.asObj.map fun fields => (o.2, fields)

/-- The rows of the occurrences of a parent revision, in their order. -/
def storedOccurrences (parent : RevisionId) : List (String × Occurrence) :=
  ((s.occurrences.entries.filter fun e => e.1.1 = parent).map fun e => (e.1.2, e.2)).insertionSort
    fun e e' => e.2.ordinal < e'.2.ordinal ∨ e.2.ordinal = e'.2.ordinal ∧ e.1 ≤ e'.1

/-- The fields of an occurrence that are compared one by one, as the row has them. -/
def rowFields (row : Occurrence) : List Json :=
  [row.placement, row.sourceOffset, .int row.durationMs, row.speed, .str row.track, row.transform,
   row.gain, .int (if row.muted then 1 else 0), row.provenance]

/-- The same fields, as the payload has them. -/
def payloadFields (num : Numerals) (fields : Fields) : List Json :=
  [field fields "placement", field fields "source_offset",
   ((field fields "duration_ms").toInt num).elim .null .int, field fields "speed",
   field fields "track", (fields.get "transform").getD (.obj []), field fields "gain",
   .int (if (fieldOr fields "muted" "mute" (.bool false)).truthy then 1 else 0),
   (fields.get "provenance").getD (.obj [])]

/-- The member of the sequence that a row is. -/
def rowValues (id : String) (row : Occurrence) : List Json :=
  [.int row.ordinal, .str id, .str row.shotId, .str row.shotRevisionId] ++ rowFields row

/-- The member of the sequence that an occurrence of the payload is. -/
def payloadValues (num : Numerals) (ordinal : Nat) (fields : Fields) : List Json :=
  [.int ordinal, field fields "occurrence_id", field fields "shot_id",
   field fields "shot_revision_id", field fields "placement", field fields "source_offset",
   ((fieldOr fields "duration_ms" "duration" .null).toInt num).elim .null .int,
   (fields.get "speed").getD (.int 1),
   (fields.get "track").getD (((field fields "placement").get? "track").getD .null),
   (fields.get "transform").getD (.obj []), (fields.get "gain").getD (.int 1),
   .int (if (fieldOr fields "muted" "mute" (.bool false)).truthy then 1 else 0),
   (fields.get "provenance").getD (.obj [])]

/-- The checks of one row of `composition_revision_occurrences`. -/
def occurrenceRowIssues (parent : RevisionId) (owner : ProjectId) (expected : Option Fields)
    (id : String) (row : Occurrence) : List Issue :=
  let identity := parent ++ ":" ++ id
  let shot := s.shotRevisions.lookup row.shotRevisionId
  issueIf (!(row.projectId = owner &&
      shot.any (fun r => r.projectId = row.projectId && r.shotId = row.shotId) &&
      (s.shots.lookup row.shotId).any (·.projectId = row.projectId)))
    identity "occurrence_identity_closure" ++
  issueIf (shot.any fun r =>
      !(s.internalRevisions.lookup r.internalId).any (·.projectId = row.projectId))
    identity "occurrence_internal_timeline_missing" ++
  match expected with
  | none => []
  | some fields => ((rowFields row).zip (payloadFields host.numerals fields)).flatMap
      fun v => issueIf (!decide (v.1.Equals host.numerals v.2)) identity "occurrence_field_mismatch"

/-- The checks of the occurrences of one parent revision. -/
def occurrenceIssues (id : RevisionId) (row : ParentRevision) : List Issue :=
  let sequence := expectedSequence row.payload
  let expected : Json → Option Fields := fun name =>
    (sequence.reverse.find? fun o => field o.2 "occurrence_id" = name).map Prod.snd
  let stored := s.storedOccurrences id
  sequence.flatMap (fun o => issueIf (stored.all fun r => field o.2 "occurrence_id" ≠ .str r.1)
      (id ++ ":" ++ (field o.2 "occurrence_id").toText host.numerals) "occurrence_missing") ++
    stored.flatMap (fun r => issueIf (expected (.str r.1)).isNone (id ++ ":" ++ r.1)
      "occurrence_extra") ++
    stored.flatMap (fun r => s.occurrenceRowIssues host id row.projectId (expected (.str r.1)) r.1
      r.2) ++
    issueIf (!decide (Equals host.numerals
        (.arr ((stored.filter fun r => (expected (.str r.1)).isSome).map
          fun r => .arr (rowValues r.1 r.2)))
        (.arr (sequence.map fun o => .arr (payloadValues host.numerals o.1 o.2)))))
      id "occurrence_sequence_mismatch"

/-! ## Dependencies -/

/-- The text of a kind of dependency. -/
def kindText : DependencyKind → String
  | .shotRevision => "shot_revision"
  | .internalTimelineRevision => "internal_timeline_revision"
  | .media => "media"

/-- The check of one row of `composition_revision_dependencies`. -/
def dependencyRowIssues (parent : RevisionId) (kind : DependencyKind) (id : String) (ordinal : Nat)
    (digest : String) : List Issue :=
  match s.parentRevisions.lookup parent with
  | none => [⟨parent, "parent_missing"⟩]
  | some row =>
    let valid := match kind with
      | .shotRevision => (s.shotRevisions.lookup id).any
          fun r => r.projectId = row.projectId && r.contentDigest = digest
      | .internalTimelineRevision => (s.internalRevisions.lookup id).any
          fun r => r.projectId = row.projectId && r.contentDigest = digest
      | .media => (s.objects.lookup (withoutScheme id)).isSome &&
          s.projectObjects.any (fun e => e.1 = row.projectId && e.2.1 = withoutScheme id) &&
          digest = "sha256:" ++ withoutScheme id
    issueIf (!valid) (parent ++ ":" ++ kindText kind ++ ":" ++ id ++ ":" ++ toString ordinal)
      "dependency_closure"

/-- The shot revisions that a parent payload pins, an entry for each occurrence. -/
def pinnedRows (payload : Json) : List (RevisionId × ShotRevision) :=
  (expectedSequence payload).filterMap fun o =>
    match field o.2 "shot_id", field o.2 "shot_revision_id" with
    | .str shot, .str revision =>
      ((s.shotRevisions.lookup revision).filter (·.shotId = shot)).map fun row => (revision, row)
    | _, _ => none

/-- The dependencies that the payloads of a parent revision have. -/
def payloadDependencies (payload : Json) : List (DependencyKind × String × String) :=
  let shots := s.pinnedRows payload
  let internal := shots.filterMap fun r =>
    (s.internalRevisions.lookup r.2.internalId).map fun row => (r.2.internalId, row)
  let media := fun v => (collectDigestMedia v).map fun m => (DependencyKind.media, m, m)
  shots.map (fun r => (.shotRevision, r.1, r.2.contentDigest)) ++
    internal.map (fun r => (.internalTimelineRevision, r.1, r.2.contentDigest)) ++
    media payload ++ shots.flatMap (fun r => media r.2.payload) ++
    internal.flatMap fun r => media r.2.payload

/-! ## Evidence -/

/-- The hash that an event should have. -/
def expectedEventHash (event : TimelineEvent) : String :=
  host.digest (.obj
    [("created_at", .str (host.stamp event.createdAt)), ("kind", .str event.kind),
     ("payload", event.payload), ("previous_hash", .str event.previousHash),
     ("timeline_id", .str event.timelineId)])

/-- An event follows its predecessor, and has the hash it should have. -/
def eventValid (before : List TimelineEvent) (event : TimelineEvent) : Bool :=
  event.previousHash = (((before.filter (·.timelineId = event.timelineId)).getLast?).map
      TimelineEvent.eventHash).getD "" &&
    event.eventHash = expectedEventHash host event

/-- The chain of a timeline up to its events. -/
def chainValid (events : List TimelineEvent) (timeline : TimelineId) : Bool :=
  (List.range events.length).all fun n =>
    (events[n]?).all fun event => event.timelineId ≠ timeline || eventValid host (events.take n) event

/-- A publication event of a parent revision. -/
structure Evidence where
  eventId : String
  payload : Json
  chainValid : Bool

/-- The publication events of a parent revision. Event ids count from one. -/
def publicationEvents (timeline : TimelineId) (parent : RevisionId) : List Evidence :=
  s.timelineEvents.zipIdx.filterMap fun e =>
    if e.1.timelineId = timeline ∧ e.1.kind = "parent.composition.published" ∧
        e.1.payload.get? "new_head" = some (.str parent) ∧ parent ≠ "" then
      some ⟨toString (e.2 + 1), e.1.payload, chainValid host (s.timelineEvents.take (e.2 + 1)) timeline⟩
    else none

/-- The revision that a receipt of a publication names. -/
def publishedId (result : Json) : Json :=
  (result.get? "parent_revision_id").getD
    ((result.get? "revision_id").getD ((result.get? "new_head").getD .null))

/-- The event that a receipt of a publication names. -/
def receiptEvent (num : Numerals) (result : Json) : String :=
  ((result.get? "event_id").getD .null).toText num

/-- The receipts that are about a parent revision: they name it, or one of its events. -/
def publicationReceipts (num : Numerals) (timeline : TimelineId) (parent : RevisionId)
    (events : List Evidence) : List Json :=
  (s.ledger.entries.filter fun e => e.1.1 = .parentCompositionPublish && e.1.2.1 = timeline &&
    (publishedId e.2.result = .str parent ||
      events.any (·.eventId = receiptEvent num e.2.result))).map fun e => e.2.result

/-- `normalized_publication_media`. -/
def publicationMedia (manifest : Json) : Option (List String) := do
  let items ← (manifest.get? "media").bind asArr
  let ids ← items.mapM fun item => do
    let fields ← item.asObj
    let id ← (field fields "media_id").asStr
    if "sha256:".toList.isPrefixOf id.toList && isDigest (withoutScheme id) &&
        field fields "content_digest" = .str id then some id else none
  if ids.Nodup then some ids else none

/-- An event and its receipt agree with the parent revision and with each other. -/
def evidenceAgrees (row : ParentRevision) (parent : RevisionId) (event : Evidence) (result : Json) :
    Bool :=
  event.chainValid && result.asObj.isSome &&
    event.payload.get? "project_id" = some (.str row.projectId) &&
    event.payload.get? "timeline_id" = some (.str row.timelineId) &&
    event.payload.get? "new_head" = some (.str parent) &&
    event.payload.get? "content_digest" = some (.str row.contentDigest) &&
    publishedId result = .str parent &&
    result.get? "project_id" = some (.str row.projectId) &&
    result.get? "timeline_id" = some (.str row.timelineId) &&
    (result.get? "parent_revision_id").getD ((result.get? "revision_id").getD .null) = .str parent &&
    result.get? "content_digest" = some (.str row.contentDigest) &&
    (result.get? "payload").any (fun v => v.asObj.isSome &&
      host.revisionDigest v = row.contentDigest) &&
    receiptEvent host.numerals result = event.eventId &&
    result.get? "dependency_manifest" = event.payload.get? "dependency_manifest"

/-- The manifest that the evidence of a parent revision agrees on, with its media: `none` when the
evidence is incomplete or disagrees. -/
def agreedManifest (row : ParentRevision) (parent : RevisionId) (events : List Evidence)
    (receipts : List Json) : Option (Option (List String)) := do
  let about : String → List Json := fun id => receipts.filter (receiptEvent host.numerals · = id)
  let manifests ← events.mapM fun event =>
    match about event.eventId with
    | [result] =>
      if evidenceAgrees host row parent event result then
        match event.payload.get? "dependency_manifest" with
        | none => some none
        | some manifest => (publicationMedia manifest).map fun media => some (manifest, media)
      else none
    | _ => none
  let paired := manifests.filterMap id
  if (receipts.all fun result => events.any (·.eventId = receiptEvent host.numerals result) &&
        (about (receiptEvent host.numerals result)).length = 1) &&
      (paired.isEmpty || paired.length = events.length) &&
      paired.all (fun p => paired.head?.all fun first => p.1 = first.1) then
    some (paired.head?.map Prod.snd)
  else none

/-- The dependency rows of a parent revision, in their order, each with its ordinal. -/
def storedDependencies (parent : RevisionId) : List (Nat × DependencyKind × String × String) :=
  ((s.dependencies.entries.filter fun e => e.1.1 = parent).map
    fun e => (e.1.2.2.2, e.1.2.1, e.1.2.2.1, e.2)).insertionSort fun e e' => e.1 ≤ e'.1

/-- The checks of the dependencies and of the evidence of one parent revision. -/
def closureIssues (id : RevisionId) (row : ParentRevision) : List Issue :=
  let events := s.publicationEvents host row.timelineId id
  let receipts := s.publicationReceipts host.numerals row.timelineId id events
  let agreed := if events.isEmpty && receipts.isEmpty then some none
    else agreedManifest host row id events receipts
  let expected := s.payloadDependencies row.payload ++
    (((agreed.getD none).getD []).map fun m => (.media, m, m))
  let stored := s.storedDependencies id
  let actual := stored.map Prod.snd
  issueIf agreed.isNone id "publication_evidence_mismatch" ++
    issueIf (!(expected.all (· ∈ actual) &&
        actual.all (fun d => d ∈ expected || d.1 = .media) && decide actual.Nodup &&
        stored.map Prod.fst = List.range stored.length))
      id "dependency_graph_mismatch"

/-! ## The report -/

/-- `revision_errors` of the integrity report. -/
def revisionIssues (host : Host) : List Issue :=
  s.internalRevisions.entries.flatMap (fun e => s.internalIssues host e.1 e.2) ++
    s.shotRevisions.entries.flatMap (fun e => s.shotIssues host e.1 e.2) ++
    s.parentRevisions.entries.flatMap (fun e => s.parentIssues host e.1 e.2) ++
    s.parentRevisions.entries.flatMap (fun e => s.occurrenceIssues host e.1 e.2) ++
    s.dependencies.entries.flatMap
      (fun e => s.dependencyRowIssues e.1.1 e.1.2.1 e.1.2.2.1 e.1.2.2.2 e.2) ++
    s.parentRevisions.entries.flatMap (fun e => s.closureIssues host e.1 e.2)

end State

end WorkspaceRuntime.Project
