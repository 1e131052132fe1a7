import WorkspaceRuntime.Timeline.Store

/-!
# Shots, compositions and text bindings of a project

The tables behind the project shots, their text bindings and the published compositions. A shot is
a mutable projection (its row and its items) beside an append-only list of immutable revisions, one
of which is its head. A published composition is an immutable parent revision that pins shot
revisions, each of which pins an internal timeline revision; a timeline has one parent head, and the
publications are events of the timeline. A text binding is a text of a shot with a chain of events
of its own.

The items of a shot are a list in the order of their sort keys, which every command renumbers from
zero. What the interpreter, the hash functions and the clock answer is `Host` and `Env`; nothing is
assumed of them.
-/

namespace WorkspaceRuntime.Project

open Fallible

abbrev ShotId := String
abbrev TimelineId := String
abbrev RevisionId := String
abbrev BindingId := String
/-- A SHA-256 digest in hexadecimal, without a scheme. -/
abbrev Digest := String

/-! ## Rows -/

/-- A row of `shot_items`, besides its sort key. -/
structure Item where
  id : String
  mediaId : String
  /-- What the column `source_frame` keeps. -/
  sourceFrame : Json
  metadata : Json
  createdAt : Time
  deriving DecidableEq, Repr

/-- A row of `project_shots`, with its items. -/
structure Shot where
  projectId : ProjectId
  name : String
  metadata : Json
  version : Nat
  createdAt : Time
  updatedAt : Time
  archivedAt : Option Time
  items : List Item
  deriving DecidableEq, Repr

/-- A row of `internal_timeline_revisions`. -/
structure InternalRevision where
  projectId : ProjectId
  timelineId : TimelineId
  payload : Json
  contentDigest : String
  deriving DecidableEq, Repr

/-- A row of `shot_revisions`. -/
structure ShotRevision where
  projectId : ProjectId
  shotId : ShotId
  internalId : RevisionId
  payload : Json
  contentDigest : String
  deriving DecidableEq, Repr

/-- A row of `shot_revision_heads`. -/
structure ShotHead where
  projectId : ProjectId
  revisionId : RevisionId
  deriving DecidableEq, Repr

/-- A row of `parent_composition_revisions`. -/
structure ParentRevision where
  projectId : ProjectId
  timelineId : TimelineId
  payload : Json
  contentDigest : String
  deriving DecidableEq, Repr

/-- A row of `parent_composition_heads`. -/
structure ParentHead where
  projectId : ProjectId
  revisionId : Option RevisionId
  deriving DecidableEq, Repr

/-- A row of `composition_revision_occurrences`. -/
structure Occurrence where
  ordinal : Nat
  projectId : ProjectId
  shotId : ShotId
  shotRevisionId : RevisionId
  placement : Json
  sourceOffset : Json
  durationMs : Int
  speed : Json
  track : String
  transform : Json
  gain : Json
  muted : Bool
  provenance : Json
  deriving DecidableEq, Repr

/-- The column `dependency_kind`. -/
inductive DependencyKind where
  | shotRevision | internalTimelineRevision | media
  deriving DecidableEq, Repr

/-- A row of `timeline_events`. -/
structure TimelineEvent where
  timelineId : TimelineId
  kind : String
  payload : Json
  previousHash : String
  eventHash : String
  createdAt : Time
  deriving DecidableEq, Repr

/-- A row of `objects`. -/
structure Object where
  size : Nat
  mediaType : String
  deriving DecidableEq, Repr

/-- What is at the place of an object in the content store. -/
inductive File where
  | regular (data : List UInt8)
  /-- A link, or something that is not a file. -/
  | other
  deriving DecidableEq, Repr

/-- A row of `shot_text_bindings`. -/
structure TextBinding where
  projectId : ProjectId
  shotId : ShotId
  kind : String
  slot : Option String
  mediaDigest : Digest
  eventStreamId : String
  headSeq : Nat
  createdAt : Time
  updatedAt : Time
  deriving DecidableEq, Repr

/-- A row of `shot_text_binding_events`. -/
structure TextBindingEvent where
  eventId : String
  projectId : ProjectId
  kind : String
  payload : Json
  previousHash : String
  eventHash : String
  createdAt : Time
  deriving DecidableEq, Repr

/-- The kinds of the commands, by which the ledger keeps them apart. -/
inductive Kind where
  | textBindingSet | textBindingRebind
  | shotCreate | shotUpdate | shotArchive | shotRecover
  | shotItemAdd | shotItemRemove | shotItemReorder | shotPromoteCandidate
  | parentCompositionPublish | parentCompositionMediaReplace
  deriving DecidableEq, Repr

/-- What a command answers: the field `data`, and whether a receipt comes with it. -/
structure Answer where
  data : Json
  receipted : Bool
  deriving DecidableEq, Repr

/-- The tables that the commands of this family read and write. -/
structure State where
  /-- `projects`: ids to slugs. -/
  projects : Table ProjectId String := .empty
  /-- `timelines`: ids to projects. -/
  timelines : Table TimelineId ProjectId := .empty
  /-- `project_shots` and `shot_items`. -/
  shots : Table ShotId Shot := .empty
  internalRevisions : Table RevisionId InternalRevision := .empty
  shotRevisions : Table RevisionId ShotRevision := .empty
  shotHeads : Table ShotId ShotHead := .empty
  parentRevisions : Table RevisionId ParentRevision := .empty
  parentHeads : Table TimelineId ParentHead := .empty
  occurrences : Table (RevisionId × String) Occurrence := .empty
  /-- `composition_revision_dependencies`: parent, kind, id and ordinal to the digest. -/
  dependencies : Table (RevisionId × DependencyKind × String × Nat) String := .empty
  /-- `timeline_events`, in the order of their ids. -/
  timelineEvents : List TimelineEvent := []
  objects : Table Digest Object := .empty
  /-- `project_objects`: project, digest and relation. -/
  projectObjects : List (ProjectId × Digest × String) := []
  /-- The files of the content store. -/
  files : Table Digest File := .empty
  textBindings : Table BindingId TextBinding := .empty
  textBindingEvents : Table (BindingId × Nat) TextBindingEvent := .empty
  ledger : CommandLedger Kind Json := .empty
  deriving DecidableEq

/-! ## What the commands are given -/

/-- An internal timeline revision as a publication holds it. -/
structure InternalEntry where
  revisionId : RevisionId
  timelineId : TimelineId
  payload : Json
  contentDigest : String
  deriving DecidableEq, Repr

/-- A shot revision as a publication holds it. -/
structure ShotEntry where
  revisionId : RevisionId
  shotId : ShotId
  internalId : RevisionId
  payload : Json
  contentDigest : String
  /-- The revision is committed already. -/
  existing : Bool
  deriving DecidableEq, Repr

/-- The functions that belong to the interpreter and its libraries. -/
structure Host where
  numerals : Json.Numerals := {}
  /-- `canonical_json`. -/
  canonical : Json → String
  /-- `sha256_bytes`. -/
  sha256 : List UInt8 → Digest
  /-- `bytes.decode("utf-8")`. -/
  decode : List UInt8 → Option String
  /-- `uuid.uuid5` in the namespace of URLs. -/
  uuid : String → String
  /-- A time as a column and a resource show it. -/
  stamp : Time → String
  /-- The characters that `str.strip` removes. -/
  isSpace : Char → Bool := Char.isWhitespace
  /-- `evaluate_closure`, of which a publication keeps the report only. -/
  seamReport : Json → (ShotId × RevisionId → Option ShotEntry) →
    (RevisionId → Option InternalEntry) → TimelineId → Except Err Json

/-- The bytes of a text. -/
def utf8 (text : String) : List UInt8 := text.toUTF8.data.toList

namespace Host

/-- The hash of the canonical text of a value. -/
def digest (host : Host) (v : Json) : Digest := host.sha256 (utf8 (host.canonical v))

/-- `_revision_digest`. -/
def revisionDigest (host : Host) (payload : Json) : String := "sha256:" ++ host.digest payload

end Host

/-- The order in which the members of a set come out of it. -/
structure SetOrder (α : Type) where
  arrange : List α → List α
  perm : ∀ l, (arrange l).Perm l

/-- The members come out in the order in which they were put in. -/
def SetOrder.inserted {α : Type} : SetOrder α := ⟨id, fun l => .refl l⟩

/-- The clock, the ids that `new_id` draws in one call, the order of a set of shot revisions, and what
another part of the runtime answers. -/
structure Env where
  now : Time
  newId : Nat → String := fun _ => ""
  order : SetOrder (ShotId × RevisionId) := .inserted
  /-- `analyze_invalidation`, which reads tables of its own, on the items of a shot and the assets of
  a body. -/
  invalidation : List Json → List Json → Except Err Json := fun _ _ => .ok .null

namespace State

/-- `get_project`: the id of the project that an id or a slug selects. -/
def getProject (s : State) (selector : String) : Except Err ProjectId :=
  orThrow ((s.projects.entries.find? fun e => e.1 = selector ∨ e.2 = selector).map Prod.fst)
    (.notFound "project not found")

end State

/-- A digest as `re.fullmatch("[0-9a-f]{64}", …)` accepts it. -/
def isDigest (text : String) : Bool :=
  text.toList.length = 64 && text.toList.all fun c => c.isDigit || ('a' ≤ c && c ≤ 'f')

/-- `removeprefix("sha256:")`. -/
def withoutScheme (text : String) : String :=
  if "sha256:".toList.isPrefixOf text.toList then String.ofList (text.toList.drop 7) else text

/-- A field of a body, `None` when it is missing. -/
def field (fields : Json.Fields) (name : String) : Json := (fields.get name).getD .null

/-- `body.get(name, body.get(other, default))`. -/
def fieldOr (fields : Json.Fields) (name other : String) (default : Json) : Json :=
  (fields.get name).getD ((fields.get other).getD default)

end WorkspaceRuntime.Project
