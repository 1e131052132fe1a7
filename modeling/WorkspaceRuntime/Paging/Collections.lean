import WorkspaceRuntime.Paging.Walk

/-!
# The collection endpoints

The endpoints that answer with pages of `_page_rows`, with the columns that their queries, their keys
and their filters read. All but one have the primary key of a row among the members of its sort key.
`list_project_objects` joins an object to each of its relations to the project and has only the
object in the key, so that the rows of one object are lost where a page ends between them.
-/

namespace WorkspaceRuntime.Paging

open Fallible

/-! ## Rows -/

abbrev Id := String

structure ProjectRow where
  slug : String
  createdAt : String
  deriving DecidableEq, Repr

structure TimelineRow where
  projectId : Id
  version : Int
  createdAt : String
  deriving DecidableEq, Repr

structure RunRow where
  projectId : Option Id
  createdAt : String
  deriving DecidableEq, Repr

structure TaskRow where
  runId : Id
  createdAt : String
  deriving DecidableEq, Repr

/-- A row of `project_shots` or `project_references`. -/
structure ArchivableRow where
  projectId : Id
  createdAt : String
  archivedAt : Option String
  deriving DecidableEq, Repr

structure RevisionRow where
  projectId : Id
  timelineId : Id
  createdAt : String
  deriving DecidableEq, Repr

structure DocumentRow where
  projectId : Id
  kind : String
  createdAt : String
  deriving DecidableEq, Repr

structure GenerationRow where
  projectId : Id
  createdAt : String
  deriving DecidableEq, Repr

structure VariantRow where
  generationId : Id
  createdAt : String
  deriving DecidableEq, Repr

/-- An object of a project beside one of its relations to it. -/
structure ObjectRow where
  digest : String
  relation : String
  createdAt : String
  deriving DecidableEq, Repr

/-- The tables that the collections read. -/
structure Catalog where
  projects : Table Id ProjectRow := .empty
  timelines : Table Id TimelineRow := .empty
  runs : Table Id RunRow := .empty
  tasks : Table Id TaskRow := .empty
  projectShots : Table Id ArchivableRow := .empty
  projectReferences : Table Id ArchivableRow := .empty
  parentRevisions : Table Id RevisionRow := .empty
  /-- The time of a timeline's version. -/
  timelineRevisions : Table (Id × Int) String := .empty
  documents : Table Id DocumentRow := .empty
  generations : Table Id GenerationRow := .empty
  variants : Table Id VariantRow := .empty
  /-- The time of an object. -/
  objects : Table String String := .empty
  /-- Project, object and relation. -/
  projectObjects : Table (Id × String × String) Unit := .empty
  /-- The time of a relation: project, objects, kind and ordinal. -/
  mediaRelations : Table (Id × String × String × String × Int) String := .empty
  capabilities : Table Id Unit := .empty

/-! ## Endpoints -/

namespace Catalog

variable (db : Catalog)

/-- `get_project`, by its id or its slug. -/
def getProject (selector : String) : Except Err Id :=
  orThrow ((db.projects.entries.find? fun e => e.1 = selector ∨ e.2.slug = selector).map Prod.fst)
    (.notFound "project not found")

/-- The query of most collections: `ORDER BY created_at, id`. -/
def byCreation {α : Type} (scope : String) (rows : List (Id × α)) (createdAt : α → String) :
    Query (Id × α) where
  rows
  order := [{ value := fun row => .text (createdAt row.2) }, { value := fun row => .text row.1 }]
  scope
  key row := [.text (createdAt row.2), .text row.1]
  skip := keyLE

/-- `list_projects`. -/
def listProjects : Except Err (Query (Id × ProjectRow)) :=
  .ok (byCreation "projects" db.projects.entries ProjectRow.createdAt)

/-- `list_timelines`. -/
def listTimelines (selector : String) : Except Err (Query (Id × TimelineRow)) := do
  let project ← db.getProject selector
  return byCreation ("timelines:" ++ project)
    (db.timelines.entries.filter fun e => e.2.projectId = project) TimelineRow.createdAt

/-- `list_project_tasks`, which reads tasks after the overdue leases are reaped. -/
def listProjectTasks (selector : String) : Except Err (Query (Id × TaskRow)) := do
  let project ← db.getProject selector
  return byCreation ("tasks:" ++ project)
    (db.tasks.entries.filter fun e =>
      (db.runs.lookup e.2.runId).any fun run => run.projectId = some project) TaskRow.createdAt

/-- `list_project_runs`. -/
def listProjectRuns (selector : String) : Except Err (Query (Id × RunRow)) := do
  let project ← db.getProject selector
  return byCreation ("runs:" ++ project)
    (db.runs.entries.filter fun e => e.2.projectId = some project) RunRow.createdAt

/-- The digit of `int(include_archived)`. -/
def digit (flag : Bool) : String := if flag then "1" else "0"

/-- The query of `list_project_shots` and `list_project_references`. -/
def archivable (name : String) (table : Table Id ArchivableRow) (selector : String)
    (includeArchived : Bool) : Except Err (Query (Id × ArchivableRow)) := do
  let project ← db.getProject selector
  return byCreation (name ++ ":" ++ project ++ ":" ++ digit includeArchived)
    (table.entries.filter fun e =>
      e.2.projectId = project && (includeArchived || e.2.archivedAt.isNone)) ArchivableRow.createdAt

/-- `list_project_shots`. -/
def listProjectShots (selector : String) (includeArchived : Bool) : Except Err (Query (Id × ArchivableRow)) :=
  db.archivable "project-shots" db.projectShots selector includeArchived

/-- `list_project_references`. -/
def listProjectReferences (selector : String) (includeArchived : Bool) : Except Err (Query (Id × ArchivableRow)) :=
  db.archivable "project-references" db.projectReferences selector includeArchived

/-- `list_project_parent_composition_revisions`: `ORDER BY created_at DESC, id DESC`. -/
def listProjectParentCompositionRevisions (selector : String) (timeline : Id) :
    Except Err (Query (Id × RevisionRow)) := do
  let project ← db.getProject selector
  require ((db.timelines.lookup timeline).any (·.projectId = project) = true)
    (.notFound "timeline not found")
  return {
    rows := db.parentRevisions.entries.filter fun e =>
      e.2.projectId = project && e.2.timelineId = timeline
    order := [{ value := fun row => .text row.2.createdAt, descending := true },
      { value := fun row => .text row.1, descending := true }]
    scope := "parent-composition-history:" ++ project ++ ":" ++ timeline
    key := fun row => [.text row.2.createdAt, .text row.1]
    skip := keyGE }

/-- `list_timeline_history`: the recorded versions, or the current one if there is none. -/
def listTimelineHistory (timeline : Id) : Except Err (Query Int) := do
  let row ← orThrow (db.timelines.lookup timeline) (.notFound "timeline not found")
  let versions := (db.timelineRevisions.entries.filter fun e => e.1.1 = timeline).map (·.1.2)
  return {
    rows := if versions = [] then [row.version] else versions
    order := [{ value := .number }]
    scope := "timeline-history:" ++ timeline
    key := fun version => [.number version]
    skip := keyLE }

/-- `id LIKE 'timeline:%'`, which does not tell the cases of letters apart. -/
def isTimelineDocument (id : Id) : Bool :=
  "timeline:".toList.isPrefixOf (id.toList.map Char.toLower)

/-- `list_documents`. -/
def listDocuments (canonicalJson : List (String × String) → String) (selector : String)
    (kind : Option String) : Except Err (Query (Id × DocumentRow)) := do
  let project ← db.getProject selector
  return byCreation
    (match kind with
      | none => "documents:" ++ project
      | some kind => canonicalJson [("documents", project), ("kind", kind)])
    (db.documents.entries.filter fun e => e.2.projectId = project && !isTimelineDocument e.1 &&
      kind.all (· = e.2.kind)) DocumentRow.createdAt

/-- `list_generations`: `ORDER BY created_at DESC, id ASC`. -/
def listGenerations (selector : String) : Except Err (Query (Id × GenerationRow)) := do
  let project ← db.getProject selector
  return {
    rows := db.generations.entries.filter fun e => e.2.projectId = project
    order := [{ value := fun row => .text row.2.createdAt, descending := true },
      { value := fun row => .text row.1 }]
    scope := "generations:" ++ project
    key := fun row => [.text row.2.createdAt, .text row.1]
    skip := newestFirst }

/-- `list_variants`. -/
def listVariants (generation : Id) : Except Err (Query (Id × VariantRow)) := do
  let _ ← orThrow (db.generations.lookup generation) (.notFound "generation not found")
  return byCreation ("variants:" ++ generation)
    (db.variants.entries.filter fun e => e.2.generationId = generation) VariantRow.createdAt

/-- The rows of `SELECT … FROM objects o JOIN project_objects po ON po.digest = o.digest`. -/
def objectRows (project : Id) : List ObjectRow :=
  db.projectObjects.entries.filterMap fun e =>
    if e.1.1 = project then
      (db.objects.lookup e.1.2.1).map fun createdAt =>
        { digest := e.1.2.1, relation := e.1.2.2, createdAt }
    else none

/-- `list_project_objects`: `ORDER BY o.created_at, o.digest`. -/
def listProjectObjects (selector : String) : Except Err (Query ObjectRow) := do
  let project ← db.getProject selector
  return {
    rows := db.objectRows project
    order := [{ value := fun row => .text row.createdAt }, { value := fun row => .text row.digest }]
    scope := "objects:" ++ project
    key := fun row => [.text row.createdAt, .text row.digest]
    skip := keyLE }

/-- `list_media_relations`. -/
def listMediaRelations (selector : String) : Except Err (Query ((Id × String × String × String × Int) × String)) := do
  let project ← db.getProject selector
  return {
    rows := db.mediaRelations.entries.filter fun e => e.1.1 = project
    order := [{ value := fun row => .text row.2 }, { value := fun row => .text row.1.2.1 },
      { value := fun row => .text row.1.2.2.1 }, { value := fun row => .text row.1.2.2.2.1 },
      { value := fun row => .number row.1.2.2.2.2 }]
    scope := "media-relations:" ++ project
    key := fun row => [.text row.2, .text row.1.2.1, .text row.1.2.2.1, .text row.1.2.2.2.1,
      .number row.1.2.2.2.2]
    skip := keyLE }

/-- `list_capabilities`. -/
def listCapabilities : Except Err (Query (Id × Unit)) :=
  .ok {
    rows := db.capabilities.entries
    order := [{ value := fun row => .text row.1 }]
    scope := "capabilities"
    key := fun row => [.text row.1]
    skip := keyLE }

end Catalog

/-- A collection endpoint and its arguments. -/
inductive Collection where
  | projects
  | timelines (project : String)
  | tasks (project : String)
  | runs (project : String)
  | shots (project : String) (includeArchived : Bool)
  | references (project : String) (includeArchived : Bool)
  | parentRevisions (project : String) (timeline : Id)
  | timelineHistory (timeline : Id)
  | documents (project : String) (kind : Option String)
  | generations (project : String)
  | variants (generation : Id)
  | objects (project : String)
  | mediaRelations (project : String)
  | capabilities

/-- The rows of an endpoint. -/
def Collection.Row : Collection → Type
  | .projects => Id × ProjectRow
  | .timelines _ => Id × TimelineRow
  | .tasks _ => Id × TaskRow
  | .runs _ => Id × RunRow
  | .shots _ _ | .references _ _ => Id × ArchivableRow
  | .parentRevisions _ _ => Id × RevisionRow
  | .timelineHistory _ => Int
  | .documents _ _ => Id × DocumentRow
  | .generations _ => Id × GenerationRow
  | .variants _ => Id × VariantRow
  | .objects _ => ObjectRow
  | .mediaRelations _ => (Id × String × String × String × Int) × String
  | .capabilities => Id × Unit

/-- The query of an endpoint. -/
def Collection.query (canonicalJson : List (String × String) → String) (db : Catalog) :
    (c : Collection) → Except Err (Query c.Row)
  | .projects => db.listProjects
  | .timelines project => db.listTimelines project
  | .tasks project => db.listProjectTasks project
  | .runs project => db.listProjectRuns project
  | .shots project includeArchived => db.listProjectShots project includeArchived
  | .references project includeArchived => db.listProjectReferences project includeArchived
  | .parentRevisions project timeline => db.listProjectParentCompositionRevisions project timeline
  | .timelineHistory timeline => db.listTimelineHistory timeline
  | .documents project kind => db.listDocuments canonicalJson project kind
  | .generations project => db.listGenerations project
  | .variants generation => db.listVariants generation
  | .objects project => db.listProjectObjects project
  | .mediaRelations project => db.listMediaRelations project
  | .capabilities => db.listCapabilities

/-! ## Orders and keys -/

/-- What a collection needs: its test is its order, and the keys of its rows differ. -/
structure Query.Sound {ρ : Type} (q : Query ρ) : Prop extends q.Agrees where
  nodup : (q.rows.map q.key).Nodup

variable {db : Catalog} {α : Type} {selector : String}

theorem agrees_byCreation (scope : String) (rows : List (Id × α)) (createdAt : α → String) :
    (Catalog.byCreation scope rows createdAt).Agrees := by
  refine .ascending (fun _ => rfl) rfl (List.cons_ne_nil _ _) ?_ ?_
  · simp [Catalog.byCreation, Column.Typed, KeyPart.lt]
  · simp [Catalog.byCreation]

/-- The keys of rows differ when they contain what tells the rows apart. -/
theorem nodup_keys {ρ κ : Type} {rows : List ρ} {key : ρ → Key} (name : ρ → κ)
    (hnames : (rows.map name).Nodup) (hkey : ∀ a ∈ rows, ∀ b ∈ rows, key a = key b → name a = name b) :
    (rows.map key).Nodup := by
  refine List.Nodup.map_on (fun a ha b hb heq => ?_) hnames.of_map
  exact List.inj_on_of_nodup_map hnames ha hb (hkey a ha b hb heq)

theorem nodup_filter {κ : Type} (table : Table κ α) (p : κ × α → Bool) :
    ((table.entries.filter p).map Prod.fst).Nodup :=
  table.nodup.sublist (List.filter_sublist.map Prod.fst)

theorem sound_byCreation (scope : String) (table : Table Id α) (p : Id × α → Bool)
    (createdAt : α → String) :
    (Catalog.byCreation scope (table.entries.filter p) createdAt).Sound where
  toAgrees := agrees_byCreation _ _ _
  nodup := nodup_keys Prod.fst (nodup_filter table p) fun a _ b _ heq => by
    simp only [Catalog.byCreation, List.cons.injEq, KeyPart.text.injEq, and_true] at heq
    exact heq.2

theorem sound_listProjects {q : Query (Id × ProjectRow)} (h : db.listProjects = .ok q) : q.Sound := by
  cases h
  refine ⟨agrees_byCreation _ _ _, nodup_keys Prod.fst db.projects.nodup fun a _ b _ heq => ?_⟩
  simp only [Catalog.byCreation, List.cons.injEq, KeyPart.text.injEq, and_true] at heq
  exact heq.2

/-- A collection of rows that belong to something. -/
theorem sound_owned {β : Type} {owner : Except Err β} {scope : β → String} {table : Table Id α}
    {p : β → Id × α → Bool} {createdAt : α → String} {q : Query (Id × α)}
    (h : (owner >>= fun o => pure (Catalog.byCreation (scope o) (table.entries.filter (p o))
      createdAt)) = .ok q) : q.Sound := by
  simp only [bind_eq_ok, return_ok] at h
  obtain ⟨o, -, rfl⟩ := h
  exact sound_byCreation _ _ _ _

theorem sound_archivable {name : String} {table : Table Id ArchivableRow} {includeArchived : Bool}
    {q : Query (Id × ArchivableRow)} (h : db.archivable name table selector includeArchived = .ok q) :
    q.Sound :=
  sound_owned h

theorem sound_parentRevisions {timeline : Id} {q : Query (Id × RevisionRow)}
    (h : db.listProjectParentCompositionRevisions selector timeline = .ok q) : q.Sound := by
  simp only [Catalog.listProjectParentCompositionRevisions, bind_eq_ok, return_ok] at h
  obtain ⟨project, -, -, -, rfl⟩ := h
  refine ⟨.descending (fun _ => rfl) rfl (List.cons_ne_nil _ _) ?_ ?_,
    nodup_keys Prod.fst (nodup_filter _ _) fun a _ b _ heq => ?_⟩
  · simp [Column.Typed, KeyPart.lt]
  · simp
  · simpa using congrArg (List.drop 1) heq

theorem sound_timelineHistory {timeline : Id} {q : Query Int}
    (h : db.listTimelineHistory timeline = .ok q) : q.Sound := by
  simp only [Catalog.listTimelineHistory, bind_eq_ok, return_ok] at h
  obtain ⟨row, -, rfl⟩ := h
  refine ⟨.ascending (fun _ => rfl) rfl (List.cons_ne_nil _ _) ?_ ?_, ?_⟩
  · simp [Column.Typed, KeyPart.lt]
  · simp
  · refine nodup_keys id ?_ fun a _ b _ heq => by simpa using heq
    rw [List.map_id]
    dsimp only
    split
    next => exact List.nodup_singleton _
    next =>
      -- a timeline has one row for a version
      refine List.Nodup.map_on (fun a ha b hb heq => ?_) (nodup_filter _ _).of_map
      refine List.inj_on_of_nodup_map (nodup_filter db.timelineRevisions _) ha hb (Prod.ext ?_ heq)
      rw [of_decide_eq_true (List.mem_filter.mp ha).2, of_decide_eq_true (List.mem_filter.mp hb).2]

/-- `ORDER BY created_at DESC, id ASC` is the order that `list_generations` skips rows by. -/
theorem agrees_newestFirst {q : Query (Id × α)} {createdAt : α → String}
    (hkey : ∀ row, q.key row = [.text (createdAt row.2), .text row.1])
    (hskip : q.skip = newestFirst)
    (horder : q.order = [{ value := fun row => .text (createdAt row.2), descending := true },
      { value := fun row => .text row.1 }]) : q.Agrees where
  nonempty row := by simp [hkey]
  length a b := by simp [hkey]
  skip_eq a b := by
    have hid : keyLE [.text a.1] [.text b.1] =
        some (sqlLE [{ value := fun row : Id × α => .text row.1 }] a b) :=
      @keyLE_columns (Id × α) [{ value := fun row => .text row.1 }]
        (by simp [Column.Typed, KeyPart.lt]) (by simp) a b
    rw [hskip, hkey, hkey, horder, newestFirst]
    by_cases heq : KeyPart.text (createdAt a.2) = .text (createdAt b.2)
    · rw [heq, KeyPart.lt_irrefl, sqlLE, if_pos heq]
      exact (if_pos rfl).trans hid
    · have hle := KeyPart.lt_eq_le (Ne.symm heq) (by simp [KeyPart.lt])
      rw [sqlLE_cons_of_ne heq, hle]
      cases KeyPart.le (.text (createdAt b.2)) (.text (createdAt a.2)) with
      | true => rfl
      | false => exact if_neg heq
  self k := hskip ▸ newestFirst_self k
  trans k l m := hskip ▸ newestFirst_trans
  antisymm a b h h' := by
    rw [horder] at h h'
    rw [hkey, hkey]
    exact sqlLE_antisymm h h'

theorem sound_listGenerations {q : Query (Id × GenerationRow)}
    (h : db.listGenerations selector = .ok q) : q.Sound := by
  simp only [Catalog.listGenerations, bind_eq_ok, return_ok] at h
  obtain ⟨project, -, rfl⟩ := h
  refine ⟨agrees_newestFirst (fun _ => rfl) rfl rfl,
    nodup_keys Prod.fst (nodup_filter _ _) fun a _ b _ heq => ?_⟩
  simpa using congrArg (List.drop 1) heq

theorem sound_mediaRelations {q : Query ((Id × String × String × String × Int) × String)}
    (h : db.listMediaRelations selector = .ok q) : q.Sound := by
  simp only [Catalog.listMediaRelations, bind_eq_ok, return_ok] at h
  obtain ⟨project, -, rfl⟩ := h
  refine ⟨.ascending (fun _ => rfl) rfl (List.cons_ne_nil _ _) ?_ ?_,
    nodup_keys Prod.fst (nodup_filter _ _) ?_⟩
  · simp [Column.Typed, KeyPart.lt]
  · simp
  · rintro ⟨⟨_, _, _, _, _⟩, _⟩ ha ⟨⟨_, _, _, _, _⟩, _⟩ hb heq
    have hproject := of_decide_eq_true (List.mem_filter.mp ha).2
    have hproject' := of_decide_eq_true (List.mem_filter.mp hb).2
    simp_all

theorem sound_listCapabilities {q : Query (Id × Unit)} (h : db.listCapabilities = .ok q) :
    q.Sound := by
  cases h
  refine ⟨.ascending (fun _ => rfl) rfl (List.cons_ne_nil _ _) ?_ ?_,
    nodup_keys Prod.fst db.capabilities.nodup fun a _ b _ heq => ?_⟩
  · simp [Column.Typed, KeyPart.lt]
  · simp
  · simpa using heq

/-! ## Objects of a project -/

/-- Every object of the project has one relation to it. -/
def Catalog.OneRelation (db : Catalog) (project : Id) : Prop :=
  ∀ digest ∈ db.objects.keys, ∀ relation relation',
    (project, digest, relation) ∈ db.projectObjects.keys →
    (project, digest, relation') ∈ db.projectObjects.keys → relation = relation'

theorem mem_objectRows {project : Id} {row : ObjectRow} : row ∈ db.objectRows project ↔
    (project, row.digest, row.relation) ∈ db.projectObjects.keys ∧
      db.objects.lookup row.digest = some row.createdAt := by
  simp only [Catalog.objectRows, List.mem_filterMap]
  constructor
  · rintro ⟨⟨⟨p, digest, relation⟩, u⟩, hmem, hrow⟩
    split at hrow
    next hproject =>
      obtain ⟨createdAt, hlookup, rfl⟩ := Option.map_eq_some_iff.mp hrow
      exact ⟨List.mem_map.mpr ⟨_, hmem, by rw [← hproject]⟩, hlookup⟩
    next => cases hrow
  · rintro ⟨hkey, hlookup⟩
    obtain ⟨e, hmem, hkey⟩ := List.mem_map.mp hkey
    refine ⟨e, hmem, ?_⟩
    rw [hkey, if_pos rfl, hlookup]
    rfl

theorem nodup_objectRows (project : Id) : (db.objectRows project).Nodup := by
  refine List.Nodup.filterMap ?_ db.projectObjects.nodup.of_map
  rintro ⟨⟨p, digest, relation⟩, u⟩ ⟨⟨p', digest', relation'⟩, u'⟩ row hrow hrow'
  simp only [Option.mem_def] at hrow hrow'
  split at hrow
  next hproject =>
    split at hrow'
    next hproject' =>
      obtain ⟨createdAt, -, rfl⟩ := Option.map_eq_some_iff.mp hrow
      obtain ⟨createdAt', -, heq⟩ := Option.map_eq_some_iff.mp hrow'
      simp only [ObjectRow.mk.injEq] at heq
      rw [hproject, hproject', heq.1, heq.2.1]
    next => cases hrow'
  next => cases hrow

/-- The keys of the rows of a project differ when each of its objects has one relation to it. -/
theorem nodup_objectKeys_iff {project : Id} :
    ((db.objectRows project).map fun row =>
        [KeyPart.text row.createdAt, .text row.digest]).Nodup ↔ db.OneRelation project := by
  constructor
  · intro hnodup digest hdigest relation relation' hrelation hrelation'
    obtain ⟨createdAt, hlookup⟩ := Table.mem_keys_iff.mp hdigest
    have hrow : (⟨digest, relation, createdAt⟩ : ObjectRow) ∈ db.objectRows project :=
      mem_objectRows.mpr ⟨hrelation, hlookup⟩
    have hrow' : (⟨digest, relation', createdAt⟩ : ObjectRow) ∈ db.objectRows project :=
      mem_objectRows.mpr ⟨hrelation', hlookup⟩
    exact congrArg ObjectRow.relation (List.inj_on_of_nodup_map hnodup hrow hrow' rfl)
  · intro hone
    refine List.Nodup.map_on (fun a ha b hb heq => ?_) (nodup_objectRows project)
    obtain ⟨hkey, hlookup⟩ := mem_objectRows.mp ha
    obtain ⟨hkey', -⟩ := mem_objectRows.mp hb
    simp only [List.cons.injEq, KeyPart.text.injEq, and_true] at heq
    obtain ⟨digest, relation, createdAt⟩ := a
    obtain ⟨digest', relation', createdAt'⟩ := b
    obtain ⟨rfl, rfl⟩ := heq
    have hdigest : digest ∈ db.objects.keys := Table.mem_keys_iff.mpr ⟨_, hlookup⟩
    rw [hone digest hdigest relation relation' hkey hkey']

theorem agrees_listProjectObjects {q : Query ObjectRow} (h : db.listProjectObjects selector = .ok q) :
    q.Agrees ∧ ∃ project, db.getProject selector = .ok project ∧
      ((q.rows.map q.key).Nodup ↔ db.OneRelation project) := by
  simp only [Catalog.listProjectObjects, bind_eq_ok, return_ok] at h
  obtain ⟨project, hproject, rfl⟩ := h
  refine ⟨.ascending (fun _ => rfl) rfl (List.cons_ne_nil _ _) ?_ ?_, project, hproject,
    nodup_objectKeys_iff⟩
  · simp [Column.Typed, KeyPart.lt]
  · simp

/-! ## Completeness -/

/-- The test of every collection is its order, and the keys of its rows differ, but for the objects of
a project. -/
theorem sound_query {canonicalJson : List (String × String) → String} {c : Collection}
    {q : Query c.Row} (h : c.query canonicalJson db = .ok q)
    (hobjects : ∀ selector, c ≠ .objects selector) : q.Sound := by
  cases c with
  | projects => exact sound_listProjects h
  | timelines selector | tasks selector | runs selector | documents selector kind
  | variants generation => exact sound_owned h
  | shots selector includeArchived | references selector includeArchived => exact sound_archivable h
  | parentRevisions selector timeline => exact sound_parentRevisions h
  | timelineHistory timeline => exact sound_timelineHistory h
  | generations selector => exact sound_listGenerations h
  | objects selector => exact absurd rfl (hobjects selector)
  | mediaRelations selector => exact sound_mediaRelations h
  | capabilities => exact sound_listCapabilities h

/-- A project with two objects, of which the second one has the given relations. -/
def twoObjects (relations : List String) : Catalog where
  projects := (Table.empty.insertNew "project" ⟨"slug", "t0"⟩).getD .empty
  objects := (((Table.empty.insertNew "a" "t1").getD .empty).insertNew "b" "t1").getD .empty
  projectObjects := Table.empty.upsertAll
    (("project", "a", "managed") :: relations.map fun relation => ("project", "b", relation)) ()

end WorkspaceRuntime.Paging
