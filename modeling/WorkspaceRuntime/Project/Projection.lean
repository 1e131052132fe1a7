import WorkspaceRuntime.Project.Payload

/-!
# The mutable projection of a shot

A shot is kept twice: as the row of `project_shots` with its rows of `shot_items`, and as the payload
of its head revision. `applyPublishedShotProjection` writes the rows from a payload,
`shotProjectionMatchesRevision` compares the two, and `verifyShotHeadProjection` refuses a head that
does not match.
-/

namespace WorkspaceRuntime.Project

open Fallible

/-! ## Payloads that can be projected -/

/-- `item.get("item_id", item.get("id"))`. -/
def itemIdOf (item : Json.Fields) : Json := fieldOr item "item_id" "id" .null

/-- `_validate_published_shot_payload`. -/
def validatePublishedShotPayload (payload : Json) : Except Err Unit := do
  require (((payload.get? "metadata").getD (.obj [])).asObj.isSome ∧
      ((payload.get? "items").getD (.arr [])).asArr.isSome)
    (.validation "shot revision payload cannot be projected losslessly")
  require (∀ item ∈ ((payload.get? "items").bind Json.asArr).getD [], ∃ fields ∈ item.asObj,
      (itemIdOf fields).asStr.isSome ∧ (field fields "media_id").truthy = true)
    (.validation "shot revision items cannot be projected losslessly")

/-! ## Writing the projection -/

/-- A value written to a column that must hold JSON. -/
def jsonColumn (num : Json.Numerals) (v : Json) : Except Err Json := do
  require (v.hasText num = true) (.integrity "json_valid")
  return v

/-- The name of a shot in a payload: `str(payload.get("name") or shot_id)`. -/
def nameOf (num : Json.Numerals) (shot : ShotId) (payload : Json) : String :=
  let name := (payload.get? "name").getD .null
  if name.truthy then name.toText num else shot

/-- The row of `shot_items` that one item of a payload becomes. -/
def projectItem (num : Json.Numerals) (now : Time) (item : Json) : Except Err Item := do
  let fields ← orThrow item.asObj (.keyError "item")
  let sourceFrame ← orThrow ((field fields "source_frame").bindInteger num)
    (.keyError "type is not supported")
  let metadata ← jsonColumn num ((fields.get "metadata").getD (.obj []))
  return { id := (itemIdOf fields).toText num
           mediaId := withoutScheme ((field fields "media_id").toText num), sourceFrame, metadata
           createdAt := now }

namespace State

variable (s : State) (host : Host) (project : ProjectId) (shot : ShotId)

/-- No other shot has an item of this id. -/
def ItemFree (id : String) : Prop :=
  ∀ e ∈ s.shots.entries, e.1 ≠ shot → ∀ item ∈ e.2.items, item.id ≠ id

instance (s : State) (shot : ShotId) (id : String) : Decidable (s.ItemFree shot id) :=
  inferInstanceAs (Decidable (∀ e ∈ s.shots.entries, _ → _))

/-- The version of a shot after its next write. The row of a shot of another project is in the way. -/
def nextVersion (shot : ShotId) : Except Err Nat :=
  match s.shots.lookup shot with
  | none => .ok 1
  | some row => do
    require (row.projectId = project) (.integrity "project_shots")
    return row.version + 1

/-- `_apply_published_shot_projection`. -/
def applyPublishedShotProjection (payload : Json) (now : Time) : Except Err State := do
  validatePublishedShotPayload payload
  let name := nameOf host.numerals shot payload
  require (name.toList.any (· ≠ ' ') = true) (.integrity "project_shots")
  let metadata ← jsonColumn host.numerals ((payload.get? "metadata").getD (.obj []))
  let archivedAt := if payload.get? "archived" = some (.bool true) then some now else none
  let version ← s.nextVersion project shot
  let items ← (((payload.get? "items").bind Json.asArr).getD []).mapM
    (projectItem host.numerals now)
  require ((items.map Item.id).Nodup ∧ ∀ item ∈ items, s.ItemFree shot item.id)
    (.integrity "shot_items")
  let row : Shot :=
    { projectId := project, name, metadata, version, archivedAt, items, updatedAt := now
      createdAt := ((s.shots.lookup shot).map Shot.createdAt).getD now }
  return { s with shots := s.shots.upsert shot row }

/-! ## Reading it back -/

/-- One item of the projection against one item of a payload. -/
def itemMatches (num : Json.Numerals) (item : Item) (expected : Json) : Bool :=
  match expected.asObj with
  | some fields =>
    item.id = (itemIdOf fields).toText num &&
      withoutScheme item.mediaId =
        withoutScheme (((fields.get "media_id").getD (.str "")).toText num) &&
      decide (item.sourceFrame.Equals num (field fields "source_frame")) &&
      decide (item.metadata.Equals num ((fields.get "metadata").getD (.obj [])))
  | none => false

/-- The items of the projection against the items of a payload. -/
def itemsMatch (num : Json.Numerals) : List Item → List Json → Bool
  | [], [] => true
  | item :: items, v :: expected => itemMatches num item v && itemsMatch num items expected
  | _, _ => false

/-- `_shot_projection_matches_revision`. A payload that it cannot read does not match. -/
def shotProjectionMatchesRevision (payload : Json) : Bool :=
  match s.shots.lookup shot with
  | none => false
  | some row =>
    row.projectId = project && row.name = nameOf host.numerals shot payload &&
      decide (row.metadata.Equals host.numerals ((payload.get? "metadata").getD (.obj []))) &&
      row.archivedAt.isSome = ((payload.get? "archived").getD (.bool false)).truthy &&
      ((payload.get? "items").getD (.arr [])).asArr.any (itemsMatch host.numerals row.items)

/-- `_verify_shot_head_projection`. -/
def verifyShotHeadProjection (revision : RevisionId) : Except Err Unit := do
  let missing := Err.conflict "shot head points to a missing revision"
  let row ← orThrow (s.shotRevisions.lookup revision) missing
  require (row.projectId = project ∧ row.shotId = shot) missing
  require (host.revisionDigest row.payload = row.contentDigest ∧
      s.shotProjectionMatchesRevision host project shot row.payload = true)
    (.conflict "shot head and mutable projection do not match")

end State

/-! ## What a projection writes -/

/-- The items of a payload. -/
def payloadItems (payload : Json) : List Json := ((payload.get? "items").bind Json.asArr).getD []

/-- The row that a payload becomes, over the row that is there. -/
structure Projects (host : Host) (project : ProjectId) (shot : ShotId) (payload : Json) (now : Time)
    (old : Option Shot) (row : Shot) : Prop where
  valid : validatePublishedShotPayload payload = .ok ()
  name : row.name = nameOf host.numerals shot payload
  name_any : row.name.toList.any (· ≠ ' ') = true
  metadata : row.metadata = (payload.get? "metadata").getD (.obj [])
  metadata_text : row.metadata.hasText host.numerals = true
  archivedAt : row.archivedAt = if payload.get? "archived" = some (.bool true) then some now else none
  projectId : row.projectId = project
  owner : ∀ r ∈ old, r.projectId = project
  version : row.version = old.elim 1 (·.version + 1)
  createdAt : row.createdAt = (old.map Shot.createdAt).getD now
  updatedAt : row.updatedAt = now
  items : (payloadItems payload).mapM (projectItem host.numerals now) = .ok row.items
  nodup : (row.items.map Item.id).Nodup

variable {num : Json.Numerals} {s : State} {project : ProjectId} {shot : ShotId} {now : Time}

theorem jsonColumn_eq_ok {v v' : Json} :
    jsonColumn num v = .ok v' ↔ v.hasText num = true ∧ v' = v := by
  simp only [jsonColumn, bind_eq_ok, require_eq_ok, return_ok, exists_const]
  exact and_congr_right fun _ => eq_comm

theorem nextVersion_eq_ok {version : Nat} :
    s.nextVersion project shot = .ok version ↔ (∀ r ∈ s.shots.lookup shot, r.projectId = project) ∧
      version = (s.shots.lookup shot).elim 1 (·.version + 1) := by
  unfold State.nextVersion
  cases s.shots.lookup shot with
  | none => simp [eq_comm]
  | some row =>
    simp only [bind_eq_ok, require_eq_ok, return_ok, exists_const,
      Option.mem_some_iff, forall_eq, Option.elim_some, eq_comm (a := row.version + 1),
      eq_comm (a := row)]

/-- A projection replaces one row, whose items no other shot has. -/
theorem applyPublishedShotProjection_eq_ok {s' : State} {host : Host} {payload : Json} :
    s.applyPublishedShotProjection host project shot payload now = .ok s' ↔
      ∃ row, Projects host project shot payload now (s.shots.lookup shot) row ∧
        (∀ item ∈ row.items, s.ItemFree shot item.id) ∧
        s' = { s with shots := s.shots.upsert shot row } := by
  simp only [State.applyPublishedShotProjection, bind_eq_ok, require_eq_ok, jsonColumn_eq_ok,
    nextVersion_eq_ok, return_ok]
  constructor
  · rintro ⟨_, hvalid, _, hname, _, ⟨htext, rfl⟩, _, ⟨howner, rfl⟩, items, hitems, _,
      ⟨hnodup, hfree⟩, rfl⟩
    refine ⟨_, ?_, hfree, rfl⟩
    exact ⟨hvalid, rfl, hname, rfl, htext, rfl, rfl, howner, rfl, rfl, rfl, hitems, hnodup⟩
  · rintro ⟨row, h, hfree, rfl⟩
    refine ⟨(), h.valid, (), h.name ▸ h.name_any, _, ⟨h.metadata ▸ h.metadata_text, rfl⟩, _,
      ⟨h.owner, rfl⟩, row.items, h.items, (), ⟨h.nodup, hfree⟩, ?_⟩
    rw [← h.name, ← h.metadata, ← h.archivedAt, ← h.version, ← h.createdAt]
    conv_lhs => rw [← h.projectId, ← h.updatedAt]

/-- The ids that the items of a payload are stored under. -/
def listedItems (num : Json.Numerals) (payload : Json) : List String :=
  (payloadItems payload).filterMap fun item =>
    item.asObj.map fun fields => (itemIdOf fields).toText num

theorem itemId_mem_listed :
    ∀ {items : List Json} {rows : List Item}, items.mapM (projectItem num now) = .ok rows →
      ∀ row ∈ rows,
      row.id ∈ items.filterMap fun item => item.asObj.map fun fields => (itemIdOf fields).toText num
  | [], rows, h, row, hrow => by
    obtain rfl := Except.ok.inj h
    simp at hrow
  | item :: items, rows, h, row, hrow => by
    simp only [List.mapM_cons, bind_eq_ok, return_ok] at h
    obtain ⟨row', hitem, rows', hitems, rfl⟩ := h
    simp only [projectItem, bind_eq_ok, orThrow_eq_ok, return_ok] at hitem
    obtain ⟨fields, hfields, _, -, _, -, rfl⟩ := hitem
    rw [List.filterMap_cons, hfields]
    rcases List.mem_cons.mp hrow with rfl | hrow
    · exact List.mem_cons_self
    · exact .tail _ (itemId_mem_listed hitems row hrow)

theorem Projects.id_mem_listed {host : Host} {payload : Json} {old : Option Shot} {row : Shot}
    (h : Projects host project shot payload now old row) {item : Item} (hitem : item ∈ row.items) :
    item.id ∈ listedItems host.numerals payload :=
  itemId_mem_listed h.items item hitem

theorem itemFree_iff {id : String} :
    s.ItemFree shot id ↔ ∀ other row, s.shots.lookup other = some row → other ≠ shot →
      ∀ item ∈ row.items, item.id ≠ id := by
  simp only [State.ItemFree, Prod.forall, Table.lookup_eq_some_iff]

end WorkspaceRuntime.Project
