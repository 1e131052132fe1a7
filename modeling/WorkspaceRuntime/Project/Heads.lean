import WorkspaceRuntime.Project.Alike
import WorkspaceRuntime.Project.Closure
import WorkspaceRuntime.Project.History
import WorkspaceRuntime.Project.Shots

/-!
# Heads and projections

A shot is kept as rows and as the payload of its head revision. The commands on shots write the rows
first and read the payload from them. A publication writes the rows from the payload. The two agree in
every reachable state as long as each payload that is published can be read back from the rows it
becomes: `Faithful` says when.
-/

namespace WorkspaceRuntime.Project

open Fallible Timeline Project.State Json Table

variable {host : Host} {env : Env} {project : ProjectId} {now : Time} {s s' s₁ s₂ t : State}
  {shot : ShotId} {row : Shot} {payload : Json}

/-! ## Payloads that the rows can hold -/

/-- What the columns keep of an item compares equal to the item. -/
def ItemFaithful (num : Numerals) (item : Fields) : Prop :=
  withoutScheme (withoutScheme ((field item "media_id").toText num)) =
      withoutScheme ((field item "media_id").toText num) ∧
    ∀ v, (field item "source_frame").bindInteger num = some v →
      v.Equals num (field item "source_frame")

/-- What the rows keep of a payload compares equal to the payload. -/
structure Faithful (num : Numerals) (payload : Json) : Prop where
  archived : ((payload.get? "archived").getD (.bool false)).truthy = true →
    payload.get? "archived" = some (.bool true)
  items : ∀ item ∈ payloadItems payload, ∀ fields, item.asObj = some fields →
    ItemFaithful num fields

theorem itemMatches_of_projectItem {num : Numerals} {item : Json} {r : Item}
    (h : projectItem num now item = .ok r)
    (hmedia : ∀ fields, item.asObj = some fields → (field fields "media_id").truthy = true)
    (hfaithful : ∀ fields, item.asObj = some fields → ItemFaithful num fields) :
    itemMatches num r item = true := by
  simp only [projectItem, bind_eq_ok, orThrow_eq_ok, jsonColumn_eq_ok, pure_eq_ok,
    Except.ok.injEq] at h
  obtain ⟨fields, hfields, frame, hframe, _, ⟨-, rfl⟩, rfl⟩ := h
  obtain ⟨hscheme, hequals⟩ := hfaithful fields hfields
  have hget : (fields.get "media_id").getD (.str "") = field fields "media_id" := by
    have htruthy := hmedia fields hfields
    unfold field at htruthy ⊢
    cases hv : fields.get "media_id" with
    | none => rw [hv] at htruthy; cases htruthy
    | some v => rfl
  simp [itemMatches, hfields, hget, hscheme, hequals frame hframe]

theorem itemsMatch_of_mapM {num : Numerals} : ∀ {items : List Json} {rows : List Item},
    items.mapM (projectItem num now) = .ok rows →
    (∀ item ∈ items, ∀ fields, item.asObj = some fields →
      (field fields "media_id").truthy = true ∧ ItemFaithful num fields) →
    itemsMatch num rows items = true
  | [], rows, h, _ => by
    obtain rfl := Except.ok.inj h
    rfl
  | item :: items, rows, h, hitems => by
    simp only [List.mapM_cons, bind_eq_ok, return_ok] at h
    obtain ⟨r, hr, rows', hrows, rfl⟩ := h
    have hitem := hitems item List.mem_cons_self
    rw [itemsMatch, itemMatches_of_projectItem hr (fun fs hfs => (hitem fs hfs).1)
      (fun fs hfs => (hitem fs hfs).2), Bool.true_and]
    exact itemsMatch_of_mapM hrows fun item hmem => hitems item (.tail _ hmem)

/-- What a projection writes matches a payload that the rows can hold. -/
theorem Projects.matches {old : Option Shot} (h : Projects host project shot payload now old row)
    (hfaithful : Faithful host.numerals payload) (hrow : s.shots.lookup shot = some row) :
    s.shotProjectionMatchesRevision host project shot payload = true := by
  have hvalid := h.valid
  simp only [validatePublishedShotPayload, bind_eq_ok, require_eq_ok, exists_const] at hvalid
  obtain ⟨⟨-, hlist⟩, hall⟩ := hvalid
  obtain ⟨items, hitems⟩ := Option.isSome_iff_exists.mp hlist
  have hpayload : payloadItems payload = items := by
    unfold payloadItems
    cases hget : payload.get? "items" with
    | none =>
      rw [hget] at hitems
      exact Option.some.inj hitems
    | some v =>
      rw [hget] at hitems
      rw [Option.bind_some, show v.asArr = some items from hitems, Option.getD_some]
  have hmatch : itemsMatch host.numerals row.items items = true := by
    refine itemsMatch_of_mapM (hpayload ▸ h.items) fun item hmem fields hfields => ⟨?_, ?_⟩
    · have hmem' : item ∈ payloadItems payload := hpayload ▸ hmem
      obtain ⟨fields', hfields', -, htruthy⟩ := hall item hmem'
      obtain rfl := Option.mem_unique hfields hfields'
      exact htruthy
    · exact hfaithful.items item (hpayload ▸ hmem) fields hfields
  have harchived : row.archivedAt.isSome = ((payload.get? "archived").getD (.bool false)).truthy := by
    rw [h.archivedAt]
    cases htruthy : ((payload.get? "archived").getD (.bool false)).truthy with
    | true => rw [if_pos (hfaithful.archived htruthy)]; rfl
    | false =>
      rw [if_neg fun harchived => by rw [harchived] at htruthy; cases htruthy]
      rfl
  rw [shotProjectionMatchesRevision, hrow]
  simp [h.projectId, h.name, h.metadata, harchived, hitems, hmatch]

/-! ## Materialised rows -/

theorem itemMatches_itemResource {num : Numerals} (item : Item) (index : Nat) :
    itemMatches num item (itemResource host shot item index) = true := by
  simp [itemMatches, itemResource, asObj, itemIdOf, field, fieldOr, Fields.get_cons,
    toText]

theorem itemsMatch_itemResources {num : Numerals} : ∀ (items : List Item) (start : Nat),
    itemsMatch num items
      ((items.zipIdx start).map fun e => itemResource host shot e.1 e.2) = true
  | [], _ => rfl
  | item :: items, start => by
    rw [List.zipIdx_cons, List.map_cons, itemsMatch, itemMatches_itemResource, Bool.true_and]
    exact itemsMatch_itemResources items (start + 1)

/-- The payload of the rows of a shot matches them. -/
theorem matches_of_shotRevisionPayload {fields : Fields} {id : RevisionId}
    (hfields : completeShotPayload (shotRevisionPayload host shot row) id = .ok fields)
    (hproject : row.projectId = project) (hname : row.name ≠ "")
    (hrow : s.shots.lookup shot = some row) (internalId : RevisionId) :
    s.shotProjectionMatchesRevision host project shot
      (.obj (fields.set "internal_timeline_revision_id" (.str internalId))) = true := by
  simp only [completeShotPayload, bind_eq_ok, return_ok] at hfields
  obtain ⟨-, -, rfl⟩ := hfields
  have hget : ∀ name {v}, (shotRevisionPayload host shot row).get name = some v →
      (∀ a ∈ shotAliases, a.1 ≠ name) → name ≠ "internal_timeline_revision_id" →
      (obj (((complete (shotRevisionPayload host shot row) shotAliases shotDefaults).set
        "internal_timeline_revision_id" (.str id)).set "internal_timeline_revision_id"
        (.str internalId))).get? name = some v := by
    intro name v hv haliases hne
    rw [get?_obj, Fields.get_set_of_ne _ _ hne, Fields.get_set_of_ne _ _ hne]
    exact get_complete hv haliases
  have harchived := hget "archived" rfl (by decide) (by decide)
  have hitems := hget "items" rfl (by decide) (by decide)
  have hmetadata := hget "metadata" rfl (by decide) (by decide)
  have hnamed := hget "name" rfl (by decide) (by decide)
  have hmatch : itemsMatch host.numerals row.items (itemResources host shot row) = true :=
    itemsMatch_itemResources row.items 0
  rw [shotProjectionMatchesRevision, hrow]
  simp [harchived, hitems, hmetadata, hnamed, hproject, nameOf, truthy, hname, toText,
    asArr, hmatch]

/-! ## The invariant -/

/-- The head of a shot is a revision of the shot, and matches its rows. -/
def State.HeadMatches (s : State) (host : Host) (shot : ShotId) : Prop :=
  ∀ head, s.shotHeads.lookup shot = some head → ∃ row,
    s.shotRevisions.lookup head.revisionId = some row ∧ row.projectId = head.projectId ∧
      row.shotId = shot ∧
      s.shotProjectionMatchesRevision host head.projectId shot row.payload = true

/-- A committed payload is complete and the rows can hold it, or its internal revision is one that a
command on the shot made. -/
def State.Materialised (s : State) (host : Host) (row : ShotRevision) : Prop :=
  (∃ fields : Fields, row.payload = .obj fields ∧ Completed fields shotDefaults ∧
      Faithful host.numerals row.payload) ∨
    ∃ internal, s.internalRevisions.lookup row.internalId = some internal ∧
      internal.payload.get? "clips" = none

/-- Every shot has a name. -/
def State.Named (s : State) : Prop :=
  ∀ shot row, s.shots.lookup shot = some row → row.name ≠ ""

/-- What holds between the rows, the heads and the revisions of the shots. -/
structure State.Matched (host : Host) (s : State) : Prop where
  named : ∀ shot row, s.shots.lookup shot = some row → row.name ≠ ""
  heads : ∀ shot, s.HeadMatches host shot
  linked : ∀ id row, s.shotRevisions.lookup id = some row →
    ∃ head, s.shotHeads.lookup row.shotId = some head
  materialised : ∀ id row, s.shotRevisions.lookup id = some row → s.Materialised host row

theorem State.Named.upsert (h : s.Named) (hname : row.name ≠ "")
    (hshots : t.shots = s.shots.upsert shot row) : t.Named := by
  intro other r hr
  rw [hshots, lookup_upsert] at hr
  split at hr
  next => exact Option.some.inj hr ▸ hname
  next => exact h other r hr

/-- A match depends on the rows of the shot only. -/
theorem matches_congr (h : t.shots.lookup shot = s.shots.lookup shot) :
    t.shotProjectionMatchesRevision host project shot payload =
      s.shotProjectionMatchesRevision host project shot payload := by
  rw [shotProjectionMatchesRevision, shotProjectionMatchesRevision, h]

/-- A shot that is left alone keeps its head, and the head matches. -/
theorem State.HeadMatches.of_eq (h : s.HeadMatches host shot)
    (hshots : t.shots.lookup shot = s.shots.lookup shot)
    (hheads : t.shotHeads.lookup shot = s.shotHeads.lookup shot)
    (hrevisions : Extends s.shotRevisions t.shotRevisions) : t.HeadMatches host shot := by
  intro head hhead
  obtain ⟨row, hrow, hproject, hshot, hmatches⟩ := h head (hheads ▸ hhead)
  exact ⟨row, hrevisions _ _ hrow, hproject, hshot, (matches_congr hshots).trans hmatches⟩

theorem State.Materialised.mono {row : ShotRevision} (h : s.Materialised host row)
    (hinternal : Extends s.internalRevisions t.internalRevisions) : t.Materialised host row :=
  h.imp_right fun ⟨internal, hrow, hclips⟩ => ⟨internal, hinternal _ _ hrow, hclips⟩

/-! ## Commands on shots -/

/-- A command wrote the row of a shot and made its payload the head. -/
structure Materialises (host : Host) (s s' : State) (shot : ShotId) (row : Shot)
    (revisionId : RevisionId) (revision : ShotRevision) : Prop where
  shots : s'.shots = s.shots.upsert shot row
  heads : s'.shotHeads = s.shotHeads.upsert shot ⟨row.projectId, revisionId⟩
  revisions : s.shotRevisions.insertNew revisionId revision = some s'.shotRevisions
  internal : Extends s.internalRevisions s'.internalRevisions
  projectId : revision.projectId = row.projectId
  shotId : revision.shotId = shot
  inner : ∃ internal, s'.internalRevisions.lookup revision.internalId = some internal ∧
    internal.payload.get? "clips" = none
  matches_of : row.name ≠ "" → s'.shotProjectionMatchesRevision host row.projectId shot
    revision.payload = true

theorem recordInternalRevision_eq_ok {id : String} {p : Json}
    (h : s.recordInternalRevision host project shot p id = .ok s') :
    s' = { s with internalRevisions := s'.internalRevisions } ∧
      Extends s.internalRevisions s'.internalRevisions ∧
      ∃ internal, s'.internalRevisions.lookup id = some internal ∧ internal.payload = p := by
  simp only [recordInternalRevision, bind_eq_ok, revisionId_eq_ok, str.injEq] at h
  obtain ⟨-, -, _, ⟨rfl, -⟩, h⟩ := h
  refine ⟨insertInternal_only h, (keeps_insertInternal h).internal, ?_⟩
  rw [lookup_of_insertInternal h, if_pos rfl]
  exact ⟨_, rfl, rfl⟩

theorem recordLegacyShotRevision_eq_ok {r : Recorded} (hproject : row.projectId = project)
    (h : recordLegacyShotRevision { s with shots := s.shots.upsert shot row } host env project
      shot row = .ok (s', r)) :
    ∃ revisionId revision, Materialises host s s' shot row revisionId revision := by
  simp only [recordLegacyShotRevision, bind_eq_ok, jsonColumn_eq_ok, orThrow_eq_ok, pure_eq_ok,
    Except.ok.injEq, Prod.mk.injEq] at h
  obtain ⟨fields, hfields, s₁, hinternal, _, ⟨-, rfl⟩, revisions, hinsert, rfl, -⟩ := h
  obtain ⟨honly, hextends, internal, hscoped, hpayload⟩ := recordInternalRevision_eq_ok hinternal
  have hshots : s₁.shots = s.shots.upsert shot row := by rw [honly]
  have hheads : s₁.shotHeads = s.shotHeads := by rw [honly]
  have hrevisions : s₁.shotRevisions = s.shotRevisions := by rw [honly]
  refine ⟨env.newId 3, _, hshots, ?_, hrevisions ▸ hinsert, hextends, hproject.symm, rfl,
    ⟨internal, hscoped, ?_⟩, fun hname => ?_⟩
  · rw [hheads, hproject]
  · rw [hpayload]
    rfl
  · rw [hproject]
    refine matches_of_shotRevisionPayload hfields hproject hname ?_ _
    show s₁.shots.lookup shot = some row
    rw [hshots, lookup_upsert, if_pos rfl]

/-- A command on a shot keeps what holds between rows, heads and revisions. -/
theorem Materialises.matched {revisionId : RevisionId} {revision : ShotRevision}
    (h : Materialises host s s' shot row revisionId revision) (hname : row.name ≠ "")
    (hs : s.Matched host) : s'.Matched host where
  named := State.Named.upsert hs.named hname h.shots
  heads := by
    intro other
    by_cases hother : other = shot
    · subst hother
      intro head hhead
      rw [h.heads, lookup_upsert, if_pos rfl] at hhead
      cases hhead
      refine ⟨revision, ?_, h.projectId, h.shotId, h.matches_of hname⟩
      rw [lookup_insertNew h.revisions, if_pos rfl]
    · refine (hs.heads other).of_eq ?_ ?_ (.insertNew h.revisions)
      · rw [h.shots, lookup_upsert, if_neg hother]
      · rw [h.heads, lookup_upsert, if_neg hother]
  linked := by
    intro id r hr
    rw [h.heads, lookup_upsert]
    split
    next => exact ⟨_, rfl⟩
    next hother =>
      rw [lookup_insertNew h.revisions] at hr
      split at hr
      next => exact absurd (Option.some.inj hr ▸ h.shotId) hother
      next => exact hs.linked id r hr
  materialised := by
    intro id r hr
    rw [lookup_insertNew h.revisions] at hr
    split at hr
    next =>
      cases hr
      exact .inr h.inner
    next => exact (hs.materialised id r hr).mono h.internal

/-- A command on the shots of a project: its selector, shot, body and key. -/
inductive ShotCall where
  | create (project : String) (body : Json) (key : Option String)
  | update (action : ShotAction) (project : String) (shot : ShotId) (body : Json)
      (key : Option String)
  | addItem (project : String) (shot : ShotId) (body : Json) (key : Option String)
  | removeItem (project : String) (shot : ShotId) (item : String) (body : Json) (key : Option String)
  | reorderItems (project : String) (shot : ShotId) (body : Json) (key : Option String)
  | promoteCandidate (project : String) (shot : ShotId) (body : Json) (key : Option String)

/-- The answer of a call, and the state after it. -/
def ShotCall.outcome (host : Host) (env : Env) (s : State) : ShotCall → Except Err (State × Answer)
  | .create project body key => s.createProjectShot host env project body key
  | .update action project shot body key =>
    s.updateProjectShot host env action project shot body key
  | .addItem project shot body key => s.addShotItem host env project shot body key
  | .removeItem project shot item body key => s.removeShotItem host env project shot item body key
  | .reorderItems project shot body key => s.reorderShotItems host env project shot body key
  | .promoteCandidate project shot body key =>
    s.promoteProjectShotCandidate host env project shot body key

theorem finishShot_eq_ok {kind : Kind} {aggregate : String} {key : Option String} {request : Json}
    {answer : Answer} (hproject : row.projectId = project) (hname : row.name ≠ "")
    (h : s.finishShot host env project shot row kind aggregate key request = .ok (s', answer)) :
    ∃ shot row id revision, row.name ≠ "" ∧ Materialises host s s' shot row id revision := by
  simp only [finishShot, bind_eq_ok, return_ok, Prod.mk.injEq] at h
  obtain ⟨⟨s₁, recorded⟩, hrecord, ledger, -, rfl, -⟩ := h
  obtain ⟨id, revision, hmaterialises⟩ := recordLegacyShotRevision_eq_ok hproject hrecord
  exact ⟨shot, row, id, revision, hname, { hmaterialises with }⟩

theorem projectShot_eq_ok (h : s.projectShot project shot = .ok row) :
    s.shots.lookup shot = some row ∧ row.projectId = project := by
  obtain ⟨hrow, hproject⟩ := Option.filter_eq_some_iff.mp (orThrow_eq_ok.mp h)
  exact ⟨hrow, of_decide_eq_true hproject⟩

theorem ne_empty_of_any {name : String} (h : name.toList.any (· ≠ ' ') = true) : name ≠ "" := by
  rintro rfl
  cases h

/-- A command on a shot is answered from the ledger, or it materialises a row with a name. -/
theorem shotCall_eq_ok {call : ShotCall} {answer : Answer} (hnamed : s.Named)
    (h : call.outcome host env s = .ok (s', answer)) :
    s' = s ∨ ∃ shot row id revision, row.name ≠ "" ∧
      Materialises host s s' shot row id revision := by
  cases call with
  | create selector body key =>
    simp only [ShotCall.outcome, createProjectShot, bind_eq_ok] at h
    obtain ⟨fields, -, project, -, -, -, -, -, found, -, h⟩ := h
    cases found with
    | some data => cases h; exact .inl rfl
    | none =>
      simp only [bind_eq_ok, require_eq_ok] at h
      obtain ⟨-, -, _, hname, metadata, -, h⟩ := h
      exact .inr (finishShot_eq_ok rfl (ne_empty_of_any hname) h)
  | update action selector shot body key =>
    simp only [ShotCall.outcome, updateProjectShot, bind_eq_ok] at h
    obtain ⟨_, -, fields, -, project, -, expected, -, found, -, h⟩ := h
    cases found with
    | some data => cases h; exact .inl rfl
    | none =>
      simp only [bind_eq_ok, require_eq_ok] at h
      obtain ⟨row, hrow, -, -, -, -, _, hname, metadata, -, h⟩ := h
      exact .inr (finishShot_eq_ok (by exact (projectShot_eq_ok hrow).2) (ne_empty_of_any hname) h)
  | addItem selector shot body key =>
    simp only [ShotCall.outcome, addShotItem, bind_eq_ok] at h
    obtain ⟨fields, -, project, -, -, -, -, -, row, hrow, found, -, h⟩ := h
    obtain ⟨hlookup, hproject⟩ := projectShot_eq_ok hrow
    cases found with
    | some data => cases h; exact .inl rfl
    | none =>
      simp only [bind_eq_ok] at h
      obtain ⟨-, -, position, -, item, -, h⟩ := h
      exact .inr (finishShot_eq_ok (by exact hproject) (by exact hnamed shot row hlookup) h)
  | removeItem selector shot item body key =>
    simp only [ShotCall.outcome, removeShotItem, bind_eq_ok] at h
    obtain ⟨fields, -, project, -, row, hrow, expected, -, found, -, h⟩ := h
    obtain ⟨hlookup, hproject⟩ := projectShot_eq_ok hrow
    cases found with
    | some data => cases h; exact .inl rfl
    | none =>
      simp only [bind_eq_ok] at h
      obtain ⟨-, -, -, -, h⟩ := h
      exact .inr (finishShot_eq_ok (by exact hproject) (by exact hnamed shot row hlookup) h)
  | reorderItems selector shot body key =>
    simp only [ShotCall.outcome, reorderShotItems, bind_eq_ok] at h
    obtain ⟨fields, -, project, -, row, hrow, expected, -, ids, -, found, -, h⟩ := h
    obtain ⟨hlookup, hproject⟩ := projectShot_eq_ok hrow
    cases found with
    | some data => cases h; exact .inl rfl
    | none =>
      simp only [bind_eq_ok] at h
      obtain ⟨-, -, -, -, h⟩ := h
      exact .inr (finishShot_eq_ok (by exact hproject) (by exact hnamed shot row hlookup) h)
  | promoteCandidate selector shot body key =>
    simp only [ShotCall.outcome, promoteProjectShotCandidate, bind_eq_ok] at h
    obtain ⟨fields, -, _, -, candidate, -, expected, -, assets, -, found, -, h⟩ := h
    cases found with
    | some data => cases h; exact .inl rfl
    | none =>
      simp only [bind_eq_ok, return_ok, Prod.mk.injEq] at h
      obtain ⟨project, -, row, hrow, -, -, superseded, -, ⟨s₁, recorded⟩, hrecord, report, -, ledger, -,
        rfl, -⟩ := h
      obtain ⟨hlookup, hproject⟩ := projectShot_eq_ok hrow
      obtain ⟨id, revision, hm⟩ := recordLegacyShotRevision_eq_ok (by exact hproject) hrecord
      refine .inr ⟨shot, _, id, revision, ?_, { hm with }⟩
      exact hnamed shot row hlookup

/-! ## Publications

A publication projects every new revision before it moves a head. Between the two loops the rows of a
shot are those of the last new revision of it, which is the one that the second loop makes the head. -/

section Publication

variable {e : ShotEntry} {shots shots' left : List ShotEntry}

/-- The last new revision of a shot. -/
def lastNew (shot : ShotId) (shots : List ShotEntry) : Option ShotEntry :=
  (shots.filter fun e => e.shotId = shot ∧ e.existing = false).getLast?

theorem lastNew_cons (e : ShotEntry) : lastNew shot (e :: shots) = (lastNew shot shots).or
      (if e.shotId = shot ∧ e.existing = false then some e else none) := by
  unfold lastNew
  rw [List.filter_cons]
  by_cases h : e.shotId = shot ∧ e.existing = false
  · rw [if_pos (by simpa using h), if_pos h, List.getLast?_cons]
    cases (shots.filter fun e => decide (e.shotId = shot ∧ e.existing = false)).getLast? <;> rfl
  · rw [if_neg (by simpa using h), if_neg h, Option.or_none]

theorem lastNew_append (e : ShotEntry) : lastNew shot (shots ++ [e]) =
      if e.shotId = shot ∧ e.existing = false then some e else lastNew shot shots := by
  unfold lastNew
  rw [List.filter_append, List.filter_cons, List.filter_nil]
  by_cases h : e.shotId = shot ∧ e.existing = false
  · rw [if_pos (by simpa using h), if_pos h, List.getLast?_append]
    rfl
  · rw [if_neg (by simpa using h), if_neg h, List.append_nil]

/-- The rows of the shot are those of a committed revision. -/
structure State.Holds (s : State) (host : Host) (project : ProjectId) (e : ShotEntry) : Prop where
  committed : s.shotRevisions.lookup e.revisionId = some (e.row project)
  matches_rows : s.shotProjectionMatchesRevision host project e.shotId e.payload = true

theorem State.Holds.mono (h : s.Holds host project e)
    (hshots : t.shots.lookup e.shotId = s.shots.lookup e.shotId)
    (hrevisions : Extends s.shotRevisions t.shotRevisions) : t.Holds host project e :=
  ⟨hrevisions _ _ h.committed, (matches_congr hshots).trans h.matches_rows⟩

theorem ShotStep.extends_revisions {e' : ShotEntry} (h : ShotStep host project now s e s' e') :
    Extends s.shotRevisions s'.shotRevisions := by
  cases h with
  | existing | found => exact .refl _
  | written _ _ _ _ _ hinsert => exact .insertNew hinsert

/-- What the first loop has made of the shots after some rounds. -/
def Projected (host : Host) (project : ProjectId) (start : State) (done : State × List ShotEntry) :
    Prop :=
  ∀ shot, match lastNew shot done.2 with
    | some e => e.shotId = shot ∧ done.1.Holds host project e
    | none => done.1.shots.lookup shot = start.shots.lookup shot

theorem Projected.step {start : State} {done : List ShotEntry} {e' : ShotEntry}
    (h : Projected host project start (s, done)) (hstep : ShotStep host project now s e s' e')
    (hfaithful : e.existing = false → Faithful host.numerals e.payload) :
    Projected host project start (s', done ++ [e']) := by
  have hextends := hstep.extends_revisions
  intro shot
  have hbefore := h shot
  dsimp only at hbefore ⊢
  rw [lastNew_append]
  cases hstep with
  | existing hold => rwa [if_neg fun h => by rw [hold] at h; cases h.2]
  | found => rwa [if_neg fun h => by cases h.2]
  | @written row revisions hnew _ hrow _ _ hinsert =>
    by_cases hshot : e.shotId = shot
    · rw [if_pos ⟨hshot, hnew⟩]
      refine ⟨hshot, ?_, hrow.matches (hfaithful hnew) ?_⟩
      · rw [lookup_insertNew hinsert, if_pos rfl]
      · rw [lookup_upsert, if_pos rfl]
    · have hlookup : (s.shots.upsert e.shotId row).lookup shot = s.shots.lookup shot := by
        rw [lookup_upsert, if_neg (Ne.symm hshot)]
      rw [if_neg fun h => hshot h.1]
      cases hlast : lastNew shot done with
      | none =>
        rw [hlast] at hbefore
        exact hlookup.trans hbefore
      | some e₁ =>
        rw [hlast] at hbefore
        obtain ⟨rfl, hholds⟩ := hbefore
        exact ⟨rfl, hholds.mono hlookup hextends⟩

/-- What the second loop has made of the shots, before the rounds that are left. -/
structure Pending (host : Host) (project : ProjectId) (left : List ShotEntry) (s : State) : Prop where
  shots : ∀ shot, match lastNew shot left with
    | some e => e.shotId = shot ∧ s.Holds host project e
    | none => s.HeadMatches host shot
  linked : ∀ e ∈ left, e.existing = true → ∃ head, s.shotHeads.lookup e.shotId = some head

/-- The head of the shot of a round, when nothing new of the shot is left. -/
theorem HeadStep.headMatches (h : HeadStep host project now s e s')
    (hnew : e.existing = false) (hholds : s.Holds host project e) :
    s'.HeadMatches host e.shotId := by
  have hrevision : ∀ head, s'.shotHeads.lookup e.shotId = some head →
      head = ⟨project, e.revisionId⟩ := by
    intro head hhead
    cases h with
    | first _ hinsert =>
      rw [lookup_insertNew hinsert, if_pos rfl] at hhead
      exact (Option.some.inj hhead).symm
    | project hold => rw [hnew] at hold; cases hold
    | verify hold hproject hstay =>
      rw [hold] at hhead
      cases hhead
      have hid := hstay.resolve_right (by simp [hnew])
      rw [← hproject, ← hid]
    | move hold hproject =>
      rw [lookup_modify_self, hold] at hhead
      cases hhead
      rw [← hproject]
  have hshots : s'.shots = s.shots := h.wrote.resolve_right fun hwrote => by
    rw [hnew] at hwrote
    cases hwrote.1
  intro head hhead
  obtain rfl := hrevision head hhead
  exact ⟨e.row project, h.shotRevisions_eq ▸ hholds.committed, rfl, rfl,
    (matches_congr (by rw [hshots])).trans hholds.matches_rows⟩

theorem Pending.next
    (h : Pending host project (e :: left) s) (hstep : HeadStep host project now s e s') :
    Pending host project left s' := by
  have hrevisions : Extends s.shotRevisions s'.shotRevisions := hstep.shotRevisions_eq ▸ .refl _
  refine ⟨fun shot => ?_, fun a ha hold => ?_⟩
  · have hbefore := h.shots shot
    rw [lastNew_cons] at hbefore
    by_cases hshot : shot = e.shotId
    · subst hshot
      cases hnew : e.existing with
      | true =>
        -- a committed revision of a shot with a head changes nothing
        obtain ⟨head, hhead⟩ := h.linked e List.mem_cons_self hnew
        obtain rfl := hstep.of_linked hnew hhead
        rw [if_neg (by simp [hnew]), Option.or_none] at hbefore
        exact hbefore
      | false =>
        have hshots : s'.shots = s.shots := hstep.wrote.resolve_right fun hwrote => by
          rw [hnew] at hwrote
          cases hwrote.1
        rw [if_pos ⟨rfl, hnew⟩] at hbefore
        cases hlast : lastNew e.shotId left with
        | some e₁ =>
          rw [hlast, Option.some_or] at hbefore
          exact ⟨hbefore.1, hbefore.2.mono (by rw [hshots]) hrevisions⟩
        | none =>
          rw [hlast, Option.none_or] at hbefore
          exact hstep.headMatches hnew hbefore.2
    · rw [if_neg fun h => hshot h.1.symm, Option.or_none] at hbefore
      have hshots := hstep.touches.shots shot hshot
      cases hlast : lastNew shot left with
      | some e₁ =>
        rw [hlast] at hbefore
        obtain ⟨rfl, hholds⟩ := hbefore
        exact ⟨rfl, hholds.mono hshots hrevisions⟩
      | none =>
        rw [hlast] at hbefore
        exact hbefore.of_eq hshots (hstep.touches.shotHeads shot hshot) hrevisions
  · obtain ⟨head, hhead⟩ := h.linked a (.tail _ ha) hold
    exact hstep.head_stays hhead

/-- The rows that the first loop writes have names. -/
theorem insertShots_named
    (h : s.insertShots host project now shots = .ok (s', shots'))
    (hnamed : s.Named) : s'.Named := by
  refine insertShots_rel (R := fun s s' => s.Named → s'.Named) (fun _ h => h)
    (fun h h' hs => h' (h hs)) ?_ h hnamed
  intro e he s s' e' hstep hs
  cases hstep with
  | existing | found => exact hs
  | written _ _ hprojects => exact hs.upsert (ne_empty_of_any hprojects.name_any) rfl

/-- The revisions that the first loop commits are the new ones. -/
theorem insertShots_revisions {id : RevisionId} {row : ShotRevision}
    (h : s.insertShots host project now shots = .ok (s', shots'))
    (hrow : s'.shotRevisions.lookup id = some row) :
    s.shotRevisions.lookup id = some row ∨
      ∃ e ∈ shots, e.existing = false ∧ row = e.row project := by
  refine insertShots_rel (R := fun s s' =>
      s'.shotRevisions.lookup id = some row → s.shotRevisions.lookup id = some row ∨
        ∃ e ∈ shots, e.existing = false ∧ row = e.row project)
    (fun _ h => .inl h) (fun h h' hrow => (h' hrow).elim h .inr) ?_ h hrow
  intro e he s s' e' hstep hrow
  rw [hstep.lookup_revision] at hrow
  split at hrow
  next hnew => exact .inr ⟨e, he, hnew.1, (Option.some.inj hrow).symm⟩
  next => exact .inl hrow

/-- After the second loop every shot of it has a head, and the other heads are still there. -/
theorem moveShotHeads_linked (h : shots.foldlM (fun s e => s.moveShotHead host project now e) s = .ok s') :
    (∀ e ∈ shots, ∃ head, s'.shotHeads.lookup e.shotId = some head) ∧
      ∀ shot head, s.shotHeads.lookup shot = some head →
        ∃ head', s'.shotHeads.lookup shot = some head' := by
  have hrest := foldlM_rest (fun left (t : State) =>
      (∀ e ∈ shots, e ∈ left ∨ ∃ head, t.shotHeads.lookup e.shotId = some head) ∧
        ∀ shot head, s.shotHeads.lookup shot = some head →
          ∃ head', t.shotHeads.lookup shot = some head') ?_
    ⟨fun e he => .inl he, fun _ head hhead => ⟨head, hhead⟩⟩ h
  · exact ⟨fun e he => (hrest.1 e he).resolve_left (by simp), hrest.2⟩
  intro a left t t' hI hround
  have hstep := moveShotHead_eq_ok.mp hround
  refine ⟨fun e he => ?_, fun shot head hhead => ?_⟩
  · rcases hI.1 e he with hmem | ⟨head, hhead⟩
    · rcases List.mem_cons.mp hmem with rfl | hmem
      · exact .inr hstep.exists_head
      · exact .inl hmem
    · exact .inr (hstep.head_stays hhead)
  · obtain ⟨head', hhead'⟩ := hI.2 shot head hhead
    exact hstep.head_stays hhead'

/-- The second loop leaves the revisions and, but for first heads, the rows. -/
theorem moveShotHeads_frame (h : shots.foldlM (fun s e => s.moveShotHead host project now e) s = .ok s') :
    s'.shotRevisions = s.shotRevisions ∧ s'.internalRevisions = s.internalRevisions ∧
      (s.Named → s'.Named) := by
  refine foldlM_rel (R := fun (s s' : State) => s'.shotRevisions = s.shotRevisions ∧
      s'.internalRevisions = s.internalRevisions ∧ (s.Named → s'.Named))
    (fun _ => ⟨rfl, rfl, fun h => h⟩)
    (fun h h' => ⟨h'.1.trans h.1, h'.2.1.trans h.2.1, fun hs => h'.2.2 (h.2.2 hs)⟩) ?_ h
  intro e _ s₁ s₂ hround
  have hstep := moveShotHead_eq_ok.mp hround
  refine ⟨hstep.shotRevisions_eq, hstep.touches.internalRevisions, fun hs => ?_⟩
  cases hstep with
  | first | verify | move => exact hs
  | project _ hprojects => exact hs.upsert (ne_empty_of_any hprojects.name_any) rfl

/-- Both states have the same rows, heads and revisions of shots. -/
structure State.SameShots (s t : State) : Prop where
  shots : t.shots = s.shots
  shotHeads : t.shotHeads = s.shotHeads
  shotRevisions : t.shotRevisions = s.shotRevisions

/-- The states before and after the two loops of a publication over its shots. -/
structure ShotLoops (host : Host) (project : ProjectId) (now : Time) (shots : List ShotEntry)
    (s s₁ s₂ s₃ s₄ s' : State) : Prop where
  before : s.SameShots s₁
  first : s₁.insertShots host project now shots = .ok (s₂, shots)
  between : s₂.SameShots s₃
  second : shots.foldlM (fun s e => s.moveShotHead host project now e) s₃ = .ok s₄
  after : s₄.SameShots s'
  internal : Extends s.internalRevisions s'.internalRevisions

theorem commit_loops {fields : Fields} {timeline : TimelineId} {d : Draft}
    {c : Closure} {expected : Option RevisionId} (hkeys : (c.shots.map ShotEntry.key).Nodup)
    (hpinned : ∀ e ∈ c.shots, IsPinned host s fields e)
    (h : s.commit host project timeline d c expected now = .ok s') :
    ∃ s₁ s₂ s₃ s₄, ShotLoops host project now c.shots s s₁ s₂ s₃ s₄ s' := by
  simp only [commit, bind_eq_ok, return_ok] at h
  obtain ⟨s₁, hinternals, ⟨s₂, shots⟩, hinsert, s₃, hparent, s₄, hheads, s₅, hmove, rfl⟩ := h
  have honly := insertInternals_only hinternals
  have hbefore : s.SameShots s₁ := ⟨by rw [honly], by rw [honly], by rw [honly]⟩
  have hmarks : shots = c.shots := by
    refine insertShots_entries hkeys (fun e he hnew => ?_) hinsert
    rw [hbefore.shotRevisions]
    exact (isNew_iff (hpinned e he)).mpr hnew
  subst hmarks
  have honly' := (insertParent_only hparent).1
  simp only [moveParentHead, bind_eq_ok, return_ok] at hmove
  obtain ⟨-, -, rfl⟩ := hmove
  refine ⟨s₁, s₂, s₃, s₄, hbefore, hinsert, ⟨by rw [honly'], by rw [honly'], by rw [honly']⟩, hheads,
    ⟨rfl, rfl, rfl⟩, ?_⟩
  have hkeeps := foldlM_rel (R := Keeps) .refl .trans (fun _ _ => keeps_insertInternal)
    hinternals
  show Extends s.internalRevisions s₄.internalRevisions
  rw [(moveShotHeads_frame hheads).2.1]
  exact hkeeps.internal.trans ((keeps_insertShots hinsert).internal.trans
    (keeps_insertParent hparent).internal)

section Loops

variable {fields : Fields} {s₃ s₄ : State}

/-- After the first loop the last new revision of a shot has its rows. -/
theorem ShotLoops.projected (h : ShotLoops host project now shots s s₁ s₂ s₃ s₄ s')
    (hfaithful : ∀ e ∈ shots, e.existing = false → Faithful host.numerals e.payload) :
    Projected host project s₁ (s₂, shots) := by
  refine (foldlM_rest (fun l (done : State × List ShotEntry) =>
    (∀ e ∈ l, e.existing = false → Faithful host.numerals e.payload) ∧
      Projected host project s₁ done) ?_ ⟨hfaithful, fun _ => rfl⟩ h.first).2
  rintro e l ⟨s, done⟩ _ ⟨hfaithful, hI⟩ hround
  obtain ⟨s', e', -, hstep, rfl⟩ := insertShot_round hround
  exact ⟨fun a ha => hfaithful a (.tail _ ha), hI.step hstep (hfaithful e List.mem_cons_self)⟩

/-- A committed revision belongs to a shot that has a head. -/
theorem ShotLoops.linked (h : ShotLoops host project now shots s s₁ s₂ s₃ s₄ s')
    (hlinked : ∀ id row, s.shotRevisions.lookup id = some row →
      ∃ head, s.shotHeads.lookup row.shotId = some head)
    (he : IsPinned host s fields e) (hold : e.existing = true) :
    ∃ head, s₃.shotHeads.lookup e.shotId = some head := by
  obtain ⟨row, hrow⟩ := Option.isSome_iff_exists.mp (he.existing ▸ hold)
  rw [h.between.shotHeads, (insertShots_frame h.first).1, h.before.shotHeads, ← he.shotId row hrow]
  exact hlinked e.revisionId row hrow

/-- What the second loop finds. -/
theorem ShotLoops.pending (h : ShotLoops host project now shots s s₁ s₂ s₃ s₄ s')
    (hs : s.Matched host) (hpinned : ∀ e ∈ shots, IsPinned host s fields e)
    (hfaithful : ∀ e ∈ shots, e.existing = false → Faithful host.numerals e.payload) :
    Pending host project shots s₃ := by
  refine ⟨fun shot => ?_, fun e he hold => h.linked hs.linked (hpinned e he) hold⟩
  have hbetween := h.projected hfaithful shot
  dsimp only at hbetween
  have hextends : Extends s₂.shotRevisions s₃.shotRevisions := h.between.shotRevisions ▸ .refl _
  cases hlast : lastNew shot shots with
  | some e =>
    rw [hlast] at hbetween
    exact ⟨hbetween.1, hbetween.2.mono (by rw [h.between.shots]) hextends⟩
  | none =>
    rw [hlast] at hbetween
    refine (hs.heads shot).of_eq ?_ ?_ (.trans ?_ hextends)
    · rw [h.between.shots, hbetween, h.before.shots]
    · rw [h.between.shotHeads, (insertShots_frame h.first).1, h.before.shotHeads]
    · exact h.before.shotRevisions ▸ (keeps_insertShots h.first).shot

/-- The revisions after the loops: those from before, and the new ones. -/
theorem ShotLoops.rows (h : ShotLoops host project now shots s s₁ s₂ s₃ s₄ s') {id : RevisionId}
    {row : ShotRevision} (hrow : s'.shotRevisions.lookup id = some row) :
    s.shotRevisions.lookup id = some row ∨
      ∃ e ∈ shots, e.existing = false ∧ row = e.row project := by
  rw [h.after.shotRevisions, (moveShotHeads_frame h.second).1, h.between.shotRevisions] at hrow
  rw [← h.before.shotRevisions]
  exact insertShots_revisions h.first hrow

/-- A publication whose new payloads the rows can hold keeps what holds between rows, heads and
revisions. -/
theorem ShotLoops.matched (h : ShotLoops host project now shots s s₁ s₂ s₃ s₄ s')
    (hs : s.Matched host) (hpinned : ∀ e ∈ shots, IsPinned host s fields e)
    (hfaithful : ∀ e ∈ shots, e.existing = false → Faithful host.numerals e.payload) :
    s'.Matched host where
  named := by
    rw [h.after.shots]
    refine (moveShotHeads_frame h.second).2.2 ?_
    rw [State.Named, h.between.shots]
    exact insertShots_named h.first (by rw [State.Named, h.before.shots]; exact hs.named)
  heads := by
    have hdone : Pending host project [] s₄ := by
      refine foldlM_rest (Pending host project) ?_ (h.pending hs hpinned hfaithful) h.second
      intro e left t t' hI hround
      exact hI.next (moveShotHead_eq_ok.mp hround)
    intro shot
    exact (hdone.shots shot).of_eq (by rw [h.after.shots]) (by rw [h.after.shotHeads])
      (h.after.shotRevisions ▸ .refl _)
  linked := by
    intro id row hrow
    obtain ⟨hlinked, hstay⟩ := moveShotHeads_linked h.second
    rw [h.after.shotHeads]
    rcases h.rows hrow with hrow | ⟨e, he, -, rfl⟩
    · obtain ⟨head, hhead⟩ := hs.linked id row hrow
      refine hstay row.shotId head ?_
      rw [h.between.shotHeads, (insertShots_frame h.first).1, h.before.shotHeads]
      exact hhead
    · exact hlinked e he
  materialised := by
    intro id row hrow
    rcases h.rows hrow with hrow | ⟨e, he, hnew, rfl⟩
    · exact (hs.materialised id row hrow).mono h.internal
    · obtain ⟨fields', hpayload, hcompleted⟩ := (hpinned e he).completed hnew
      exact .inl ⟨fields', hpayload, hcompleted, hfaithful e he hnew⟩

/-- A shot of which nothing is new keeps its rows and its head. -/
theorem ShotLoops.leaves (h : ShotLoops host project now shots s s₁ s₂ s₃ s₄ s')
    (hlinked : ∀ id row, s.shotRevisions.lookup id = some row →
      ∃ head, s.shotHeads.lookup row.shotId = some head)
    (hpinned : ∀ e ∈ shots, IsPinned host s fields e)
    (hother : ∀ e ∈ shots, e.existing = false → e.shotId ≠ shot) :
    s'.shots.lookup shot = s.shots.lookup shot ∧
      s'.shotHeads.lookup shot = s.shotHeads.lookup shot := by
  obtain ⟨hheads₂, hshots₂⟩ := insertShots_frame h.first
  have hrest := foldlM_rest (fun left (t : State) => (∀ e ∈ left, e ∈ shots) ∧
      t.shots.lookup shot = s₃.shots.lookup shot ∧
      t.shotHeads.lookup shot = s₃.shotHeads.lookup shot) ?_ ⟨fun _ he => he, rfl, rfl⟩ h.second
  · obtain ⟨-, hshots, hheads⟩ := hrest
    rw [h.after.shots, h.after.shotHeads, hshots, hheads, h.between.shots, h.between.shotHeads,
      hshots₂ shot hother, hheads₂, h.before.shots, h.before.shotHeads]
    exact ⟨rfl, rfl⟩
  rintro e left t t' ⟨hleft, hshots, hheads⟩ hround
  refine ⟨fun a ha => hleft a (.tail _ ha), ?_⟩
  have he := hleft e List.mem_cons_self
  have hstep := moveShotHead_eq_ok.mp hround
  by_cases hshot : shot = e.shotId
  · -- the committed revision of a shot with a head is only linked
    have hold : e.existing = true := by
      rw [← Bool.not_eq_false]
      exact fun hnew => hother e he hnew hshot.symm
    obtain ⟨head, hhead⟩ := h.linked hlinked (hpinned e he) hold
    rw [hstep.of_linked hold (hshot ▸ hheads.trans (hshot ▸ hhead))]
    exact ⟨hshots, hheads⟩
  · exact ⟨(hstep.touches.shots shot hshot).trans hshots,
      (hstep.touches.shotHeads shot hshot).trans hheads⟩

/-- Every new revision is committed. -/
theorem ShotLoops.committed (h : ShotLoops host project now shots s s₁ s₂ s₃ s₄ s')
    (he : e ∈ shots) (hnew : e.existing = false) :
    ∃ row, s'.shotRevisions.lookup e.revisionId = some row ∧ row.shotId = e.shotId := by
  have hrest := foldlM_rest (fun left (done : State × List ShotEntry) => e ∈ left ∨
      ∃ row, done.1.shotRevisions.lookup e.revisionId = some row ∧ row.shotId = e.shotId) ?_
    (.inl he) h.first
  · rw [h.after.shotRevisions, (moveShotHeads_frame h.second).1, h.between.shotRevisions]
    exact hrest.resolve_left (by simp)
  rintro a left ⟨t, done⟩ _ hI hround
  obtain ⟨t', a', -, hstep, rfl⟩ := insertShot_round hround
  rcases hI with hmem | ⟨row, hrow, hshot⟩
  · rcases List.mem_cons.mp hmem with rfl | hmem
    · refine .inr ?_
      cases hstep with
      | existing hold => rw [hnew] at hold; cases hold
      | found _ _ hrow => exact ⟨e.row project, hrow, rfl⟩
      | written _ _ _ _ _ hinsert =>
        refine ⟨e.row project, ?_, rfl⟩
        rw [lookup_insertNew hinsert, if_pos rfl]
    · exact .inl hmem
  · exact .inr ⟨row, hstep.extends_revisions _ _ hrow, hshot⟩

end Loops

end Publication

end WorkspaceRuntime.Project
