import WorkspaceRuntime.Project.Publication

/-!
# What the rounds of a commit do

`insertInternal`, `insertShot` and `moveShotHead` are the rounds of the three loops of `State.commit`.
Each is described once: `insertInternal_eq_ok`, and `ShotStep` and `HeadStep`, which have a constructor
for every way in which the round can succeed.
-/

namespace WorkspaceRuntime.Project

open Fallible

variable {host : Host} {project : ProjectId} {now : Time} {s s' : State} {e : ShotEntry}

/-! ## Internal revisions -/

/-- The row of an internal revision. -/
def InternalEntry.row (project : ProjectId) (e : InternalEntry) : InternalRevision :=
  { projectId := project, timelineId := e.timelineId, payload := e.payload
    contentDigest := e.contentDigest }

theorem InternalRevision.agrees_iff {row : InternalRevision} {e : InternalEntry} :
    row.Agrees project e ↔ row = e.row project := by
  constructor
  · rintro ⟨hproject, htimeline, hdigest, hpayload⟩
    cases row
    simp_all [InternalEntry.row]
  · rintro rfl
    exact ⟨rfl, rfl, rfl, rfl⟩

/-- A round is possible when the revision is committed, or when it is new and can be stored. -/
theorem insertInternal_eq_ok {e : InternalEntry} : s.insertInternal host project e = .ok s' ↔
      (s.internalRevisions.lookup e.revisionId = some (e.row project) ∧ s' = s) ∨
      e.payload.hasText host.numerals = true ∧ ∃ rows,
        s.internalRevisions.insertNew e.revisionId (e.row project) = some rows ∧
        s' = { s with internalRevisions := rows } := by
  unfold State.insertInternal
  cases hrow : s.internalRevisions.lookup e.revisionId with
  | some row =>
    have hnot : ∀ rows, s.internalRevisions.insertNew e.revisionId (e.row project) ≠ some rows := by
      intro rows hinsert
      rw [Table.insertNew_eq_some_iff.mp ⟨rows, hinsert⟩] at hrow
      cases hrow
    simp only [bind_eq_ok, require_eq_ok, InternalRevision.agrees_iff, return_ok, exists_const, Option.some.injEq, hnot, false_and, and_false,
      or_false, eq_comm (a := s)]
  | none =>
    simp only [bind_eq_ok, jsonColumn_eq_ok, orThrow_eq_ok, return_ok, reduceCtorEq,
      false_and, false_or]
    constructor
    · rintro ⟨_, ⟨htext, rfl⟩, rows, hinsert, rfl⟩
      exact ⟨htext, rows, hinsert, rfl⟩
    · rintro ⟨htext, rows, hinsert, rfl⟩
      exact ⟨_, ⟨htext, rfl⟩, rows, hinsert, rfl⟩

/-! ## Shot revisions -/

/-- The row of a shot revision. -/
def ShotEntry.row (project : ProjectId) (e : ShotEntry) : ShotRevision :=
  { projectId := project, shotId := e.shotId, internalId := e.internalId, payload := e.payload
    contentDigest := e.contentDigest }

theorem ShotRevision.agrees_iff {row : ShotRevision} :
    row.Agrees project e ↔ row = e.row project := by
  constructor
  · rintro ⟨hproject, hshot, hinternal, hdigest, hpayload⟩
    cases row
    simp_all [ShotEntry.row]
  · rintro rfl
    exact ⟨rfl, rfl, rfl, rfl, rfl⟩

/-- The internal revision that a new shot revision pins is there. -/
def State.HasInternal (s : State) (project : ProjectId) (e : ShotEntry) : Prop :=
  ∃ row, s.internalRevisions.lookup e.internalId = some row ∧ row.projectId = project

/-- One round of the loop over the shots: the state and the entry after it. -/
inductive ShotStep (host : Host) (project : ProjectId) (now : Time) (s : State) (e : ShotEntry) :
    State → ShotEntry → Prop where
  /-- The revision was committed before the publication. -/
  | existing (hold : e.existing = true) : ShotStep host project now s e s e
  /-- The revision was committed by an earlier round. -/
  | found (hnew : e.existing = false) (hinternal : s.HasInternal project e)
      (hrow : s.shotRevisions.lookup e.revisionId = some (e.row project)) :
      ShotStep host project now s e s { e with existing := true }
  /-- The revision is projected and committed. -/
  | written {row : Shot} {revisions : Table RevisionId ShotRevision} (hnew : e.existing = false)
      (hinternal : s.HasInternal project e)
      (hrow : Projects host project e.shotId e.payload now (s.shots.lookup e.shotId) row)
      (hfree : ∀ item ∈ row.items, s.ItemFree e.shotId item.id)
      (htext : e.payload.hasText host.numerals = true)
      (hinsert : s.shotRevisions.insertNew e.revisionId (e.row project) = some revisions) :
      ShotStep host project now s e
        { s with shots := s.shots.upsert e.shotId row, shotRevisions := revisions } e

theorem insertShotRevision_eq_ok :
    s.insertShotRevision host project e now = .ok s' ↔ ∃ row revisions,
      Projects host project e.shotId e.payload now (s.shots.lookup e.shotId) row ∧
      (∀ item ∈ row.items, s.ItemFree e.shotId item.id) ∧ e.payload.hasText host.numerals = true ∧
      s.shotRevisions.insertNew e.revisionId (e.row project) = some revisions ∧
      s' = { s with shots := s.shots.upsert e.shotId row, shotRevisions := revisions } := by
  simp only [State.insertShotRevision, bind_eq_ok, applyPublishedShotProjection_eq_ok,
    jsonColumn_eq_ok, orThrow_eq_ok, return_ok]
  constructor
  · rintro ⟨_, ⟨row, hrow, hfree, rfl⟩, _, ⟨htext, rfl⟩, revisions, hinsert, rfl⟩
    exact ⟨row, revisions, hrow, hfree, htext, hinsert, rfl⟩
  · rintro ⟨row, revisions, hrow, hfree, htext, hinsert, rfl⟩
    exact ⟨_, ⟨row, hrow, hfree, rfl⟩, _, ⟨htext, rfl⟩, revisions, hinsert, rfl⟩

theorem insertShot_eq_ok {e' : ShotEntry} : s.insertShot host project now e = .ok (s', e') ↔
      validatePublishedShotPayload e.payload = .ok () ∧ ShotStep host project now s e s' e' := by
  simp only [State.insertShot, bind_eq_ok]
  constructor
  · rintro ⟨_, hvalid, h⟩
    refine ⟨hvalid, ?_⟩
    split at h
    next hold =>
      cases h
      exact .existing hold
    next hnew =>
      simp only [bind_eq_ok, orThrow_eq_ok, require_eq_ok] at h
      obtain ⟨internal, hinternal, _, hproject, h⟩ := h
      have hnew := Bool.eq_false_iff.mpr hnew
      split at h
      next row hrow =>
        simp only [bind_eq_ok, require_eq_ok, ShotRevision.agrees_iff, return_ok,
          Prod.mk.injEq] at h
        obtain ⟨_, rfl, rfl, rfl⟩ := h
        exact .found hnew ⟨internal, hinternal, hproject⟩ hrow
      next =>
        simp only [bind_eq_ok, insertShotRevision_eq_ok, return_ok,
          Prod.mk.injEq] at h
        obtain ⟨_, ⟨row, revisions, hrow, hfree, htext, hinsert, rfl⟩, rfl, rfl⟩ := h
        exact .written hnew ⟨internal, hinternal, hproject⟩ hrow hfree htext hinsert
  · rintro ⟨hvalid, hstep⟩
    refine ⟨(), hvalid, ?_⟩
    cases hstep with
    | existing hold => simp [hold]
    | found hnew hinternal hrow =>
      obtain ⟨internal, hinternal, hproject⟩ := hinternal
      simp [hnew, hinternal, hproject, hrow, ShotRevision.agrees_iff, require]
    | written hnew hinternal hrow hfree htext hinsert =>
      obtain ⟨internal, hinternal, hproject⟩ := hinternal
      have hnone := Table.insertNew_eq_some_iff.mp ⟨_, hinsert⟩
      have hwrite := insertShotRevision_eq_ok.mpr ⟨_, _, hrow, hfree, htext, hinsert, rfl⟩
      simp [hnew, hinternal, hproject, hnone, hwrite, require]

/-- A round of the loop over the shots, with the entries that are done. -/
theorem insertShot_round {done done' : State × List ShotEntry} (h : (do
      let (s, e) ← done.1.insertShot host project now e
      return (s, done.2 ++ [e])) = .ok done') :
    ∃ s' e', validatePublishedShotPayload e.payload = .ok () ∧
      ShotStep host project now done.1 e s' e' ∧ done' = (s', done.2 ++ [e']) := by
  simp only [bind_eq_ok, return_ok] at h
  obtain ⟨⟨s', e'⟩, hround, rfl⟩ := h
  obtain ⟨hvalid, hstep⟩ := insertShot_eq_ok.mp hround
  exact ⟨s', e', hvalid, hstep, rfl⟩

/-- What every round does to the state is done by the loop. -/
theorem insertShots_rel {R : State → State → Prop} {shots shots' : List ShotEntry}
    (hrefl : ∀ s, R s s) (htrans : ∀ {s₁ s₂ s₃}, R s₁ s₂ → R s₂ s₃ → R s₁ s₃)
    (hstep : ∀ e ∈ shots, ∀ {s s' e'}, ShotStep host project now s e s' e' → R s s')
    (h : s.insertShots host project now shots = .ok (s', shots')) : R s s' := by
  refine foldlM_rel (R := fun done done' : State × List ShotEntry => R done.1 done'.1)
    (fun done => hrefl done.1) htrans ?_ h
  intro e he done done' hround
  obtain ⟨s₁, e', -, hdone, rfl⟩ := insertShot_round hround
  exact hstep e he hdone

/-! ## Heads of shots -/

/-- One round of the loop over the heads of the shots. -/
inductive HeadStep (host : Host) (project : ProjectId) (now : Time) (s : State) (e : ShotEntry) :
    State → Prop where
  /-- A new revision becomes the first head; it is projected already. -/
  | first {heads : Table ShotId ShotHead} (hnew : e.existing = false)
      (hinsert : s.shotHeads.insertNew e.shotId ⟨project, e.revisionId⟩ = some heads) :
      HeadStep host project now s e { s with shotHeads := heads }
  /-- A revision that was committed before becomes the first head, and is projected. -/
  | project {row : Shot} {heads : Table ShotId ShotHead} (hold : e.existing = true)
      (hrow : Projects host project e.shotId e.payload now (s.shots.lookup e.shotId) row)
      (hfree : ∀ item ∈ row.items, s.ItemFree e.shotId item.id)
      (hinsert : s.shotHeads.insertNew e.shotId ⟨project, e.revisionId⟩ = some heads) :
      HeadStep host project now s e
        { s with shots := s.shots.upsert e.shotId row, shotHeads := heads }
  /-- The head stays. -/
  | verify {head : ShotHead} (hhead : s.shotHeads.lookup e.shotId = some head)
      (hproject : head.projectId = project)
      (hstay : head.revisionId = e.revisionId ∨ e.existing = true)
      (hverify : s.verifyShotHeadProjection host project e.shotId head.revisionId = .ok ()) :
      HeadStep host project now s e s
  /-- The head moves to a new revision. -/
  | move {head : ShotHead} (hhead : s.shotHeads.lookup e.shotId = some head)
      (hproject : head.projectId = project) (hmove : head.revisionId ≠ e.revisionId)
      (hnew : e.existing = false) :
      HeadStep host project now s e { s with shotHeads := s.shotHeads.modify e.shotId fun head =>
        { head with revisionId := e.revisionId } }

theorem moveShotHead_eq_ok :
    s.moveShotHead host project now e = .ok s' ↔ HeadStep host project now s e s' := by
  unfold State.moveShotHead
  constructor
  · intro h
    split at h
    next hnone =>
      simp only [bind_eq_ok, orThrow_eq_ok, return_ok] at h
      obtain ⟨s₁, hfirst, heads, hinsert, rfl⟩ := h
      unfold State.projectFirstHead at hfirst
      split at hfirst
      next hold =>
        obtain ⟨row, hrow, hfree, rfl⟩ := applyPublishedShotProjection_eq_ok.mp hfirst
        exact .project hold hrow hfree hinsert
      next hnew =>
        cases hfirst
        exact .first (Bool.eq_false_iff.mpr hnew) hinsert
    next head hhead =>
      simp only [bind_eq_ok, require_eq_ok] at h
      obtain ⟨_, hproject, h⟩ := h
      split at h
      next hstay =>
        simp only [bind_eq_ok, return_ok] at h
        obtain ⟨_, hverify, rfl⟩ := h
        exact .verify hhead hproject hstay hverify
      next hmove =>
        cases h
        rw [not_or, Bool.not_eq_true] at hmove
        exact .move hhead hproject hmove.1 hmove.2
  · intro h
    cases h with
    | first hnew hinsert =>
      have hnone := Table.insertNew_eq_some_iff.mp ⟨_, hinsert⟩
      simp [hnone, State.projectFirstHead, hnew, hinsert]
    | project hold hrow hfree hinsert =>
      have hnone := Table.insertNew_eq_some_iff.mp ⟨_, hinsert⟩
      have hwrite := applyPublishedShotProjection_eq_ok.mpr ⟨_, hrow, hfree, rfl⟩
      simp [hnone, State.projectFirstHead, hold, hwrite, hinsert]
    | verify hhead hproject hstay hverify => simp [hhead, require_of _ hproject, hstay, hverify]
    | move hhead hproject hmove hnew => simp [hhead, require_of _ hproject, hmove, hnew]

/-! ## The parent -/

/-- Rows of a parent revision are the only ones that are written. -/
def State.OnlyParents (s s' : State) : Prop :=
  s' = { s with parentRevisions := s'.parentRevisions, occurrences := s'.occurrences
                dependencies := s'.dependencies }

/-- The occurrences and dependencies of a parent revision are the only rows that are written. -/
def State.OnlyRows (s s' : State) : Prop :=
  s' = { s with occurrences := s'.occurrences, dependencies := s'.dependencies }

theorem State.OnlyRows.trans {s₁ s₂ : State} (h : s.OnlyRows s₁) (h' : s₁.OnlyRows s₂) :
    s.OnlyRows s₂ := by
  unfold OnlyRows at *
  rw [h', h]

theorem insertRows_only {parent : RevisionId} {occurrences : List NormalOccurrence}
    {m : State.Manifest} {s₁ : State}
    (hoccurrences : s.insertOccurrences host project parent occurrences = .ok s₁)
    (hdependencies : s₁.insertDependencies parent m = .ok s') : s.OnlyRows s' := by
  refine .trans (foldlM_rel (R := State.OnlyRows) (fun _ => rfl) .trans ?_ hoccurrences)
    (foldlM_rel (R := State.OnlyRows) (fun _ => rfl) .trans ?_ hdependencies)
  · intro o _ s₁ s₂ hround
    simp only [bind_eq_ok, orThrow_eq_ok, return_ok] at hround
    obtain ⟨row, -, rows, -, rfl⟩ := hround
    exact rfl
  · intro d _ s₁ s₂ hround
    simp only [bind_eq_ok, orThrow_eq_ok, return_ok] at hround
    obtain ⟨rows, -, rfl⟩ := hround
    exact rfl

/-- The parent revision is inserted with its rows, or it is there. -/
theorem insertParent_only {timeline : TimelineId} {d : State.Draft} {m : State.Manifest}
    (h : s.insertParent host project timeline d m = .ok s') :
    s.OnlyParents s' ∧ (s'.parentRevisions = s.parentRevisions ∨
      ∃ row, s.parentRevisions.insertNew d.parentId row = some s'.parentRevisions) := by
  unfold State.insertParent at h
  split at h
  next =>
    simp only [bind_eq_ok, return_ok] at h
    obtain ⟨-, -, rfl⟩ := h
    exact ⟨rfl, .inl rfl⟩
  next =>
    simp only [bind_eq_ok, orThrow_eq_ok] at h
    obtain ⟨payload, -, rows, hinsert, s₁, hoccurrences, hdependencies⟩ := h
    have honly := insertRows_only hoccurrences hdependencies
    have hrows : s'.parentRevisions = rows := by rw [honly]
    exact ⟨by rw [State.OnlyParents, hrows]; exact honly, .inr ⟨_, hrows ▸ hinsert⟩⟩

end WorkspaceRuntime.Project
