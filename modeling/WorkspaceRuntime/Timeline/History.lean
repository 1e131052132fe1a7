import WorkspaceRuntime.Timeline.Store

/-!
# The history of a timeline

A command that is executed touches one timeline and stores the listing it leaves under the version it
leaves, unless a listing is stored there (`Effect`). Commands on the timeline advance the version, so
their listing is stored. Commands on a shot or a reference do not, and at the version of a timeline a
listing is stored always; so their listing is lost. As long as they leave the contents as they are,
the stored listing of the current version is the current one.
-/

namespace WorkspaceRuntime.Timeline

open Fallible Timeline.State

variable {env : Env} {s s' s₁ : State} {t : TimelineId} {row : Row} {answer : Answer} {kind : Kind}
  {aggregate id : String} {key : Option String} {request body : Json} {now : Time} {keeps : Prop}
  {fields : Json.Fields} {action : Action} {num : Json.Numerals}

/-! ## What a command does -/

/-- A command has left the timeline `t` with the row `row`. -/
structure Saved (s s' : State) (t : TimelineId) (row : Row) : Prop where
  timeline : s'.timelines.lookup t = some row
  elsewhere : ∀ u, u ≠ t → s'.timelines.lookup u = s.timelines.lookup u ∧ s'.listing u = s.listing u
  revisions : s'.revisions = s.revisions.insertIgnore (t, row.version) (s'.listing t)

/-- What a command does. One on an item leaves the listing when it `keeps` the content. -/
inductive Effect (s s' : State) (keeps : Prop) : Prop where
  | unchanged (h : s' = s)
  | created (t : TimelineId) (row : Row) (hnew : s.timelines.lookup t = none)
      (hsaved : Saved s s' t row)
  | advanced (t : TimelineId) (row old : Row) (hold : s.timelines.lookup t = some old)
      (hversion : row.version = old.version + 1) (hsaved : Saved s s' t row)
  | edited (t : TimelineId) (row : Row) (hrow : s.timelines.lookup t = some row)
      (hsaved : Saved s s' t row) (hkeeps : keeps → s'.listing t = s.listing t)

/-- The end of a command stores the listing. -/
theorem saved_finish (s : State) {result : Answer}
    (h : s₁.finish t row kind aggregate key request result now = .ok (s', answer))
    (htimeline : s₁.timelines.lookup t = some row) (helsewhere : ∀ u, u ≠ t →
      s₁.timelines.lookup u = s.timelines.lookup u ∧ s₁.listing u = s.listing u)
    (hrevisions : s₁.revisions = s.revisions) :
    Saved s s' t row ∧ s'.listing = s₁.listing := by
  simp only [finish, bind_eq_ok, return_ok, Prod.mk.injEq] at h
  obtain ⟨ledger, -, rfl, -⟩ := h
  have hlisting : listing { s₁.recordTimelineRevision t row with ledger } = s₁.listing := rfl
  refine ⟨⟨htimeline, fun u hu => hlisting ▸ helsewhere u hu, ?_⟩, hlisting⟩
  rw [hlisting, ← hrevisions]
  rfl

/-- A new timeline. -/
theorem effect_insert {created : State}
    (h : s₁.finishTimeline t row kind aggregate key request now = .ok (s', answer))
    (hinsert : s.insertTimeline t row = .ok created)
    (hs₁ : s₁.timelines = created.timelines ∧ s₁.listing = created.listing ∧
      s₁.revisions = created.revisions) :
    Effect s s' keeps := by
  simp only [insertTimeline, bind_eq_ok, orThrow_eq_ok, return_ok] at hinsert
  obtain ⟨timelines, hnew, rfl⟩ := hinsert
  obtain ⟨htimelines, hlisting, hrevisions⟩ := hs₁
  have hlookup : ∀ u, s₁.timelines.lookup u = if u = t then some row else s.timelines.lookup u := by
    intro u
    rw [htimelines]
    exact Table.lookup_insertNew hnew u
  refine .created t row (Table.insertNew_eq_some_iff.mp ⟨_, hnew⟩)
    (saved_finish s h ?_ ?_ hrevisions).1
  · rw [hlookup, if_pos rfl]
  · intro u hu
    refine ⟨by rw [hlookup, if_neg hu], ?_⟩
    rw [hlisting]
    rfl

theorem effect_createTimeline {project : String} {id : Json} {name : Option Json}
    (h : s.createTimeline env project id name key = .ok (s', answer)) : Effect s s' keeps := by
  simp only [createTimeline, bind_eq_ok] at h
  obtain ⟨t, -, -, -, name, -, projectId, -, found, -, h⟩ := h
  cases found with
  | some result => cases h; exact .unchanged rfl
  | none =>
    obtain ⟨created, hinsert, h⟩ := bind_eq_ok.mp h
    exact effect_insert h hinsert ⟨rfl, rfl, rfl⟩

theorem effect_createTimelineDocument {project : String}
    (h : s.createTimelineDocument env project body key = .ok (s', answer)) :
    Effect s s' keeps := by
  simp only [createTimelineDocument, bind_eq_ok] at h
  obtain ⟨fields, -, projectId, -, -, -, -, -, found, -, h⟩ := h
  cases found with
  | some result => cases h; exact .unchanged rfl
  | none =>
    simp only [bind_eq_ok] at h
    obtain ⟨-, -, -, -, name, -, created, hinsert, h⟩ := h
    exact effect_insert h hinsert ⟨rfl, rfl, rfl⟩

/-- The items of other timelines stay. -/
theorem listing_replaceItems {listing : Listing} (h : s.replaceItems t listing = .ok s')
    (u : TimelineId) :
    s'.listing u = if u = t then
      ⟨listing.shots, listing.references.map fun e => (e.1, e.2.shown)⟩ else s.listing u := by
  simp only [replaceItems, bind_eq_ok, orThrow_eq_ok, return_ok] at h
  obtain ⟨shots, hshots, references, hreferences, rfl⟩ := h
  unfold State.listing
  rw [Versioned.listing_replaceAll hshots, Versioned.listing_replaceAll hreferences]
  split <;> rfl

/-- A command on a timeline that found it at the version it names. -/
theorem effect_setTimeline {old : Row}
    (h : (s₁.setTimeline t row).finishTimeline t row kind aggregate key request now =
      .ok (s', answer)) (hold : s.timelines.lookup t = some old)
    (hversion : row.version = old.version + 1) (htimelines : s₁.timelines = s.timelines)
    (hrevisions : s₁.revisions = s.revisions) (helsewhere : ∀ u, u ≠ t → s₁.listing u = s.listing u) :
    Effect s s' keeps ∧ s'.listing t = s₁.listing t := by
  have hlookup : ∀ u, (s₁.setTimeline t row).timelines.lookup u =
      if u = t then some row else s.timelines.lookup u := by
    intro u
    simp only [setTimeline, htimelines, Table.lookup_modify]
    split
    next hu => simp [hu, hold]
    next => rfl
  obtain ⟨hsaved, hlisting⟩ := saved_finish s h (by rw [hlookup, if_pos rfl])
    (fun u hu => ⟨by rw [hlookup, if_neg hu], helsewhere u hu⟩) hrevisions
  exact ⟨.advanced t row old hold hversion hsaved, by rw [hlisting]; rfl⟩

theorem effect_updateTimeline (h : s.updateTimeline env t body key = .ok (s', answer)) :
    Effect s s' keeps := by
  simp only [updateTimeline, bind_eq_ok, timelineRow, orThrow_eq_ok] at h
  obtain ⟨fields, -, expected, -, old, hold, found, -, h⟩ := h
  cases found with
  | some result => cases h; exact .unchanged rfl
  | none =>
    simp only [bind_eq_ok, require_eq_ok] at h
    obtain ⟨-, hversion, shots, -, references, -, replaced, hreplaced, h⟩ := h
    have hlisting := listing_replaceItems hreplaced
    simp only [replaceItems, bind_eq_ok, return_ok] at hreplaced
    obtain ⟨_, -, _, -, rfl⟩ := hreplaced
    exact (effect_setTimeline h hold (by rw [hversion]) rfl rfl
      (fun u hu => by rw [hlisting, if_neg hu])).1

theorem effect_archiveTimeline (h : s.archiveTimeline env t body key = .ok (s', answer)) :
    Effect s s' keeps := by
  simp only [archiveTimeline, bind_eq_ok, timelineRow, orThrow_eq_ok] at h
  obtain ⟨fields, -, expected, -, old, hold, found, -, h⟩ := h
  cases found with
  | some result => cases h; exact .unchanged rfl
  | none =>
    simp only [bind_eq_ok, require_eq_ok] at h
    obtain ⟨-, hversion, h⟩ := h
    exact (effect_setTimeline h hold (by rw [hversion]) rfl rfl (fun _ _ => rfl)).1

/-- A recovery advances the version, and the listing becomes the one that is stored. -/
theorem effect_recoverTimeline (h : s.recoverTimeline env t body key = .ok (s', answer)) :
    s' = s ∨ Effect s s' keeps ∧ ∃ fields target old listing, objectBody body = .ok fields ∧
      targetVersion fields = .ok target ∧ s.timelines.lookup t = some old ∧
      s.timelineRevision t old target = .ok listing ∧
      s'.listing t = ⟨listing.shots, listing.references.map fun e => (e.1, e.2.shown)⟩ := by
  simp only [recoverTimeline, bind_eq_ok, timelineRow, orThrow_eq_ok] at h
  obtain ⟨fields, hfields, expected, -, target, htarget, old, hold, found, -, h⟩ := h
  cases found with
  | some result => cases h; exact .inl rfl
  | none =>
    simp only [bind_eq_ok, require_eq_ok] at h
    obtain ⟨-, hversion, listing, hrevision, replaced, hreplaced, h⟩ := h
    have hlisting := listing_replaceItems hreplaced
    simp only [replaceItems, bind_eq_ok, return_ok] at hreplaced
    obtain ⟨_, -, _, -, rfl⟩ := hreplaced
    obtain ⟨heffect, hlast⟩ : Effect s s' keeps ∧ _ :=
      effect_setTimeline h hold (by rw [hversion]) rfl rfl fun u hu => by rw [hlisting, if_neg hu]
    exact .inr ⟨heffect, fields, target, old, listing, hfields, htarget, hold, hrevision,
      by rw [hlast, hlisting, if_pos rfl]⟩

/-! ## Commands on an item -/

/-- The end of a command on an item. -/
theorem effect_item {result : Answer}
    (h : s₁.finish t row kind aggregate key request result now = .ok (s', answer))
    (hrow : s.timelines.lookup t = some row) (htimelines : s₁.timelines = s.timelines)
    (hrevisions : s₁.revisions = s.revisions) (helsewhere : ∀ u, u ≠ t → s₁.listing u = s.listing u)
    (hkeeps : keeps → s₁.listing t = s.listing t) : Effect s s' keeps := by
  obtain ⟨hsaved, hlisting⟩ := saved_finish s h (by rw [htimelines, hrow])
    (fun u hu => ⟨by rw [htimelines], helsewhere u hu⟩) hrevisions
  exact .edited t row hrow hsaved fun hk => by rw [hlisting, hkeeps hk]

/-- The body names an item that is stored. -/
def NamesStored {γ : Type} (items : Versioned String TimelineId γ) (body : Json) (field : String) :
    Prop :=
  ∃ id ∈ (body.get? field).bind Json.asStr, (items.items.lookup id).isSome = true

theorem wireString_eq_ok {field : String} (h : wireString fields field = .ok id) :
    (fields.get field).bind Json.asStr = some id := by
  simp only [wireString, bind_eq_ok, orThrow_eq_ok, return_ok] at h
  obtain ⟨value, hvalue, -, -, rfl⟩ := h
  exact hvalue

/-- A stored item is not created again. -/
theorem not_create_stored {γ : Type} {items items' : Versioned String TimelineId γ} {field : String}
    {c : γ} (hfields : objectBody body = .ok fields) (hid : wireString fields field = .ok id)
    (hcreate : items.create t id c = some items') :
    ¬NamesStored items body field := by
  rintro ⟨id', hid', hstored⟩
  rw [objectBody_eq_ok hfields, Json.get?_obj, wireString_eq_ok hid] at hid'
  cases hid'
  have hnew : items.items.lookup id = none :=
    Table.insertNew_eq_some_iff.mp ⟨_, (Versioned.create_eq_some hcreate).1⟩
  simp [hnew] at hstored

theorem effect_createShot (h : s.createShot env t body key = .ok (s', answer)) :
    Effect s s' (NamesStored s.shots body "shot_id") := by
  simp only [createShot, bind_eq_ok, timelineRow, orThrow_eq_ok] at h
  obtain ⟨fields, hfields, id, hid, _, -, -, -, _, -, -, -, -, -, row, hrow, found, -, h⟩ := h
  cases found with
  | some result => cases h; exact .unchanged rfl
  | none =>
    simp only [bind_eq_ok, orThrow_eq_ok] at h
    obtain ⟨-, -, _, -, _, -, shots, hcreate, h⟩ := h
    refine effect_item h hrow rfl rfl (fun u hu => ?_)
      fun hk => absurd hk (not_create_stored hfields hid hcreate)
    simp only [listing, Versioned.listing_create hcreate, if_neg hu]

theorem effect_createReference (h : s.createReference env t body key = .ok (s', answer)) :
    Effect s s' (NamesStored s.references body "reference_id") := by
  simp only [createReference, bind_eq_ok, timelineRow, orThrow_eq_ok] at h
  obtain ⟨fields, hfields, id, hid, _, -, row, hrow, found, -, h⟩ := h
  cases found with
  | some result => cases h; exact .unchanged rfl
  | none =>
    simp only [bind_eq_ok, orThrow_eq_ok] at h
    obtain ⟨_, -, references, hcreate, h⟩ := h
    refine effect_item h hrow rfl rfl (fun u hu => ?_)
      fun hk => absurd hk (not_create_stored hfields hid hcreate)
    simp only [listing, Versioned.listing_create hcreate, if_neg hu]

/-- A change of an item gives it the content that the body revises it to, or leaves its content. -/
theorem changeItem_eq_ok {γ : Type} {items items' : Versioned String TimelineId γ} {content : γ}
    {expected : Nat} {stale archived : Err} {revise : γ → Except Err γ}
    (h : changeItem items id content expected action stale archived revise now = .ok items') :
    expected = (items.stampOf id).version ∧ ∃ c archivedAt, items' = items.change id c archivedAt ∧
      (action = .update → revise content = .ok c) ∧ (action ≠ .update → c = content) := by
  simp only [changeItem, bind_eq_ok, require_eq_ok, return_ok] at h
  obtain ⟨-, hversion, c, hc, rfl⟩ := h
  refine ⟨hversion, c, _, rfl, ?_⟩
  cases action with
  | update =>
    obtain ⟨-, -, hc⟩ := bind_eq_ok.mp hc
    exact ⟨fun _ => hc, fun hne => absurd rfl hne⟩
  | archive | recover => exact ⟨fun hupdate => (by cases hupdate), fun _ => (Except.ok.inj hc).symm⟩

theorem itemBody_eq_ok (h : itemBody body = .ok fields) (field : String) :
    fields.get field = body.get? field := by
  unfold itemBody at h
  split at h
  next =>
    rw [Json.asObj_eq_some.mp (orThrow_eq_ok.mp h)]
    rfl
  next hfalsy =>
    cases h
    cases body with
    | obj fs => cases fs <;> simp_all [Json.truthy]
    | _ => rfl

/-- The body repeats the content of a shot. -/
def RepeatsShot (body : Json) (shot : Shot) : Prop :=
  (∀ v ∈ body.get? "start_ms", v = .int shot.startMs) ∧
    (∀ v ∈ body.get? "duration_ms", v = .int shot.durationMs) ∧
    ∀ v ∈ body.get? "reference_ids", v = shot.referenceIds

/-- The body repeats the content of a reference. -/
def RepeatsReference (body : Json) (reference : Reference) : Prop :=
  (∀ v ∈ body.get? "object_id", v = .str reference.objectId) ∧
    ∀ v ∈ body.get? "role", v = reference.role.elim .null .str

/-- A field that repeats the default is the default. -/
theorem getD_of_repeats {o : Option Json} {d : Json} (h : ∀ v ∈ o, v = d) : o.getD d = d := by
  cases o with
  | none => rfl
  | some v => exact h v rfl

theorem reviseShot_of_repeats {shot c : Shot} (hfields : itemBody body = .ok fields)
    (hrepeats : RepeatsShot body shot) (h : reviseShot num fields shot = .ok c) : c = shot := by
  obtain ⟨hstart, hduration, hreferences⟩ := hrepeats
  simp only [← itemBody_eq_ok hfields] at hstart hduration hreferences
  simp only [reviseShot, getD_of_repeats hstart, getD_of_repeats hduration,
    getD_of_repeats hreferences, intOf, Json.toInt, orThrow_some, ok_bind, columnInt, bind_eq_ok,
    return_ok] at h
  obtain ⟨-, -, _, ⟨-, -, rfl⟩, _, ⟨-, -, rfl⟩, rfl⟩ := h
  rfl

theorem reviseReference_of_repeats {reference c : Reference} (hfields : itemBody body = .ok fields)
    (hrepeats : RepeatsReference body reference) (h : reviseReference num fields reference = .ok c) :
    c = reference := by
  obtain ⟨hobject, hrole⟩ := hrepeats
  simp only [← itemBody_eq_ok hfields] at hobject hrole
  have hbind : Json.bindText num (reference.role.elim .null .str) = some reference.role := by
    cases reference.role <;> rfl
  have hcolumn : columnText num (.str reference.objectId) = .ok reference.objectId := rfl
  simp only [reviseReference, getD_of_repeats hobject, getD_of_repeats hrole, hbind, hcolumn,
    orThrow_some, ok_bind, bind_eq_ok, return_ok] at h
  obtain ⟨-, -, rfl⟩ := h
  rfl

/-- What a command on an item may not change, if the history is to be kept. -/
def KeepsShot (s : State) (id : ShotId) (body : Json) (action : Action) : Prop :=
  action = .update → ∀ item ∈ s.shots.items.lookup id, RepeatsShot body item.content

/-- What a command on an item may not change, if the history is to be kept. -/
def KeepsReference (s : State) (id : ReferenceId) (body : Json) (action : Action) : Prop :=
  action = .update → ∀ item ∈ s.references.items.lookup id, RepeatsReference body item.content

theorem effect_updateShotState {id : ShotId}
    (h : s.updateShotState env id body action key = .ok (s', answer)) :
    Effect s s' (KeepsShot s id body action) := by
  simp only [updateShotState, bind_eq_ok, orThrow_eq_ok] at h
  obtain ⟨fields, hfields, expected, -, item, hitem, found, -, h⟩ := h
  cases found with
  | some result => cases h; exact .unchanged rfl
  | none =>
    simp only [bind_eq_ok, timelineRow, orThrow_eq_ok] at h
    obtain ⟨shots, hchange, entry, -, row, hrow, h⟩ := h
    obtain ⟨-, c, archivedAt, rfl, hupdate, hother⟩ := changeItem_eq_ok hchange
    refine effect_item h hrow rfl rfl (fun u hu => ?_) fun hk => ?_
    · simp only [listing, Versioned.listing_change_of_ne hitem hu]
    · have hc : c = item.content := by
        by_cases haction : action = .update
        · exact reviseShot_of_repeats hfields (hk haction item hitem) (hupdate haction)
        · exact hother haction
      simp only [listing, hc, Versioned.listing_change_self hitem]

theorem effect_updateReferenceState {id : ReferenceId}
    (h : s.updateReferenceState env id body action key = .ok (s', answer)) :
    Effect s s' (KeepsReference s id body action) := by
  simp only [updateReferenceState, bind_eq_ok, orThrow_eq_ok] at h
  obtain ⟨fields, hfields, expected, -, item, hitem, found, -, h⟩ := h
  cases found with
  | some result => cases h; exact .unchanged rfl
  | none =>
    simp only [bind_eq_ok, timelineRow, orThrow_eq_ok] at h
    obtain ⟨references, hchange, entry, -, row, hrow, h⟩ := h
    obtain ⟨-, c, archivedAt, rfl, hupdate, hother⟩ := changeItem_eq_ok hchange
    refine effect_item h hrow rfl rfl (fun u hu => ?_) fun hk => ?_
    · simp only [listing, Versioned.listing_change_of_ne hitem hu]
    · have hc : c = item.content := by
        by_cases haction : action = .update
        · exact reviseReference_of_repeats hfields (hk haction item hitem) (hupdate haction)
        · exact hother haction
      simp only [listing, hc, Versioned.listing_change_self hitem]

/-- The call creates no shot and no reference, and gives none another content. -/
def Command.KeepsContent (s : State) : Command → Prop
  | .createShot _ body _ => NamesStored s.shots body "shot_id"
  | .createReference _ body _ => NamesStored s.references body "reference_id"
  | .updateShot id body action _ => KeepsShot s id body action
  | .updateReference id body action _ => KeepsReference s id body action
  | .createTimeline .. | .createTimelineDocument .. | .updateTimeline .. | .archiveTimeline ..
  | .recoverTimeline .. => True

/-- What any command does. -/
theorem Command.effect {c : Command} (h : c.outcome env s = .ok (s', answer)) :
    Effect s s' (c.KeepsContent s) := by
  cases c with
  | createTimeline => exact effect_createTimeline h
  | createTimelineDocument => exact effect_createTimelineDocument h
  | updateTimeline => exact effect_updateTimeline h
  | archiveTimeline => exact effect_archiveTimeline h
  | recoverTimeline =>
    rcases effect_recoverTimeline h with rfl | ⟨heffect, -⟩
    · exact .unchanged rfl
    · exact heffect
  | createShot => exact effect_createShot h
  | createReference => exact effect_createReference h
  | updateShot => exact effect_updateShotState h
  | updateReference => exact effect_updateReferenceState h

/-! ## The stored listings -/

/-- The listing of every timeline is stored under its version, and none under a later one. -/
structure Faithful (s : State) : Prop where
  current : ∀ t row, s.timelines.lookup t = some row →
    s.revisions.lookup (t, row.version) = some (s.listing t)
  bounded : ∀ t v listing, s.revisions.lookup (t, v) = some listing →
    ∃ row, s.timelines.lookup t = some row ∧ v ≤ row.version

/-- Versions do not decrease, a timeline at the same version lists the same, and what is stored stays
stored. -/
structure Later (s s' : State) : Prop where
  timeline : ∀ t row, s.timelines.lookup t = some row → ∃ row', s'.timelines.lookup t = some row' ∧
    row.version ≤ row'.version ∧ (row'.version = row.version → s'.listing t = s.listing t)
  stored : ∀ k listing, s.revisions.lookup k = some listing → s'.revisions.lookup k = some listing

theorem Later.refl (s : State) : Later s s :=
  ⟨fun _ row hrow => ⟨row, hrow, le_refl _, fun _ => rfl⟩, fun _ _ h => h⟩

theorem Later.trans {s'' : State} (h : Later s s') (h' : Later s' s'') : Later s s'' := by
  refine ⟨fun t row hrow => ?_, fun k listing hk => h'.stored k listing (h.stored k listing hk)⟩
  obtain ⟨row₁, hrow₁, hle₁, hsame₁⟩ := h.timeline t row hrow
  obtain ⟨row₂, hrow₂, hle₂, hsame₂⟩ := h'.timeline t row₁ hrow₁
  refine ⟨row₂, hrow₂, hle₁.trans hle₂, fun heq => ?_⟩
  rw [hsame₂ (by omega), hsame₁ (by omega)]

/-- A command that finds no listing stored under the version it leaves, or leaves the listing that is
stored there. -/
theorem Saved.faithful (hsaved : Saved s s' t row) (hs : Faithful s)
    (hstored : ∀ listing, s.revisions.lookup (t, row.version) = some listing →
      s'.listing t = listing)
    (hversions : ∀ old, s.timelines.lookup t = some old → old.version ≤ row.version ∧
      (row.version = old.version → s'.listing t = s.listing t)) :
    Faithful s' ∧ Later s s' := by
  have hkeep : ∀ k listing, s.revisions.lookup k = some listing →
      s'.revisions.lookup k = some listing := by
    intro k listing hk
    rw [hsaved.revisions, Table.lookup_insertIgnore]
    split
    next heq => rw [← heq, hk, Option.getD_some]
    next => exact hk
  refine ⟨⟨fun u rowu hu => ?_, fun u v listing hv => ?_⟩, ⟨fun u rowu hu => ?_, hkeep⟩⟩
  · by_cases hut : u = t
    · subst hut
      obtain rfl := Option.mem_unique hsaved.timeline hu
      rw [hsaved.revisions, Table.lookup_insertIgnore, if_pos rfl]
      cases hlookup : s.revisions.lookup (u, row.version) with
      | none => rfl
      | some listing => rw [hstored listing hlookup, Option.getD_some]
    · obtain ⟨hsame, hlisting⟩ := hsaved.elsewhere u hut
      rw [hlisting]
      exact hkeep _ _ (hs.current u rowu (hsame ▸ hu))
  · by_cases hut : u = t
    · subst hut
      refine ⟨row, hsaved.timeline, ?_⟩
      rw [hsaved.revisions, Table.lookup_insertIgnore] at hv
      split at hv
      next heq => exact le_of_eq (congrArg Prod.snd heq)
      next =>
        obtain ⟨old, hold, hle⟩ := hs.bounded u v listing hv
        exact hle.trans (hversions old hold).1
    · rw [hsaved.revisions, Table.lookup_insertIgnore,
        if_neg (fun heq => hut (congrArg Prod.fst heq))] at hv
      obtain ⟨old, hold, hle⟩ := hs.bounded u v listing hv
      exact ⟨old, (hsaved.elsewhere u hut).1 ▸ hold, hle⟩
  · by_cases hut : u = t
    · subst hut
      exact ⟨row, hsaved.timeline, hversions rowu hu⟩
    · obtain ⟨hsame, hlisting⟩ := hsaved.elsewhere u hut
      exact ⟨rowu, hsame ▸ hu, le_refl _, fun _ => hlisting⟩

theorem Effect.faithful (h : Effect s s' keeps) (hk : keeps) (hs : Faithful s) :
    Faithful s' ∧ Later s s' := by
  cases h with
  | unchanged h =>
    subst h
    exact ⟨hs, .refl s'⟩
  | created t row hnew hsaved =>
    refine hsaved.faithful hs (fun listing hv => ?_) fun old hold => by simp [hnew] at hold
    obtain ⟨old, hold, -⟩ := hs.bounded t _ listing hv
    simp [hnew] at hold
  | advanced t row old hold hversion hsaved =>
    refine hsaved.faithful hs (fun listing hv => ?_) fun old' hold' => ?_
    · -- Nothing is stored above the version of the timeline.
      obtain ⟨old', hold', hle⟩ := hs.bounded t _ listing hv
      obtain rfl := Option.mem_unique hold hold'
      omega
    · obtain rfl := Option.mem_unique hold hold'
      exact ⟨by omega, fun heq => by omega⟩
  | edited t row hrow hsaved hkeeps =>
    refine hsaved.faithful hs (fun listing hv => ?_) fun old hold => ?_
    · rw [hkeeps hk]
      exact Option.mem_unique (hs.current t row hrow) hv
    · obtain rfl := Option.mem_unique hrow hold
      exact ⟨le_refl _, fun _ => hkeeps hk⟩

theorem faithful_next {call : Env × Command} (hk : call.2.KeepsContent s) (hs : Faithful s) :
    Faithful (s.next call) ∧ Later s (s.next call) := by
  unfold next
  split
  next s' answer h => exact (Command.effect h).faithful hk hs
  next => exact ⟨hs, .refl s⟩

/-- A run of calls that create no item and give none another content. -/
theorem faithful_replay {run : List (Env × Command)}
    (h : Run.Meets next (fun s call => call.2.KeepsContent s) s run) (hs : Faithful s) :
    Faithful (Run.replay next s run) ∧ Later s (Run.replay next s run) := by
  induction run generalizing s with
  | nil => exact ⟨hs, .refl s⟩
  | cons call run ih =>
    obtain ⟨hnext, hlater⟩ := faithful_next h.1 hs
    obtain ⟨hlast, hlater'⟩ := ih h.2 hnext
    exact ⟨hlast, hlater.trans hlater'⟩

theorem faithful_initial (projects : Table ProjectId String) : Faithful (initial projects) :=
  ⟨fun _ _ h => by simp [initial] at h, fun _ _ _ h => by simp [initial] at h⟩

/-- Showing a listing again changes nothing. -/
theorem shown_listing (s : State) (t : TimelineId) :
    (s.listing t).references.map (fun e => (e.1, e.2.shown)) = (s.listing t).references := by
  simp [listing, Reference.shown]

/-- In a run of calls none of which creates a shot or a reference or gives one another content, the
listing of every timeline is stored under its version. A timeline lists the same whenever it is at
the same version, and a recovery restores what it listed at the version that is recovered. -/
theorem timeline_history_faithful {projects : Table ProjectId String} {run : List (Env × Command)}
    (h : Run.Meets next (fun s call => call.2.KeepsContent s) (initial projects) run) :
    (∀ t row, (Run.replay next (initial projects) run).timelines.lookup t = some row →
      (Run.replay next (initial projects) run).revisions.lookup (t, row.version) =
        some ((Run.replay next (initial projects) run).listing t)) ∧
    ∀ before after, run = before ++ after → ∀ t row₁,
      (Run.replay next (initial projects) before).timelines.lookup t = some row₁ →
      (∀ row, (Run.replay next (initial projects) run).timelines.lookup t = some row →
        row.version = row₁.version → (Run.replay next (initial projects) run).listing t =
          (Run.replay next (initial projects) before).listing t) ∧
      ∀ env body key s' answer,
        (Run.replay next (initial projects) run).recoverTimeline env t body key =
          .ok (s', answer) → s' ≠ Run.replay next (initial projects) run →
        body.get? "version" = some (.int row₁.version) →
        s'.listing t = (Run.replay next (initial projects) before).listing t := by
  have hfinal := (faithful_replay h (faithful_initial projects)).1
  refine ⟨hfinal.current, ?_⟩
  rintro before after rfl t row₁ hrow₁
  obtain ⟨hbefore, hafter⟩ := (Run.meets_append before after).mp h
  have hfirst := (faithful_replay hbefore (faithful_initial projects)).1
  have hlater := (faithful_replay hafter hfirst).2
  rw [← Run.replay_append] at hlater
  refine ⟨fun row hrow heq => ?_, fun env body key s' answer hrecover hne hversion => ?_⟩
  · obtain ⟨row', hrow', -, hsame⟩ := hlater.timeline t row₁ hrow₁
    obtain rfl := Option.mem_unique hrow hrow'
    exact hsame heq
  · obtain heq | ⟨-, fields, target, old, listing, hfields, htarget, hold, hrevision, hlisting⟩ :
        s' = _ ∨ Effect _ s' True ∧ _ := effect_recoverTimeline hrecover
    · exact absurd heq hne
    · -- The target is the version at which the timeline was seen, and its listing is still stored.
      have hget : fields.get "version" = some (.int row₁.version) := by
        rw [objectBody_eq_ok hfields] at hversion
        exact hversion
      have htarget : target = row₁.version := by
        simp only [targetVersion, hget, bind_eq_ok, return_ok] at htarget
        obtain ⟨-, -, rfl⟩ := htarget
        exact Int.toNat_natCast _
      have hstored := hlater.stored _ _ (hfirst.current t row₁ hrow₁)
      rw [timelineRevision, htarget, hstored] at hrevision
      rw [hlisting, ← Except.ok.inj hrevision, shown_listing]

/-! ## Runs -/

/-- The realm that the runs start in. -/
def emptyRealm : State := .initial ⟨[("p", "project")], by simp⟩

/-- A timeline is created. -/
def createsTimeline : Env × Command := (⟨0, {}⟩, .createTimeline "p" (.str "t") none (some "create"))

/-- A shot is created in it. -/
def createsShot : Env × Command :=
  (⟨1, {}⟩, .createShot "t"
    (.obj [("duration_ms", .int 5), ("shot_id", .str "a"), ("start_ms", .int 0)]) (some "shot"))

/-- The timeline is saved with the shots that the body names. -/
def savesTimeline (version : Int) (shots : Option Json) : Env × Command :=
  (⟨2, {}⟩, .updateTimeline "t" (.obj ([("expected_version", .int version)] ++
    shots.toList.map fun v => ("shots", v))) (some "save"))

/-- The timeline goes back to its first version. -/
def recoversTimeline (version : Int) : Env × Command :=
  (⟨3, {}⟩, .recoverTimeline "t" (.obj [("expected_version", .int version), ("version", .int 1)])
    (some "recover"))

/-- A save that lists a shot. -/
def savesShot (version start : Int) : Env × Command :=
  savesTimeline version (some (.arr [.obj [("duration_ms", .int 5), ("shot_id", .str "a"),
    ("start_ms", .int start)]]))

theorem timeline_history_faithful_saves :
    let s := Run.replay next emptyRealm [createsTimeline, savesShot 1 0]
    ∃ row, s.timelines.lookup "t" = some row ∧ s.revisions.lookup ("t", row.version) =
      some (s.listing "t") ∧ (s.listing "t").shots.length = 1 := by
  obtain ⟨row, hrow⟩ : ∃ row, (Run.replay next emptyRealm
      [createsTimeline, savesShot 1 0]).timelines.lookup "t" = some row :=
    Option.isSome_iff_exists.mp (by decide +kernel)
  have hmeets : Run.Meets next (fun s call => call.2.KeepsContent s) emptyRealm
      [createsTimeline, savesShot 1 0] := ⟨trivial, trivial, trivial⟩
  exact ⟨row, hrow, (timeline_history_faithful hmeets).1 "t" row hrow, by decide +kernel⟩

/-- A shot that is created at the version the timeline was created at is not in the listing that is
stored under it, and a recovery of that version loses the shot. -/
theorem created_shot_is_not_in_history :
    let s := Run.replay next emptyRealm [createsTimeline, createsShot]
    (s.timelines.lookup "t").map (·.version) = some 1 ∧ (s.listing "t").shots.length = 1 ∧
      (s.revisions.lookup ("t", 1)).map (·.shots) = some [] ∧
      (Run.replay next s [savesTimeline 1 none, recoversTimeline 2]).listing "t" = ⟨[], []⟩ := by
  decide +kernel

end WorkspaceRuntime.Timeline
