import WorkspaceRuntime.Project.Heads
import WorkspaceRuntime.Project.SetOrder

/-!
# Agreement of heads and projections

In every run of the commands on shots and compositions the head of a shot matches its rows, if every
new payload that a body publishes can be read back from the rows. A restored composition publishes
nothing new, and what a replacement publishes are the rows' own payloads, so the condition is on the
publications only.
-/

namespace WorkspaceRuntime.Project

open Fallible Timeline Project.State Json

variable {host : Host} {env : Env} {project : ProjectId} {timeline : TimelineId} {s s' : State}
  {answer : Answer} {body : Json} {occurrences : List Json} {r : Replacement}

/-! ## What a body declares -/

/-- The rows can hold every new payload that a body publishes. -/
def FaithfulBody (host : Host) (s : State) (body : Json) : Prop :=
  ∀ fields, body = .obj fields → ∀ k ∈ pinnedKeys fields, s.IsNew k →
    ∀ payload ∈ pinnedPayload host s fields k, Faithful host.numerals payload

/-- A body is held by the rows when its declared payloads are, but for committed identities. -/
theorem faithfulBody_of_declared (h : ∀ fields raw, body = .obj fields →
      (fieldOr fields "shot_revisions" "shots" (.arr [])).asArr = some raw →
      ∀ entry ∈ raw, ∀ e, readShot host entry = .ok e →
        s.shotRevisions.lookup e.revisionId = none → Faithful host.numerals e.payload) :
    FaithfulBody host s body := by
  intro fields hbody key _ hnew payload hpayload
  rw [pinnedPayload, hnew, Option.mem_def, Option.map_eq_some_iff] at hpayload
  obtain ⟨e, he, rfl⟩ := hpayload
  obtain ⟨rfl, raw, hraw, entry, hentry, hread⟩ := declaredShots_lookup he
  exact h fields raw hbody hraw entry hentry e hread hnew

/-- What is read of the entry of a shot. -/
theorem readShot_shotBody {e e' : ShotEntry} (h : readShot host (shotBody e) = .ok e') :
    e'.revisionId = e.revisionId ∧ ∀ fields : Fields, Completed fields shotDefaults →
      e.payload = .obj (fields.set "internal_timeline_revision_id" (.str e.internalId)) →
        e'.payload = e.payload := by
  simp only [readShot, completeShotPayload, bind_eq_ok, revisionId_eq_ok, return_ok] at h
  obtain ⟨body, hbody, id, ⟨hid, -⟩, _, -, internalId, ⟨hinternal, -⟩, payload, hpayload, _, ⟨_, -, rfl⟩,
    -, -, rfl⟩ := h
  obtain rfl := Option.some.inj (orThrow_eq_ok.mp hbody)
  simp only [fieldOr, Fields.get_cons] at hid hinternal
  refine ⟨(str.inj hid).symm, ?_⟩
  intro fields hcompleted hfields
  obtain rfl : payload = fields.set "internal_timeline_revision_id" (.str e.internalId) := by
    simpa [revisionPayload, fieldOr, Fields.get_cons, hfields, orThrow, asObj] using
      hpayload.symm
  obtain rfl : e.internalId = internalId := str.inj hinternal
  show obj ((complete _ shotAliases shotDefaults).set _ _) = _
  rw [complete_eq_self hcompleted.set (by simp [shotAliases, shotDefaults]), Fields.set_set,
    hfields]

/-! ## Restored compositions -/

/-- Every shot revision of a restored composition is committed. -/
theorem restoreOccurrences_committed {children : Children}
    (h : occurrences.foldlM (s.restoreOccurrence host project) ⟨.empty, .empty⟩ = .ok children)
    {key : ShotKey} {e : ShotEntry} (he : children.shots.lookup key = some e) :
    (s.shotRevisions.lookup e.revisionId).isSome = true := by
  have hrel := foldlM_rel (R := fun (children children' : Children) =>
      ∀ key e, children'.shots.lookup key = some e → children.shots.lookup key = some e ∨
        (s.shotRevisions.lookup e.revisionId).isSome = true)
    (fun _ _ _ he => .inl he) (fun h h' key e he => (h' key e he).elim (h key e) .inr) ?_ h
  · exact (hrel key e he).resolve_left (by simp)
  intro occurrence _ children children' hround key e he
  simp only [restoreOccurrence, bind_eq_ok, orThrow_eq_ok] at hround
  obtain ⟨fields, -, shot, -, revision, -, hround⟩ := hround
  split at hround
  next => exact .inl (Except.ok.inj hround ▸ he)
  next =>
    simp only [bind_eq_ok, orThrow_eq_ok, return_ok] at hround
    obtain ⟨row, hrow, -, -, internal, -, -, -, rfl⟩ := hround
    rw [Table.lookup_upsert] at he
    split at he
    next =>
      cases he
      exact .inr (Option.isSome_iff_exists.mpr ⟨row, (Option.filter_eq_some_iff.mp hrow).1⟩)
    next => exact .inl he

theorem restoreBody_faithful {revision : RevisionId} {expected : Option RevisionId} {key : String}
    (h : s.restoreBody host project timeline revision expected key = .ok body) :
    FaithfulBody host s body := by
  simp only [restoreBody, bind_eq_ok, return_ok] at h
  obtain ⟨source, -, -, -, ⟨canonical, occurrences⟩, -, -, -, -, -, children, hchildren, rfl⟩ := h
  refine faithfulBody_of_declared fun fields raw hbody hraw entry hentry e hread hnew => ?_
  obtain rfl := obj.inj hbody
  obtain rfl := Option.some.inj (hraw : some (List.map shotBody _) = some raw)
  obtain ⟨e₀, he₀, rfl⟩ := List.mem_map.mp hentry
  obtain ⟨⟨key, e₀⟩, hmem, rfl⟩ := List.mem_map.mp he₀
  have hcommitted := restoreOccurrences_committed hchildren (Table.lookup_eq_some_iff.mpr hmem)
  rw [← (readShot_shotBody hread).1, hnew] at hcommitted
  cases hcommitted

/-! ## Replaced media -/

/-- The target of a replacement. -/
structure IsTarget (s : State) (project : ProjectId) (r : Replacement)
    (occurrences : List Json) (t : Target) : Prop where
  occurrence : ∃ o, occurrences.filter
      (fun o => o.get? "occurrence_id" = some (.str r.occurrenceId)) = [o] ∧
    pinOf o = some (t.shotId, t.revisionId)
  alone : ∃ o, occurrences.filter
    (fun o => o.get? "shot_revision_id" = some (.str t.revisionId)) = [o]
  shot : s.shotRevisions.lookup t.revisionId = some t.shot
  shot_eq : t.shot.projectId = project ∧ t.shot.shotId = t.shotId
  internal : s.internalRevisions.lookup t.shot.internalId = some t.internal
  internal_eq : t.internal.projectId = project
  clips : ((t.internal.payload.get? "clips").bind asArr).isSome = true

theorem onlyMember_eq_ok {α : Type} {p : α → Bool} {l : List α} {e : Err} {a : α} :
    onlyMember p l e = .ok a ↔ l.filter p = [a] := by
  unfold onlyMember
  split
  next b hfilter => rw [hfilter, Except.ok.injEq, List.singleton_inj]
  next hfilter => exact ⟨nofun, fun h => absurd h (hfilter a)⟩

theorem replacementTarget_eq_ok {t : Target}
    (h : s.replacementTarget project r occurrences = .ok t) :
    IsTarget s project r occurrences t := by
  simp only [replacementTarget, bind_eq_ok, onlyMember_eq_ok, orThrow_eq_ok, return_ok, Option.filter_eq_some_iff, Bool.and_eq_true, decide_eq_true_eq] at h
  obtain ⟨o, ho, shotId, hshotId, revisionId, hrevisionId, o', ho', shot, ⟨hshot, hown⟩, internal,
    ⟨hinternal, hinternalOwn⟩, clips, hclips, _, -, rfl⟩ := h
  refine ⟨⟨o, ho, ?_⟩, ⟨o', ho'⟩, hshot, hown, hinternal, hinternalOwn, ?_⟩
  · rw [pinOf, hshotId, hrevisionId]
  · rw [hclips]; rfl

theorem Faithful.set_internal {num : Numerals} {fields : Fields} {v : Json}
    (h : Faithful num (.obj fields)) :
    Faithful num (.obj (fields.set "internal_timeline_revision_id" v)) where
  archived := by
    rw [get?_obj, Fields.get_set_of_ne _ _ (by decide)]
    exact h.archived
  items := by
    rw [payloadItems, get?_obj, Fields.get_set_of_ne _ _ (by decide)]
    exact h.items

/-- The payload that a replacement changes is complete, and the rows can hold it. -/
theorem IsTarget.payload {t : Target} (h : IsTarget s project r occurrences t)
    (hs : s.Matched host) :
    ∃ fields : Fields, t.shot.payload = .obj fields ∧ Completed fields shotDefaults ∧
      Faithful host.numerals (.obj fields) := by
  rcases hs.materialised t.revisionId t.shot h.shot with ⟨fields, hpayload, hcompleted, hfaithful⟩ |
    ⟨internal, hinternal, hclips⟩
  · exact ⟨fields, hpayload, hcompleted, hpayload ▸ hfaithful⟩
  · -- an internal revision that a command on the shot made has no clips
    have hsome := h.clips
    obtain rfl := Option.mem_unique hinternal h.internal
    rw [hclips] at hsome
    cases hsome

theorem replacementBody_faithful (hs : s.Matched host)
    (h : s.replacementBody host project timeline r = .ok body) : FaithfulBody host s body := by
  simp only [replacementBody, bind_eq_ok, return_ok] at h
  obtain ⟨-, -, head, -, occurrences, -, t, htarget, internal, -, old, -, rfl⟩ := h
  obtain ⟨fields, hpayload, hcompleted, hfaithful⟩ := (replacementTarget_eq_ok htarget).payload hs
  refine faithfulBody_of_declared fun body raw hbody hraw entry hentry e hread _ => ?_
  obtain rfl := obj.inj hbody
  obtain rfl := Option.some.inj (hraw : some [shotBody _] = some raw)
  obtain rfl := List.mem_singleton.mp hentry
  rw [(readShot_shotBody hread).2 fields hcompleted]
  · rw [changedRevisions, hpayload]
    exact hfaithful.set_internal
  · rw [changedRevisions, hpayload]
    rfl

/-! ## Publications -/

/-- The loops of an accepted publication. -/
theorem publishParentComposition_loops {selector : String} {key : Option String}
    (h : s.publishParentComposition host env selector timeline body key = .ok (s', answer)) :
    s' = s ∨ ∃ fields project shots s₁ s₂ s₃ s₄, body = .obj fields ∧
      (∀ e ∈ shots, IsPinned host s fields e) ∧
      ShotLoops host project env.now shots s s₁ s₂ s₃ s₄ s' := by
  refine (publishParentComposition_eq_ok h).imp_right ?_
  rintro ⟨fields, project, d, c, expected, t, ledger, hbody, -, hd, hc, hcommit, rfl⟩
  have hperm := env.order.perm d.keys
  obtain ⟨hmap, hpinned⟩ := closure_pinned hd (fun k => hperm.mem_iff.mp) hc
  have hkeys : (c.shots.map ShotEntry.key).Nodup := by
    rw [hmap]
    exact hperm.nodup_iff.mpr (List.nodup_eraseDups _)
  obtain ⟨s₁, s₂, s₃, s₄, hloops⟩ := commit_loops hkeys hpinned hcommit
  refine ⟨fields, project, c.shots, s₁, s₂, s₃, s₄, hbody, hpinned, { hloops with after := ?_ }⟩
  exact ⟨hloops.after.shots, hloops.after.shotHeads, hloops.after.shotRevisions⟩

/-- The body that a call publishes, if it publishes one. -/
theorem composition_publishes {call : CompositionCall} (hs : s.Matched host)
    (h : call.outcome host env s = .ok (s', answer)) :
    s' = s ∨ ∃ selector timeline body key,
      s.publishParentComposition host env selector timeline body key = .ok (s', answer) ∧
      (FaithfulBody host s body ∨ ∃ project, call = .publish project timeline body key) := by
  cases call with
  | publish project timeline body key =>
    exact .inr ⟨project, timeline, body, key, h, .inr ⟨project, rfl⟩⟩
  | restore project timeline revision body key =>
    simp only [CompositionCall.outcome, restoreProjectParentCompositionRevision,
      bind_eq_ok] at h
    obtain ⟨k, -, fields, -, -, -, -, -, expected, -, project, -, publication, hbody, h⟩ := h
    exact .inr ⟨project, timeline, publication, key, h, .inl (restoreBody_faithful hbody)⟩
  | replaceMedia project timeline body key =>
    simp only [CompositionCall.outcome, replaceParentCompositionMedia, bind_eq_ok] at h
    obtain ⟨_, -, fields, -, r, -, project, -, -, -, found, -, h⟩ := h
    cases found with
    | some data => exact .inl (Prod.mk.inj (Except.ok.inj h)).1.symm
    | none =>
      simp only [bind_eq_ok] at h
      obtain ⟨publication, hbody, h⟩ := h
      exact .inr ⟨project, timeline, publication, key, h, .inl (replacementBody_faithful hs hbody)⟩

/-! ## Runs -/

/-- A command on the shots or the compositions of a project. -/
inductive ProjectCall where
  | shot (call : ShotCall)
  | composition (call : CompositionCall)

/-- The answer of a call, and the state after it. -/
def ProjectCall.outcome (host : Host) (env : Env) (s : State) :
    ProjectCall → Except Err (State × Answer)
  | .shot call => call.outcome host env s
  | .composition call => call.outcome host env s

/-- A call that raises leaves the state. -/
def State.nextProject (host : Host) (s : State) (call : Env × ProjectCall) : State :=
  match call.2.outcome host call.1 s with
  | .ok (s', _) => s'
  | .error _ => s

/-- If the call is a publication, the rows can hold every new payload of it. -/
def FaithfulCall (host : Host) (s : State) (call : Env × ProjectCall) : Prop :=
  ∀ project timeline body key, call.2 = .composition (.publish project timeline body key) →
    FaithfulBody host s body

/-- One call keeps what holds between rows, heads and revisions. -/
theorem nextProject_matched {call : Env × ProjectCall} (hcall : FaithfulCall host s call)
    (hs : s.Matched host) : (s.nextProject host call).Matched host := by
  unfold nextProject
  split
  next s' answer h =>
    obtain ⟨env, call⟩ := call
    cases call with
    | shot call =>
      rcases shotCall_eq_ok hs.named h with rfl | ⟨shot, row, id, revision, hname, hm⟩
      · exact hs
      · exact hm.matched hname hs
    | composition call =>
      rcases composition_publishes hs h with rfl | ⟨selector, timeline, body, key, h, hbody⟩
      · exact hs
      · have hfaithful : FaithfulBody host s body := by
          rcases hbody with hbody | ⟨project, rfl⟩
          · exact hbody
          · exact hcall project timeline body key rfl
        rcases publishParentComposition_loops h with rfl | ⟨fields, project, shots, s₁, s₂, s₃, s₄,
          rfl, hpinned, hloops⟩
        · exact hs
        · refine hloops.matched hs hpinned fun e he hnew => ?_
          exact hfaithful fields rfl e.key (hpinned e he).mem ((isNew_iff (hpinned e he)).mpr hnew)
            e.payload (hpinned e he).payload
  next => exact hs

/-- The call commits no revision of the shot. -/
def State.OnlyLinks (s s' : State) (shot : ShotId) : Prop :=
  ∀ id row, s'.shotRevisions.lookup id = some row → row.shotId = shot →
    s.shotRevisions.lookup id = some row

/-- In every run of commands on shots and compositions from a realm without shots, in which the rows
can hold every new payload that a body publishes, the head of every shot matches its rows. A
publication that commits no revision of a shot leaves its head and its rows. -/
theorem heads_match_projections {start : State} (hshots : ∀ shot, start.shots.lookup shot = none)
    (hheads : ∀ shot, start.shotHeads.lookup shot = none)
    (hrevisions : ∀ id, start.shotRevisions.lookup id = none) (run : List (Env × ProjectCall))
    (hrun : Run.Meets (nextProject host) (FaithfulCall host) start run) :
    let s := Run.replay (nextProject host) start run
    (∀ shot, s.HeadMatches host shot) ∧
      ∀ (env : Env) (call : CompositionCall) (s' : State) (answer : Answer),
        call.outcome host env s = .ok (s', answer) → ∀ shot, s.OnlyLinks s' shot →
          s'.shots.lookup shot = s.shots.lookup shot ∧
            s'.shotHeads.lookup shot = s.shotHeads.lookup shot := by
  intro s
  have hstart : start.Matched host :=
    ⟨fun shot row h => by simp [hshots] at h, fun shot head h => by simp [hheads] at h,
      fun id row h => by simp [hrevisions] at h, fun id row h => by simp [hrevisions] at h⟩
  have hs : s.Matched host := hrun.preserves nextProject_matched hstart
  refine ⟨hs.heads, fun env call s' answer h shot hlinks => ?_⟩
  rcases composition_publishes hs h with rfl | ⟨selector, timeline, body, key, h, -⟩
  · exact ⟨rfl, rfl⟩
  rcases publishParentComposition_loops h with rfl | ⟨fields, project, shots, s₁, s₂, s₃, s₄, -,
    hpinned, hloops⟩
  · exact ⟨rfl, rfl⟩
  refine hloops.leaves hs.linked hpinned fun e he hnew hshot => ?_
  -- a new revision of the shot would be committed
  obtain ⟨row, hrow, hid⟩ := hloops.committed he hnew
  have hold := hlinks e.revisionId row hrow (hid.trans hshot)
  have hnone : s.shotRevisions.lookup e.revisionId = none := (isNew_iff (hpinned e he)).mpr hnew
  rw [hnone] at hold
  cases hold

/-- Publishes a composition of one shot with a payload. -/
def publishesPayload (payload : Fields) : Env × ProjectCall :=
  ({ now := 0 }, .composition (.publish "project" "timeline" (.obj
    [("expected_head", .null),
     ("internal_timeline_revisions", .arr [.obj [("revision_id", .str "cut")]]),
     ("parent_composition", .obj [("occurrences", .arr [.obj
       [("duration_ms", .int 1000), ("occurrence_id", .str "first"),
        ("placement", .obj [("start_ms", .int 0)]), ("shot_id", .str "shot"),
        ("shot_revision_id", .str "r1"), ("track", .str "main")]])]),
     ("parent_revision_id", .str "p1"), ("project_id", .str "project"),
     ("shot_revisions", .arr [.obj [("internal_timeline_revision_id", .str "cut"),
       ("payload", .obj payload), ("revision_id", .str "r1"), ("shot_id", .str "shot")]]),
     ("timeline_id", .str "timeline")]) (some "key")))

/-- Publishes an archived shot, and recovers it. -/
def publishesAndRecovers : List (Env × ProjectCall) :=
  [publishesPayload [("archived", .bool true)],
    ({ now := 1, newId := fun _ => "r2" }, .shot (.update .recover "project" "shot" (.obj [("expected_version", .int 1)])
      (some "key-2")))]

theorem heads_match_projections_recovered :
    ((Run.replay (nextProject constantHost) emptyProject publishesAndRecovers).shots.lookup
        "shot").map (fun row => (row.version, row.archivedAt)) = some (2, none) ∧
      (Run.replay (nextProject constantHost) emptyProject publishesAndRecovers).HeadMatches
        constantHost "shot" := by
  refine ⟨by decide +kernel, (heads_match_projections (fun _ => rfl) (fun _ => rfl) (fun _ => rfl)
    publishesAndRecovers ⟨?_, ?_, trivial⟩).1 "shot"⟩
  · rintro project timeline body key ⟨⟩ fields ⟨⟩ k hk - payload hpayload
    obtain rfl : k = ("shot", "r1") := List.mem_singleton.mp hk
    cases hpayload
    exact ⟨fun _ => rfl, nofun⟩
  · rintro project timeline body key ⟨⟩

/-- The writer of the rows takes `archived` for set if it is the constant `true`, and the match if it is
true of its value. -/
theorem archived_number_breaks_agreement :
    ¬(Run.replay (nextProject constantHost) emptyProject
      [publishesPayload [("archived", .int 1)]]).HeadMatches constantHost "shot" := by
  intro h
  obtain ⟨row, hrow, -, -, hmatches⟩ := h ⟨"project", "r1"⟩ (by decide +kernel)
  have hfails : ((Run.replay (nextProject constantHost) emptyProject
      [publishesPayload [("archived", .int 1)]]).shotRevisions.lookup "r1").all (fun row =>
        !(Run.replay (nextProject constantHost) emptyProject
          [publishesPayload [("archived", .int 1)]]).shotProjectionMatchesRevision constantHost
            "project" "shot" row.payload) = true := by decide +kernel
  rw [hrow, Option.all_some, hmatches] at hfails
  cases hfails

end WorkspaceRuntime.Project
