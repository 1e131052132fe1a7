import WorkspaceRuntime.Project.Restore
import WorkspaceRuntime.Project.Steps

/-!
# One publication history

The publications of a timeline are a chain: each names the head it found, which is the head that the
publication before it left, and the stored head is the one of the last publication. A command that
expects another head changes nothing. Committed revisions are never changed.

Only `State.commit` writes the head of a timeline and its events. `Keeps` says what its other parts
leave alone.
-/

namespace WorkspaceRuntime.Project

open Fallible Timeline Project.State

variable {host : Host} {env : Env} {s s' s₁ s₂ : State} {answer : Answer}

/-! ## Calls -/

/-- A command on the compositions of a project: its selector, timeline, body and key. -/
inductive CompositionCall where
  | publish (project : String) (timeline : TimelineId) (body : Json) (key : Option String)
  | restore (project : String) (timeline : TimelineId) (revision : RevisionId) (body : Json)
      (key : Option String)
  | replaceMedia (project : String) (timeline : TimelineId) (body : Json) (key : Option String)

namespace CompositionCall

/-- The answer of a call, and the state after it. -/
def outcome (host : Host) (env : Env) (s : State) : CompositionCall → Except Err (State × Answer)
  | .publish project timeline body key =>
    s.publishParentComposition host env project timeline body key
  | .restore project timeline revision body key =>
    s.restoreProjectParentCompositionRevision host env project timeline revision body key
  | .replaceMedia project timeline body key =>
    s.replaceParentCompositionMedia host env project timeline body key

/-- The timeline of a call. -/
def timeline : CompositionCall → TimelineId
  | .publish _ timeline _ _ | .restore _ timeline _ _ _ | .replaceMedia _ timeline _ _ => timeline

/-- The head that a call expects, as its body has it. -/
def expectedHead : CompositionCall → Json
  | .publish _ _ body _ | .restore _ _ _ body _ | .replaceMedia _ _ body _ =>
    fieldOr (body.asObj.getD []) "expected_head" "expected_head_revision_id" .null

end CompositionCall

/-- A call that raises leaves the state. -/
def State.nextComposition (host : Host) (s : State) (call : Env × CompositionCall) : State :=
  match call.2.outcome host call.1 s with
  | .ok (s', _) => s'
  | .error _ => s

/-! ## What the parts of a commit keep -/

/-- Every row of the first table is in the second. -/
def Extends {κ α : Type} [DecidableEq κ] (t t' : Table κ α) : Prop :=
  ∀ k row, t.lookup k = some row → t'.lookup k = some row

variable {κ α : Type}

theorem Extends.refl [DecidableEq κ] (t : Table κ α) : Extends t t := fun _ _ h => h

theorem Extends.trans [DecidableEq κ] {t t' t'' : Table κ α} (h : Extends t t')
    (h' : Extends t' t'') : Extends t t'' :=
  fun k row hrow => h' k row (h k row hrow)

theorem Extends.insertNew [DecidableEq κ] {t t' : Table κ α} {k : κ} {row : α}
    (h : t.insertNew k row = some t') : Extends t t' :=
  fun _ _ hrow => Table.lookup_of_insertNew h hrow

/-- Committed revisions stay as they are. -/
structure State.KeepsRevisions (s s' : State) : Prop where
  internal : Extends s.internalRevisions s'.internalRevisions
  shot : Extends s.shotRevisions s'.shotRevisions
  parent : Extends s.parentRevisions s'.parentRevisions

/-- The history of every timeline is as it was. -/
structure State.Keeps (s s' : State) : Prop extends s.KeepsRevisions s' where
  parentHeads : s'.parentHeads = s.parentHeads
  timelineEvents : s'.timelineEvents = s.timelineEvents

theorem State.KeepsRevisions.refl (s : State) : s.KeepsRevisions s := ⟨.refl _, .refl _, .refl _⟩

theorem State.KeepsRevisions.trans (h : s.KeepsRevisions s₁) (h' : s₁.KeepsRevisions s₂) :
    s.KeepsRevisions s₂ :=
  ⟨h.internal.trans h'.internal, h.shot.trans h'.shot, h.parent.trans h'.parent⟩

theorem State.Keeps.refl (s : State) : s.Keeps s := ⟨.refl s, rfl, rfl⟩

theorem State.Keeps.trans (h : s.Keeps s₁) (h' : s₁.Keeps s₂) : s.Keeps s₂ :=
  ⟨h.toKeepsRevisions.trans h'.toKeepsRevisions, h'.parentHeads.trans h.parentHeads,
    h'.timelineEvents.trans h.timelineEvents⟩

variable {project : ProjectId}

theorem keeps_insertInternal {e : InternalEntry} (h : s.insertInternal host project e = .ok s') :
    s.Keeps s' := by
  rcases insertInternal_eq_ok.mp h with ⟨-, rfl⟩ | ⟨-, rows, hinsert, rfl⟩
  · exact .refl s'
  · exact ⟨⟨.insertNew hinsert, .refl _, .refl _⟩, rfl, rfl⟩

variable {now : Time}

theorem keeps_insertShots {shots shots' : List ShotEntry}
    (h : s.insertShots host project now shots = .ok (s', shots')) : s.Keeps s' := by
  refine insertShots_rel .refl .trans ?_ h
  intro e _ s s' e' hstep
  cases hstep with
  | existing | found => exact .refl s
  | written _ _ _ _ _ hinsert => exact ⟨⟨.refl _, .insertNew hinsert, .refl _⟩, rfl, rfl⟩

variable {timeline : TimelineId}

theorem keeps_insertParent {d : Draft} {m : Manifest}
    (h : s.insertParent host project timeline d m = .ok s') : s.Keeps s' := by
  obtain ⟨honly, hrows⟩ := insertParent_only h
  rw [honly]
  refine ⟨⟨.refl _, .refl _, ?_⟩, rfl, rfl⟩
  rcases hrows with hrows | ⟨row, hinsert⟩
  · exact hrows ▸ .refl _
  · exact .insertNew hinsert

theorem keeps_moveShotHead {e : ShotEntry} (h : s.moveShotHead host project now e = .ok s') :
    s.Keeps s' := by
  cases moveShotHead_eq_ok.mp h <;> exact ⟨⟨.refl _, .refl _, .refl _⟩, rfl, rfl⟩

/-! ## What a publication does -/

/-- The state after a publication, as far as the history is concerned. -/
structure Publishes (s s' : State) (project : ProjectId) (timeline : TimelineId)
    (expected : Option RevisionId) (new : RevisionId) : Prop extends s.KeepsRevisions s' where
  /-- The head that was expected was the head of the project. -/
  before : s.parentHeads.lookup timeline = none ∧ expected = none ∨
    s.parentHeads.lookup timeline = some { projectId := project, revisionId := expected }
  after : ∀ t, s'.parentHeads.lookup t = if t = timeline then
    some { projectId := project, revisionId := some new } else s.parentHeads.lookup t
  event : ∃ e, s'.timelineEvents = s.timelineEvents ++ [e] ∧ e.timelineId = timeline ∧
    e.kind = "parent.composition.published" ∧
    e.payload.get? "old_head" = some (idOrNull expected) ∧
    e.payload.get? "new_head" = some (.str new)

variable {expected : Option RevisionId}

theorem commit_publishes {d : Draft} {c : Closure}
    (h : s.commit host project timeline d c expected now = .ok s') :
    Publishes s s' project timeline expected d.parentId := by
  simp only [commit, bind_eq_ok, return_ok] at h
  obtain ⟨s₁, hinternal, ⟨s₂, shots⟩, hshots, s₃, hparent, s₄, hheads, s₅, hmove, rfl⟩ := h
  have hkeeps : Keeps { s with timelines := s.timelines.insertIgnore timeline project } s₄ := by
    refine .trans (.trans (.trans ?_ (keeps_insertShots hshots)) (keeps_insertParent hparent)) ?_
    · exact foldlM_rel (R := Keeps) .refl .trans (fun _ _ => keeps_insertInternal) hinternal
    · exact foldlM_rel (R := Keeps) .refl .trans (fun _ _ => keeps_moveShotHead) hheads
  simp only [moveParentHead, bind_eq_ok, require_eq_ok, return_ok,
    hkeeps.parentHeads, Table.lookup_insertIgnore, if_pos] at hmove
  obtain ⟨-, hbefore, rfl⟩ := hmove
  refine ⟨⟨hkeeps.internal, hkeeps.shot, hkeeps.parent⟩, ?_, ?_, ?_⟩
  · cases hrow : s.parentHeads.lookup timeline with
    | none =>
      simp only [hrow, Option.getD_none, Option.some.injEq, ParentHead.mk.injEq, true_and] at hbefore
      exact .inl ⟨rfl, hbefore.symm⟩
    | some row =>
      rw [hrow, Option.getD_some, Option.some.injEq] at hbefore
      exact .inr (congrArg some hbefore)
  · intro t
    simp only [appendTimelineEvent, Table.lookup_upsert, Table.lookup_insertIgnore]
    by_cases ht : t = timeline <;> simp [ht]
  · exact ⟨_, by simp only [appendTimelineEvent, hkeeps.timelineEvents]; rfl, rfl, rfl, rfl, rfl⟩

variable {fields : Json.Fields}

theorem idOrNull_of_expectedParentHead (h : expectedParentHead fields = .ok expected) :
    fieldOr fields "expected_head" "expected_head_revision_id" .null = idOrNull expected := by
  unfold expectedParentHead at h
  split at h
  next hv =>
    cases h
    exact hv
  next =>
    obtain ⟨id, hid, rfl⟩ := map_eq_ok.mp h
    simp only [revisionId, bind_eq_ok, orThrow_eq_ok, return_ok] at hid
    obtain ⟨_, hstr, -, -, rfl⟩ := hid
    exact Json.asStr_eq_some.mp hstr

/-- A publication is answered from the ledger, or it moves the head that its body expects. -/
theorem publishParentComposition_publishes {selector : String} {body : Json} {key : Option String}
    (h : s.publishParentComposition host env selector timeline body key = .ok (s', answer)) :
    s' = s ∨ ∃ fields project expected new, body = .obj fields ∧
      fieldOr fields "expected_head" "expected_head_revision_id" .null = idOrNull expected ∧
      Publishes s s' project timeline expected new := by
  refine (publishParentComposition_eq_ok h).imp_right ?_
  rintro ⟨fields, project, d, c, expected, s₁, ledger, hbody, hexpected, -, -, hcommit, rfl⟩
  obtain ⟨⟨hinternal, hshot, hparent⟩, hbefore, hafter, hevent⟩ := commit_publishes hcommit
  exact ⟨fields, project, expected, d.parentId, hbody, idOrNull_of_expectedParentHead hexpected,
    ⟨hinternal, hshot, hparent⟩, hbefore, hafter, hevent⟩

theorem expectedHead_of_restoreBody {revision : RevisionId} {key : String} {publication : Json}
    (h : s.restoreBody host project timeline revision expected key = .ok publication)
    (hfields : publication = .obj fields) :
    fieldOr fields "expected_head" "expected_head_revision_id" .null = idOrNull expected := by
  simp only [restoreBody, bind_eq_ok, return_ok] at h
  obtain ⟨source, -, -, -, ⟨canonical, occurrences⟩, -, -, -, -, -, children, -, rfl⟩ := h
  obtain rfl := Json.obj.inj hfields
  rfl

variable {r : Replacement}

theorem expectedHead_of_replacementBody {publication : Json}
    (h : s.replacementBody host project timeline r = .ok publication)
    (hfields : publication = .obj fields) :
    fieldOr fields "expected_head" "expected_head_revision_id" .null = .str r.expectedHead := by
  simp only [replacementBody, bind_eq_ok, return_ok] at h
  obtain ⟨-, -, head, -, occurrences, -, target, -, internal, -, old, -, rfl⟩ := h
  obtain rfl := Json.obj.inj hfields
  rfl

theorem expectedHead_of_readReplacement (h : readReplacement fields = .ok r) :
    fieldOr fields "expected_head" "expected_head_revision_id" .null = .str r.expectedHead := by
  simp only [readReplacement, bind_eq_ok, return_ok] at h
  obtain ⟨-, -, -, -, -, -, -, -, head, hhead, -, -, -, -, rfl⟩ := h
  have hfield := (nonEmpty_eq_ok.mp hhead).1
  unfold field at hfield
  unfold fieldOr
  cases hget : fields.get "expected_head" with
  | none => simp [hget] at hfield
  | some v =>
    rw [hget] at hfield
    exact hfield

/-- A command is answered from the ledger, or it moves the head that its body expects. -/
theorem composition_eq_ok {call : CompositionCall} (h : call.outcome host env s = .ok (s', answer)) :
    s' = s ∨ ∃ project expected new, call.expectedHead = idOrNull expected ∧
      Publishes s s' project call.timeline expected new := by
  cases call with
  | publish selector timeline body key =>
    refine (publishParentComposition_publishes h).imp_right ?_
    rintro ⟨fields, project, expected, new, rfl, hexpected, hpublishes⟩
    exact ⟨project, expected, new, hexpected, hpublishes⟩
  | restore selector timeline revision body key =>
    simp only [CompositionCall.outcome, restoreProjectParentCompositionRevision,
      bind_eq_ok] at h
    obtain ⟨k, -, fields, hfields, -, -, -, -, expected, hexpected, project, -, publication, hbody,
      h⟩ := h
    refine (publishParentComposition_publishes h).imp_right ?_
    rintro ⟨fields', project', expected', new, hfields', hexpected', hpublishes⟩
    refine ⟨project', expected', new, ?_, hpublishes⟩
    rw [← hexpected', expectedHead_of_restoreBody hbody hfields', CompositionCall.expectedHead,
      objectBody_eq_ok hfields]
    exact idOrNull_of_expectedParentHead hexpected
  | replaceMedia selector timeline body key =>
    simp only [CompositionCall.outcome, replaceParentCompositionMedia, bind_eq_ok] at h
    obtain ⟨-, -, fields, hfields, r, hr, project, -, -, -, found, -, h⟩ := h
    cases found with
    | some data => cases h; exact .inl rfl
    | none =>
      simp only [bind_eq_ok] at h
      obtain ⟨publication, hbody, h⟩ := h
      refine (publishParentComposition_publishes h).imp_right ?_
      rintro ⟨fields', project', expected', new, hfields', hexpected', hpublishes⟩
      refine ⟨project', expected', new, ?_, hpublishes⟩
      rw [← hexpected', expectedHead_of_replacementBody hbody hfields', CompositionCall.expectedHead,
        objectBody_eq_ok hfields]
      exact expectedHead_of_readReplacement hr

/-! ## The chain -/

/-- The publications of a timeline. -/
def State.publications (s : State) (timeline : TimelineId) : List TimelineEvent :=
  s.timelineEvents.filter fun e => e.timelineId = timeline ∧ e.kind = "parent.composition.published"

/-- The head that a publication found. -/
def TimelineEvent.oldHead (e : TimelineEvent) : Json := (e.payload.get? "old_head").getD .null

/-- The head that a publication left. -/
def TimelineEvent.newHead (e : TimelineEvent) : Json := (e.payload.get? "new_head").getD .null

/-- The head after publications, the first of which found `head`. -/
def headAfter (head : Json) (events : List TimelineEvent) : Json :=
  events.foldl (fun _ e => e.newHead) head

/-- Each publication found the head that the one before it left. -/
def Chain : Json → List TimelineEvent → Prop
  | _, [] => True
  | head, e :: events => e.oldHead = head ∧ Chain e.newHead events

theorem chain_append_singleton {head : Json} {events : List TimelineEvent} {e : TimelineEvent} :
    Chain head (events ++ [e]) ↔ Chain head events ∧ e.oldHead = headAfter head events := by
  induction events generalizing head with
  | nil => simp [Chain, headAfter]
  | cons e' events ih => simp [Chain, headAfter, ih, and_assoc]

/-- The head that is stored for a timeline. -/
def State.storedHead (s : State) (timeline : TimelineId) : Option RevisionId :=
  (s.parentHeads.lookup timeline).bind ParentHead.revisionId

/-- The history of a timeline is one chain that ends in the stored head. -/
def State.Linear (s : State) (timeline : TimelineId) : Prop :=
  Chain .null (s.publications timeline) ∧
    idOrNull (s.storedHead timeline) = headAfter .null (s.publications timeline)

theorem Publishes.storedHead_before {new : RevisionId}
    (h : Publishes s s' project timeline expected new) : s.storedHead timeline = expected := by
  unfold storedHead
  rcases h.before with ⟨hrow, rfl⟩ | hrow
  · rw [hrow]; rfl
  · rw [hrow]; rfl

/-- A publication appends to the chain of its timeline, and leaves the others. -/
theorem Publishes.linear {new : RevisionId} (h : Publishes s s' project timeline expected new)
    (hlinear : ∀ t, s.Linear t) (t : TimelineId) : s'.Linear t := by
  obtain ⟨hchain, hhead⟩ := hlinear t
  obtain ⟨e, hevents, htimeline, hkind, hold, hnew⟩ := h.event
  have hpublications : s'.publications t =
      s.publications t ++ if timeline = t then [e] else [] := by
    simp only [publications, hevents, List.filter_append, List.filter_singleton, htimeline, hkind,
      and_true]
    by_cases ht : timeline = t <;> simp [ht]
  have hafter := h.after t
  unfold Linear
  rw [hpublications]
  by_cases ht : timeline = t
  · subst ht
    rw [if_pos rfl]
    refine ⟨chain_append_singleton.mpr ⟨hchain, ?_⟩, ?_⟩
    · rw [← hhead, h.storedHead_before, TimelineEvent.oldHead, hold]
      rfl
    · rw [storedHead, hafter, if_pos rfl, headAfter, List.foldl_append]
      simp [TimelineEvent.newHead, hnew, idOrNull]
  · rw [if_neg ht, List.append_nil]
    refine ⟨hchain, ?_⟩
    rw [storedHead, hafter, if_neg (Ne.symm ht)]
    exact hhead

theorem nextComposition_cases (host : Host) (s : State) (call : Env × CompositionCall) :
    nextComposition host s call = s ∨ ∃ project expected new,
      call.2.expectedHead = idOrNull expected ∧
        Publishes s (nextComposition host s call) project call.2.timeline expected new := by
  unfold nextComposition
  split
  next s' answer h => exact composition_eq_ok h
  next => exact .inl rfl

/-- In every run of publications, restorations and replacements from a realm without publications, the
publications of a timeline are one chain that ends in the stored head; a call that expects another
head than the stored one changes nothing, and no call changes a committed revision. -/
theorem single_publication_history {start : State}
    (hevents : ∀ timeline, start.publications timeline = [])
    (hheads : ∀ timeline, start.storedHead timeline = none) (run : List (Env × CompositionCall))
    (timeline : TimelineId) :
    (Run.replay (nextComposition host) start run).Linear timeline ∧
      ∀ call : Env × CompositionCall, call.2.timeline = timeline →
        (Run.replay (nextComposition host) start run).KeepsRevisions
            (Run.replay (nextComposition host) start (run ++ [call])) ∧
          (call.2.expectedHead ≠ idOrNull
              ((Run.replay (nextComposition host) start run).storedHead timeline) →
            Run.replay (nextComposition host) start (run ++ [call]) =
              Run.replay (nextComposition host) start run) := by
  have hlinear : ∀ (run : List (Env × CompositionCall)) (s : State), (∀ t, s.Linear t) →
      ∀ t, (Run.replay (nextComposition host) s run).Linear t := by
    intro run
    induction run with
    | nil => exact fun s hs => hs
    | cons call run ih =>
      intro s hs
      refine ih _ ?_
      rcases nextComposition_cases host s call with heq | ⟨project, expected, new, -, hpublishes⟩
      · exact heq.symm ▸ hs
      · exact hpublishes.linear hs
  have hstart : ∀ t, start.Linear t := by
    intro t
    unfold Linear
    rw [hevents t, hheads t]
    exact ⟨trivial, rfl⟩
  refine ⟨hlinear run start hstart timeline, fun call htimeline => ?_⟩
  rw [Run.replay_append]
  generalize Run.replay (nextComposition host) start run = s
  show s.KeepsRevisions (nextComposition host s call) ∧
    (_ → nextComposition host s call = s)
  rcases nextComposition_cases host s call with heq | ⟨project, expected, new, hexpected, hpublishes⟩
  · exact ⟨heq.symm ▸ .refl s, fun _ => heq⟩
  · refine ⟨hpublishes.toKeepsRevisions, fun hne => absurd ?_ hne⟩
    rw [← htimeline, hpublishes.storedHead_before]
    exact hexpected

/-- A host on which all digests are equal. -/
def constantHost : Host where
  canonical _ := ""
  sha256 _ := String.ofList (List.replicate 64 'a')
  decode _ := some ""
  uuid name := name
  stamp _ := ""
  seamReport _ _ _ _ := .ok .null

/-- A project without timelines. -/
def emptyProject : State := { projects := (Table.empty.insertNew "project" "slug").getD .empty }

/-- Publishes a composition without occurrences. -/
def publishesEmpty (expected : Option RevisionId) (revision key : String) : Env × CompositionCall :=
  ({ now := 0 }, .publish "project" "timeline"
    (.obj [("expected_head", idOrNull expected), ("parent_composition", .obj []),
      ("parent_revision_id", .str revision), ("project_id", .str "project"),
      ("timeline_id", .str "timeline")]) (some key))

theorem single_publication_history_twice :
    ((Run.replay (nextComposition constantHost) emptyProject
        [publishesEmpty none "r1" "key-1", publishesEmpty none "r2" "key-2",
          publishesEmpty (some "r1") "r3" "key-3"]).publications "timeline").length = 2 ∧
      (Run.replay (nextComposition constantHost) emptyProject
        [publishesEmpty none "r1" "key-1", publishesEmpty none "r2" "key-2",
          publishesEmpty (some "r1") "r3" "key-3"]).Linear "timeline" :=
  ⟨by decide +kernel,
    (single_publication_history (fun _ => rfl) (fun _ => rfl) _ "timeline").1⟩

end WorkspaceRuntime.Project
