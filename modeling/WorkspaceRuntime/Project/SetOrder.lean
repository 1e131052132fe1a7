import WorkspaceRuntime.Project.Alike
import WorkspaceRuntime.Project.Closure
import WorkspaceRuntime.Project.History

/-!
# The order of the pinned revisions

A publication takes the revisions that its occurrences pin out of a set. It projects the new ones in
that order, and then moves or verifies the heads in that order. When it pins two revisions of one
shot, or when it projects two shots that exchange an item, the order decides which one is the head, or
whether the publication is accepted at all. `OrderFree` excludes these bodies.
-/

namespace WorkspaceRuntime.Project

open Fallible Timeline Project.State

variable {host : Host} {env : Env} {project : ProjectId} {timeline : TimelineId} {now : Time}
  {s s' t : State} {fields : Json.Fields} {d : Draft} {expected : Option RevisionId}
  {order : SetOrder ShotKey} {key : Option String}

/-! ## Bodies whose order does not matter -/

namespace State

/-- A pinned revision that the publication writes to the rows of its shot. -/
def IsProjected (s : State) (key : ShotKey) : Prop :=
  s.IsNew key ∨ s.shotHeads.lookup key.1 = none

instance (s : State) (key : ShotKey) : Decidable (s.IsProjected key) :=
  inferInstanceAs (Decidable (_ ∨ _))

end State

/-- A shot that is pinned at two revisions has a head and both revisions are committed. No revision
lists an item that another shot has which is projected by the same loop. -/
structure OrderFree (host : Host) (s : State) (fields : Json.Fields) : Prop where
  linked : ∀ k ∈ pinnedKeys fields, ∀ k' ∈ pinnedKeys fields, k ≠ k' → k.1 = k'.1 →
    ¬s.IsProjected k
  apart : ∀ k ∈ pinnedKeys fields, ∀ k' ∈ pinnedKeys fields, k.1 ≠ k'.1 → s.IsProjected k →
    s.IsProjected k' → (s.IsNew k ↔ s.IsNew k') → ∀ payload ∈ pinnedPayload host s fields k,
      s.Lacks host k'.1 payload

section Pinned

variable {shots : List ShotEntry}

/-- The first loop may take the pinned revisions in any order. -/
theorem OrderFree.shotsApart (h : OrderFree host s fields) (hkeys : (shots.map ShotEntry.key).Nodup)
    (hpinned : ∀ e ∈ shots, IsPinned host s fields e) : ShotsApart host s shots := by
  refine ⟨hkeys, fun a ha b hb hkey hnew_a hnew_b => ?_⟩
  have hpin_a := hpinned a ha
  have hpin_b := hpinned b hb
  have hnew_a := (isNew_iff hpin_a).mpr hnew_a
  have hnew_b := (isNew_iff hpin_b).mpr hnew_b
  have hne : a.shotId ≠ b.shotId := fun hshot =>
    h.linked a.key hpin_a.mem b.key hpin_b.mem hkey hshot (.inl hnew_a)
  exact ⟨hne, h.apart a.key hpin_a.mem b.key hpin_b.mem hne (.inl hnew_a) (.inl hnew_b)
    (iff_of_true hnew_a hnew_b) a.payload hpin_a.payload⟩

/-- The second loop may, too, since the first one leaves the shots without a head alone. -/
theorem OrderFree.headsApart (h : OrderFree host s fields) (hkeys : (shots.map ShotEntry.key).Nodup)
    (hpinned : ∀ e ∈ shots, IsPinned host s fields e) (hheads : t.shotHeads = s.shotHeads)
    (hshots : ∀ shot, (∀ e ∈ shots, e.existing = false → e.shotId ≠ shot) →
      t.shots.lookup shot = s.shots.lookup shot) : HeadsApart host t shots := by
  refine ⟨hkeys, ?_, ?_⟩
  · intro a ha b hb hkey hshot
    have hpin_a := hpinned a ha
    have hlinked := h.linked a.key hpin_a.mem b.key (hpinned b hb).mem hkey hshot
    rw [IsProjected, not_or, isNew_iff hpin_a, Bool.not_eq_false] at hlinked
    rw [hheads]
    exact ⟨hlinked.1, Option.ne_none_iff_exists'.mp hlinked.2⟩
  · intro a ha b hb hne hold_a hold_b hnone_a hnone_b
    rw [hheads] at hnone_a hnone_b
    have hpin_a := hpinned a ha
    have hpin_b := hpinned b hb
    have hnew : s.IsNew a.key ↔ s.IsNew b.key := by
      rw [isNew_iff hpin_a, isNew_iff hpin_b, hold_a, hold_b]
    have hlacks := h.apart a.key hpin_a.mem b.key hpin_b.mem hne (.inr hnone_a) (.inr hnone_b) hnew
      a.payload hpin_a.payload
    -- a new revision of a shot without a head would be one of two
    have hrow : t.shots.lookup b.shotId = s.shots.lookup b.shotId := by
      refine hshots b.shotId fun e he hnew_e hshot => ?_
      have hkey : b.key ≠ e.key := by
        intro hk
        obtain rfl := List.inj_on_of_nodup_map hkeys hb he hk
        rw [hold_b] at hnew_e
        cases hnew_e
      exact h.linked b.key hpin_b.mem e.key (hpinned e he).mem hkey hshot.symm (.inr hnone_b)
    rw [Lacks, hrow]
    exact hlacks

end Pinned

/-! ## The parent -/

namespace State.Alike

variable {parent : RevisionId}

theorem insertOccurrences {occurrences : List NormalOccurrence} (halike : s.Alike t)
    (h : s.insertOccurrences host project parent occurrences = .ok s') :
    ∃ t', t.insertOccurrences host project parent occurrences = .ok t' ∧ s'.Alike t' := by
  refine foldlM_congr ?_ halike h
  intro s t s' o halike hround
  simp only [bind_eq_ok, orThrow_eq_ok, return_ok] at hround ⊢
  obtain ⟨row, hrow, rows, hinsert, rfl⟩ := hround
  rw [halike.congr State.occurrences fun _ => rfl] at hinsert
  exact ⟨_, ⟨row, hrow, rows, hinsert, rfl⟩,
    halike.update (fun s => { s with occurrences := rows }) fun _ => ⟨rfl, rfl, rfl, rfl, rfl⟩⟩

theorem insertDependencies {m : Manifest} (halike : s.Alike t)
    (h : s.insertDependencies parent m = .ok s') :
    ∃ t', t.insertDependencies parent m = .ok t' ∧ s'.Alike t' := by
  refine foldlM_congr ?_ halike h
  intro s t s' o halike hround
  simp only [bind_eq_ok, orThrow_eq_ok, return_ok] at hround ⊢
  obtain ⟨rows, hinsert, rfl⟩ := hround
  rw [halike.congr dependencies fun _ => rfl] at hinsert
  exact ⟨_, ⟨rows, hinsert, rfl⟩,
    halike.update (fun s => { s with dependencies := rows }) fun _ => ⟨rfl, rfl, rfl, rfl, rfl⟩⟩

theorem insertParent {m : Manifest} (halike : s.Alike t)
    (h : s.insertParent host project timeline d m = .ok s') :
    ∃ t', t.insertParent host project timeline d m = .ok t' ∧ s'.Alike t' := by
  unfold State.insertParent at h ⊢
  rw [← halike.congr parentRevisions fun _ => rfl]
  split at h
  next row hrow =>
    simp only [bind_eq_ok, return_ok] at h ⊢
    obtain ⟨_, hsame, rfl⟩ := h
    exact ⟨t, ⟨(), hsame, rfl⟩, halike⟩
  next hrow =>
    simp only [bind_eq_ok, orThrow_eq_ok] at h ⊢
    obtain ⟨payload, htext, rows, hinsert, s₁, hoccurrences, hdependencies⟩ := h
    have halike₁ := halike.update (fun s => { s with parentRevisions := rows })
      fun _ => ⟨rfl, rfl, rfl, rfl, rfl⟩
    obtain ⟨t₁, hoccurrences', halike₂⟩ := halike₁.insertOccurrences hoccurrences
    obtain ⟨t', hdependencies', halike'⟩ := halike₂.insertDependencies hdependencies
    exact ⟨t', ⟨payload, htext, rows, hinsert, t₁, hoccurrences', hdependencies'⟩, halike'⟩

theorem moveParentHead {new : RevisionId} (halike : s.Alike t)
    (h : s.moveParentHead project timeline expected new = .ok s') :
    ∃ t', t.moveParentHead project timeline expected new = .ok t' ∧ s'.Alike t' := by
  simp only [State.moveParentHead, bind_eq_ok, require_eq_ok, return_ok,
    halike.congr parentHeads fun _ => rfl] at h ⊢
  obtain ⟨_, hhead, rfl⟩ := h
  exact ⟨_, ⟨(), hhead, rfl⟩,
    halike.update (fun s => { s with parentHeads := _ }) fun _ => ⟨rfl, rfl, rfl, rfl, rfl⟩⟩

theorem appendTimelineEvent {kind : String} {payload : Json} (halike : s.Alike t) :
    (s.appendTimelineEvent host timeline kind payload now).Alike
      (t.appendTimelineEvent host timeline kind payload now) :=
  halike.update (fun s => s.appendTimelineEvent host timeline kind payload now)
    fun _ => ⟨rfl, rfl, rfl, rfl, rfl⟩

end State.Alike

/-! ## The commit -/

theorem commit_perm {c c' : Closure} (hfree : OrderFree host s fields)
    (hkeys : (c.shots.map ShotEntry.key).Nodup) (hpinned : ∀ e ∈ c.shots, IsPinned host s fields e)
    (hshots : c.shots.Perm c'.shots) (hinternal : c.internal.SameRows c'.internal)
    (hmanifest : c'.manifest = c.manifest)
    (h : s.commit host project timeline d c expected now = .ok s') :
    ∃ t', s.commit host project timeline d c' expected now = .ok t' ∧ s'.Alike t' := by
  simp only [commit, bind_eq_ok, return_ok] at h ⊢
  obtain ⟨s₁, hinternals, ⟨s₂, shots⟩, hinsert, s₃, hparent, s₄, hheads, s₅, hmove, rfl⟩ := h
  have honly := insertInternals_only hinternals
  have hshots₁ : s₁.shots = s.shots := by rw [honly]
  have hheads₁ : s₁.shotHeads = s.shotHeads := by rw [honly]
  have hrevisions₁ : s₁.shotRevisions = s.shotRevisions := by rw [honly]
  -- what the two loops rely on
  have hapart : ShotsApart host s₁ c.shots := by
    have h := hfree.shotsApart hkeys hpinned
    exact ⟨h.nodup, fun a ha b hb hkey hnew hnew' => by
      rw [Lacks, hshots₁]
      exact h.apart a ha b hb hkey hnew hnew'⟩
  have hmarks : shots = c.shots := by
    refine insertShots_entries hkeys (fun e he hnew => ?_) hinsert
    rw [hrevisions₁]
    exact (isNew_iff (hpinned e he)).mpr hnew
  subst hmarks
  have hframe := insertShots_frame hinsert
  have honly' := (insertParent_only hparent).1
  have hapart' : HeadsApart host s₃ c.shots := by
    refine hfree.headsApart hkeys hpinned ?_ fun shot hother => ?_
    · rw [honly']
      exact hframe.1.trans hheads₁
    · rw [honly']
      exact (hframe.2 shot hother).trans (by rw [hshots₁])
  -- the parts one after the other
  obtain ⟨t₁, hinternals', halike₁⟩ := reorderable_insertInternal.foldlM .refl
    (hinternal.perm.map Prod.snd) (.refl _) trivial hinternals
  obtain ⟨⟨t₂, shots'⟩, hinsert', halike₂, hperm⟩ := reorderable_insertShot.foldlM
    (s := (s₁, [])) (t := (t₁, [])) (fun done => ⟨.refl done.1, .refl done.2⟩) hshots
    ⟨halike₁, .refl _⟩ hapart hinsert
  obtain ⟨t₃, hparent', halike₃⟩ := halike₂.insertParent hparent
  obtain ⟨t₄, hheads', halike₄⟩ := reorderable_moveShotHead.foldlM .refl hperm halike₃ hapart' hheads
  obtain ⟨t₅, hmove', halike₅⟩ := halike₄.moveParentHead hmove
  rw [hmanifest]
  exact ⟨_, ⟨t₁, hinternals', (t₂, shots'), hinsert', t₃, hparent', t₄, hheads', t₅, hmove', rfl⟩,
    halike₅.appendTimelineEvent⟩

/-! ## The publication -/

/-- Both are refused, or both are accepted with the same answer and the same rows. -/
def SameOutcome : Except Err (State × Answer) → Except Err (State × Answer) → Prop
  | .ok (s, answer), .ok (t, answer') => s.Alike t ∧ answer = answer'
  | .error _, .error _ => True
  | _, _ => False

theorem sameOutcome_of_ok {x y : Except Err (State × Answer)}
    (hx : ∀ {s answer}, x = .ok (s, answer) → ∃ t, y = .ok (t, answer) ∧ s.Alike t)
    (hy : ∀ {t answer}, y = .ok (t, answer) → ∃ s, x = .ok (s, answer) ∧ t.Alike s) :
    SameOutcome x y := by
  cases x with
  | ok r =>
    obtain ⟨t, rfl, halike⟩ := hx rfl
    exact ⟨halike, rfl⟩
  | error e =>
    cases y with
    | ok r =>
      obtain ⟨s, hs, -⟩ := hy rfl
      cases hs
    | error e' => trivial

theorem publishNew_perm (order' : SetOrder ShotKey) {request : Json} {answer : Answer}
    (hfree : OrderFree host s fields)
    (h : s.publishNew host { env with order } project timeline fields key request =
      .ok (s', answer)) :
    ∃ t', s.publishNew host { env with order := order' } project timeline fields key request =
      .ok (t', answer) ∧ s'.Alike t' := by
  simp only [publishNew, bind_eq_ok, return_ok, Prod.mk.injEq] at h ⊢
  obtain ⟨expected, hexpected, _, howner, _, hhead, d, hd, c, hc, s₁, hcommit, ledger, hledger, rfl,
    rfl⟩ := h
  have hsub : ∀ k ∈ order.arrange d.keys, k ∈ d.keys := fun k => (order.perm d.keys).mem_iff.mp
  have hnodup : (order.arrange d.keys).Nodup :=
    (order.perm d.keys).nodup_iff.mpr (List.nodup_eraseDups _)
  obtain ⟨hmap, hpinned⟩ := closure_pinned hd hsub hc
  obtain ⟨c', hc', hshots, hinternal, hmanifest, hreport⟩ := closure_perm hd hsub hnodup
    ((order.perm d.keys).trans (order'.perm d.keys).symm) hc
  obtain ⟨t₁, hcommit', halike⟩ := commit_perm hfree (hmap ▸ hnodup) hpinned hshots hinternal
    hmanifest hcommit
  have hdata : publicationResult host t₁ project timeline d c' expected env.now =
      publicationResult host s₁ project timeline d c expected env.now := by
    unfold publicationResult
    rw [hmanifest, hreport, halike.congr timelineEvents fun _ => rfl]
  refine ⟨{ t₁ with ledger }, ⟨expected, hexpected, (), howner, (), hhead, d, hd, c', hc', t₁,
    hcommit', ledger, ?_, rfl, ?_⟩, halike.update (fun s => { s with ledger })
      fun _ => ⟨rfl, rfl, rfl, rfl, rfl⟩⟩
  · rw [hdata, ← halike.congr State.ledger fun _ => rfl]
    exact hledger
  · rw [hdata]

/-- A publication that is accepted in one order is accepted in the other. -/
theorem publishParentComposition_perm {order' : SetOrder ShotKey} {selector : String} {body : Json}
    {answer : Answer} (hfree : ∀ fields, body = .obj fields → OrderFree host s fields)
    (h : s.publishParentComposition host { env with order } selector timeline body key =
      .ok (s', answer)) :
    ∃ t', s.publishParentComposition host { env with order := order' } selector timeline body key =
      .ok (t', answer) ∧ s'.Alike t' := by
  simp only [publishParentComposition, bind_eq_ok] at h ⊢
  obtain ⟨k, hkey, fields, hfields, project, hproject, _, hscope, _, hroute, _, hprior, h⟩ := h
  cases hrow : s.ledger.lookup (.parentCompositionPublish, timeline, k) with
  | some row =>
    rw [hrow] at h
    exact ⟨s', ⟨k, hkey, fields, hfields, project, hproject, (), hscope, (), hroute, (), hprior,
      by rw [hrow]; exact h⟩, .refl s'⟩
  | none =>
    rw [hrow] at h
    obtain ⟨t', h', halike⟩ :=
      publishNew_perm order' (hfree fields (objectBody_eq_ok hfields)) h
    exact ⟨t', ⟨k, hkey, fields, hfields, project, hproject, (), hscope, (), hroute, (), hprior,
      by rw [hrow]; exact h'⟩, halike⟩

/-- The members come out in the order opposite to the one in which they were put in. -/
def SetOrder.reversed {α : Type} : SetOrder α := ⟨List.reverse, List.reverse_perm⟩

/-- Publishes a composition of the pinned revisions, all of which it declares without items. -/
def publishesShots (expected : Option RevisionId) (parent : RevisionId) (pins : List ShotKey) : Json :=
  .obj [("expected_head", idOrNull expected),
    ("internal_timeline_revisions", .arr [.obj [("revision_id", .str "cut")]]),
    ("parent_composition", .obj [("occurrences", .arr (pins.map fun pin =>
      .obj [("duration_ms", .int 1000), ("occurrence_id", .str pin.2),
        ("placement", .obj [("start_ms", .int 0)]), ("shot_id", .str pin.1),
        ("shot_revision_id", .str pin.2), ("track", .str "main")]))]),
    ("parent_revision_id", .str parent), ("project_id", .str "project"),
    ("shot_revisions", .arr (pins.map fun pin =>
      .obj [("internal_timeline_revision_id", .str "cut"), ("name", .str pin.2),
        ("revision_id", .str pin.2), ("shot_id", .str pin.1)])),
    ("timeline_id", .str "timeline")]

/-- The outcome of publishing a second composition after one of the first revision. -/
def publishesAgain (order : SetOrder ShotKey) (pins : List ShotKey) : Except Err (State × Answer) := do
  let (s, _) ← emptyProject.publishParentComposition constantHost { now := 0 } "project" "timeline"
    (publishesShots none "p1" [("shot", "r1")]) (some "key-1")
  s.publishParentComposition constantHost { now := 1, order } "project" "timeline"
    (publishesShots (some "p1") "p2" pins) (some "key-2")

end WorkspaceRuntime.Project
