import WorkspaceRuntime.Lib.Reorder
import WorkspaceRuntime.Project.Steps

/-!
# States with the same rows

A publication writes four tables in the order of a set: the internal revisions, the shot revisions,
the shots and the heads of the shots. Two states are alike if these tables have the same rows and
everything else is equal. A round of a loop over shots reads and writes the rows of its own shot,
besides the ids of the items of all shots. So it does the same on alike states, and rounds on two
shots may be exchanged when neither takes an item that the other one had.
-/

namespace WorkspaceRuntime.Project

open Fallible Project.State Table

variable {host : Host} {project : ProjectId} {now : Time} {s s' s₁ s₂ t t' t₁ t₂ : State}
  {e e' a b : ShotEntry} {l l' shots shots' : List ShotEntry} {shot : ShotId} {row : Shot}

/-! ## Alike states -/

/-- A state without the tables that are written in the order of a set. -/
def State.rest (s : State) : State :=
  { s with shots := .empty, internalRevisions := .empty, shotRevisions := .empty
           shotHeads := .empty }

/-- The states have the same rows. -/
structure State.Alike (s t : State) : Prop where
  shots : s.shots.SameRows t.shots
  internalRevisions : s.internalRevisions.SameRows t.internalRevisions
  shotRevisions : s.shotRevisions.SameRows t.shotRevisions
  shotHeads : s.shotHeads.SameRows t.shotHeads
  rest : s.rest = t.rest

namespace State.Alike

theorem refl (s : State) : s.Alike s := ⟨.refl _, .refl _, .refl _, .refl _, rfl⟩

theorem trans (h : s.Alike t) (h' : t.Alike t') : s.Alike t' :=
  ⟨h.shots.trans h'.shots, h.internalRevisions.trans h'.internalRevisions,
    h.shotRevisions.trans h'.shotRevisions, h.shotHeads.trans h'.shotHeads, h.rest.trans h'.rest⟩

/-- What is not one of the tables is equal. -/
theorem congr {β : Type} (h : s.Alike t) (f : State → β) (hf : ∀ s : State, f s.rest = f s) :
    f s = f t := by
  rw [← hf s, ← hf t, h.rest]

/-- The same write to something that is not one of the tables. -/
theorem update (h : s.Alike t) (f : State → State)
    (hf : ∀ s, (f s).shots = s.shots ∧ (f s).internalRevisions = s.internalRevisions ∧
      (f s).shotRevisions = s.shotRevisions ∧ (f s).shotHeads = s.shotHeads ∧
      (f s).rest = f s.rest) : (f s).Alike (f t) := by
  obtain ⟨hshots, hinternal, hrevisions, hheads, hrest⟩ := hf s
  obtain ⟨hshots', hinternal', hrevisions', hheads', hrest'⟩ := hf t
  refine ⟨?_, ?_, ?_, ?_, ?_⟩
  · rw [hshots, hshots']
    exact h.shots
  · rw [hinternal, hinternal']
    exact h.internalRevisions
  · rw [hrevisions, hrevisions']
    exact h.shotRevisions
  · rw [hheads, hheads']
    exact h.shotHeads
  · rw [hrest, hrest', h.rest]

end State.Alike

/-! ## Internal revisions -/

theorem lookup_of_insertInternal {e : InternalEntry} (h : s.insertInternal host project e = .ok s')
    (id : RevisionId) : s'.internalRevisions.lookup id =
      if id = e.revisionId then some (e.row project) else s.internalRevisions.lookup id := by
  rcases insertInternal_eq_ok.mp h with ⟨hrow, rfl⟩ | ⟨-, rows, hinsert, rfl⟩
  · split
    next hid => rw [hid, hrow]
    next => rfl
  · exact lookup_insertNew hinsert id

/-- A round only writes internal revisions. -/
theorem insertInternal_only {e : InternalEntry} (h : s.insertInternal host project e = .ok s') :
    s' = { s with internalRevisions := s'.internalRevisions } := by
  rcases insertInternal_eq_ok.mp h with ⟨-, rfl⟩ | ⟨-, rows, -, rfl⟩ <;> rfl

/-- A round that the rows of one state allow is one that the rows of the other allow. -/
theorem insertInternal_of_rows {e : InternalEntry} (h : s.insertInternal host project e = .ok s')
    (hrow : t.internalRevisions.lookup e.revisionId = s.internalRevisions.lookup e.revisionId ∨
      t.internalRevisions.lookup e.revisionId = some (e.row project)) :
    ∃ t', t.insertInternal host project e = .ok t' := by
  rcases hrow with hrow | hrow
  · rcases insertInternal_eq_ok.mp h with ⟨hfound, -⟩ | ⟨htext, rows, hinsert, -⟩
    · exact ⟨t, insertInternal_eq_ok.mpr (.inl ⟨hrow.trans hfound, rfl⟩)⟩
    · have hnone := hrow.trans (insertNew_eq_some_iff.mp ⟨rows, hinsert⟩)
      obtain ⟨rows', hinsert'⟩ := insertNew_eq_some_iff.mpr hnone
      exact ⟨_, insertInternal_eq_ok.mpr (.inr ⟨htext, rows', hinsert', rfl⟩)⟩
  · exact ⟨t, insertInternal_eq_ok.mpr (.inl ⟨hrow, rfl⟩)⟩

/-- The order in which internal revisions are inserted does not matter. -/
theorem reorderable_insertInternal :
    Reorderable (fun s e => s.insertInternal host project e) Alike fun _ _ => True where
  trans := .trans
  congr := by
    intro s t s' e halike h
    obtain ⟨t', h'⟩ := insertInternal_of_rows h (.inl (halike.internalRevisions e.revisionId).symm)
    refine ⟨t', h', ?_⟩
    rw [insertInternal_only h, insertInternal_only h']
    refine ⟨halike.shots, fun id => ?_, halike.shotRevisions, halike.shotHeads, halike.rest⟩
    rw [lookup_of_insertInternal h, lookup_of_insertInternal h', halike.internalRevisions id]
  next := fun _ _ => trivial
  perm := fun _ _ => trivial
  swap := by
    intro s s₁ s₂ a b _ _ ha hb
    have hrow_a := lookup_of_insertInternal ha
    -- the same identity is only accepted twice with the same row
    have hsame : a.revisionId = b.revisionId → a.row project = b.row project := by
      intro hid
      rcases insertInternal_eq_ok.mp hb with ⟨hfound, -⟩ | ⟨-, rows, hinsert, -⟩
      · rw [hrow_a, if_pos hid.symm] at hfound
        exact Option.some.inj hfound
      · have hnone := insertNew_eq_some_iff.mp ⟨rows, hinsert⟩
        rw [hrow_a, if_pos hid.symm] at hnone
        cases hnone
    obtain ⟨t₁, hb'⟩ : ∃ t₁, s.insertInternal host project b = .ok t₁ := by
      by_cases hid : a.revisionId = b.revisionId
      · have hpayload : a.payload = b.payload := congrArg InternalRevision.payload (hsame hid)
        have hboth := insertInternal_eq_ok.mp ha
        rw [hid, hsame hid, hpayload] at hboth
        exact ⟨s₁, insertInternal_eq_ok.mpr hboth⟩
      · refine insertInternal_of_rows hb (.inl ?_)
        rw [hrow_a, if_neg (Ne.symm hid)]
    have hrow_b := lookup_of_insertInternal hb'
    obtain ⟨t₂, ha'⟩ : ∃ t₂, t₁.insertInternal host project a = .ok t₂ := by
      refine insertInternal_of_rows ha ?_
      rw [hrow_b]
      split
      next hid => exact .inr (by rw [hsame hid])
      next => exact .inl rfl
    refine ⟨t₁, t₂, hb', ha', ?_⟩
    rw [insertInternal_only hb, insertInternal_only ha, insertInternal_only ha',
      insertInternal_only hb']
    refine ⟨.refl _, fun id => ?_, .refl _, .refl _, rfl⟩
    show s₂.internalRevisions.lookup id = t₂.internalRevisions.lookup id
    rw [lookup_of_insertInternal hb, lookup_of_insertInternal ha', hrow_a, hrow_b]
    exact Table.ite_ite_swap fun hid_b hid_a => by rw [hsame (hid_a.symm.trans hid_b)]

/-! ## Rounds on one shot -/

/-- Only the rows of one shot are written. -/
structure State.Touches (s s' : State) (shot : ShotId) : Prop where
  shots : ∀ k, k ≠ shot → s'.shots.lookup k = s.shots.lookup k
  shotHeads : ∀ k, k ≠ shot → s'.shotHeads.lookup k = s.shotHeads.lookup k
  internalRevisions : s'.internalRevisions = s.internalRevisions
  rest : s'.rest = s.rest

/-- The rows of a shot are the same in both states. -/
structure State.AgreesAt (s t : State) (shot : ShotId) : Prop where
  shots : s.shots.lookup shot = t.shots.lookup shot
  shotHeads : s.shotHeads.lookup shot = t.shotHeads.lookup shot

theorem State.Touches.refl (s : State) (shot : ShotId) : s.Touches s shot :=
  ⟨fun _ _ => rfl, fun _ _ => rfl, rfl, rfl⟩

/-- The same round on alike states. -/
theorem State.Alike.of_touches (h : s.Alike t) (hs : s.Touches s' shot) (ht : t.Touches t' shot)
    (hat : s'.AgreesAt t' shot) (hrevisions : s'.shotRevisions.SameRows t'.shotRevisions) :
    s'.Alike t' where
  shots k := by
    by_cases hk : k = shot
    · exact hk ▸ hat.shots
    · rw [hs.shots k hk, ht.shots k hk, h.shots k]
  shotHeads k := by
    by_cases hk : k = shot
    · exact hk ▸ hat.shotHeads
    · rw [hs.shotHeads k hk, ht.shotHeads k hk, h.shotHeads k]
  internalRevisions := by
    rw [hs.internalRevisions, ht.internalRevisions]
    exact h.internalRevisions
  shotRevisions := hrevisions
  rest := by rw [hs.rest, ht.rest, h.rest]

/-- Rounds on two shots in both orders. -/
theorem State.Alike.of_swap {shot' : ShotId} (hne : shot ≠ shot') (h₁ : s.Touches s₁ shot)
    (h₂ : s₁.Touches s₂ shot') (h₁' : s.Touches t₁ shot') (h₂' : t₁.Touches t₂ shot)
    (hat : s₁.AgreesAt t₂ shot) (hat' : s₂.AgreesAt t₁ shot')
    (hrevisions : s₂.shotRevisions.SameRows t₂.shotRevisions) : s₂.Alike t₂ where
  shots k := by
    by_cases hk : k = shot
    · rw [hk, h₂.shots shot hne, hat.shots]
    · by_cases hk' : k = shot'
      · rw [hk', hat'.shots, h₂'.shots shot' hne.symm]
      · rw [h₂.shots k hk', h₁.shots k hk, h₂'.shots k hk, h₁'.shots k hk']
  shotHeads k := by
    by_cases hk : k = shot
    · rw [hk, h₂.shotHeads shot hne, hat.shotHeads]
    · by_cases hk' : k = shot'
      · rw [hk', hat'.shotHeads, h₂'.shotHeads shot' hne.symm]
      · rw [h₂.shotHeads k hk', h₁.shotHeads k hk, h₂'.shotHeads k hk, h₁'.shotHeads k hk']
  internalRevisions := by
    rw [h₂.internalRevisions, h₁.internalRevisions, h₂'.internalRevisions, h₁'.internalRevisions]
    exact .refl _
  shotRevisions := hrevisions
  rest := by rw [h₂.rest, h₁.rest, h₂'.rest, h₁'.rest]

/-! ## Items -/

theorem itemFree_congr (h : s.shots.SameRows t.shots) {id : String} (hfree : s.ItemFree shot id) :
    t.ItemFree shot id := by
  rw [itemFree_iff] at hfree ⊢
  intro other row hrow
  exact hfree other row ((h other).trans hrow)

/-- An item stays free for a shot when another shot does not take it. -/
theorem itemFree_of_touches {id : String} {shot' : ShotId} (ht : s.Touches t shot')
    (hfree : s.ItemFree shot id)
    (hrow : ∀ row, t.shots.lookup shot' = some row → ∀ item ∈ row.items, item.id ≠ id) :
    t.ItemFree shot id := by
  rw [itemFree_iff] at hfree ⊢
  intro other row hother hne
  by_cases hk : other = shot'
  · exact hrow row (hk ▸ hother)
  · exact hfree other row ((ht.shots other hk).symm.trans hother) hne

theorem State.Touches.symm (h : s.Touches t shot) : t.Touches s shot :=
  ⟨fun k hk => (h.shots k hk).symm, fun k hk => (h.shotHeads k hk).symm,
    h.internalRevisions.symm, h.rest.symm⟩

/-- The shot has none of the items that a payload lists. -/
def State.Lacks (s : State) (host : Host) (shot : ShotId) (payload : Json) : Prop :=
  ∀ row ∈ s.shots.lookup shot, ∀ item ∈ row.items, item.id ∉ listedItems host.numerals payload

/-- A round wrote the row of its shot. -/
structure Wrote (host : Host) (s s' : State) (e : ShotEntry) (row : Shot) : Prop where
  shots : s'.shots = s.shots.upsert e.shotId row
  free : ∀ item ∈ row.items, s.ItemFree e.shotId item.id
  listed : ∀ item ∈ row.items, item.id ∈ listedItems host.numerals e.payload

theorem Wrote.lookup (h : Wrote host s s' e row) : s'.shots.lookup e.shotId = some row := by
  rw [h.shots, lookup_upsert, if_pos rfl]

/-- What a round writes was free before the round on another shot, too. -/
theorem Wrote.free_before (h : Wrote host s₁ s₂ b row)
    (ha : s.Touches s₁ a.shotId) (hlacks : s₁.shots = s.shots ∨ s.Lacks host a.shotId b.payload) :
    ∀ item ∈ row.items, s.ItemFree b.shotId item.id := by
  intro item hitem
  rcases hlacks with hshots | hlacks
  · exact itemFree_congr (hshots ▸ .refl _) (h.free item hitem)
  · refine itemFree_of_touches ha.symm (h.free item hitem) ?_
    intro row' hrow' item' hitem' hid
    exact hlacks row' hrow' item' hitem' (hid ▸ h.listed item hitem)

/-- What a round writes is free after the round on another shot, too. -/
theorem Wrote.free_after (hne : a.shotId ≠ b.shotId) (h : Wrote host s s₁ a row)
    (hb : s₂.shots = s₁.shots ∨ ∃ row', Wrote host s₁ s₂ b row') (ha : s.Touches s₁ a.shotId)
    (hb' : s.Touches t₁ b.shotId) (hat : s₂.AgreesAt t₁ b.shotId) :
    ∀ item ∈ row.items, t₁.ItemFree a.shotId item.id := by
  intro item hitem
  refine itemFree_of_touches hb' (h.free item hitem) ?_
  intro row' hrow' item' hitem' hid
  rw [← hat.shots] at hrow'
  rcases hb with hshots | ⟨row'', hwrote⟩
  · -- the other round left its row, which the item was free of
    rw [hshots, ha.shots b.shotId hne.symm] at hrow'
    exact itemFree_iff.mp (h.free item hitem) b.shotId row' hrow' hne.symm item' hitem' hid
  · -- the other round found its items free of the row that was written here
    obtain rfl := Option.mem_unique hwrote.lookup hrow'
    exact itemFree_iff.mp (hwrote.free item' hitem') a.shotId row h.lookup hne item hitem hid.symm

/-! ## Shot revisions -/

theorem State.HasInternal.congr (h : s.HasInternal project e)
    (hrows : s.internalRevisions.SameRows t.internalRevisions) : t.HasInternal project e := by
  obtain ⟨row, hrow, hproject⟩ := h
  exact ⟨row, (hrows e.internalId).symm.trans hrow, hproject⟩

namespace ShotStep

theorem touches (h : ShotStep host project now s e s' e') : s.Touches s' e.shotId := by
  cases h with
  | existing | found => exact .refl s _
  | written => exact ⟨fun k hk => by simp [lookup_upsert, hk], fun _ _ => rfl, rfl, rfl⟩

/-- What a round commits. -/
theorem lookup_revision (h : ShotStep host project now s e s' e') (id : RevisionId) :
    s'.shotRevisions.lookup id = if e.existing = false ∧ id = e.revisionId then
      some (e.row project) else s.shotRevisions.lookup id := by
  cases h with
  | existing hold => simp [hold]
  | found hnew _ hrow =>
    by_cases hid : id = e.revisionId
    · simp [hnew, hid, hrow]
    · simp [hid]
  | written hnew _ _ _ _ hinsert => simp [hnew, lookup_insertNew hinsert]

theorem wrote (h : ShotStep host project now s e s' e') :
    s'.shots = s.shots ∨ e.existing = false ∧ ∃ row, Wrote host s s' e row := by
  cases h with
  | existing | found => exact .inl rfl
  | @written row _ hnew _ hrow hfree =>
    exact .inr ⟨hnew, row, rfl, hfree, fun item hitem => hrow.id_mem_listed hitem⟩

/-- A revision that was committed before is left alone. -/
theorem of_existing (h : ShotStep host project now s e s' e') (hold : e.existing = true) :
    s' = s ∧ e' = e := by
  cases h with
  | existing => exact ⟨rfl, rfl⟩
  | found hnew | written hnew => rw [hold] at hnew; cases hnew

/-- The same round on a state with the same rows for it. -/
theorem local_step (h : ShotStep host project now s e s' e') (hat : s.AgreesAt t e.shotId)
    (hrevision : s.shotRevisions.lookup e.revisionId = t.shotRevisions.lookup e.revisionId)
    (hinternal : s.internalRevisions.SameRows t.internalRevisions)
    (hfree : ∀ row, Wrote host s s' e row → ∀ item ∈ row.items, t.ItemFree e.shotId item.id) :
    ∃ t', ShotStep host project now t e t' e' ∧ s'.AgreesAt t' e.shotId := by
  cases h with
  | existing hold => exact ⟨t, .existing hold, hat⟩
  | found hnew hhas hrow =>
    exact ⟨t, .found hnew (hhas.congr hinternal) (hrevision.symm.trans hrow), hat⟩
  | @written row revisions hnew hhas hrow hrowfree htext hinsert =>
    have hnone := hrevision.symm.trans (insertNew_eq_some_iff.mp ⟨revisions, hinsert⟩)
    obtain ⟨revisions', hinsert'⟩ := (insertNew_eq_some_iff (a := e.row project)).mpr hnone
    have hfree' := hfree row ⟨rfl, hrowfree, fun item hitem => hrow.id_mem_listed hitem⟩
    refine ⟨_, .written hnew (hhas.congr hinternal) (hat.shots ▸ hrow) hfree' htext hinsert', ?_⟩
    exact ⟨by simp [lookup_upsert], hat.shotHeads⟩

/-- Two new revisions of different shots have different identities. -/
theorem revisionId_ne {a' b' : ShotEntry} (ha : ShotStep host project now s a s₁ a')
    (hb : ShotStep host project now s₁ b s₂ b') (hnew_a : a.existing = false)
    (hnew_b : b.existing = false) (hne : a.shotId ≠ b.shotId) : a.revisionId ≠ b.revisionId := by
  intro hid
  have hrow := ha.lookup_revision b.revisionId
  rw [if_pos ⟨hnew_a, hid.symm⟩] at hrow
  cases hb with
  | existing hold => rw [hnew_b] at hold; cases hold
  | found _ _ hfound =>
    rw [hrow] at hfound
    exact hne (congrArg ShotRevision.shotId (Option.some.inj hfound))
  | written _ _ _ _ _ hinsert =>
    rw [insertNew_eq_some_iff.mp ⟨_, hinsert⟩] at hrow
    cases hrow

end ShotStep

/-- What the rounds over the shots rely on: the new revisions are of different shots, and none lists
an item that the shot of another one has. -/
structure ShotsApart (host : Host) (s : State) (shots : List ShotEntry) : Prop where
  nodup : (shots.map ShotEntry.key).Nodup
  apart : ∀ a ∈ shots, ∀ b ∈ shots, a.key ≠ b.key → a.existing = false → b.existing = false →
    a.shotId ≠ b.shotId ∧ s.Lacks host b.shotId a.payload

theorem ShotsApart.perm (hperm : l.Perm l') (h : ShotsApart host s l) : ShotsApart host s l' :=
  ⟨(hperm.map ShotEntry.key).nodup_iff.mp h.nodup, fun a ha b hb =>
    h.apart a (hperm.mem_iff.mpr ha) b (hperm.mem_iff.mpr hb)⟩

theorem ShotsApart.next (h : ShotsApart host s (e :: l))
    (hstep : ShotStep host project now s e s' e') : ShotsApart host s' l := by
  have hnodup := h.nodup
  rw [List.map_cons, List.nodup_cons] at hnodup
  refine ⟨hnodup.2, fun a ha b hb hkey hnew hnew' => ?_⟩
  obtain ⟨hshot, hlacks⟩ := h.apart a (.tail _ ha) b (.tail _ hb) hkey hnew hnew'
  refine ⟨hshot, ?_⟩
  rcases hstep.wrote with hshots | ⟨hnew_e, -⟩
  · rw [Lacks, hshots]
    exact hlacks
  · -- the round was on another shot
    have hkey_e : e.key ≠ b.key := fun hk => hnodup.1 (hk ▸ List.mem_map_of_mem hb)
    obtain ⟨hne, -⟩ := h.apart e List.mem_cons_self b (.tail _ hb) hkey_e hnew_e hnew'
    rw [Lacks, hstep.touches.shots b.shotId hne.symm]
    exact hlacks

theorem ShotsApart.swap (h : ShotsApart host s (a :: b :: l))
    {a' b' : ShotEntry} (ha : ShotStep host project now s a s₁ a')
    (hb : ShotStep host project now s₁ b s₂ b') :
    ∃ t₁ t₂, ShotStep host project now s b t₁ b' ∧ ShotStep host project now t₁ a t₂ a' ∧
      s₂.Alike t₂ := by
  by_cases hold_a : a.existing = true
  · obtain ⟨rfl, rfl⟩ := ha.of_existing hold_a
    exact ⟨s₂, s₂, hb, .existing hold_a, .refl _⟩
  by_cases hold_b : b.existing = true
  · obtain ⟨rfl, rfl⟩ := hb.of_existing hold_b
    exact ⟨s, s₂, .existing hold_b, ha, .refl _⟩
  have hnew_a := Bool.eq_false_iff.mpr hold_a
  have hnew_b := Bool.eq_false_iff.mpr hold_b
  have hkey : a.key ≠ b.key := fun hk => by
    have hnodup := h.nodup
    simp [hk] at hnodup
  have hmem_b : b ∈ a :: b :: l := .tail _ List.mem_cons_self
  obtain ⟨hne, -⟩ := h.apart a List.mem_cons_self b hmem_b hkey hnew_a hnew_b
  obtain ⟨-, hlacks⟩ := h.apart b hmem_b a List.mem_cons_self hkey.symm hnew_b hnew_a
  have hrevision := ha.revisionId_ne hb hnew_a hnew_b hne
  obtain ⟨t₁, hb', hat_b⟩ := hb.local_step (t := s)
    ⟨ha.touches.shots b.shotId hne.symm, ha.touches.shotHeads b.shotId hne.symm⟩
    (by rw [ha.lookup_revision, if_neg fun hid => hrevision hid.2.symm])
    (ha.touches.internalRevisions ▸ .refl _)
    (fun _ hwrote => hwrote.free_before ha.touches (.inr hlacks))
  obtain ⟨t₂, ha', hat_a⟩ := ha.local_step (t := t₁)
    ⟨(hb'.touches.shots a.shotId hne).symm, (hb'.touches.shotHeads a.shotId hne).symm⟩
    (by rw [hb'.lookup_revision, if_neg fun hid => hrevision hid.2])
    (hb'.touches.internalRevisions ▸ .refl _)
    (fun _ hwrote => hwrote.free_after hne (hb.wrote.imp_right And.right) ha.touches hb'.touches
      hat_b)
  refine ⟨t₁, t₂, hb', ha', .of_swap hne ha.touches hb.touches hb'.touches ha'.touches hat_a hat_b ?_⟩
  intro id
  rw [hb.lookup_revision, ha.lookup_revision, ha'.lookup_revision, hb'.lookup_revision]
  by_cases hid : id = a.revisionId
  · simp [hid, hnew_a, hrevision]
  · simp [hid]

/-- The rounds over the shots, with the entries that are done. -/
theorem reorderable_insertShot : Reorderable (fun (done : State × List ShotEntry) e => do
        let (s, e) ← done.1.insertShot host project now e
        return (s, done.2 ++ [e]))
      (fun done done' => done.1.Alike done'.1 ∧ done.2.Perm done'.2)
      (fun done l => ShotsApart host done.1 l) where
  trans h h' := ⟨h.1.trans h'.1, h.2.trans h'.2⟩
  congr := by
    rintro ⟨s, done⟩ ⟨t, done'⟩ _ e ⟨halike, hperm⟩ h
    obtain ⟨s', e', hvalid, hstep, rfl⟩ := insertShot_round h
    obtain ⟨t', hstep', hat⟩ := hstep.local_step (t := t)
      ⟨halike.shots e.shotId, halike.shotHeads e.shotId⟩ (halike.shotRevisions e.revisionId)
      halike.internalRevisions
      (fun _ hwrote item hitem => itemFree_congr halike.shots (hwrote.free item hitem))
    have hround := insertShot_eq_ok.mpr ⟨hvalid, hstep'⟩
    refine ⟨(t', done' ++ [e']), by simp [hround],
      halike.of_touches hstep.touches hstep'.touches hat fun id => ?_, hperm.append_right [e']⟩
    rw [hstep.lookup_revision, hstep'.lookup_revision, halike.shotRevisions id]
  next := by
    rintro ⟨s, done⟩ _ e l hI h
    obtain ⟨s', e', -, hstep, rfl⟩ := insertShot_round h
    exact hI.next hstep
  perm := ShotsApart.perm
  swap := by
    rintro ⟨s, done⟩ _ _ a b l hI ha hb
    obtain ⟨s₁, a', hvalid_a, hstep_a, rfl⟩ := insertShot_round ha
    obtain ⟨s₂, b', hvalid_b, hstep_b, rfl⟩ := insertShot_round hb
    obtain ⟨t₁, t₂, hb', ha', halike⟩ := hI.swap hstep_a hstep_b
    have hround_b := insertShot_eq_ok.mpr ⟨hvalid_b, hb'⟩
    have hround_a := insertShot_eq_ok.mpr ⟨hvalid_a, ha'⟩
    refine ⟨(t₁, done ++ [b']), (t₂, done ++ [b'] ++ [a']), by simp [hround_b], by simp [hround_a],
      halike, ?_⟩
    simp only [List.append_assoc]
    exact (List.Perm.swap b' a' []).append_left done

/-! ## The loop over the shots -/

/-- The rounds of the first loop keep the marks of the entries. -/
theorem insertShots_entries (hnodup : (shots.map ShotEntry.key).Nodup)
    (hfresh : ∀ e ∈ shots, e.existing = false → s.shotRevisions.lookup e.revisionId = none)
    (h : s.insertShots host project now shots = .ok (s', shots')) : shots' = shots := by
  have hrest := foldlM_rest (fun l (done : State × List ShotEntry) =>
      (l.map ShotEntry.key).Nodup ∧ done.2 ++ l = shots ∧ ∀ e ∈ l, e.existing = false →
        done.1.shotRevisions.lookup e.revisionId ≠ some (e.row project)) ?_
    ⟨hnodup, rfl, fun e he hnew hrow => by rw [hfresh e he hnew] at hrow; cases hrow⟩ h
  · simpa using hrest.2.1
  rintro e l ⟨s₁, done⟩ _ ⟨hnodup, hlist, hfresh⟩ hround
  obtain ⟨s₂, e', -, hstep, rfl⟩ := insertShot_round hround
  have hmark : e' = e := by
    cases hstep with
    | existing | written => rfl
    | found hnew _ hrow => exact absurd hrow (hfresh e List.mem_cons_self hnew)
  rw [List.map_cons, List.nodup_cons] at hnodup
  refine ⟨hnodup.2, by rw [hmark, ← hlist, List.append_assoc]; rfl, ?_⟩
  intro a ha hnew_a hrow
  dsimp only at hrow
  rw [hstep.lookup_revision] at hrow
  split at hrow
  next hsame =>
    -- the row of the round is of the same shot, so it would be the same entry
    have hshot : e.shotId = a.shotId := congrArg ShotRevision.shotId (Option.some.inj hrow)
    have hkey : e.key = a.key := Prod.ext hshot hsame.2.symm
    exact hnodup.1 (hkey ▸ List.mem_map_of_mem ha)
  next => exact hfresh a (.tail _ ha) hnew_a hrow

/-- The first loop leaves the heads, and the shots without a new revision. -/
theorem insertShots_frame
    (h : s.insertShots host project now shots = .ok (s', shots')) :
    s'.shotHeads = s.shotHeads ∧ ∀ shot, (∀ e ∈ shots, e.existing = false → e.shotId ≠ shot) →
      s'.shots.lookup shot = s.shots.lookup shot := by
  refine ⟨?_, fun shot hother => ?_⟩
  · refine insertShots_rel (R := fun s s' => s'.shotHeads = s.shotHeads) (fun _ => rfl)
      (fun h h' => h'.trans h) ?_ h
    intro e _ s s' e' hstep
    cases hstep <;> rfl
  · refine insertShots_rel (R := fun s s' => s'.shots.lookup shot = s.shots.lookup shot)
      (fun _ => rfl) (fun h h' => h'.trans h) ?_ h
    intro e he s s' e' hstep
    rcases hstep.wrote with hshots | ⟨hnew, -⟩
    · rw [hshots]
    · exact hstep.touches.shots shot (hother e he hnew).symm

/-! ## Heads of shots -/

namespace HeadStep

theorem touches (h : HeadStep host project now s e s') : s.Touches s' e.shotId := by
  cases h with
  | first _ hinsert =>
    exact ⟨fun _ _ => rfl, fun k hk => by simp [lookup_insertNew hinsert, hk], rfl, rfl⟩
  | project _ _ _ hinsert =>
    exact ⟨fun k hk => by simp [lookup_upsert, hk],
      fun k hk => by simp [lookup_insertNew hinsert, hk], rfl, rfl⟩
  | verify => exact .refl s _
  | move => exact ⟨fun _ _ => rfl, fun k hk => by simp [lookup_modify, hk], rfl, rfl⟩

theorem shotRevisions_eq (h : HeadStep host project now s e s') :
    s'.shotRevisions = s.shotRevisions := by
  cases h <;> rfl

/-- After a round its shot has a head. -/
theorem exists_head (h : HeadStep host project now s e s') :
    ∃ head, s'.shotHeads.lookup e.shotId = some head := by
  cases h with
  | first _ hinsert | project _ _ _ hinsert =>
    exact ⟨_, by rw [lookup_insertNew hinsert, if_pos rfl]⟩
  | verify hhead => exact ⟨_, hhead⟩
  | move hhead => exact ⟨_, by rw [lookup_modify_self, hhead]; rfl⟩

/-- A shot that has a head keeps one. -/
theorem head_stays (h : HeadStep host project now s e s') {head : ShotHead}
    (hhead : s.shotHeads.lookup shot = some head) : ∃ head', s'.shotHeads.lookup shot = some head' := by
  by_cases hshot : shot = e.shotId
  · exact hshot ▸ h.exists_head
  · exact ⟨head, (h.touches.shotHeads shot hshot).trans hhead⟩

theorem wrote (h : HeadStep host project now s e s') :
    s'.shots = s.shots ∨ e.existing = true ∧ s.shotHeads.lookup e.shotId = none ∧
      ∃ row, Wrote host s s' e row := by
  cases h with
  | first | verify | move => exact .inl rfl
  | @project row _ hold hrow hfree hinsert =>
    exact .inr ⟨hold, insertNew_eq_some_iff.mp ⟨_, hinsert⟩, row, rfl, hfree,
      fun item hitem => hrow.id_mem_listed hitem⟩

/-- A committed revision of a shot with a head leaves the state. -/
theorem of_linked (h : HeadStep host project now s e s') {head : ShotHead} (hold : e.existing = true)
    (hhead : s.shotHeads.lookup e.shotId = some head) : s' = s := by
  cases h with
  | first hnew | move _ _ _ hnew => rw [hold] at hnew; cases hnew
  | project _ _ _ hinsert =>
    rw [insertNew_eq_some_iff.mp ⟨_, hinsert⟩] at hhead
    cases hhead
  | verify => rfl

end HeadStep

/-- A head is verified by the rows of its shot and the committed revisions. -/
theorem verifyShotHeadProjection_congr {revision : RevisionId}
    (hshot : s.shots.lookup shot = t.shots.lookup shot)
    (hrevisions : s.shotRevisions.SameRows t.shotRevisions) :
    s.verifyShotHeadProjection host project shot revision =
      t.verifyShotHeadProjection host project shot revision := by
  have hmatches : s.shotProjectionMatchesRevision host project shot =
      t.shotProjectionMatchesRevision host project shot := by
    funext payload
    rw [shotProjectionMatchesRevision, shotProjectionMatchesRevision, hshot]
  rw [verifyShotHeadProjection, verifyShotHeadProjection, hrevisions revision, hmatches]

namespace HeadStep

/-- The same round on a state with the same rows for it. -/
theorem local_step (h : HeadStep host project now s e s') (hat : s.AgreesAt t e.shotId)
    (hrevisions : s.shotRevisions.SameRows t.shotRevisions)
    (hfree : e.existing = true → s.shotHeads.lookup e.shotId = none → ∀ row,
      Wrote host s s' e row → ∀ item ∈ row.items, t.ItemFree e.shotId item.id) :
    ∃ t', HeadStep host project now t e t' ∧ s'.AgreesAt t' e.shotId := by
  have hinsert_t : ∀ {heads head}, s.shotHeads.insertNew e.shotId head = some heads →
      ∃ heads', t.shotHeads.insertNew e.shotId head = some heads' ∧
        heads.lookup e.shotId = heads'.lookup e.shotId := by
    intro heads head hinsert
    have hnone := hat.shotHeads.symm.trans (insertNew_eq_some_iff.mp ⟨heads, hinsert⟩)
    obtain ⟨heads', hinsert'⟩ := (insertNew_eq_some_iff (a := head)).mpr hnone
    exact ⟨heads', hinsert', by rw [lookup_insertNew hinsert, lookup_insertNew hinsert',
      if_pos rfl, if_pos rfl]⟩
  cases h with
  | first hnew hinsert =>
    obtain ⟨heads', hinsert', hheads⟩ := hinsert_t hinsert
    exact ⟨_, .first hnew hinsert', hat.shots, hheads⟩
  | @project row _ hold hrow hrowfree hinsert =>
    obtain ⟨heads', hinsert', hheads⟩ := hinsert_t hinsert
    have hfree' := hfree hold (insertNew_eq_some_iff.mp ⟨_, hinsert⟩) row
      ⟨rfl, hrowfree, fun item hitem => hrow.id_mem_listed hitem⟩
    exact ⟨_, .project hold (hat.shots ▸ hrow) hfree' hinsert', by simp [lookup_upsert], hheads⟩
  | verify hhead hproject hstay hverify =>
    rw [verifyShotHeadProjection_congr hat.shots hrevisions] at hverify
    exact ⟨t, .verify (hat.shotHeads.symm.trans hhead) hproject hstay hverify, hat⟩
  | move hhead hproject hmove hnew =>
    refine ⟨_, .move (hat.shotHeads.symm.trans hhead) hproject hmove hnew, hat.shots, ?_⟩
    rw [lookup_modify_self, lookup_modify_self, hat.shotHeads]

end HeadStep

/-- What the rounds over the heads rely on: two revisions of one shot were both committed before and
the shot has a head, and no revision that becomes the first head lists an item that the shot of
another one has. -/
structure HeadsApart (host : Host) (s : State) (shots : List ShotEntry) : Prop where
  nodup : (shots.map ShotEntry.key).Nodup
  linked : ∀ a ∈ shots, ∀ b ∈ shots, a.key ≠ b.key → a.shotId = b.shotId →
    a.existing = true ∧ ∃ head, s.shotHeads.lookup a.shotId = some head
  apart : ∀ a ∈ shots, ∀ b ∈ shots, a.shotId ≠ b.shotId → a.existing = true → b.existing = true →
    s.shotHeads.lookup a.shotId = none → s.shotHeads.lookup b.shotId = none →
    s.Lacks host b.shotId a.payload

theorem HeadsApart.perm (hperm : l.Perm l') (h : HeadsApart host s l) : HeadsApart host s l' :=
  ⟨(hperm.map ShotEntry.key).nodup_iff.mp h.nodup,
    fun a ha b hb => h.linked a (hperm.mem_iff.mpr ha) b (hperm.mem_iff.mpr hb),
    fun a ha b hb => h.apart a (hperm.mem_iff.mpr ha) b (hperm.mem_iff.mpr hb)⟩

theorem HeadsApart.next (h : HeadsApart host s (e :: l))
    (hstep : HeadStep host project now s e s') : HeadsApart host s' l := by
  have hnodup := h.nodup
  rw [List.map_cons, List.nodup_cons] at hnodup
  have hstill : ∀ shot, s'.shotHeads.lookup shot = none → s.shotHeads.lookup shot = none := by
    intro shot hnone
    cases hhead : s.shotHeads.lookup shot with
    | none => rfl
    | some head =>
      obtain ⟨head', hhead'⟩ := hstep.head_stays hhead
      rw [hnone] at hhead'
      cases hhead'
  refine ⟨hnodup.2, ?_, ?_⟩
  · intro a ha b hb hkey hshot
    obtain ⟨hold, head, hhead⟩ := h.linked a (.tail _ ha) b (.tail _ hb) hkey hshot
    exact ⟨hold, hstep.head_stays hhead⟩
  · intro a ha b hb hshot hold_a hold_b hnone_a hnone_b
    have hlacks := h.apart a (.tail _ ha) b (.tail _ hb) hshot hold_a hold_b (hstill _ hnone_a)
      (hstill _ hnone_b)
    -- the shot of the round has a head now
    have hne : b.shotId ≠ e.shotId := by
      intro hb_e
      obtain ⟨head, hhead⟩ := hstep.exists_head
      rw [← hb_e, hnone_b] at hhead
      cases hhead
    rw [Lacks, hstep.touches.shots b.shotId hne]
    exact hlacks

theorem HeadsApart.swap (h : HeadsApart host s (a :: b :: l))
    (ha : HeadStep host project now s a s₁) (hb : HeadStep host project now s₁ b s₂) :
    ∃ t₁ t₂, HeadStep host project now s b t₁ ∧ HeadStep host project now t₁ a t₂ ∧ s₂.Alike t₂ := by
  have hkey : a.key ≠ b.key := fun hk => by
    have hnodup := h.nodup
    simp [hk] at hnodup
  have hmem_b : b ∈ a :: b :: l := .tail _ List.mem_cons_self
  by_cases hshot : a.shotId = b.shotId
  · -- neither round writes
    obtain ⟨hold_a, head, hhead⟩ := h.linked a List.mem_cons_self b hmem_b hkey hshot
    obtain ⟨hold_b, -⟩ := h.linked b hmem_b a List.mem_cons_self hkey.symm hshot.symm
    obtain rfl := ha.of_linked hold_a hhead
    obtain rfl := hb.of_linked hold_b (hshot ▸ hhead)
    exact ⟨s₂, s₂, hb, ha, .refl _⟩
  have hne : b.shotId ≠ a.shotId := Ne.symm hshot
  obtain ⟨t₁, hb', hat_b⟩ := hb.local_step (t := s)
    ⟨ha.touches.shots b.shotId hne, ha.touches.shotHeads b.shotId hne⟩
    (ha.shotRevisions_eq ▸ .refl _) (by
      intro hold_b hnone_b row hwrote
      rw [ha.touches.shotHeads b.shotId hne] at hnone_b
      refine hwrote.free_before ha.touches (ha.wrote.imp_right ?_)
      rintro ⟨hold_a, hnone_a, -⟩
      exact h.apart b hmem_b a List.mem_cons_self hne hold_b hold_a hnone_b hnone_a)
  obtain ⟨t₂, ha', hat_a⟩ := ha.local_step (t := t₁)
    ⟨(hb'.touches.shots a.shotId hshot).symm, (hb'.touches.shotHeads a.shotId hshot).symm⟩
    (hb'.shotRevisions_eq ▸ .refl _)
    (fun _ _ _ hwrote => hwrote.free_after hshot (hb.wrote.imp_right fun h => h.2.2) ha.touches
      hb'.touches hat_b)
  refine ⟨t₁, t₂, hb', ha',
    .of_swap hshot ha.touches hb.touches hb'.touches ha'.touches hat_a hat_b ?_⟩
  rw [hb.shotRevisions_eq, ha.shotRevisions_eq, ha'.shotRevisions_eq, hb'.shotRevisions_eq]
  exact .refl _

/-- The rounds over the heads of the shots. -/
theorem reorderable_moveShotHead : Reorderable (fun s e => s.moveShotHead host project now e) Alike
      (fun s l => HeadsApart host s l) where
  trans := .trans
  congr := by
    intro s t s' e halike h
    have hstep := moveShotHead_eq_ok.mp h
    obtain ⟨t', hstep', hat⟩ := hstep.local_step (t := t)
      ⟨halike.shots e.shotId, halike.shotHeads e.shotId⟩ halike.shotRevisions
      (fun _ _ _ hwrote item hitem => itemFree_congr halike.shots (hwrote.free item hitem))
    refine ⟨t', moveShotHead_eq_ok.mpr hstep',
      halike.of_touches hstep.touches hstep'.touches hat ?_⟩
    rw [hstep.shotRevisions_eq, hstep'.shotRevisions_eq]
    exact halike.shotRevisions
  next hI h := hI.next (moveShotHead_eq_ok.mp h)
  perm := HeadsApart.perm
  swap := by
    intro s s₁ s₂ a b l hI ha hb
    obtain ⟨t₁, t₂, hb', ha', halike⟩ :=
      hI.swap (moveShotHead_eq_ok.mp ha) (moveShotHead_eq_ok.mp hb)
    exact ⟨t₁, t₂, moveShotHead_eq_ok.mpr hb', moveShotHead_eq_ok.mpr ha', halike⟩

/-! ## The other parts of a commit -/

/-- The loop over the internal revisions only writes them. -/
theorem insertInternals_only {entries : List InternalEntry}
    (h : entries.foldlM (fun s e => s.insertInternal host project e) s = .ok s') :
    s' = { s with internalRevisions := s'.internalRevisions } := by
  refine foldlM_rel (R := fun (s s' : State) => s' = { s with internalRevisions :=
    s'.internalRevisions }) (fun _ => rfl) (fun h h' => ?_) (fun _ _ _ _ => insertInternal_only) h
  rw [h', h]

end WorkspaceRuntime.Project
