import WorkspaceRuntime.Lib.Reorder
import WorkspaceRuntime.Project.Publication

/-!
# The closure of a publication

What a publication reads of its children, and that the closure it recomputes is the same for every
order of the pinned revisions: the manifest and the report are equal, and the entries are the same up
to their order.
-/

namespace WorkspaceRuntime.Project

open Fallible Project.State Json Table

variable {host : Host} {env : Env} {project : ProjectId} {timeline : TimelineId} {s : State}
  {fields : Fields} {e : ShotEntry} {key : ShotKey} {children : Children}
  {d : Draft} {keys : List ShotKey}
  {internal resolved internal' : Table InternalKey InternalEntry} {shots shots' : List ShotEntry}
  {media : List String}

/-! ## Children -/

/-- The shot revisions that a body declares. -/
def declaredShots (host : Host) (fields : Fields) : Table ShotKey ShotEntry :=
  (((fieldOr fields "shot_revisions" "shots" (.arr [])).asArr.bind fun raw =>
    (readShots host raw).toOption).getD .empty)

/-- The parent payload of a body. -/
def parentSource (fields : Fields) : Json :=
  (fields.get "parent_composition").getD (fieldOr fields "parent" "composition" .null)

/-- The shot revision that an occurrence pins. -/
def pinOf (occurrence : Json) : Option ShotKey :=
  match (occurrence.get? "shot_id").bind asStr,
      (occurrence.get? "shot_revision_id").bind asStr with
  | some shot, some revision => some (shot, revision)
  | _, _ => none

/-- The shot revisions that the occurrences of a body pin. -/
def pinnedKeys (fields : Fields) : List ShotKey :=
  ((completeParentPayload (parentSource fields)).toOption.map Prod.snd).getD [] |>.filterMap pinOf

/-- A child is a declared revision, or one that was committed before. -/
structure IsChild (host : Host) (s : State) (fields : Fields) (key : ShotKey) (e : ShotEntry) :
    Prop where
  key_eq : e.key = key
  source : (e.existing = false ∧ (declaredShots host fields).lookup key = some e) ∨
    e.existing = true ∧ ∃ row, s.shotRevisions.lookup key.2 = some row ∧ row.payload = e.payload

/-- A declared shot revision is new and complete. -/
structure IsDeclared (e : ShotEntry) : Prop where
  existing : e.existing = false
  payload : ∃ fields : Fields, e.payload = .obj fields ∧ Completed fields shotDefaults

theorem readShot_eq_ok {entry : Json} (h : readShot host entry = .ok e) :
    IsDeclared e := by
  simp only [readShot, completeShotPayload, bind_eq_ok, return_ok] at h
  obtain ⟨_, -, _, -, _, -, internalId, -, payload, -, _, ⟨_, -, rfl⟩, -, -, rfl⟩ := h
  exact ⟨rfl, _, rfl, (completed_complete payload shotAliases shotDefaults).set⟩

/-- The declared entries are what was read, and are stored under their own key. -/
theorem readShots_lookup {raw : List Json} {shots : Table ShotKey ShotEntry}
    (h : readShots host raw = .ok shots) (he : shots.lookup key = some e) :
    e.key = key ∧ ∃ entry ∈ raw, readShot host entry = .ok e := by
  have hrel := foldlM_rel (R := fun (shots shots' : Table ShotKey ShotEntry) =>
      ∀ key e, shots'.lookup key = some e → shots.lookup key = some e ∨
        e.key = key ∧ ∃ entry ∈ raw, readShot host entry = .ok e)
    (fun _ _ _ he => .inl he)
    (fun h h' key e he => (h' key e he).elim (h key e) .inr) ?_ h
  · exact (hrel key e he).resolve_left (by simp)
  intro entry hentry shots shots' hround key e he
  simp only [bind_eq_ok, return_ok] at hround
  obtain ⟨e', hread, -, -, rfl⟩ := hround
  rw [lookup_upsert] at he
  split at he
  next hkey =>
    cases he
    exact .inr ⟨hkey.symm, entry, hentry, hread⟩
  next => exact .inl he

theorem declaredShots_lookup (he : (declaredShots host fields).lookup key = some e) :
    e.key = key ∧ ∃ raw, (fieldOr fields "shot_revisions" "shots" (.arr [])).asArr = some raw ∧
      ∃ entry ∈ raw, readShot host entry = .ok e := by
  unfold declaredShots at he
  cases hraw : (fieldOr fields "shot_revisions" "shots" (.arr [])).asArr with
  | none =>
    rw [hraw] at he
    cases he
  | some raw =>
    cases hshots : readShots host raw with
    | error e =>
      rw [hraw, Option.bind_some, hshots] at he
      cases he
    | ok shots =>
      rw [hraw, Option.bind_some, hshots] at he
      obtain ⟨hkey, hread⟩ := readShots_lookup hshots he
      exact ⟨hkey, raw, rfl, hread⟩

theorem linkOccurrence_child {children' : Children} {occurrence : Json}
    (h : s.linkOccurrence host project children occurrence = .ok children')
    (hchild : ∀ {key e}, children.shots.lookup key = some e → IsChild host s fields key e)
    (he : children'.shots.lookup key = some e) :
    IsChild host s fields key e := by
  unfold linkOccurrence at h
  split at h
  next shot revision _ _ =>
    split at h
    next => exact hchild (Except.ok.inj h ▸ he)
    next =>
      split at h
      next row hrow =>
        simp only [linkCommitted, bind_eq_ok, return_ok] at h
        obtain ⟨-, -, -, -, -, -, -, -, internal, -, -, -, -, -, rfl⟩ := h
        rw [lookup_upsert] at he
        split at he
        next hkey =>
          cases he
          obtain rfl := hkey
          exact ⟨rfl, .inr ⟨rfl, row, (Option.filter_eq_some_iff.mp hrow).1, rfl⟩⟩
        next => exact hchild he
      next => exact hchild (Except.ok.inj h ▸ he)
  next => exact hchild (Except.ok.inj h ▸ he)

theorem readChildren_child {parent : Fields} {raw : List Json}
    (h : s.readChildren host project timeline fields = .ok (children, parent, raw)) :
    (∀ {key e}, children.shots.lookup key = some e → IsChild host s fields key e) ∧
      completeParentPayload (parentSource fields) = .ok (parent, raw) := by
  simp only [readChildren, bind_eq_ok, orThrow_eq_ok, return_ok,
    Prod.mk.injEq] at h
  obtain ⟨rawInternal, -, rawShots, hraw, internal, -, shots, hshots, -, -, internal', -, -, -,
    ⟨parent', raw'⟩, hparent, children', hlink, rfl, rfl, rfl⟩ := h
  have hdeclared : declaredShots host fields = shots := by
    simp [declaredShots, hraw, hshots, Except.toOption]
  refine ⟨?_, hparent⟩
  refine foldlM_rest (fun _ (children : Children) =>
    ∀ {key e}, children.shots.lookup key = some e → IsChild host s fields key e) ?_ ?_ hlink
  · intro occurrence _ children children' hI hround key e he
    exact linkOccurrence_child hround hI he
  · intro key e he
    obtain ⟨hkey, entry, -, hread⟩ := readShots_lookup hshots he
    exact ⟨hkey, .inl ⟨(readShot_eq_ok hread).existing, hdeclared ▸ he⟩⟩

theorem pinOf_of_normalizeOccurrence {num : Numerals} {shots : ShotKey → Bool}
    {occurrence : Json} {o : NormalOccurrence} (h : normalizeOccurrence num shots occurrence = .ok o) :
    pinOf occurrence = some o.key := by
  obtain ⟨fields, rfl, hshot, hrevision⟩ := normalizeOccurrence_ok h
  have hget : ∀ {name text}, field fields name = .str text →
      ((obj fields).get? name).bind asStr = some text := by
    intro name text hfield
    unfold field at hfield
    cases hname : fields.get name with
    | none => rw [hname] at hfield; cases hfield
    | some v =>
      rw [hname] at hfield
      rw [get?_obj, hname]
      exact asStr_eq_some.mpr hfield
  rw [pinOf, hget hshot, hget hrevision]
  rfl

theorem draft_children (h : s.draft host env project timeline fields = .ok d) :
    (∀ {key e}, d.children.shots.lookup key = some e → IsChild host s fields key e) ∧
      ∀ key ∈ d.keys, key ∈ pinnedKeys fields := by
  simp only [draft, bind_eq_ok, return_ok] at h
  obtain ⟨⟨children, parent, raw⟩, hchildren, occurrences, hnormal, -, -, _, -, -, -, _, -, _, -, _, -,
    rfl⟩ := h
  obtain ⟨hchild, hparent⟩ := readChildren_child hchildren
  refine ⟨hchild, ?_⟩
  intro key hkey
  rw [Draft.keys, List.mem_eraseDups, List.mem_map] at hkey
  obtain ⟨o, ho, rfl⟩ := hkey
  obtain ⟨occurrence, hmem, ho⟩ := exists_of_mem_mapM hnormal ho
  rw [pinnedKeys, hparent]
  exact List.mem_filterMap.mpr ⟨occurrence, hmem, pinOf_of_normalizeOccurrence ho⟩

/-! ## The pinned revisions -/

/-- The payload of a pinned revision: what is committed, or what the body declares. -/
def pinnedPayload (host : Host) (s : State) (fields : Fields) (key : ShotKey) : Option Json :=
  match s.shotRevisions.lookup key.2 with
  | some row => some row.payload
  | none => ((declaredShots host fields).lookup key).map ShotEntry.payload

/-- An entry of the closure is a pinned revision. -/
structure IsPinned (host : Host) (s : State) (fields : Fields) (e : ShotEntry) : Prop where
  mem : e.key ∈ pinnedKeys fields
  existing : e.existing = (s.shotRevisions.lookup e.revisionId).isSome
  shotId : ∀ row, s.shotRevisions.lookup e.revisionId = some row → row.shotId = e.shotId
  payload : pinnedPayload host s fields e.key = some e.payload

/-- A pinned revision that is not committed yet. -/
def State.IsNew (s : State) (key : ShotKey) : Prop := s.shotRevisions.lookup key.2 = none

instance (s : State) (key : ShotKey) : Decidable (s.IsNew key) := inferInstanceAs (Decidable (_ = _))

theorem isNew_iff (he : IsPinned host s fields e) :
    s.IsNew e.key ↔ e.existing = false := by
  rw [he.existing, IsNew, ← Option.not_isSome_iff_eq_none, Bool.not_eq_true]
  rfl

/-- A new pinned revision is complete. -/
theorem IsPinned.completed (he : IsPinned host s fields e) (hnew : e.existing = false) :
    ∃ fs : Fields, e.payload = .obj fs ∧ Completed fs shotDefaults := by
  have hpayload := he.payload
  rw [pinnedPayload, (isNew_iff he).mpr hnew] at hpayload
  obtain ⟨declared, hlookup, hdeclared⟩ := Option.map_eq_some_iff.mp hpayload
  obtain ⟨-, raw, -, entry, -, hread⟩ := declaredShots_lookup hlookup
  exact hdeclared ▸ (readShot_eq_ok hread).payload

theorem checkPinned_eq_ok {e' : ShotEntry} (h : s.checkPinned host project e = .ok e') :
    e' = { e with existing := e.existing || (s.shotRevisions.lookup e.revisionId).isSome } ∧
      ∀ row, s.shotRevisions.lookup e.revisionId = some row → row.Agrees project e := by
  unfold checkPinned at h
  cases hrow : s.shotRevisions.lookup e.revisionId with
  | some row =>
    simp only [hrow, bind_eq_ok, require_eq_ok, return_ok] at h
    obtain ⟨_, hagrees, rfl⟩ := h
    refine ⟨by simp, ?_⟩
    rintro _ ⟨⟩
    exact hagrees
  | none =>
    refine ⟨?_, fun row hsome => by cases hsome⟩
    rw [hrow] at h
    dsimp only at h
    split at h
    next =>
      cases h
      simp
    next =>
      simp only [bind_eq_ok, return_ok] at h
      obtain ⟨_, -, rfl⟩ := h
      simp

theorem isPinned_of_checkPinned {e' : ShotEntry} (hchild : IsChild host s fields key e)
    (hmem : key ∈ pinnedKeys fields) (h : s.checkPinned host project e = .ok e') :
    IsPinned host s fields e' ∧ e'.key = key := by
  obtain ⟨rfl, hagrees⟩ := checkPinned_eq_ok h
  obtain ⟨rfl, hsource⟩ := hchild
  have hrevision : e.key.2 = e.revisionId := rfl
  refine ⟨⟨hmem, ?_, fun row hrow => (hagrees row hrow).2.1, ?_⟩, rfl⟩
  · rcases hsource with ⟨hnew, -⟩ | ⟨hold, row, hrow, -⟩
    · simp [hnew]
    · rw [hrevision] at hrow
      simp [hrow]
  · show pinnedPayload host s fields e.key = some e.payload
    rw [pinnedPayload, hrevision]
    cases hrow : s.shotRevisions.lookup e.revisionId with
    | some row => exact congrArg some (hagrees row hrow).2.2.2.2
    | none =>
      rcases hsource with ⟨-, hdeclared⟩ | ⟨-, row, hrow', -⟩
      · rw [hdeclared]
        rfl
      · rw [hrevision, hrow] at hrow'
        cases hrow'

/-- The keys of the closure are the pinned keys, and its entries are pinned revisions. -/
theorem closure_pinned {c : Closure} (hd : s.draft host env project timeline fields = .ok d)
    (hkeys : ∀ k ∈ keys, k ∈ d.keys) (h : s.closure host project timeline d keys = .ok c) :
    c.shots.map ShotEntry.key = keys ∧ ∀ e ∈ c.shots, IsPinned host s fields e := by
  obtain ⟨hchild, hpinned⟩ := draft_children hd
  simp only [State.closure, bind_eq_ok, return_ok] at h
  obtain ⟨entries, hentries, internal, -, shots, hshots, media, -, _, -, _, -, report, -, rfl⟩ := h
  have hkey : ∀ {e e'}, s.checkPinned host project e = .ok e' → e'.key = e.key := fun h => by
    obtain ⟨rfl, -⟩ := checkPinned_eq_ok h
    rfl
  refine ⟨?_, ?_⟩
  · rw [map_of_mapM hkey hshots]
    have hentry : ∀ {k e}, orThrow (d.children.shots.lookup k) (Err.keyError "shots") = .ok e →
        e.key = id k := fun h => (hchild (orThrow_eq_ok.mp h)).key_eq
    rw [map_of_mapM hentry hentries, List.map_id]
  · intro e' he'
    obtain ⟨e, he, hcheck⟩ := exists_of_mem_mapM hshots he'
    obtain ⟨k, hk, hlookup⟩ := exists_of_mem_mapM hentries he
    have hlookup := orThrow_eq_ok.mp hlookup
    exact (isPinned_of_checkPinned (hchild hlookup) (hpinned k (hkeys k hk)) hcheck).1

/-! ## Another order of the pinned revisions -/

theorem findInternal_revisionId {id : RevisionId} {e : InternalEntry}
    (h : findInternal internal id = some e) : e.revisionId = id := by
  obtain ⟨entry, hfind, rfl⟩ := Option.map_eq_some_iff.mp h
  simpa using List.find?_some hfind

/-- The internal revisions of the shots do not depend on the order of the shots. -/
theorem reorderable_resolveInternal :
    Reorderable (fun (resolved : Table InternalKey InternalEntry) (e : ShotEntry) => do
        let found ← orThrow (findInternal internal e.internalId)
          (Err.notFound "shot revision internal timeline dependency is missing")
        return resolved.upsert found.key found)
      SameRows fun _ _ => True where
  trans := .trans
  congr := by
    intro t t' _ e hsame h
    simp only [bind_eq_ok, orThrow_eq_ok, return_ok] at h ⊢
    obtain ⟨found, hfound, rfl⟩ := h
    refine ⟨_, ⟨found, hfound, rfl⟩, fun k => ?_⟩
    rw [lookup_upsert, lookup_upsert, hsame k]
  next := fun _ _ => trivial
  perm := fun _ _ => trivial
  swap := by
    intro t _ _ a b _ _ ha hb
    simp only [bind_eq_ok, orThrow_eq_ok, return_ok] at ha hb ⊢
    obtain ⟨found, hfound, rfl⟩ := ha
    obtain ⟨found', hfound', rfl⟩ := hb
    -- an identity names one entry
    have hsame : found.key = found'.key → found = found' := by
      intro hkey
      have hid : a.internalId = b.internalId := by
        rw [← findInternal_revisionId hfound, ← findInternal_revisionId hfound']
        exact congrArg Prod.snd hkey
      rw [hid, hfound'] at hfound
      exact (Option.some.inj hfound).symm
    refine ⟨_, _, ⟨found', hfound', rfl⟩, ⟨found, hfound, rfl⟩, fun k => ?_⟩
    simp only [lookup_upsert]
    exact Table.ite_ite_swap fun hk' hk => by rw [hsame (hk.symm.trans hk')]

/-- The resolved internal revisions are stored under their own key, one under an identity. -/
theorem resolveInternal_lookup (h : resolveInternal internal shots = .ok resolved)
    {key : InternalKey} {e : InternalEntry} (he : resolved.lookup key = some e) :
    e.key = key ∧ findInternal internal e.revisionId = some e := by
  revert key e
  refine foldlM_rest (fun _ (resolved : Table InternalKey InternalEntry) =>
    ∀ {key e}, resolved.lookup key = some e →
      e.key = key ∧ findInternal internal e.revisionId = some e) ?_ ?_ h
  · intro shot _ resolved resolved' hI hround key e he
    simp only [bind_eq_ok, orThrow_eq_ok, return_ok] at hround
    obtain ⟨found, hfound, rfl⟩ := hround
    rw [lookup_upsert] at he
    split at he
    next hkey =>
      cases he
      refine ⟨hkey.symm, ?_⟩
      rw [findInternal_revisionId hfound]
      exact hfound
    next => exact hI he
  · intro key e he
    simp at he

/-- Two resolved internal revisions with one identity are equal. -/
theorem resolveInternal_unique (h : resolveInternal internal shots = .ok resolved)
    {e e' : InternalKey × InternalEntry} (he : e ∈ resolved.entries) (he' : e' ∈ resolved.entries)
    (hid : e.2.revisionId = e'.2.revisionId) : e = e' := by
  obtain ⟨hkey, hfound⟩ := resolveInternal_lookup h (lookup_eq_some_iff.mpr he)
  obtain ⟨hkey', hfound'⟩ := resolveInternal_lookup h (lookup_eq_some_iff.mpr he')
  rw [hid, hfound'] at hfound
  have hentry : e'.2 = e.2 := Option.some.inj hfound
  exact Prod.ext (by rw [← hkey, ← hkey', hentry]) hentry.symm

theorem sortedSet_eq_of_mem {l l' : List String} (h : ∀ x, x ∈ l ↔ x ∈ l') :
    sortedSet l = sortedSet l' := by
  have hperm : l.eraseDups.Perm l'.eraseDups := by
    refine (List.perm_ext_iff_of_nodup (List.nodup_eraseDups l) (List.nodup_eraseDups l')).mpr ?_
    intro x
    rw [List.mem_eraseDups, List.mem_eraseDups, h x]
  exact hperm.insertionSort_eq fun _ _ _ _ => le_antisymm

instance : Std.Total keyOrder where
  total k k' := by
    unfold keyOrder
    rcases lt_trichotomy k.1 k'.1 with h | h | h
    · exact .inl (.inl h)
    · rcases le_total k.2 k'.2 with h' | h'
      · exact .inl (.inr ⟨h, h'⟩)
      · exact .inr (.inr ⟨h.symm, h'⟩)
    · exact .inr (.inl h)

instance : IsTrans (String × String) keyOrder where
  trans a b c := by
    rintro (hab | ⟨hab, hab'⟩) (hbc | ⟨hbc, hbc'⟩)
    · exact .inl (hab.trans hbc)
    · exact .inl (hbc ▸ hab)
    · exact .inl (hab ▸ hbc)
    · exact .inr ⟨hab.trans hbc, hab'.trans hbc'⟩

theorem keyOrder_antisymm {k k' : String × String} (h : keyOrder k k')
    (h' : keyOrder k' k) : k = k' := by
  rcases h with h | ⟨h, hle⟩
  · rcases h' with h' | ⟨h', -⟩
    · exact absurd (h.trans h') (lt_irrefl _)
    · exact absurd (h' ▸ h) (lt_irrefl _)
  · rcases h' with h' | ⟨-, hle'⟩
    · exact absurd (h ▸ h') (lt_irrefl _)
    · exact Prod.ext h (le_antisymm hle hle')

/-- Entries that have different keys are sorted into one list. -/
theorem sortByKey_eq {α : Type} (key : α → String × String) {l l' : List α} (hperm : l.Perm l')
    (hkey : ∀ a ∈ l, ∀ b ∈ l, key a = key b → a = b) :
    (l.insertionSort fun a b => keyOrder (key a) (key b)) =
      l'.insertionSort fun a b => keyOrder (key a) (key b) := by
  have : Std.Total fun a b : α => keyOrder (key a) (key b) :=
    ⟨fun a b => Std.Total.total (key a) (key b)⟩
  have : IsTrans α fun a b => keyOrder (key a) (key b) :=
    ⟨fun a b c => IsTrans.trans (key a) (key b) (key c)⟩
  exact hperm.insertionSort_eq fun a ha b hb h h' => hkey a ha b hb (keyOrder_antisymm h h')

theorem manifestOf_congr (hshots : shots.Perm shots') (hkeys : (shots.map ShotEntry.key).Nodup)
    (hinternal : internal.SameRows internal')
    (hkey : ∀ {k e}, internal.lookup k = some e → e.key = k) :
    manifestOf shots internal media = manifestOf shots' internal' media := by
  have hsorted := sortByKey_eq ShotEntry.key hshots fun a ha b hb =>
    List.inj_on_of_nodup_map hkeys ha hb
  have hsorted' := sortByKey_eq InternalEntry.key (hinternal.perm.map Prod.snd) (by
    intro a ha b hb hab
    obtain ⟨⟨k, a⟩, hmem, rfl⟩ := List.mem_map.mp ha
    obtain ⟨⟨k', b⟩, hmem', rfl⟩ := List.mem_map.mp hb
    have hrow := lookup_eq_some_iff.mpr hmem
    have hrow' := lookup_eq_some_iff.mpr hmem'
    rw [← hkey hrow, hab, hkey hrow', hrow'] at hrow
    exact (Option.some.inj hrow).symm)
  unfold manifestOf
  rw [hsorted, hsorted']

theorem checkManifest_congr {source : Fields} (hshots : shots.Perm shots')
    (hinternal : internal.SameRows internal')
    (h : checkManifest source shots internal media = .ok ()) :
    checkManifest source shots' internal' media = .ok () := by
  have hsame : ∀ {α : Type} {l r r' : List α}, r.Perm r' → SameMembers l r →
      SameMembers l r' := fun hperm h =>
    ⟨fun a ha => hperm.mem_iff.mp (h.1 a ha), fun a ha => h.2 a (hperm.mem_iff.mpr ha)⟩
  simp only [checkManifest, bind_eq_ok, require_eq_ok, exists_const] at h ⊢
  exact ⟨fun items hitems => hsame (hshots.map _) (h.1 items hitems),
    fun items hitems => hsame (hinternal.perm.map _) (h.2.1 items hitems), h.2.2⟩

/-- The closure for another order of the pinned revisions. -/
theorem closure_perm {keys' : List ShotKey} {c : Closure}
    (hd : s.draft host env project timeline fields = .ok d) (hkeys : ∀ k ∈ keys, k ∈ d.keys)
    (hnodup : keys.Nodup) (hperm : keys.Perm keys')
    (h : s.closure host project timeline d keys = .ok c) :
    ∃ c', s.closure host project timeline d keys' = .ok c' ∧ c.shots.Perm c'.shots ∧
      c.internal.SameRows c'.internal ∧ c'.manifest = c.manifest ∧ c'.report = c.report := by
  have hmap := (closure_pinned hd hkeys h).1
  simp only [State.closure, bind_eq_ok, return_ok] at h
  obtain ⟨entries, hentries, internal, hinternal, shots, hshots, media, hmedia, _, hmanifest, _,
    hlevel, report, hreport, rfl⟩ := h
  obtain ⟨entries', hentries', hperm_entries⟩ := mapM_perm hperm hentries
  obtain ⟨internal', hinternal', hsame⟩ := reorderable_resolveInternal.foldlM (fun t => .refl t)
    hperm_entries (.refl _) trivial hinternal
  obtain ⟨shots', hshots', hperm_shots⟩ := mapM_perm hperm_entries hshots
  have hkeys_shots : (shots.map ShotEntry.key).Nodup := hmap ▸ hnodup
  have hnamed : sortedSet (collectDigestMedia d.parent ++
        shots'.flatMap (fun e => collectDigestMedia e.payload) ++
        internal'.entries.flatMap fun e => collectDigestMedia e.2.payload) =
      sortedSet (collectDigestMedia d.parent ++
        shots.flatMap (fun e => collectDigestMedia e.payload) ++
        internal.entries.flatMap fun e => collectDigestMedia e.2.payload) := by
    refine sortedSet_eq_of_mem fun x => ?_
    simp only [List.mem_append, List.mem_flatMap, hperm_shots.mem_iff, hsame.perm.mem_iff]
  have hmedia' : s.completeMedia host project d.media (collectDigestMedia d.parent ++
        shots'.flatMap (fun e => collectDigestMedia e.payload) ++
        internal'.entries.flatMap fun e => collectDigestMedia e.2.payload) = .ok media := by
    rw [completeMedia, hnamed]
    exact hmedia
  have hfind : (fun key => shots'.find? fun e => e.key = key) =
      fun key => shots.find? fun e => e.key = key := by
    funext key
    refine (hperm_shots.find?_eq fun a ha b hb hpa hpb => ?_).symm
    have hkey : a.key = b.key := (of_decide_eq_true hpa).trans (of_decide_eq_true hpb).symm
    exact List.inj_on_of_nodup_map hkeys_shots ha hb hkey
  have hfind' : (fun id => findInternal internal' id) =
      fun id => findInternal internal id := by
    funext id
    unfold findInternal
    rw [hsame.perm.find?_eq fun a ha b hb hpa hpb => ?_]
    exact resolveInternal_unique hinternal ha hb
      ((of_decide_eq_true hpa).trans (of_decide_eq_true hpb).symm)
  refine ⟨{ shots := shots', internal := internal', report
            manifest := manifestOf shots' internal' media }, ?_, hperm_shots, hsame,
    (manifestOf_congr hperm_shots hkeys_shots hsame fun hrow =>
      (resolveInternal_lookup hinternal hrow).1).symm, rfl⟩
  simp only [State.closure, bind_eq_ok, return_ok]
  exact ⟨entries', hentries', internal', hinternal', shots', hshots', media, hmedia', (),
    checkManifest_congr hperm_shots hsame hmanifest, (), hlevel, report,
    by rw [hfind, hfind']; exact hreport, rfl⟩

end WorkspaceRuntime.Project
