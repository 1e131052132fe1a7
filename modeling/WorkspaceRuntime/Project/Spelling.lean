import WorkspaceRuntime.Project.History
import WorkspaceRuntime.Project.Retransmission

/-!
# Spellings of a media dependency

A manifest names a media object by a text or by an object, with or without the digest of its bytes.
`_validate_media_dependencies` reads every spelling in the same way. The comparison with the closure
reads the entries once more, and it takes the digest of an object from `content_digest` only, so
that an entry that does not state it supplies nothing.
-/

namespace WorkspaceRuntime.Project

open Fallible Timeline Json

/-! ## One entry -/

/-- The object that an entry names, by its digest with its scheme. -/
def mediaIdentity (item : Json) : Option String :=
  (State.mediaFields item).toOption.bind fun fields =>
    ((fields.get "media_id").getD (fieldOr fields "object_id" "digest" .null)).asStr.map
      fun id => "sha256:" ++ withoutScheme id

/-- The entry states the digest of its object where the comparison looks for it. -/
def statesDigest : Json → Bool
  | .obj fields => (Fields.get fields "content_digest").isSome
  | _ => true

/-- Every object that the list names is named by an entry that states its digest. -/
def AllStated (items : List Json) : Prop :=
  ∀ item ∈ items, ∃ other ∈ items, statesDigest other = true ∧
    mediaIdentity other = mediaIdentity item

instance (items : List Json) : Decidable (AllStated items) :=
  inferInstanceAs (Decidable (∀ _ ∈ items, _))

/-- The entries of two lists are accepted, each as the same object as its counterpart. -/
def Respells (host : Host) (s : State) (project : ProjectId) : List Json → List Json → Prop :=
  List.Forall₂ fun item item' => ∃ digest, s.mediaDependency host project item = .ok digest ∧
    s.mediaDependency host project item' = .ok digest

theorem scheme_withoutScheme (text : String) : "sha256:" ++ withoutScheme text =
    if "sha256:".toList.isPrefixOf text.toList then text else "sha256:" ++ text := by
  unfold withoutScheme
  split
  next h =>
    obtain ⟨rest, hrest⟩ : "sha256:".toList <+: text.toList := by simpa using h
    have hdrop : text.toList.drop 7 = rest := by rw [← hrest]; rfl
    rw [← String.toList_inj, String.toList_append, hdrop]
    simpa using hrest
  next => rfl

namespace State

variable {host : Host} {env : Env} {s : State} {project : ProjectId} {timeline : TimelineId}
  {fields : Fields} {source : Option Fields} {items items' : List Json} {item : Json}
  {digest : String}

theorem suppliedMedia_obj (given : Fields) :
    suppliedMedia [.obj given] = (field given "content_digest").asStr.toList := by
  unfold suppliedMedia
  rw [List.filterMap_cons]
  dsimp only
  cases (field given "content_digest").asStr <;> rfl

/-- An accepted entry is accepted as the object it names, and it supplies that object to the
comparison when it states the digest. -/
theorem mediaDependency_eq_ok (h : s.mediaDependency host project item = .ok digest) :
    mediaIdentity item = some digest ∧
      suppliedMedia [item] = if statesDigest item then [digest] else [] := by
  simp only [mediaDependency, bind_eq_ok, orThrow_eq_ok, require_eq_ok, return_ok] at h
  obtain ⟨fields, hfields, id, hid, _, -, _, -, _, -, _, -, _, -, _, -, _, hsupplied, rfl⟩ := h
  refine ⟨by simp [mediaIdentity, hfields, Except.toOption, hid], ?_⟩
  cases item with
  | str text =>
    cases hfields
    obtain rfl := Option.some.inj hid
    simp [suppliedMedia, statesDigest, scheme_withoutScheme]
  | obj given =>
    obtain rfl := Except.ok.inj hfields
    cases hget : Fields.get given "content_digest" with
    | none =>
      have hfield : (field given "content_digest").asStr = none := by rw [field, hget]; rfl
      rw [suppliedMedia_obj, hfield, statesDigest, hget]
      rfl
    | some v =>
      rw [hget, Option.getD_some] at hsupplied
      have hfield : (field given "content_digest").asStr =
          some ("sha256:" ++ withoutScheme id) := by
        rw [field, hget, hsupplied]
        rfl
      rw [suppliedMedia_obj, hfield, statesDigest, hget]
      rfl
  | _ => cases hfields

theorem mem_suppliedMedia :
    digest ∈ suppliedMedia items ↔ ∃ item ∈ items, digest ∈ suppliedMedia [item] := by
  simp [suppliedMedia]

/-! ## The entries of a manifest -/

/-- A manifest of the media: a list, or an object with the other lists of `source`. -/
def manifestWith (source : Option Fields) (items : List Json) : Json :=
  match source with
  | none => .arr items
  | some source => .obj (Fields.set source "media" (.arr items))

/-- The body whose `dependency_manifest` has the media. -/
def bodyWith (fields : Fields) (source : Option Fields) (items : List Json) : Fields :=
  Fields.set fields "dependency_manifest" (manifestWith source items)

theorem get_bodyWith {name : String} (h : name ≠ "dependency_manifest") :
    (bodyWith fields source items).get name = fields.get name :=
  Fields.get_set_of_ne fields _ h

theorem bodyWith_inj (h : bodyWith fields source items = bodyWith fields source items') :
    items = items' := by
  have hmanifest : manifestWith source items = manifestWith source items' := by
    have hget := congrArg (Fields.get · "dependency_manifest") h
    simpa only [bodyWith, Fields.get_set_self, Option.some.injEq] using hget
  cases source with
  | none => exact arr.inj hmanifest
  | some source =>
    have hget := congrArg (Fields.get · "media") (obj.inj hmanifest)
    simpa only [Fields.get_set_self, Option.some.injEq, arr.injEq] using hget

theorem mapM_respells (h : Respells host s project items items') :
    items'.mapM (s.mediaDependency host project) = items.mapM (s.mediaDependency host project) := by
  induction h with
  | nil => rfl
  | cons hitem _ ih =>
    obtain ⟨digest, h, h'⟩ := hitem
    rw [List.mapM_cons, List.mapM_cons, h, h', ih]

theorem keys_set_congr (fs : Fields) (name : String) (v v' : Json) :
    (Fields.set fs name v).keys = (Fields.set fs name v').keys := by
  induction fs with
  | nil => rfl
  | cons f fs ih =>
    unfold Fields.set
    split
    next => exact congrArg (f.1 :: ·) ih
    next => split <;> rfl

/-- The manifest of a body with other media. -/
theorem manifestSource_bodyWith {given : Fields} (items' : List Json)
    (h : manifestSource (bodyWith fields source items) = .ok given) :
    given = Fields.set (source.getD []) "media" (.arr items) ∧
      manifestSource (bodyWith fields source items') =
        .ok (Fields.set (source.getD []) "media" (.arr items')) := by
  have hgiven : ∀ items, manifestSource (bodyWith fields source items) = manifestSource
      [("dependency_manifest", .obj (Fields.set (source.getD []) "media" (.arr items)))] := by
    intro items
    have hfield : fieldOr (bodyWith fields source items) "dependency_manifest" "dependencies"
        (.obj []) = manifestWith source items := by
      rw [fieldOr, bodyWith, Fields.get_set_self, Option.getD_some]
    unfold manifestSource
    rw [hfield]
    cases source <;> rfl
  rw [hgiven] at h ⊢
  have hfield : ∀ given, fieldOr [("dependency_manifest", .obj given)] "dependency_manifest"
      "dependencies" (.obj []) = .obj given := fun _ => rfl
  -- only the names of the fields and the other three lists are checked
  simp (disch := decide) only [manifestSource, hfield, asObj, orThrow_some, ok_bind, bind_eq_ok,
    require_eq_ok, return_ok, exists_const, List.forM_eq_forM, List.forM_cons, List.forM_nil,
    Fields.get_set_of_ne] at h ⊢
  obtain ⟨hnames, hlists, hnested, rfl⟩ := h
  refine ⟨rfl, fun f hf => ?_, hlists, hnested, trivial⟩
  have hmem : f.1 ∈ (Fields.set (source.getD []) "media" (.arr items)).keys :=
    keys_set_congr _ _ _ _ ▸ List.mem_map_of_mem hf
  obtain ⟨f', hf', heq⟩ := List.mem_map.mp hmem
  exact heq ▸ hnames f' hf'

/-- The draft of a body with other spellings differs in the manifest only. -/
theorem draft_bodyWith {d : Draft} (hspell : Respells host s project items items')
    (h : s.draft host env project timeline (bodyWith fields source items) = .ok d) :
    d.source = Fields.set (source.getD []) "media" (.arr items) ∧
      (∃ media, items.mapM (s.mediaDependency host project) = .ok media ∧
        d.media = media.eraseDups) ∧
      s.draft host env project timeline (bodyWith fields source items') =
        .ok { d with source := Fields.set (source.getD []) "media" (.arr items') } := by
  simp (disch := decide) only [draft, readChildren, field, fieldOr, get_bodyWith, bind_eq_ok,
    return_ok, validateMediaDependencies] at h ⊢
  obtain ⟨children, hchildren, occurrences, hoccurrences, _, hunique, parentId, hparent, _, hdigest,
    given, hgiven, declared, hdeclared, media, ⟨media', hmedia, rfl⟩, rfl⟩ := h
  obtain ⟨rfl, hgiven'⟩ := manifestSource_bodyWith items' hgiven
  rw [Fields.get_set_self] at hdeclared
  obtain rfl := Option.some.inj (orThrow_eq_ok.mp hdeclared)
  refine ⟨rfl, ⟨media', hmedia, rfl⟩, children, hchildren, occurrences, hoccurrences, (), hunique,
    parentId, hparent, (), hdigest, _, hgiven', items', by rw [Fields.get_set_self]; rfl, _,
    ⟨media', (mapM_respells hspell).trans hmedia, rfl⟩, rfl⟩

/-- The media of the closure are at least those that the manifest declares. -/
theorem mem_completeMedia {declared named media : List String}
    (h : s.completeMedia host project declared named = .ok media) (hdigest : digest ∈ declared) :
    digest ∈ media := by
  have hkeeps : ∀ d ∈ declared, d ∈ media := foldlM_rel (R := fun l l' => ∀ d ∈ l, d ∈ l')
    (fun _ _ => id) (fun h h' d hd => h' d (h d hd)) (fun _ _ {l l'} hstep d hd => by
      split at hstep
      next => exact Except.ok.inj hstep ▸ hd
      next =>
        simp only [bind_eq_ok, return_ok] at hstep
        obtain ⟨more, -, rfl⟩ := hstep
        exact List.mem_append_left _ hd) h
  exact hkeeps digest hdigest

/-- What a list supplies is the media that it declares, when each of them is stated. -/
theorem suppliedMedia_iff {declared media : List String}
    (hspell : Respells host s project items items')
    (hdeclared : items.mapM (s.mediaDependency host project) = .ok declared)
    (hsub : ∀ d ∈ declared, d ∈ media) (h : SameMembers (suppliedMedia items) media) :
    SameMembers (suppliedMedia items') media ↔ AllStated items' := by
  have haccepted : ∀ {items}, items.mapM (s.mediaDependency host project) = .ok declared →
      ∀ d ∈ suppliedMedia items, d ∈ declared := by
    intro items hmap d hd
    obtain ⟨item, hitem, hd⟩ := mem_suppliedMedia.mp hd
    obtain ⟨d', hok, hd'⟩ := mem_of_mapM hmap hitem
    rw [(mediaDependency_eq_ok hok).2] at hd
    split at hd
    next => exact List.mem_singleton.mp hd ▸ hd'
    next => cases hd
  have hmap' := (mapM_respells hspell).trans hdeclared
  constructor
  · intro hsame item hitem
    obtain ⟨d, hok, hd⟩ := mem_of_mapM hmap' hitem
    obtain ⟨other, hother, hmem⟩ := mem_suppliedMedia.mp (hsame.2 d (hsub d hd))
    obtain ⟨d', hok', -⟩ := mem_of_mapM hmap' hother
    rw [(mediaDependency_eq_ok hok').2] at hmem
    split at hmem
    next hstates =>
      obtain rfl := List.mem_singleton.mp hmem
      exact ⟨other, hother, hstates,
        (mediaDependency_eq_ok hok').1.trans (mediaDependency_eq_ok hok).1.symm⟩
    next => cases hmem
  · intro hall
    refine ⟨fun d hd => hsub d (haccepted hmap' d hd), fun d hd => ?_⟩
    obtain ⟨item, hitem, hok⟩ := exists_of_mem_mapM hmap' (haccepted hdeclared d (h.2 d hd))
    obtain ⟨other, hother, hstates, hidentity⟩ := hall item hitem
    obtain ⟨d', hok', -⟩ := mem_of_mapM hmap' hother
    rw [(mediaDependency_eq_ok hok').1, (mediaDependency_eq_ok hok).1] at hidentity
    refine mem_suppliedMedia.mpr ⟨other, hother, ?_⟩
    rw [(mediaDependency_eq_ok hok').2, if_pos hstates]
    exact List.mem_singleton.mpr (Option.some.inj hidentity).symm

/-- The closure for other spellings is the same one, when each of the media is stated. -/
theorem closure_bodyWith {d : Draft} {keys : List ShotKey} {c : Closure} {declared : List String}
    {source : Fields} (hspell : Respells host s project items items')
    (hdeclared : items.mapM (s.mediaDependency host project) = .ok declared)
    (hsource : d.source = Fields.set source "media" (.arr items))
    (hmedia : d.media = declared.eraseDups) (h : s.closure host project timeline d keys = .ok c)
    (c' : Closure) :
    s.closure host project timeline { d with source := Fields.set source "media" (.arr items') }
      keys = .ok c' ↔ AllStated items' ∧ c' = c := by
  simp (disch := decide) only [closure, hsource, hmedia, checkManifest, bind_eq_ok, require_eq_ok,
    return_ok, exists_const, Fields.get_set_self, Fields.get_set_of_ne] at h
  obtain ⟨entries, hentries, internal, hinternal, shots, hshots, media, hcomplete,
    ⟨hshotList, htimelineList, hmediaList⟩, hlevel, report, hreport, rfl⟩ := h
  have hsame := suppliedMedia_iff hspell hdeclared
    (fun d hd => mem_completeMedia hcomplete (List.mem_eraseDups.mpr hd)) (hmediaList items rfl)
  simp (disch := decide) only [closure, hmedia, hentries, hinternal, hshots, hcomplete, ok_bind,
    checkManifest, Fields.get_set_self, Fields.get_set_of_ne, bind_eq_ok, require_eq_ok, return_ok,
    exists_const]
  constructor
  · rintro ⟨⟨-, -, hlist⟩, -, report', hreport', rfl⟩
    obtain rfl := Except.ok.inj (hreport.symm.trans hreport')
    exact ⟨hsame.mp (hlist items' rfl), rfl⟩
  · rintro ⟨hall, rfl⟩
    refine ⟨⟨hshotList, htimelineList, fun list hlist => ?_⟩, hlevel, report, hreport, rfl⟩
    obtain rfl := Option.some.inj hlist
    exact hsame.mpr hall

/-! ## The command -/

/-- A publication that the ledger does not answer is accepted in other spellings, with the same
rows, when each of the media is stated. -/
theorem publishNew_bodyWith {key : Option String} {request : Json} {out : State × Answer}
    (request' : Json) (hspell : Respells host s project items items')
    (h : s.publishNew host env project timeline (bodyWith fields source items) key request =
      .ok out) :
    (∃ out', s.publishNew host env project timeline (bodyWith fields source items') key request' =
      .ok out' ∧ out'.1.dependencies = out.1.dependencies) ↔ AllStated items' := by
  have hexpected : ∀ items, expectedParentHead (bodyWith fields source items) =
      expectedParentHead fields := by
    intro items
    simp (disch := decide) only [expectedParentHead, fieldOr, get_bodyWith]
  simp only [publishNew, hexpected, bind_eq_ok, return_ok] at h ⊢
  obtain ⟨expected, hhead, _, howner, _, hcurrent, d, hd, c, hc, s₁, hcommit, ledger, hledger,
    rfl⟩ := h
  obtain ⟨hsource, ⟨declared, hdeclared, hmedia⟩, hd'⟩ := draft_bodyWith hspell hd
  have hclosure := closure_bodyWith hspell hdeclared hsource hmedia hc
  constructor
  · rintro ⟨_, ⟨_, -, _, -, _, -, d', hdraft, c', hc', -⟩, -⟩
    obtain rfl := Except.ok.inj (hd'.symm.trans hdraft)
    exact ((hclosure c').mp hc').1
  · intro hall
    obtain ⟨ledger', hledger'⟩ := CommandLedger.record_request request' hledger
    exact ⟨_, ⟨expected, hhead, (), howner, (), hcurrent, _, hd', c, (hclosure c).mpr ⟨hall, rfl⟩,
      s₁, hcommit, ledger', hledger', rfl⟩, rfl⟩

/-- Of an accepted publication the media may be spelled in another way, with the same rows of
dependencies, exactly when the body stays the same, or the key is new and every object is named by
an entry that states its digest. -/
theorem respelled_media_iff {selector : String} {key : Option String} {out : State × Answer}
    (hproject : s.getProject selector = .ok project)
    (hspell : Respells host s project items items')
    (h : s.publishParentComposition host env selector timeline
      (.obj (bodyWith fields source items)) key = .ok out) :
    (∃ out', s.publishParentComposition host env selector timeline
        (.obj (bodyWith fields source items')) key = .ok out' ∧
      out'.1.dependencies = out.1.dependencies) ↔
    items' = items ∨ (∀ k ∈ key, s.ledger.lookup (.parentCompositionPublish, timeline, k) = none) ∧
      AllStated items' := by
  obtain ⟨k, hkey, -⟩ := bind_eq_ok.mp h
  have hsome : key = some k := (requireIdempotencyKey_eq_ok hkey).1
  simp (disch := decide) only [publishParentComposition, hkey, objectBody, asObj, orThrow_some,
    ok_bind, hproject, field, get_bodyWith, bind_eq_ok, require_eq_ok, exists_const] at h ⊢
  obtain ⟨hscope, hroute, hprior, h⟩ := h
  simp only [hsome, Option.mem_some_iff, forall_eq', hscope, hroute, true_and] at h ⊢
  cases hrow : Table.lookup s.ledger (.parentCompositionPublish, timeline, k) with
  | some row =>
    -- the recorded request is the body, spelling and all
    simp only [hrow, bind_eq_ok, require_eq_ok, exists_const, return_ok] at h ⊢
    obtain ⟨hrequest, rfl⟩ := h
    constructor
    · rintro ⟨_, ⟨-, hrequest', rfl⟩, -⟩
      have hbody := hrequest'.symm.trans hrequest
      simp only [obj.injEq, List.cons.injEq, Prod.mk.injEq, true_and, and_true] at hbody
      exact .inl (bodyWith_inj hbody)
    · rintro (rfl | ⟨hnone, -⟩)
      · exact ⟨_, ⟨hprior, hrequest, rfl⟩, rfl⟩
      · cases hnone
  | none =>
    simp only [hrow] at h ⊢
    have hnew := fun request => publishNew_bodyWith request hspell h
    constructor
    · rintro ⟨out', ⟨-, h'⟩, hrows⟩
      exact .inr ⟨trivial, (hnew _).mp ⟨out', h', hrows⟩⟩
    · rintro (rfl | ⟨-, hall⟩)
      · exact ⟨out, ⟨hprior, h⟩, rfl⟩
      · obtain ⟨out', h', hrows⟩ := (hnew _).mpr hall
        exact ⟨out', ⟨hprior, h'⟩, hrows⟩

/-- The digest of the one object of `storedMedia`. -/
def storedDigest : String := String.ofList (List.replicate 64 'a')

/-- A project with one empty object. -/
def storedMedia : State :=
  { emptyProject with
    objects := (Table.empty.insertNew storedDigest ⟨0, "text/plain"⟩).getD .empty
    projectObjects := [("project", storedDigest, "source")]
    files := (Table.empty.insertNew storedDigest (.regular [])).getD .empty }

/-- Publishes a composition without occurrences, with the media in its manifest. -/
def publishesMedia (items : List Json) : Except Err (State × Answer) :=
  storedMedia.publishParentComposition constantHost { now := 0 } "project" "timeline"
    (.obj (bodyWith [("expected_head", .null), ("parent_composition", .obj []),
      ("parent_revision_id", .str "r1"), ("project_id", .str "project"),
      ("timeline_id", .str "timeline")] none items)) (some "key")

theorem respelled_media_prefixed :
    ∃ out, publishesMedia [.str storedDigest] = .ok out ∧
      ∃ out', publishesMedia [.str ("sha256:" ++ storedDigest)] = .ok out' ∧
        out'.1.dependencies = out.1.dependencies := by
  have hok : (publishesMedia [.str storedDigest]).toOption.isSome = true := by decide +kernel
  cases h : publishesMedia [.str storedDigest] with
  | error e => rw [h] at hok; cases hok
  | ok out =>
    refine ⟨out, rfl, (respelled_media_iff rfl ?_ h).mpr (.inr ⟨fun _ _ => rfl, by decide +kernel⟩)⟩
    exact .cons ⟨"sha256:" ++ storedDigest, by decide +kernel, by decide +kernel⟩ .nil

/-- The same object, named by an object without `content_digest`, is refused. -/
theorem unstated_media_refused :
    storedMedia.mediaDependency constantHost "project" (.obj [("media_id", .str storedDigest)]) =
        storedMedia.mediaDependency constantHost "project" (.str storedDigest) ∧
      (publishesMedia [.str storedDigest]).toOption.isSome = true ∧
      (publishesMedia [.obj [("media_id", .str storedDigest)]]).toOption.isSome = false := by
  decide +kernel

end State

end WorkspaceRuntime.Project
