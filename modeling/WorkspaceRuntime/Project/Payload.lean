import WorkspaceRuntime.Project.Rows

/-!
# The payloads of a publication

A publication is written in a JSON body with aliases and defaults. The functions here check a
payload and write it in its canonical spelling: the payload of an internal timeline, of a shot and
of a parent composition, and the occurrences of the parent.
-/

namespace WorkspaceRuntime.Project

open Fallible Json

/-! ## Identities -/

/-- `_revision_id`. -/
def revisionId (v : Json) (name : String) : Except Err RevisionId := do
  let shape := Err.validation (name ++ " must be a non-empty revision identity")
  let id ← orThrow v.asStr shape
  require (id ≠ "" ∧ id.length ≤ 256) shape
  return id

/-- A text that is not empty. -/
def nonEmpty (v : Json) (message : String) : Except Err String := do
  let text ← orThrow v.asStr (.validation message)
  require (text ≠ "") (.validation message)
  return text

/-- `_revision_payload`. -/
def revisionPayload (entry : Fields) (excluded : List String) : Except Err Fields :=
  match fieldOr entry "payload" "content" .null with
  | .null => .ok (entry.filter fun f => f.1 ∉ excluded)
  | payload => orThrow payload.asObj (.validation "revision payload must be an object")

/-! ## Aliases and defaults -/

/-- The first name is an old name of the second. -/
def renameField (fields : Fields) (names : String × String) : Fields :=
  match fields.get names.1, fields.get names.2 with
  | some v, none => (fields.erase names.1).set names.2 v
  | _, _ => fields

/-- `setdefault`. -/
def setDefault (fields : Fields) (default : String × Json) : Fields :=
  if (fields.get default.1).isSome then fields else fields.set default.1 default.2

/-- The fields of a payload under their canonical names, with their defaults. -/
def complete (fields : Fields) (aliases : List (String × String))
    (defaults : List (String × Json)) : Fields :=
  defaults.foldl setDefault (aliases.foldl renameField fields)

/-- Every field that has a default is there. -/
def Completed (fields : Fields) (defaults : List (String × Json)) : Prop :=
  ∀ d ∈ defaults, (fields.get d.1).isSome = true

theorem setDefault_present (fields : Fields) (d : String × Json) :
    ((setDefault fields d).get d.1).isSome = true := by
  unfold setDefault
  split
  next h => exact h
  next => simp

variable {fields : Fields} {name : String} {v : Json} {defaults : List (String × Json)}
  {aliases : List (String × String)}

/-- A field that is there is left by the defaults. -/
theorem get_setDefault {d : String × Json} (h : fields.get name = some v) :
    (setDefault fields d).get name = some v := by
  unfold setDefault
  split
  next => exact h
  next hnone =>
    have hne : name ≠ d.1 := fun hname => hnone (by rw [← hname, h]; rfl)
    rw [Fields.get_set_of_ne _ _ hne, h]

theorem get_setDefaults (h : fields.get name = some v) :
    (defaults.foldl setDefault fields).get name = some v := by
  induction defaults generalizing fields with
  | nil => exact h
  | cons d defaults ih => exact ih (get_setDefault h)

theorem completed_setDefaults (defaults : List (String × Json)) (fields : Fields) :
    Completed (defaults.foldl setDefault fields) defaults := by
  induction defaults generalizing fields with
  | nil => exact nofun
  | cons d defaults ih =>
    intro d' hd'
    rcases List.mem_cons.mp hd' with rfl | hd'
    · obtain ⟨v, hv⟩ := Option.isSome_iff_exists.mp (setDefault_present fields d')
      rw [List.foldl_cons, get_setDefaults hv]
      rfl
    · exact ih (setDefault fields d) d' hd'

theorem completed_complete (fields : Fields) (aliases : List (String × String))
    (defaults : List (String × Json)) : Completed (complete fields aliases defaults) defaults :=
  completed_setDefaults defaults _

theorem Completed.set (h : Completed fields defaults) : Completed (fields.set name v) defaults := by
  intro d hd
  by_cases hname : d.1 = name
  · rw [hname]
    simp
  · rw [Fields.get_set_of_ne _ _ hname]
    exact h d hd

/-- A payload that is complete is left as it is. -/
theorem complete_eq_self (h : Completed fields defaults)
    (haliases : ∀ a ∈ aliases, ∃ d ∈ defaults, d.1 = a.2) :
    complete fields aliases defaults = fields := by
  have hrename : ∀ l : List (String × String), (∀ a ∈ l, (fields.get a.2).isSome = true) →
      l.foldl renameField fields = fields := by
    intro l
    induction l with
    | nil => exact fun _ => rfl
    | cons a l ih =>
      intro hl
      obtain ⟨v, hv⟩ := Option.isSome_iff_exists.mp (hl a List.mem_cons_self)
      have hstep : renameField fields a = fields := by
        rw [renameField, hv]
        cases fields.get a.1 <;> rfl
      rw [List.foldl_cons, hstep]
      exact ih fun a' ha' => hl a' (.tail _ ha')
  have hdefaults : ∀ l : List (String × Json), (∀ d ∈ l, (fields.get d.1).isSome = true) →
      l.foldl setDefault fields = fields := by
    intro l
    induction l with
    | nil => exact fun _ => rfl
    | cons d l ih =>
      intro hl
      rw [List.foldl_cons, setDefault, if_pos (hl d List.mem_cons_self)]
      exact ih fun d' hd' => hl d' (List.mem_cons_of_mem d hd')
  have hpresent : ∀ a ∈ aliases, (fields.get a.2).isSome = true := by
    intro a ha
    obtain ⟨d, hd, hname⟩ := haliases a ha
    exact hname ▸ h d hd
  rw [complete, hrename aliases hpresent, hdefaults defaults h]

/-- A field that is there and has no other name is left. -/
theorem get_complete (h : fields.get name = some v) (haliases : ∀ a ∈ aliases, a.1 ≠ name) :
    (complete fields aliases defaults).get name = some v := by
  refine get_setDefaults ?_
  induction aliases generalizing fields with
  | nil => exact h
  | cons a aliases ih =>
    refine ih ?_ fun a' ha' => haliases a' (.tail _ ha')
    have hne := haliases a List.mem_cons_self
    unfold renameField
    split
    next w _ hnone =>
      have hne' : name ≠ a.2 := fun hname => by rw [← hname, h] at hnone; cases hnone
      rw [Fields.get_set_of_ne _ _ hne', Fields.get_erase_of_ne _ hne.symm, h]
    next => exact h

/-! ## Checks -/

/-- `SUPPORTED_COMPOSITION_EFFECTS`. -/
def supportedCompositionEffects : List String :=
  ["crop", "fade", "gain", "opacity", "position", "scale", "transform", "volume"]

/-- The check of one effect. -/
def checkEffect (effect : Json) : Except Err Unit :=
  require ((effect.get? "type").any fun v => v.asStr.any (· ∈ supportedCompositionEffects))
    (.validation "unsupported composition effect")

/-- `_validate_timeline_track_roles`. -/
def validateTimelineTrackRoles (config : Fields) : Except Err Unit :=
  require (∀ track ∈ ((config.get "tracks").bind asArr).getD [],
      ∀ role, track.get? "role" = some role → role = .str "output" ∨ role = .str "source")
    (.validation "timeline track role must be 'output' or 'source'")

mutual

/-- `contains_nested_composition`. -/
def nested : Json → Bool
  | .obj fields => nestedFields fields
  | .arr items => nestedItems items
  | _ => false

/-- `nested` on arrays. -/
def nestedItems : List Json → Bool
  | [] => false
  | v :: items => nested v || nestedItems items

/-- `nested` on the fields of objects. -/
def nestedFields : List (String × Json) → Bool
  | [] => false
  | (k, v) :: fields =>
    k ∈ ["occurrences", "occurrence_records", "shot_revision_id", "parent_revision_id",
      "composition_revision_id", "nested_composition"] || nested v || nestedFields fields

end

/-! ## Payloads -/

/-- The aliases of `_complete_internal_timeline_payload`. -/
def internalAliases : List (String × String) :=
  [("local_tracks", "tracks"), ("local_clips", "clips"), ("local_effects", "effects"),
   ("local_audio", "audio"), ("local_layout", "layout"), ("scoped_registry", "registry"),
   ("scoped_assets", "assets")]

/-- The defaults of `_complete_internal_timeline_payload`. -/
def internalDefaults : List (String × Json) :=
  [("tracks", .arr []), ("clips", .arr []), ("effects", .arr []), ("audio", .arr []),
   ("layout", .obj []), ("registry", .obj []), ("assets", .arr [])]

/-- `_complete_internal_timeline_payload`. -/
def completeInternalTimelinePayload (payload : Fields) : Except Err Fields := do
  require (nestedFields payload = false)
    (.validation "internal timeline cannot contain a nested composition")
  let result := complete payload internalAliases internalDefaults
  validateTimelineTrackRoles result
  let effects ← orThrow (field result "effects").asArr
    (.validation "internal timeline effects must be a list")
  effects.forM checkEffect
  return result

/-- The aliases of `_complete_shot_payload`. -/
def shotAliases : List (String × String) :=
  [("item_membership", "items"), ("item_pool", "pools"), ("variants", "selected_variants"),
   ("generation", "generation_inputs"), ("audio", "audio_bindings"), ("text", "text_bindings")]

/-- The defaults of `_complete_shot_payload`. -/
def shotDefaults : List (String × Json) :=
  [("metadata", .obj []), ("items", .arr []), ("pools", .arr []), ("selected_variants", .obj []),
   ("provenance", .obj []), ("generation_inputs", .obj []), ("audio_bindings", .arr []),
   ("text_bindings", .arr [])]

/-- `_complete_shot_payload`. -/
def completeShotPayload (payload : Fields) (internalId : RevisionId) :
    Except Err Fields := do
  require (∀ name ∈ ["occurrences", "occurrence_records", "parent_composition", "parent_revision_id",
      "composition_revision_id"], payload.get name = none)
    (.validation "shot revision cannot contain a nested composition")
  return (complete payload shotAliases shotDefaults).set "internal_timeline_revision_id"
    (.str internalId)

/-- The aliases of `_complete_parent_payload`. -/
def parentAliases : List (String × String) :=
  [("authored_config", "config"), ("authored_registry", "registry"), ("ordinary_clips", "clips"),
   ("occurrence_records", "occurrences")]

/-- The defaults of `_complete_parent_payload`. -/
def parentDefaults : List (String × Json) :=
  [("config", .obj []), ("registry", .obj []), ("clips", .arr []), ("occurrences", .arr [])]

/-- The check of one ordinary clip. -/
def checkClip (clip : Json) : Except Err Unit := do
  let fields ← orThrow clip.asObj (.validation "ordinary clips must be objects")
  require (∀ name ∈ ["occurrence_id", "shot_revision_id", "parent_revision_id",
      "composition_revision_id"], fields.get name = none)
    (.validation "ordinary clips cannot contain nested shot compositions")
  let effects ← orThrow ((fields.get "effects").getD (.arr [])).asArr
    (.validation "clip effects must be a list")
  effects.forM checkEffect

/-- `_complete_parent_payload`, and the occurrences of the payload. -/
def completeParentPayload (v : Json) : Except Err (Fields × List Json) := do
  let payload ← orThrow v.asObj (.validation "parent composition payload must be an object")
  let result := complete payload parentAliases parentDefaults
  let objects := Err.validation "parent composition config and registry must be objects"
  let config ← orThrow (field result "config").asObj objects
  let _ ← orThrow (field result "registry").asObj objects
  validateTimelineTrackRoles config
  let lists := Err.validation "parent composition clips and occurrences must be lists"
  let clips ← orThrow (field result "clips").asArr lists
  let occurrences ← orThrow (field result "occurrences").asArr lists
  clips.forM checkClip
  return (result, occurrences)

/-! ## Occurrences -/

/-- A number that is finite, and greater than zero if it is to be. -/
def isFiniteNumber (num : Numerals) (positive : Bool) : Json → Bool
  | .int n => num.finite (.int n) && (!positive || decide (0 < n))
  | .float text => num.finite (.float text) && (!positive || num.positive text)
  | _ => false

/-- `_finite_number`. -/
def finiteNumber (num : Numerals) (v : Json) (name : String) (positive : Bool) :
    Except Err Unit :=
  require (isFiniteNumber num positive v = true) (.validation (name ++ " must be a finite number" ++
    if positive then " greater than zero" else ""))

/-- A duration as the integer it is. -/
def durationOf (num : Numerals) (v : Json) : Option Int :=
  if isFiniteNumber num true v then
    match v with
    | .int n => some n
    | .float text => num.integral text
    | _ => none
  else none

/-- A positive integer. -/
def isPositiveInt : Json → Bool
  | .int n => 0 < n
  | _ => false

/-- A speed is a positive number or a positive rational. -/
def checkSpeed (num : Numerals) : Json → Except Err Unit
  | .obj fields =>
    require ((fields.map Prod.fst).all (· ∈ ["numerator", "denominator"]) ∧
        isPositiveInt (field fields "numerator") ∧ isPositiveInt (field fields "denominator"))
      (.validation "occurrence speed must be one constant positive rational")
  | v => finiteNumber num v "speed" true

/-- An offset is a number, or an object whose bounds, if it has one, are numbers. -/
def checkSourceOffset (num : Numerals) : Json → Except Err Unit
  | .obj fields =>
    if (fields.map Prod.fst).any (· ∈ ["start", "end"]) then do
      finiteNumber num (field fields "start") "source_offset.start" false
      finiteNumber num (field fields "end") "source_offset.end" false
    else .ok ()
  | v => finiteNumber num v "source_offset" false

/-- An occurrence in its canonical spelling: its JSON text, and the fields that a row keeps. -/
structure NormalOccurrence where
  fields : Fields
  occurrenceId : String
  shotId : ShotId
  shotRevisionId : RevisionId
  placement : Json
  sourceOffset : Json
  durationMs : Int
  speed : Json
  track : String
  transform : Json
  gain : Json
  muted : Bool
  provenance : Json
  deriving DecidableEq, Repr

/-- The pinned shot revision of an occurrence. -/
def NormalOccurrence.key (o : NormalOccurrence) : ShotId × RevisionId := (o.shotId, o.shotRevisionId)

/-- The placement of an occurrence. -/
def placementOf (fields : Fields) : Json :=
  match field fields "placement" with
  | .null => .obj (fields.filter fun f => f.1 ∈ ["start_ms", "track"])
  | placement => placement

/-- `_normalize_occurrence`. -/
def normalizeOccurrence (num : Numerals) (shots : ShotId × RevisionId → Bool)
    (occurrence : Json) : Except Err NormalOccurrence := do
  let fields ← orThrow occurrence.asObj (.validation "occurrences must be objects")
  let occurrenceId ← nonEmpty (field fields "occurrence_id") "occurrence_id is required"
  let shotId ← nonEmpty (field fields "shot_id") "occurrences require shot_id and shot_revision_id"
  let shotRevisionId ← nonEmpty (field fields "shot_revision_id")
    "occurrences require shot_id and shot_revision_id"
  require (shots (shotId, shotRevisionId) = true)
    (.notFound "occurrence shot revision dependency is missing")
  let placement := placementOf fields
  require (placement.asObj.any fun fs => !fs.isEmpty) (.validation "occurrences require placement")
  let sourceOffset := fieldOr fields "source_offset" "source_offset_ms" (.int 0)
  checkSourceOffset num sourceOffset
  let durationMs ← orThrow (durationOf num (fieldOr fields "duration_ms" "duration" .null))
    (.validation "occurrence duration must be a finite positive integer")
  let speed := (fields.get "speed").getD (.int 1)
  checkSpeed num speed
  let track ← nonEmpty ((fields.get "track").getD ((placement.get? "track").getD .null))
    "occurrence track is required"
  let transform := (fields.get "transform").getD (.obj [])
  require (transform.asObj.isSome = true) (.validation "occurrence transform must be an object")
  let gain := (fields.get "gain").getD (.int 1)
  finiteNumber num gain "gain" false
  let muted ← match fieldOr fields "mute" "muted" (.bool false) with
    | .bool b => .ok b
    | _ => .error (.validation "occurrence mute must be boolean")
  let provenance := (fields.get "provenance").getD (.obj [])
  require (provenance.asObj.isSome = true) (.validation "occurrence provenance must be an object")
  let known : Fields :=
    [("occurrence_id", .str occurrenceId), ("shot_id", .str shotId),
     ("shot_revision_id", .str shotRevisionId), ("placement", placement),
     ("source_offset", sourceOffset), ("duration_ms", .int durationMs), ("speed", speed),
     ("track", .str track), ("transform", transform), ("gain", gain), ("muted", .bool muted),
     ("provenance", provenance)]
  let fields := ["duration", "source_offset_ms", "mute"].foldl Fields.erase
    (known.foldl (fun fs f => fs.set f.1 f.2) fields)
  return { fields, occurrenceId, shotId, shotRevisionId, placement, sourceOffset, durationMs, speed
           track, transform, gain, muted, provenance }

theorem revisionId_eq_ok {id : RevisionId} :
    revisionId v name = .ok id ↔ v = .str id ∧ id ≠ "" ∧ id.length ≤ 256 := by
  simp only [revisionId, bind_eq_ok, orThrow_eq_ok, asStr_eq_some, require_eq_ok, return_ok, exists_const]
  constructor
  · rintro ⟨_, rfl, hid, rfl⟩
    exact ⟨rfl, hid⟩
  · rintro ⟨rfl, hid⟩
    exact ⟨id, rfl, hid, rfl⟩

theorem nonEmpty_eq_ok {message text : String} :
    nonEmpty v message = .ok text ↔ v = .str text ∧ text ≠ "" := by
  simp only [nonEmpty, bind_eq_ok, orThrow_eq_ok, asStr_eq_some, require_eq_ok, return_ok, exists_const]
  constructor
  · rintro ⟨_, rfl, hne, rfl⟩
    exact ⟨rfl, hne⟩
  · rintro ⟨rfl, hne⟩
    exact ⟨text, rfl, hne, rfl⟩

/-- A normalised occurrence pins the shot revision that its fields name. -/
theorem normalizeOccurrence_ok {num : Numerals} {shots : ShotId × RevisionId → Bool}
    {occurrence : Json} {o : NormalOccurrence} (h : normalizeOccurrence num shots occurrence = .ok o) :
    ∃ fields : Fields, occurrence = .obj fields ∧ field fields "shot_id" = .str o.shotId ∧
      field fields "shot_revision_id" = .str o.shotRevisionId := by
  simp only [normalizeOccurrence, bind_eq_ok, orThrow_eq_ok, asObj_eq_some, nonEmpty_eq_ok] at h
  obtain ⟨fields, rfl, _, -, shot, ⟨hshot, -⟩, revision, ⟨hrevision, -⟩, _, -, _, -, _, -, _, -, _, -,
    _, -, _, -, _, -, h⟩ := h
  split at h
  · simp only [ok_bind, bind_eq_ok, return_ok] at h
    obtain ⟨_, -, rfl⟩ := h
    exact ⟨fields, rfl, hshot, hrevision⟩
  · cases h

/-! ## Media -/

mutual

/-- `_collect_digest_media`: the objects that a value names, a name for each time it is named. -/
def collectDigestMedia : Json → List String
  | .obj fields => collectFields fields
  | .arr items => collectItems items
  | _ => []

/-- `collectDigestMedia` on arrays. -/
def collectItems : List Json → List String
  | [] => []
  | v :: items => collectDigestMedia v ++ collectItems items

/-- `collectDigestMedia` on the fields of objects. -/
def collectFields : List (String × Json) → List String
  | [] => []
  | (k, v) :: fields =>
    (match v with
      | .str text =>
        if k ∈ ["media_id", "object_id"] ∧ isDigest (withoutScheme text) = true then
          ["sha256:" ++ withoutScheme text] else []
      | _ => []) ++ collectDigestMedia v ++ collectFields fields

end

end WorkspaceRuntime.Project
