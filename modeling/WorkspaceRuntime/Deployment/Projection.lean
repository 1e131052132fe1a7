import WorkspaceRuntime.Deployment.Read

/-!
# What the projection of a task depends on

The deployment binding is built from some fields of the task and of its spec. The lemmas of this module
say on which: a read that agrees with an accepted one in them is accepted as far as the admission goes,
and the placement is then decided by the binding projection alone. The digests that the projection
checks are the ones it computes.
-/

namespace WorkspaceRuntime

open Fallible Json

namespace Deployment

/-- The objects agree in these fields. -/
def Agree (keys : List String) (fs fs' : Fields) : Prop := ∀ k ∈ keys, fs'.get k = fs.get k

variable {sha : Sha256} {task task' spec spec' request fields : Fields}
  {supplied keys : List String} {value : String} {p : PlacementIdentity} {identity : TaskIdentity}

/-! ## Fields -/

theorem Agree.present (h : Agree keys task task') {k : String} (hk : k ∈ keys) :
    present task' k = present task k := by
  rw [Deployment.present, Deployment.present, h k hk]

theorem Agree.conflictingValue {names : List String} {field : String} (h : Agree keys task task')
    (hnames : ∀ k ∈ names, k ∈ keys) :
    conflictingValue task' names field = conflictingValue task names field := by
  have heq : names.filterMap task'.get = names.filterMap task.get :=
    List.filterMap_congr fun k hk => h k (hnames k hk)
  rw [Deployment.conflictingValue, Deployment.conflictingValue, heq]

/-- The fields that name a task. -/
def identityKeys : List String :=
  ["task_id", "id", "run_id", "project_id", "idempotency_key", "capability_id", "capability",
    "capability_digest"]

theorem taskIdentity_congr {run : Fields} (h : Agree identityKeys task task') :
    taskIdentity task' run = taskIdentity task run := by
  unfold taskIdentity
  rw [h.conflictingValue (by decide), h.conflictingValue (by decide), h.conflictingValue (by decide),
    h.present (by decide), h.present (by decide), h.present (by decide), h _ (by decide)]

/-- The fields of a task that repeat its request. -/
def requestKeys : List String := ["execution_request", "target"]

theorem admittedRequest_congr (h : Agree requestKeys task task')
    (hspec : Agree ["execution_request"] spec spec') :
    admittedRequest task' spec' = admittedRequest task spec := by
  unfold admittedRequest
  rw [h.present (by decide), hspec.present (by decide), h.present (by decide)]

theorem suppliedIds_congr (h : Agree ["input_object_ids"] task task')
    (hspec : Agree ["input_object_ids"] spec spec') :
    suppliedIds task' spec' = suppliedIds task spec := by
  unfold suppliedIds
  rw [h _ (by decide), hspec.present (by decide)]

/-- The fields of a spec that describe its inputs. -/
def inputKeys : List String := ["inputs", "input_digests", "spec"]

theorem specInputBindings_congr (h : Agree inputKeys spec spec') :
    specInputBindings spec' supplied = specInputBindings spec supplied := by
  have hsection : specSection "spec" spec' = specSection "spec" spec := by
    unfold specSection
    rw [h.present (by decide), h.present (by decide)]
  unfold specInputBindings specSections
  rw [h _ (by decide), List.mapM_cons, List.mapM_cons, hsection]

theorem inputBindings_congr (h : Agree inputKeys spec spec') :
    inputBindings spec' request supplied = inputBindings spec request supplied := by
  unfold inputBindings
  rw [specInputBindings_congr h]

/-! ## Digests -/

/-- The characters of a labelled digest. -/
theorem isDigest_chars (h : isDigest value = true) :
    ∃ digits : List Char, value.toList = "sha256:".toList ++ digits ∧ digits.length = 64 ∧
      ∀ c ∈ digits, isHexDigit c = true := by
  simp only [isDigest, Bool.and_eq_true, decide_eq_true_eq] at h
  obtain ⟨hlabel, hdigits⟩ := h
  refine ⟨value.toList.drop 7, ?_, ?_⟩
  · rw [← hlabel, List.take_append_drop]
  · simp only [objectDigest, hlabel, if_true] at hdigits
    split at hdigits
    next hvalid => simpa [List.all_eq_true] using hvalid
    next => simp at hdigits

theorem isHexDigit_plain {c : Char} (h : isHexDigit c = true) :
    isSpace c = false ∧ c.toLower = c ∧ c.toNat ≠ 0 ∧ c.toNat ≠ 10 ∧ c.toNat ≠ 13 := by
  simp only [isHexDigit, Bool.or_eq_true, Bool.and_eq_true, decide_eq_true_eq, Char.le_def,
    UInt32.le_iff_toNat_le] at h
  have hn : (48 ≤ c.toNat ∧ c.toNat ≤ 57) ∨ (97 ≤ c.toNat ∧ c.toNat ≤ 102) := h
  refine ⟨?_, ?_, by omega, by omega, by omega⟩
  · simp only [isSpace, Bool.or_eq_false_iff, Bool.and_eq_false_iff, decide_eq_false_iff_not,
      List.mem_cons, List.not_mem_nil, or_false]
    omega
  · unfold Char.toLower
    rw [dif_neg]
    rintro ⟨hlow, hhigh⟩
    simp only [ge_iff_le, UInt32.le_iff_toNat_le] at hlow hhigh
    have hlow : 65 ≤ c.toNat := hlow
    have hhigh : c.toNat ≤ 90 := hhigh
    omega

theorem isDigest_plain (h : isDigest value = true) : value.toList ≠ [] ∧
    ∀ c ∈ value.toList, isSpace c = false ∧ c.toLower = c ∧ c.toNat ≠ 0 ∧ c.toNat ≠ 10 ∧
      c.toNat ≠ 13 := by
  obtain ⟨digits, hvalue, -, hdigits⟩ := isDigest_chars h
  refine ⟨by simp [hvalue], fun c hc => ?_⟩
  rw [hvalue, List.mem_append] at hc
  rcases hc with hc | hc
  · have hlabel : "sha256:".toList.all (fun c => isSpace c = false ∧ c.toLower = c ∧
        c.toNat ≠ 0 ∧ c.toNat ≠ 10 ∧ c.toNat ≠ 13) = true := by decide
    exact of_decide_eq_true (List.all_eq_true.mp hlabel c hc)
  · exact isHexDigit_plain (hdigits c hc)

/-- A text without white space is not stripped. -/
theorem strip_plain (h : ∀ c ∈ value.toList, isSpace c = false) :
    strip value = value := by
  have hdrop : ∀ cs : List Char, (∀ c ∈ cs, isSpace c = false) → cs.dropWhile isSpace = cs := by
    intro cs hcs
    cases cs with
    | nil => rfl
    | cons c cs => exact List.dropWhile_cons_of_neg (by simp [hcs c List.mem_cons_self])
  rw [strip, hdrop _ h, hdrop _ fun c hc => h c (List.mem_reverse.mp hc), List.reverse_reverse,
    String.ofList_toList]

/-- A digest is taken as it is. -/
theorem digestOf_digest (h : isDigest value = true) (field : String) :
    digestOf (some (.str value)) field = .ok value := by
  obtain ⟨hne, hplain⟩ := isDigest_plain h
  have hstrip : strip value = value := strip_plain fun c hc => (hplain c hc).1
  have hvalue : value ≠ "" := fun hempty => hne (by simp [hempty])
  have hcontrol : value.toList.all (fun c => c.toNat ≠ 0 && c.toNat ≠ 10 && c.toNat ≠ 13) = true := by
    rw [List.all_eq_true]
    intro c hc
    simpa [and_assoc] using (hplain c hc).2.2
  have htext : textOf (some (.str value)) field = .ok value := by
    simp only [textOf, Option.bind_some, asStr, orThrow_some, ok_bind, hstrip,
      require_of _ hvalue, require_of _ hcontrol, pure_eq_ok]
  have hlower : String.ofList (value.toList.map Char.toLower) = value := by
    rw [List.map_congr_left fun c hc => (hplain c hc).2.1, List.map_id', String.ofList_toList]
  simp only [digestOf, htext, ok_bind, hlower, require_of _ h, pure_eq_ok]

/-! ## The placement of a recovered task -/

/-- The value is a non-empty object. -/
def IsObject (v : Json) : Prop := ∃ fields : Fields, v = .obj fields ∧ fields ≠ []

theorem IsObject.targetOf {v : Json} (h : IsObject v) (field : String) :
    targetOf (some v) field = .ok v := by
  obtain ⟨fields, rfl, hne⟩ := h
  simp only [Deployment.targetOf, Option.bind_some, asObj, orThrow_some, ok_bind,
    require_of _ hne, pure_eq_ok]

theorem targetOf_ok {value : Option Json} {field : String} {v : Json}
    (h : targetOf value field = .ok v) : value = some v ∧ IsObject v := by
  simp only [targetOf, bind_eq_ok, orThrow_eq_ok, require_eq_ok, return_ok] at h
  obtain ⟨fields, hfields, _, hne, rfl⟩ := h
  obtain ⟨w, rfl, hw⟩ := Option.bind_eq_some_iff.mp hfields
  obtain rfl := asObj_eq_some.mp hw
  exact ⟨rfl, fields, rfl, hne⟩

section Recovered

variable {t : TaskId} {d : PlacementDecision} {identity : TaskIdentity} {original : Json}

theorem get_payload {k : String} (h : k ≠ "decision_digest") :
    (d.payload sha t).get k = (d.material t).get k :=
  Fields.get_set_of_ne _ _ h

/-- The digest that a decision carries is the one that is computed of it. -/
theorem recoveryDigest_payload : recoveryDigest sha (d.payload sha t) = .ok (d.digest sha t) := by
  have hget : (d.payload sha t).get "decision_digest" = some (.str (d.digest sha t)) :=
    Fields.get_set_self ..
  have hrest : (d.payload sha t).erase "decision_digest" = d.material t := by
    rw [PlacementDecision.payload, Fields.erase_set_self]
    simp [PlacementDecision.material, Fields.erase]
  have hdigest : sha.json (.obj (d.material t)) = d.digest sha t := rfl
  have hown : isDigest (d.digest sha t) = true := sha.json_isDigest _
  have hpresent : present (d.payload sha t) "decision_digest" = some (.str (d.digest sha t)) := by
    simp [present, hget]
  simp only [recoveryDigest, hpresent, orThrow_some, ok_bind, hrest, hdigest,
    digestOf_digest hown, require_of _ True.intro, pure_eq_ok]

/-- A decision of the task is taken exactly when its target is not the one of the admission. -/
theorem recoveredPlacement_payload (htask : identity.taskId = .str t)
    (hrun : identity.runId = .str d.runId) (horiginal : d.originalTarget = original)
    (hversion : 0 < d.placementVersion) (hobject : IsObject original)
    (hreplacement : IsObject d.replacementTarget) :
    recoveredPlacement sha identity original (d.payload sha t) =
      (require (d.replacementTarget ≠ original)
        (refuse "placement recovery does not authorize a replacement target")).map fun _ =>
          (d.replacementTarget, d.placementVersion, some (d.digest sha t)) := by
  have hnames : (d.payload sha t).get "task_id" = some identity.taskId ∧
      (d.payload sha t).get "run_id" = some identity.runId := by
    rw [get_payload (by decide), get_payload (by decide), htask, hrun]
    exact ⟨rfl, rfl⟩
  have hstated : (d.payload sha t).get "original_target" = some original := by
    rw [get_payload (by decide), ← horiginal]
    rfl
  have htarget : (d.payload sha t).get "replacement_target" = some d.replacementTarget := by
    rw [get_payload (by decide)]
    rfl
  have hnumber : recoveryVersion ((d.payload sha t).get "placement_version") =
      .ok d.placementVersion := by
    rw [get_payload (by decide)]
    have hpositive : 0 < (d.placementVersion : Int) := by exact_mod_cast hversion
    show recoveryVersion (some (.int d.placementVersion)) = _
    simp only [recoveryVersion, require_of _ hpositive, ok_bind, pure_eq_ok, Int.toNat_natCast]
  simp only [recoveredPlacement, require_of _ hnames, hstated, htarget, hobject.targetOf,
    hreplacement.targetOf, ok_bind, require_of _ True.intro, hnumber, recoveryDigest_payload]
  by_cases hne : d.replacementTarget = original
  · rw [require_of_not _ (not_not.mpr hne)]
    rfl
  · rw [require_of _ hne]
    rfl

/-- The fields of the binding that a recovered read carries. -/
theorem projectedRecovery_recovered {top binding : Fields}
    (h : binding.get "placement_recovery" = some (.obj (d.payload sha t))) :
    projectedRecovery top binding = .ok (some (d.payload sha t)) := by
  have hne : d.payload sha t ≠ [] := by
    intro hempty
    have hget : (d.payload sha t).get "task_id" = (d.material t).get "task_id" :=
      get_payload (by decide)
    rw [hempty] at hget
    cases hget
  have htruthy : (obj (d.payload sha t)).truthy = true := by
    simp [truthy, hne]
  simp only [projectedRecovery, h, Option.filter_some, htruthy, if_true, Option.orElse_some,
    asObj, orThrow_some, ok_bind, hne, if_false, pure_eq_ok]

/-- The placement of a task whose binding carries the decision. -/
theorem placementOf_recovered {view : BindingView}
    (hbinding : fields.get "execution_binding" = some (view.json sha t (some d)))
    (htask : identity.taskId = .str t) (hrun : identity.runId = .str d.runId)
    (horiginal : d.originalTarget = original) (hversion : 0 < d.placementVersion)
    (hobject : IsObject original) (hreplacement : IsObject d.replacementTarget)
    (hstated : view.originalTarget = some original)
    (heffective : view.effectiveTarget = d.replacementTarget)
    (hnumber : view.placementVersion = d.placementVersion) :
    placementOf sha fields fields identity original = .ok p ↔
      d.replacementTarget ≠ original ∧ p.originalTarget = original ∧
        p.effectiveTarget = d.replacementTarget ∧ p.placementVersion = d.placementVersion ∧
        p.recoveryDecisionDigest = some (d.digest sha t) := by
  obtain ⟨binding, hjson, hrecovery, hfirst, htarget, hplaced, hdigest⟩ :
      ∃ binding : Fields, view.json sha t (some d) = .obj binding ∧
        binding.get "placement_recovery" = some (.obj (d.payload sha t)) ∧
        binding.get "original_target" = some original ∧
        binding.get "effective_target" = some d.replacementTarget ∧
        binding.get "placement_version" = some (.int d.placementVersion) ∧
        binding.get "recovery_decision_digest" = some (.str (d.digest sha t)) :=
    ⟨_, rfl, by simp, by simp [hstated], by simp [heffective], by simp [hnumber], by simp [nullable]⟩
  have hnull : d.replacementTarget ≠ .null := by
    obtain ⟨_, h, -⟩ := hreplacement
    simp [h]
  have hrepeated : checkProjectedTarget binding d.replacementTarget = .ok () := by
    have hselected : (projectedTarget binding).filter (fun v => v ≠ .null) =
        some d.replacementTarget := by
      simp [projectedTarget, htarget, hnull]
    unfold checkProjectedTarget
    simp only [hselected, hreplacement.targetOf, ok_bind, require_of _ True.intro]
  have hagain : checkProjectedVersion binding d.placementVersion = .ok () := by
    have hpresent : present binding "placement_version" = some (.int d.placementVersion) := by
      simp [present, hplaced]
    unfold checkProjectedVersion
    simp only [hpresent, require_of _ True.intro]
  have hseal : ∀ v ∈ present binding "recovery_decision_digest",
      some v = (some (d.digest sha t)).map str := by
    simp [present, hdigest]
  have hversioned : d.placementVersion = 0 ↔ some (d.digest sha t) = none := by
    simp [Nat.pos_iff_ne_zero.mp hversion]
  unfold placementOf
  rw [hbinding, hjson]
  simp only [Option.bind_some, asObj, Option.orElse_some, orThrow_some, ok_bind,
    projectedRecovery_recovered hrecovery, selectedPlacement,
    recoveredPlacement_payload htask hrun horiginal hversion hobject hreplacement, hfirst,
    Option.getD_some, hobject.targetOf]
  by_cases hne : d.replacementTarget = original
  · rw [require_of_not _ (not_not.mpr hne)]
    exact iff_of_false (fun h => by cases h) fun h => h.1 hne
  · have hplacement : ∀ q : PlacementIdentity, q.originalTarget = original →
        q.effectiveTarget = d.replacementTarget → q.placementVersion = d.placementVersion →
        q.recoveryDecisionDigest = some (d.digest sha t) →
        q = { originalTarget := original, effectiveTarget := d.replacementTarget
              placementVersion := d.placementVersion
              recoveryDecisionDigest := some (d.digest sha t), versioned := hversioned } := by
      rintro ⟨⟩ rfl rfl rfl rfl
      rfl
    simp only [require_of _ hne, Except.map, ok_bind, require_of _ True.intro, hrepeated, hagain,
      require_of _ hseal]
    rw [dif_pos hversioned]
    constructor
    · intro h
      cases h
      exact ⟨hne, rfl, rfl, rfl, rfl⟩
    · rintro ⟨-, h₁, h₂, h₃, h₄⟩
      rw [hplacement p h₁ h₂ h₃ h₄]
      rfl

end Recovered

/-! ## The binding of another read -/

/-- The placement of an accepted read is one of the target that was asked for. -/
theorem placementOf_original {top : Fields} {original : Json}
    (h : placementOf sha top task identity original = .ok p) :
    p.originalTarget = original := by
  simp only [placementOf, bind_eq_ok] at h
  obtain ⟨_, -, _, -, ⟨effective, version, digest⟩, -, _, -, _, -, _, -, _, -, _, -, h⟩ := h
  split at h
  · cases h
    rfl
  · cases h

/-- The admission of a read that repeats no digest depends on the identity alone. -/
theorem admissionIdentity_succeeds {request' : Fields} {a : AdmissionIdentity}
    (hrepeats : ∀ k ∈ ["admission_digest", "spec_digest", "request_digest"], present task' k = none)
    (h : admissionIdentity sha task identity spec request = .ok a) :
    ∃ a', admissionIdentity sha task' identity spec' request' = .ok a' := by
  have hskip : ∀ k ∈ ["admission_digest", "spec_digest", "request_digest"], ∀ computed,
      checkSuppliedDigest task' k computed = .ok () := by
    intro k hk computed
    unfold checkSuppliedDigest
    simp only [hrepeats k hk]
  simp only [admissionIdentity, bind_eq_ok] at h
  obtain ⟨_, -, _, -, _, -, taskId, htask, runId, hrun, _, hkey, projectId, hproject, -⟩ := h
  simp only [admissionIdentity, hskip _ (by decide : "admission_digest" ∈ _),
    hskip _ (by decide : "spec_digest" ∈ _), hskip _ (by decide : "request_digest" ∈ _), ok_bind, htask,
    hrun, hkey, hproject]
  exact ⟨_, rfl⟩

/-- The fields of a read that its admission depends on. -/
def admissionKeys : List String := identityKeys ++ requestKeys ++ ["input_object_ids"]

/-- The fields of a spec that the projection reads apart from its digest. -/
def specKeys : List String :=
  inputKeys ++ ["execution_request", "input_object_ids", "capability_digest"]

theorem Agree.mono {keys' : List String} {fs fs' : Fields} (h : Agree keys fs fs')
    (hsub : ∀ k ∈ keys', k ∈ keys) : Agree keys' fs fs' := fun k hk => h k (hsub k hk)

/-- A read that agrees with an accepted one in what the admission depends on is accepted exactly when its
placement is. -/
theorem deploymentBindingFromTask_replaced {fields' : Fields} {b : DeploymentBinding}
    (hflat : ∀ k ∈ ["task", "run"], fields.get k = none ∧ fields'.get k = none)
    (hagree : Agree admissionKeys fields fields') (hspec : fields.get "spec" = some (.obj spec))
    (hspec' : fields'.get "spec" = some (.obj spec')) (hspecs : Agree specKeys spec spec')
    (hrepeats : ∀ k ∈ ["admission_digest", "spec_digest", "request_digest"], present fields' k = none)
    (h : deploymentBindingFromTask sha (.obj fields) = .ok b) :
    ∃ identity request, taskIdentity fields [] = .ok identity ∧
      admittedRequest fields spec = .ok (request, b.placement.originalTarget) ∧
      ∀ p, (∃ b', deploymentBindingFromTask sha (.obj fields') = .ok b' ∧ b'.placement = p) ↔
        placementOf sha fields' fields' identity b.placement.originalTarget = .ok p := by
  have htask := hflat "task" (by decide)
  have hrun := hflat "run" (by decide)
  simp only [deploymentBindingFromTask, asObj, orThrow_some, ok_bind, htask.1, hrun.1,
    Option.bind_none, Option.getD_none, bind_eq_ok] at h
  obtain ⟨identity, hidentity, spec₀, hadmitted, ⟨request, original⟩, hrequest, supplied, hsupplied,
    inputs, hinputs, placement, hplacement, admission, hadmission, capability, hcapability, hseal⟩ := h
  obtain ⟨rfl, hadmitted'⟩ : spec₀ = spec ∧
      admittedSpec fields' identity.capabilityDigest = .ok spec' := by
    simp only [admittedSpec, hspec, Option.bind_some, asObj, orThrow_some, ok_bind, bind_eq_ok,
      require_eq_ok, return_ok] at hadmitted
    obtain ⟨_, hsame, rfl⟩ := hadmitted
    rw [← hspecs.present (by decide)] at hsame
    simp only [admittedSpec, hspec', Option.bind_some, asObj, orThrow_some, ok_bind,
      require_of _ hsame, pure_eq_ok, and_self]
  obtain ⟨admission', hadmission'⟩ :
      ∃ a, admissionIdentity sha fields' identity spec' request = .ok a :=
    admissionIdentity_succeeds hrepeats hadmission
  obtain ⟨hunique, rfl⟩ : ((inputs.map InputBinding.name).Nodup ∧
      (inputs.map InputBinding.objectId).Nodup) ∧ b.placement = placement := by
    unfold sealBinding at hseal
    split at hseal
    · cases hseal
      exact ⟨‹_›, rfl⟩
    · cases hseal
  obtain rfl := placementOf_original hplacement
  refine ⟨identity, request, hidentity, hrequest, fun p => ?_⟩
  have hread : deploymentBindingFromTask sha (.obj fields') =
      (do let p ← placementOf sha fields' fields' identity b.placement.originalTarget
          sealBinding admission' capability inputs p) := by
    simp only [deploymentBindingFromTask, asObj, orThrow_some, ok_bind, htask.2, hrun.2,
      Option.bind_none, Option.getD_none, taskIdentity_congr (hagree.mono (by decide)), hidentity,
      hadmitted', admittedRequest_congr (hagree.mono (by decide)) (hspecs.mono (by decide)), hrequest,
      suppliedIds_congr (hagree.mono (by decide)) (hspecs.mono (by decide)), hsupplied,
      inputBindings_congr (hspecs.mono (by decide)), hinputs, hadmission', hcapability]
  simp only [hread, bind_eq_ok, sealBinding, dif_pos hunique, Except.ok.injEq]
  constructor
  · rintro ⟨_, ⟨p', hp', rfl⟩, rfl⟩
    exact hp'
  · intro hp
    exact ⟨_, ⟨p, hp, rfl⟩, rfl⟩

end Deployment

end WorkspaceRuntime
