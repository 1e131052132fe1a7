import WorkspaceRuntime.Deployment.Identity
import WorkspaceRuntime.Deployment.Projection
import WorkspaceRuntime.Properties.Placement
import WorkspaceRuntime.Properties.StoredRequest

/-!
# The deployment of a recovered placement

An owner who replaces a lost placement decides on the target of the next attempt, and the worker of that
attempt is deployed with the binding that is projected from the task. Both sides check the chain of
decisions: Runtime that a replacement is not the target that was lost, the projection that it is not the
target of the admission. From the second decision on these are different targets.
-/

namespace WorkspaceRuntime

open Fallible State Json

variable {sha : Sha256} {env : Env} {s s' s₀ : State} {t : TaskId} {row row' : Task}
  {run run' : Run} {sp sp' : TaskSpec} {q : Json} {k : String} {r : PlacementRecoveryRequest}
  {request binding : Option Json} {fields : Fields} {b : Deployment.DeploymentBinding}
  {d : PlacementDecision}

/-! ## The fields of a spec that the stamps leave alone -/

/-- The spec without the stamps of Runtime. -/
def TaskSpec.bare (sp : TaskSpec) : TaskSpec :=
  { sp with runtimeReuseToolchain := none, delegationClosedAttemptId := none
            derivedInputRegistry := none }

theorem TaskSpec.overlooks_bare : TaskSpec.Overlooks TaskSpec.bare := ⟨fun _ _ => rfl, fun _ _ => rfl⟩

theorem TaskSpec.overlooksRegistry_bare : TaskSpec.OverlooksRegistry TaskSpec.bare := fun _ _ => rfl

/-- The fields that Runtime stamps. -/
def stampKeys : List String :=
  ["_runtime_reuse_toolchain", "delegation_closed_attempt_id", "derived_input_registry"]

theorem TaskSpec.get_storedFields_bare (hk : k ∉ stampKeys) :
    sp.storedFields.get k = sp.bare.storedFields.get k := by
  simp only [stampKeys, List.mem_cons, List.not_mem_nil, or_false, not_or] at hk
  obtain ⟨htoolchain, hclosed, hregistry⟩ := hk
  simp only [TaskSpec.storedFields, Fields.get_put_of_ne _ _ hclosed,
    Fields.get_put_of_ne _ _ htoolchain]
  simp [TaskSpec.admittedFields, Fields.get_overlay, TaskSpec.bare, Ne.symm hregistry]

theorem TaskSpec.get_publicFields_bare (hk : k ∉ stampKeys) :
    sp.publicFields.get k = sp.bare.publicFields.get k := by
  unfold TaskSpec.publicFields Deployment.publicTaskSpec
  exact Fields.get_erase_congr (Fields.get_erase_congr (Fields.get_erase_congr
    (Fields.get_erase_congr (TaskSpec.get_storedFields_bare hk) _) _) _) _

/-! ## The resource -/

/-- The read of a targeted task. -/
theorem State.taskResource_ok {v : Json} (h : s.taskResource sha t = .ok v) :
    ∃ row run sp request binding, s.tasks.lookup t = some row ∧ s.runs.lookup row.runId = some run ∧
      s.loadSpec row.spec = .ok sp ∧ s.executionRequestFromRow row = .ok request ∧
      v = .obj (resourceFields sha t row run sp request binding) := by
  simp only [taskResource, bind_eq_ok, orThrow_eq_ok, return_ok] at h
  obtain ⟨row, hget, run, hrun, sp, hsp, request, hrequest, binding, -, rfl⟩ := h
  exact ⟨row, run, sp, request, _, getTask_ok hget, hrun, hsp, hrequest, rfl⟩

/-- The binding of a targeted task, as a read gives it. -/
def State.bindingView (s : State) (t : TaskId) (q : Json) (b : Binding) : BindingView where
  row := b
  originalTarget := q.get? "target"
  effectiveTarget := ((s.placementRecovery t).map (·.replacementTarget)).getD b.selected
  placementVersion := ((s.placementRecovery t).map (·.placementVersion)).getD 0

theorem Inv.taskResource_eq {b : Binding} (hi : Inv s) (hrow : s.tasks.lookup t = some row)
    (hrun : s.runs.lookup row.runId = some run) (hq : row.executionRequest = some q)
    (hsp : row.spec = some sp) (hb : s.bindings.lookup t = some b) (hread : ¬s.Outgrown t q) :
    s.taskResource sha t = .ok (.obj (resourceFields sha t row run sp (some q)
      (some ((s.bindingView t q b).json sha t (s.placementRecovery t))))) := by
  have hload : s.loadSpec row.spec = .ok sp := by
    simp [loadSpec, hsp, require_of _ (hi.spec t row sp hrow hsp)]
  have hrequest := (hi.executionRequestFromRow_iff hrow hq).mpr hread
  have hbinding : s.executionBinding t = .ok (some (s.bindingView t q b)) := by
    simp only [executionBinding, hb, storedRequest, hrow, hrequest, ok_bind, pure_eq_ok,
      bindingView, Option.bind_some]
  simp only [taskResource, (hi.getTask_iff hrow hq).mpr hread, hrun, orThrow_some, hload, hrequest,
    hbinding, ok_bind, pure_eq_ok, Option.map_some]

/-- The read before and the read after the stamps of a run agree in what the admission depends on. -/
theorem resourceFields_agree {binding' : Option Json} (hrow : row.SameAdmission TaskSpec.bare row')
    (hrun : run.Same run') (hsp : sp'.bare = sp.bare) :
    Deployment.Agree Deployment.admissionKeys (resourceFields sha t row run sp request binding)
      (resourceFields sha t row' run' sp' request binding') := by
  have hdigest : sp'.bare.capabilityDigest = sp.bare.capabilityDigest := by rw [hsp]
  have hinputs : sp'.bare.inputObjectIds = sp.bare.inputObjectIds := by rw [hsp]
  simp only [TaskSpec.bare] at hdigest hinputs
  intro k hk
  simp only [Deployment.admissionKeys, Deployment.identityKeys, Deployment.requestKeys,
    List.cons_append, List.nil_append, List.mem_cons, List.not_mem_nil, or_false] at hk
  rcases hk with rfl | rfl | rfl | rfl | rfl | rfl | rfl | rfl | rfl | rfl | rfl <;>
    simp [resourceFields, Task.definitionDigest, hrow.runId, hrow.capability, hrow.capabilityDigest,
      hdigest, hinputs, hrun.projectId, hrun.idempotencyKey]

theorem publicFields_agree (hsp : sp'.bare = sp.bare) :
    Deployment.Agree Deployment.specKeys sp.publicFields sp'.publicFields := by
  intro k hk
  have hstamp : k ∉ stampKeys := by
    revert k
    decide
  have hbefore : sp.publicFields.get k = sp.bare.publicFields.get k :=
    TaskSpec.get_publicFields_bare hstamp
  rw [TaskSpec.get_publicFields_bare hstamp, hbefore, hsp]

theorem taskIdentity_resource {identity : Deployment.TaskIdentity}
    (h : Deployment.taskIdentity (resourceFields sha t row run sp request binding) [] = .ok identity) :
    identity.taskId = .str t ∧ identity.runId = .str row.runId := by
  have htask : Deployment.conflictingValue (resourceFields sha t row run sp request binding)
      ["task_id", "id"] "task_id" = .ok (.str t) := by
    simp [Deployment.conflictingValue, resourceFields, require]
  have hrun : Deployment.conflictingValue (resourceFields sha t row run sp request binding)
      ["run_id"] "run_id" = .ok (.str row.runId) := by
    simp [Deployment.conflictingValue, resourceFields, require]
  simp only [Deployment.taskIdentity, htask, hrun, ok_bind, bind_eq_ok, return_ok] at h
  obtain ⟨_, -, _, -, _, -, _, -, _, -, _, -, rfl⟩ := h
  exact ⟨rfl, rfl⟩

/-- The target of an accepted read is that of the stored request. -/
theorem admittedRequest_resource {target : Json}
    (h : Deployment.admittedRequest (resourceFields sha t row run sp request binding)
      sp.publicFields = .ok (fields, target)) :
    ∃ q, request = some q ∧ q.get? "target" = some target ∧ Deployment.IsObject target := by
  have hget : sp.publicFields.get "execution_request" = none := by
    unfold TaskSpec.publicFields Deployment.publicTaskSpec
    rw [Fields.get_erase_of_ne _ (by decide), Fields.get_erase_of_ne _ (by decide),
      Fields.get_erase_of_ne _ (by decide), Fields.get_erase_self]
  have hspec : Deployment.present sp.publicFields "execution_request" = none := by
    simp [Deployment.present, hget]
  have htask : Deployment.present (resourceFields sha t row run sp request binding)
      "execution_request" = request.filter fun v => v ≠ .null := by
    simp [Deployment.present, resourceFields]
  have hrepeats : Deployment.present (resourceFields sha t row run sp request binding) "target" =
      none := by
    simp [Deployment.present, resourceFields]
  simp only [Deployment.admittedRequest, hspec, htask, hrepeats, bind_eq_ok, orThrow_eq_ok, return_ok, Prod.mk.injEq] at h
  obtain ⟨_, -, fields', hfields, original, htarget, rfl, rfl⟩ := h
  obtain ⟨htarget, hobject⟩ := Deployment.targetOf_ok htarget
  cases request with
  | none => simp at hfields
  | some q =>
    by_cases hnull : q = .null
    · subst hnull
      cases hfields
    · simp only [Option.filter_some, decide_eq_true_eq.mpr hnull, if_true, Option.orElse_some,
        Option.bind_some] at hfields
      obtain rfl := asObj_eq_some.mp hfields
      exact ⟨_, rfl, htarget, hobject⟩

/-- The read that an accepted binding projects. -/
structure State.Projects (sha : Sha256) (s : State) (t : TaskId) (b : Deployment.DeploymentBinding)
    (row : Task) (run : Run) (sp : TaskSpec) (q : Json) (binding : Option Json) : Prop where
  hasRow : s.tasks.lookup t = some row
  hasRun : s.runs.lookup row.runId = some run
  hasSpec : row.spec = some sp
  hasRequest : row.executionRequest = some q
  readable : ¬s.Outgrown t q
  target : q.get? "target" = some b.placement.originalTarget
  object : Deployment.IsObject b.placement.originalTarget
  accepted : Deployment.deploymentBindingFromTask sha
    (.obj (resourceFields sha t row run sp (some q) binding)) = .ok b

theorem resourceFields_flat (request binding : Option Json) (k : String)
    (hk : k ∈ ["task", "run", "admission_digest", "spec_digest", "request_digest"]) :
    (resourceFields sha t row run sp request binding).get k = none := by
  revert k
  simp [resourceFields]

theorem resourceFields_spec (request binding : Option Json) :
    (resourceFields sha t row run sp request binding).get "spec" = some (.obj sp.publicFields) := by
  simp [resourceFields]

theorem Inv.deploymentBinding_projects (hi : Inv s) (h : s.deploymentBinding sha t = .ok b) :
    ∃ row run sp q binding, s.Projects sha t b row run sp q binding := by
  simp only [deploymentBinding, bind_eq_ok] at h
  obtain ⟨v, hv, h⟩ := h
  obtain ⟨row, run, sp, request, binding, hrow, hrun, hload, hrequest, rfl⟩ := taskResource_ok hv
  obtain ⟨_, _, -, hadmitted, -⟩ := Deployment.deploymentBindingFromTask_replaced
    (fun k hk => ⟨resourceFields_flat request binding k (by grind),
      resourceFields_flat request binding k (by grind)⟩) (fun _ _ => rfl)
    (resourceFields_spec request binding) (resourceFields_spec request binding) (fun _ _ => rfl)
    (fun k hk => by rw [Deployment.present, resourceFields_flat request binding k (by grind)]; rfl) h
  obtain ⟨q, rfl, htarget, hobject⟩ := admittedRequest_resource hadmitted
  have hq : row.executionRequest = some q := by
    cases hnone : row.executionRequest with
    | none => simp [executionRequestFromRow, hload, hnone] at hrequest
    | some q' =>
      rw [hi.executionRequestFromRow_ok hrow hnone hrequest]
  obtain ⟨sp', hsp', -⟩ := ((hi.view t).row row hrow).request q hq
  obtain rfl : sp' = sp := by
    simp only [loadSpec, hsp', require_of _ (hi.spec t row sp' hrow hsp'), ok_bind, return_ok] at hload
    exact hload
  exact ⟨row, run, sp', q, binding,
    { hasRow := hrow
      hasRun := hrun
      hasSpec := hsp'
      hasRequest := hq
      readable := (hi.executionRequestFromRow_iff hrow hq).mp hrequest
      target := htarget
      object := hobject
      accepted := h }⟩

/-- A read with the same admission is accepted exactly when its placement is. -/
theorem resourceFields_replaced (hrow : row.SameAdmission TaskSpec.bare row') (hrun : run.Same run')
    (hsp : sp'.bare = sp.bare) (h : Deployment.deploymentBindingFromTask sha
      (.obj (resourceFields sha t row run sp request binding)) = .ok b) (binding' : Option Json) :
    ∃ identity : Deployment.TaskIdentity, identity.taskId = .str t ∧ identity.runId = .str row.runId ∧
      ∀ p, (∃ b', Deployment.deploymentBindingFromTask sha
          (.obj (resourceFields sha t row' run' sp' request binding')) = .ok b' ∧ b'.placement = p) ↔
        Deployment.placementOf sha (resourceFields sha t row' run' sp' request binding')
          (resourceFields sha t row' run' sp' request binding') identity
          b.placement.originalTarget = .ok p := by
  have hrepeats : ∀ k ∈ ["admission_digest", "spec_digest", "request_digest"],
      Deployment.present (resourceFields sha t row' run' sp' request binding') k = none := by
    intro k hk
    rw [Deployment.present, resourceFields_flat request binding' k (by grind)]
    rfl
  obtain ⟨identity, _, hidentity, -, hprojection⟩ := Deployment.deploymentBindingFromTask_replaced
    (fun k hk => ⟨resourceFields_flat request binding k (by grind),
      resourceFields_flat request binding' k (by grind)⟩)
    (resourceFields_agree hrow hrun hsp) (resourceFields_spec request binding)
    (resourceFields_spec request binding') (publicFields_agree hsp) hrepeats h
  obtain ⟨htask, hrunId⟩ := taskIdentity_resource hidentity
  exact ⟨identity, htask, hrunId, hprojection⟩

/-- What a run that neither retires the task nor admits it as a continuation keeps for its read. -/
theorem Leads.sameResource {row₀ : Task} {run₀ : Run} {sp₀ : TaskSpec} (hrun : Leads s₀ s)
    (hi : Inv s₀) (hrow₀ : s₀.tasks.lookup t = some row₀) (hq₀ : row₀.executionRequest = some q)
    (hrun₀ : s₀.runs.lookup row₀.runId = some run₀) (hsp₀ : row₀.spec = some sp₀)
    (hrow : s.tasks.lookup t = some row) (hq : row.executionRequest ≠ none)
    (hadmission : s.admissions.lookup t = s₀.admissions.lookup t) :
    row.executionRequest = some q ∧ row₀.SameAdmission TaskSpec.bare row ∧
      ∃ run sp, s.runs.lookup row.runId = some run ∧ row.spec = some sp ∧ run₀.Same run ∧
        sp.bare = sp₀.bare := by
  have hsame : row₀.SameAdmission TaskSpec.bare row :=
    Steps.sameAdmission hrun hi TaskSpec.overlooks_bare
      (fun _ _ _ _ _ => TaskSpec.overlooksRegistry_bare) hrow₀ (by simp [hq₀]) hrow hq hadmission
  obtain ⟨run, hrun', hruns⟩ := (Steps.grow hrun hi).runs row₀.runId run₀ hrun₀
  have hspec := hsame.spec
  rw [hsp₀, Option.map_some] at hspec
  obtain ⟨sp, hsp, hbare⟩ := Option.map_eq_some_iff.mp hspec
  exact ⟨hsame.request.trans hq₀, hsame, run, sp, hsame.runId ▸ hrun', hsp, hruns, hbare⟩

/-! ## The decision -/

theorem State.placementDecisionFor_replacement
    (h : s.placementDecisionFor env t row fields r = .ok d) :
    normalizeExecutionTarget (fields.get "replacement_target") = .ok d.replacementTarget := by
  simp only [placementDecisionFor, bind_eq_ok, return_ok, Prod.exists] at h
  obtain ⟨_, -, _, -, _, -, _, -, _, -, _, -, _, -, _, -, _, -, _, -, _, -, _, -, replacement,
    hreplacement, _, -, _, -, _, _, -, rfl⟩ := h
  exact hreplacement

/-- What an accepted recovery writes: its decision, and a binding prepared for the replacement. -/
structure State.Recovered (env : Env) (s s' : State) (t : TaskId) (row : Task)
    (d : PlacementDecision) : Prop where
  decides : (s.view t).Decides row d
  before : s.tasks.lookup t = some row
  row : s'.tasks.lookup t = some { row with updatedAt := env.now }
  binding : ∃ b, s'.bindings.lookup t = some b
  decisions : (s'.view t).decisions = (s.view t).decisions ++ [d]

theorem Inv.recoverTaskPlacement_recovered (hi : Inv s)
    (h : s.recoverTaskPlacement env t r = .ok (s', false)) :
    ∃ (fields : Fields) (row : Task) (d : PlacementDecision), r.body = .obj fields ∧
      normalizeExecutionTarget (fields.get "replacement_target") = .ok d.replacementTarget ∧
      s.Recovered env s' t row d := by
  simp only [State.recoverTaskPlacement, bind_eq_ok] at h
  obtain ⟨_, -, _, -, fields, hfields, _, -, _, -, row, hget, replay, -, h⟩ := h
  split at h
  next => simp at h
  next =>
    simp only [bind_eq_ok, return_ok, Prod.mk.injEq, and_true] at h
    obtain ⟨d, hdecision, children, hchildren, _, hquiescent, recovered, hrecovered, recorded, hrecord,
      rfl⟩ := h
    have hbody : r.body = .obj fields := by
      simp only [wireObject, bind_eq_ok, orThrow_eq_ok, return_ok] at hfields
      obtain ⟨_, hbody, _, -, _, -, rfl⟩ := hfields
      exact asObj_eq_some.mp hbody
    refine ⟨fields, row, d, hbody, State.placementDecisionFor_replacement hdecision, ?_⟩
    have hrow := State.getTask_ok hget
    have hview : (children.foldl (State.fenceChild t env.now) s).view t = s.view t :=
      (hi.fenceChildren_view hchildren hquiescent).2
    simp only [State.recoverPlacementRows, bind_eq_ok, require_eq_ok, return_ok] at hrecovered
    obtain ⟨_, ⟨b, hb, -⟩, _, -, hrecovered⟩ := hrecovered
    -- the receipt and the revocation of an activation are not part of the view
    have hrecorded : recorded.view t =
        ((((children.foldl (State.fenceChild t env.now) s).replaceBinding t d.replacementTarget
          env.now).touchTask t env.now).appendEvent row.runId (some t) (.placementRecovered d)
            env.now).view t := by
      rw [(State.commandRecord_records hrecord).view t, ← hrecovered]
      split
      · simp [State.view, State.appendEvent, State.placementDecision]
      · rfl
    have hb : (children.foldl (State.fenceChild t env.now) s).bindings.lookup t = some b := hb
    have hrow' : (children.foldl (State.fenceChild t env.now) s).tasks.lookup t = some row :=
      (congrArg View.row hview).trans hrow
    exact
      { decides := State.placementDecisionFor_ok hdecision
        before := hrow
        row := (congrArg View.row hrecorded).trans (by
          simp [State.view, State.touchTask, State.appendEvent, State.replaceBinding, hrow'])
        binding := ⟨_, (congrArg View.binding hrecorded).trans (by
          simp [State.view, State.touchTask, State.appendEvent, State.replaceBinding, hb]; rfl)⟩
        decisions := by
          rw [hrecorded, ← hview]
          simp [State.view, State.touchTask, State.appendEvent, State.replaceBinding,
            State.placementDecision] }

/-- The decision is the latest one, numbered by their count. -/
theorem State.Recovered.latest {original : Json} (h : s.Recovered env s' t row d)
    (hplaced : (s'.view t).Placed original) :
    s'.placementRecovery t = some d ∧ d.placementVersion = (s'.view t).decisions.length ∧
      0 < d.placementVersion ∧ d.originalTarget = original := by
  have hlast : (s'.view t).decisions.getLast? = some d := by
    rw [h.decisions, List.getLast?_concat]
  have hnumber : d.placementVersion = (s'.view t).decisions.length := by
    have hnumber := hplaced.log.relay.last_number
    rw [hlast] at hnumber
    exact hnumber
  refine ⟨hlast, hnumber, ?_, hplaced.log.original d ?_⟩
  · rw [hnumber, h.decisions]
    simp
  · rw [h.decisions]
    simp

/-! ## The projection after a decision -/

/-- After every decision that Runtime accepts in a run of a task whose admitted read can be deployed, the
read of the task can be deployed, with the version of the last decision, its target and the target of
the admission, exactly when the replacement is not the target of the admission. -/
theorem recovered_placement_deployable_iff {b₀ : Deployment.DeploymentBinding} {fields : Fields}
    {replacement original : Json} (hreach : Reachable s₀) (hread : s₀.deploymentBinding sha t = .ok b₀)
    (hrun : Leads s₀ s) (hrow : s.tasks.lookup t = some row) (hq : row.executionRequest = some q)
    (horiginal : q.get? "target" = some original)
    (hrecover : s.recoverTaskPlacement env t r = .ok (s', false)) (hbody : r.body = .obj fields)
    (hreplacement : normalizeExecutionTarget (fields.get "replacement_target") = .ok replacement)
    (hadmission : s'.admissions.lookup t = s₀.admissions.lookup t) :
    (∃ b, s'.deploymentBinding sha t = .ok b ∧
        b.placement.placementVersion = (s'.events.filterMap (placementDecision t)).length ∧
        b.placement.effectiveTarget = replacement ∧
        b.placement.originalTarget = b₀.placement.originalTarget) ↔
      replacement ≠ original := by
  have hi : Inv s := (hreach.leads hrun).inv
  obtain ⟨row₀, run₀, sp₀, q₀, binding₀, hread⟩ := hreach.inv.deploymentBinding_projects hread
  obtain ⟨fields', row', d, hbody', hreplacement', hrecovered⟩ :=
    hi.recoverTaskPlacement_recovered hrecover
  obtain rfl : fields = fields' := obj.inj (hbody.symm.trans hbody')
  obtain rfl : replacement = d.replacementTarget :=
    Except.ok.inj (hreplacement.symm.trans hreplacement')
  obtain rfl := Option.mem_unique hrecovered.before hrow
  obtain ⟨b, hb⟩ := hrecovered.binding
  have hrun' : Leads s₀ s' := by
    have hstep : (Command.recoverTaskPlacement t r).next env s = s' := by
      simp [Command.next, hrecover, committed]
    exact hstep ▸ hrun.trans (.single trivial)
  have hi' : Inv s' := (hreach.leads hrun').inv
  -- the admission, the run and the bare spec are those of the admitted read
  obtain ⟨hq', hsame, run', sp', hruns', hsp', hruns, hbare⟩ :=
    hrun'.sameResource hreach.inv hread.hasRow hread.hasRequest hread.hasRun hread.hasSpec
      hrecovered.row (by simp [hq]) hadmission
  obtain rfl := Option.mem_unique hq hq'
  obtain rfl : b₀.placement.originalTarget = original :=
    Option.mem_unique hread.target horiginal
  have hresource : s'.taskResource sha t = _ := hi'.taskResource_eq hrecovered.row hruns' hq hsp' hb
    (by rw [Outgrown, hadmission]; exact hread.readable)
  obtain ⟨identity, htask, hrunId, hprojection⟩ :=
    resourceFields_replaced hsame hruns hbare hread.accepted
      (some ((s'.bindingView t q b).json sha t (s'.placementRecovery t)))
  obtain ⟨original, htarget, hplaced⟩ := hreach.placed hread.hasRow hread.hasRequest hrun'
  obtain rfl : b₀.placement.originalTarget = original :=
    Option.mem_unique horiginal htarget
  obtain ⟨hlast, hnumber, hpositive, hfirst⟩ := hrecovered.latest hplaced
  have hobject : Deployment.IsObject d.replacementTarget := by
    obtain ⟨fields, kind, hfields, hkind⟩ := normalizeExecutionTarget_kind hreplacement
    exact ⟨fields, hfields, fun hempty => by simp [hempty] at hkind⟩
  have hnamed : str row₀.runId = .str d.runId := by
    rw [hrecovered.decides.run]
    exact congrArg str hsame.runId.symm
  have hbinding : (resourceFields sha t { row' with updatedAt := env.now } run' sp' (some q)
      (some ((s'.bindingView t q b).json sha t (s'.placementRecovery t)))).get "execution_binding" =
        some ((s'.bindingView t q b).json sha t (some d)) := by
    simp [resourceFields, hlast]
  have hplacement := fun p => (hprojection p).trans
    (Deployment.placementOf_recovered hbinding htask (hrunId.trans hnamed) hfirst hpositive
      hread.object hobject horiginal (by simp [bindingView, hlast])
      (by simp [bindingView, hlast]))
  simp only [deploymentBinding, hresource, ok_bind]
  constructor
  · rintro ⟨b', hb', -⟩
    exact ((hplacement b'.placement).mp ⟨b', hb', rfl⟩).1
  · intro hne
    obtain ⟨b', hb', hp⟩ := (hplacement {
        originalTarget := b₀.placement.originalTarget, effectiveTarget := d.replacementTarget
        placementVersion := d.placementVersion, recoveryDecisionDigest := some (d.digest sha t)
        versioned := by simp [hpositive.ne'] }).mpr ⟨hne, rfl, rfl, rfl, rfl⟩
    refine ⟨b', hb', ?_⟩
    rw [hp]
    exact ⟨hnumber, rfl, rfl⟩

/-! ## A task that goes back to its first pod -/

/-- A hash that tells nothing apart. -/
def constantSha : Sha256 where
  json _ := podEvidence
  text _ := podEvidence
  json_isDigest _ := by decide

/-- A task is admitted for pod `p`, and its first attempt fails there. -/
def deployedRun : List (Env × Command) :=
  [(.tick 0 "0", .beginRuntimeSession "boot" none),
    (.tick 1 "1", .registers "e"
      [("capability_id", .str "c"), ("definition_digest", .str podEvidence)] []),
    (.tick 2 "2", .submitTask
      { capability := "c", spec := {}, executionRequest := some (.obj [("target", podTarget "p")]) }),
    (.tick 3 "3", .claims (podAccess "p") "e" 1 (some (podTarget "p"))),
    (.tick 4 "4", .failAttempt { attemptId := "attempt-3", access := podAccess "p"
                                 body := .obj (Command.leaseFields "lease-3" 1 1)
                                 key := some "fail" })]

/-- The owner moves it to pod `q`, where it fails as well. -/
def deployedAgainRun : List (Env × Command) :=
  [(.tick 5 "5", .recoverTaskPlacement "task-2" (movesPod 2 0 "p" "q")),
    (.tick 6 "6", .retryTask {} "task-2" (.obj []) (some "retry")),
    (.tick 7 "7", .claims (podAccess "q") "e" 1 (some (podTarget "q"))),
    (.tick 8 "8", .failAttempt { attemptId := "attempt-7", access := podAccess "q"
                                 body := .obj (Command.leaseFields "lease-7" 2 1)
                                 key := some "fail" })]

/-- The first move can be deployed. -/
theorem recovered_placement_deployable_moved :
    ∃ s' b, (initial.replay deployedRun).recoverTaskPlacement (.tick 5 "5") "task-2"
        (movesPod 2 0 "p" "q") = .ok (s', false) ∧
      s'.deploymentBinding constantSha "task-2" = .ok b ∧
      b.placement.effectiveTarget = podTarget "q" := by
  obtain ⟨b₀, hread, -⟩ : ∃ b₀, (initial.replay deployedRun).deploymentBinding constantSha
      "task-2" = .ok b₀ ∧ () = () := map_eq_ok.mp (by decide +kernel)
  obtain ⟨row, hrow, hq⟩ : ∃ row, (initial.replay deployedRun).tasks.lookup "task-2" = some row ∧
      row.executionRequest = some (.obj [("target", podTarget "p")]) := by decide +kernel
  obtain ⟨⟨s', replayed⟩, hrecover, hresult⟩ : ∃ x, (initial.replay deployedRun).recoverTaskPlacement
      (.tick 5 "5") "task-2" (movesPod 2 0 "p" "q") = .ok x ∧
        (x.2, x.1.admissions.lookup "task-2") = (false, none) := map_eq_ok.mp (by decide +kernel)
  obtain ⟨rfl, hadmission⟩ := Prod.mk.inj hresult
  have hreplacement : normalizeExecutionTarget (some (podTarget "q")) = .ok (podTarget "q") := by
    decide
  obtain ⟨b, hb, -, heffective, -⟩ := (recovered_placement_deployable_iff (Reachable.replay _) hread
    (.refl _) hrow hq rfl hrecover rfl hreplacement (hadmission.trans (by decide +kernel))).mpr
      (by decide)
  exact ⟨s', b, hrecover, hb, heffective⟩

/-- The owner then moves it back to pod `p`, which is another pod than the lost one. Runtime accepts the
decision, but the task can no longer be deployed. -/
theorem returned_placement_not_deployable :
    ∃ s₀ s s' b₀, Reachable s₀ ∧ s₀.deploymentBinding constantSha "task-2" = .ok b₀ ∧ Leads s₀ s ∧
      s.recoverTaskPlacement (.tick 9 "9") "task-2" (movesPod 3 1 "q" "p") = .ok (s', false) ∧
      s'.deploymentBinding constantSha "task-2" = .error (.deploymentReference
        "placement recovery does not authorize a replacement target") := by
  obtain ⟨b₀, hread, -⟩ : ∃ b₀, (initial.replay deployedRun).deploymentBinding constantSha
      "task-2" = .ok b₀ ∧ () = () := map_eq_ok.mp (by decide +kernel)
  obtain ⟨⟨s', replayed⟩, hrecover, hresult⟩ : ∃ x,
      ((initial.replay deployedRun).replay deployedAgainRun).recoverTaskPlacement
        (.tick 9 "9") "task-2" (movesPod 3 1 "q" "p") = .ok x ∧
          (x.2, x.1.deploymentBinding constantSha "task-2") = (false, .error (.deploymentReference
            "placement recovery does not authorize a replacement target")) :=
    map_eq_ok.mp (by decide +kernel)
  obtain ⟨rfl, hrefused⟩ := Prod.mk.inj hresult
  exact ⟨_, _, s', b₀, Reachable.replay deployedRun, hread, Leads.replay _ deployedAgainRun, hrecover,
    hrefused⟩

end WorkspaceRuntime
