import WorkspaceRuntime.Deployment.Reference
import WorkspaceRuntime.Store.Binding

/-!
# The read that a deployment binding projects

`deployment_binding_from_task` is applied to the task resource of the service. The resource is modelled
with the fields that the projection and the activation checks read; the stored spec is the object of
all its fields, of which the runtime's own stamps are the last ones written.
-/

namespace WorkspaceRuntime

open Fallible Json

/-! ## The stored objects -/

/-- The lineage of a child, as its spec stores it. -/
def Lineage.json (l : Lineage) : Json :=
  .obj (Fields.compact [
    ("executor_id", some (.str l.executorId)), ("parent_attempt_id", some (.str l.parentAttemptId)),
    ("parent_fence", some (.int l.parentFence)), ("parent_lease_id", some (.str l.parentLeaseId)),
    ("parent_task_id", some (.str l.parentTaskId)), ("policy", l.policy),
    ("project_id", some (Deployment.nullable l.projectId)),
    ("runtime_epoch", some (.int l.runtimeEpoch))])

/-- The storage estimate of a spec. -/
def StorageEstimate.json (e : StorageEstimate) : Json :=
  .obj [("output_bytes", .int e.outputBytes), ("scratch_bytes", .int e.scratchBytes)]

/-- The fields of a spec that no stamp touches. -/
def TaskSpec.admittedFields (sp : TaskSpec) : Fields :=
  Fields.overlay sp.rest (Fields.compact [
    ("__runtime_generation_intent", sp.generationIntent),
    ("capability_digest", sp.capabilityDigest.map str),
    ("child_delegation", sp.childDelegation),
    ("delegated_parent", sp.delegatedParent.map Lineage.json),
    ("derived_input_registry", sp.derivedInputRegistry),
    ("input_object_ids", some (.arr (sp.inputObjectIds.map str))),
    ("required_facts", sp.requiredFacts),
    ("schema_version", sp.schemaVersion),
    ("spec", sp.spec),
    ("storage_estimate", sp.storageEstimate.map StorageEstimate.json)])

/-- The stored spec: the admitted fields, the toolchain of a claim and the stamp of a closed
delegation. -/
def TaskSpec.storedFields (sp : TaskSpec) : Fields :=
  (sp.admittedFields.put "_runtime_reuse_toolchain"
      (sp.runtimeReuseToolchain.map Deployment.nullable)).put "delegation_closed_attempt_id"
    (sp.delegationClosedAttemptId.map str)

/-- The spec that the resource of a task carries. -/
def TaskSpec.publicFields (sp : TaskSpec) : Fields :=
  (Deployment.publicTaskSpec sp.storedFields).1

/-- The superseded binding of a decision. -/
def Binding.supersededJson (b : Binding) : Json :=
  .obj [("attempt_id", Deployment.nullable b.attemptId), ("binding_id", .str b.bindingId),
    ("executor_id", Deployment.nullable b.executorId),
    ("executor_incarnation", Deployment.nullable (b.placement.map Placement.executorIncarnation)),
    ("fence", .int b.fence), ("lease_id", Deployment.nullable b.leaseId)]

namespace PlacementDecision

/-- The decision of `recover_task_placement`, before its digest is taken. -/
def material (t : TaskId) (d : PlacementDecision) : Fields :=
  [("created_at", .int d.createdAt),
    ("loss_evidence", d.lossEvidence),
    ("original_target", d.originalTarget),
    ("owner_actor", .str d.ownerActor),
    ("placement_version", .int d.placementVersion),
    ("previous_effective_target", d.previousEffectiveTarget),
    ("qualification", .obj [("evidence_digest", .str d.evidenceDigest),
      ("executor_incarnation", .str d.executorIncarnation), ("target", d.replacementTarget),
      ("verified", .bool true)]),
    ("reason", .str d.reason),
    ("replacement_target", d.replacementTarget),
    ("run_id", .str d.runId),
    ("schema_version", .int 1),
    ("superseded_binding", (d.superseded.map Binding.supersededJson).getD .null),
    ("task_id", .str t),
    ("task_version", .int d.taskVersion)]

/-- The digest that the decision carries. -/
def digest (sha : Sha256) (t : TaskId) (d : PlacementDecision) : String :=
  sha.json (.obj (d.material t))

/-- The recorded decision. -/
def payload (sha : Sha256) (t : TaskId) (d : PlacementDecision) : Fields :=
  (d.material t).set "decision_digest" (.str (d.digest sha t))

end PlacementDecision

/-! ## The resource -/

/-- `_execution_binding_from_row`, as the resource carries it. -/
def BindingView.json (sha : Sha256) (t : TaskId) (recovery : Option PlacementDecision)
    (v : BindingView) : Json :=
  .obj (Fields.compact [
    ("effective_target", some v.effectiveTarget),
    ("original_target", v.originalTarget),
    ("placement_recovery", recovery.map fun d => .obj (d.payload sha t)),
    ("placement_version", some (.int v.placementVersion)),
    ("recovery_decision_digest",
      some (Deployment.nullable (recovery.map fun d => d.digest sha t))),
    ("resolved_target", some v.row.selected)])

/-- The digest of the capability's definition: the one that the admission pinned, the one that the spec
names, or that of the capability's name. -/
def Task.definitionDigest (sha : Sha256) (row : Task) (sp : TaskSpec) : String :=
  (row.capabilityDigest.filter (· ≠ "")).getD (sp.capabilityDigest.getD (sha.text row.capability))

/-- The `state` of a resource. -/
def Status.resource : Status → String
  | .completed => "succeeded"
  | status => status.text

/-- The fields of `_task_resource`. -/
def resourceFields (sha : Sha256) (t : TaskId) (row : Task) (run : Run) (sp : TaskSpec)
    (request : Option Json) (binding : Option Json) : Fields :=
  Fields.compact [
    ("capability_digest", some (.str (row.definitionDigest sha sp))),
    ("capability_id", some (.str row.capability)),
    ("execution_binding", binding),
    ("execution_request", request),
    ("expected_effect", row.expectedEffect),
    ("idempotency_key", some (.str ((run.idempotencyKey.filter (· ≠ "")).getD t))),
    ("input_object_ids", some (.arr (sp.inputObjectIds.map str))),
    ("project_id", some (Deployment.nullable run.projectId)),
    ("run_id", some (.str row.runId)),
    ("spec", some (.obj sp.publicFields)),
    ("state", some (.str row.status.resource)),
    ("task_id", some (.str t)),
    ("version", some (.int (row.attempt + 1)))]

namespace State

/-- `_task_resource` of `get_task`. -/
def taskResource (sha : Sha256) (s : State) (t : TaskId) : Except Err Json := do
  let row ← s.getTask t
  let run ← orThrow (s.runs.lookup row.runId) (.keyError "run")
  let sp ← s.loadSpec row.spec
  let request ← s.executionRequestFromRow row
  let binding ← s.executionBinding t
  return .obj (resourceFields sha t row run sp request
    (binding.map (BindingView.json sha t (s.placementRecovery t))))

/-- The deployment binding of a task as Runtime reads it. -/
def deploymentBinding (sha : Sha256) (s : State) (t : TaskId) :
    Except Err Deployment.DeploymentBinding := do
  let resource ← s.taskResource sha t
  Deployment.deploymentBindingFromTask sha resource

end State

end WorkspaceRuntime
