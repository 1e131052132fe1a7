import WorkspaceRuntime.Service.Worker
import WorkspaceRuntime.Store.Admission
import WorkspaceRuntime.Store.Control

/-!
# The commands on tasks and runs

Submission, cancellation and retry as the callers of the service reach them, the children that a
running attempt admits, and the import that the host runs as a task of its own.
-/

namespace WorkspaceRuntime

open Fallible

/-! ## Submission -/

/-- `MEDIA_IMPORT_CAPABILITY`. -/
def mediaImportCapability : CapabilityId := "runtime.media.import.v1"

/-- `MEDIA_IMPORT_EXECUTOR`. -/
def mediaImportExecutor : ExecutorId := "runtime-host-media-import"

/-- The spec that the service builds from a body: the fields that only the runtime writes are those
of an admission. -/
def TaskSpec.submitted (spec : TaskSpec) (lineage : Option Lineage) : TaskSpec :=
  { spec with delegatedParent := lineage, delegationClosedAttemptId := none,
              derivedInputRegistry := none, runtimeReuseToolchain := none }

/-- What `admit_delegated_child` reads from its body. `policyCheck` is the outcome of the checks of
the child's authority, stage, inputs and limits against the parent's policy, and `create` the
admission they resolve to. -/
structure ChildRequest where
  parentAttemptId : AttemptId
  lease : LeaseBody
  create : TaskCreation
  access : Access := {}
  policyCheck : Except Err Unit := .ok ()

namespace State

/-- The checks of the service's `create_task` on its own. -/
def checkSubmission (create : TaskCreation) (hostOwned : Bool) (lineage : Option Lineage) :
    Except Err Unit := do
  require (create.capability = mediaImportCapability → hostOwned = true)
    (.authorization "runtime media import capability is host-owned")
  require (lineage = none ∨ create.spec.childDelegation = none)
    (.validation "delegated children cannot delegate further")

variable (env : Env) (s : State) (t : TaskId)

/-- The service's `create_task`. -/
def submitTask (create : TaskCreation) (hostOwned : Bool) (lineage : Option Lineage) :
    State × Except Err Admitted :=
  match checkSubmission create hostOwned lineage with
  | .error e => (s, .error e)
  | .ok () => s.createTask env { create with spec := create.spec.submitted lineage }

/-- `admit_delegated_child`. -/
def admitDelegatedChild (r : ChildRequest) : Except Err (State × Admitted) := do
  s.liveDelegatingParent r.access r.parentAttemptId r.lease env.now
  let row ← s.presentedAttempt r.parentAttemptId
  let parent ← orThrow (s.tasks.lookup row.taskId) (.lease "parent attempt is no longer live")
  let spec ← s.loadSpec parent.spec
  let project := (s.runs.lookup parent.runId).bind (·.projectId)
  r.policyCheck
  require (r.create.spec.runtimeDependencies = none)
    (.validation "delegated child spec cannot use runtime_dependencies")
  inTransaction (s.submitTask env { r.create with project, enforceReadiness := true } false (some
    { parentTaskId := row.taskId, parentAttemptId := r.parentAttemptId, parentLeaseId := row.leaseId,
      parentFence := row.fence, runtimeEpoch := row.runtimeEpoch, projectId := project,
      executorId := row.executorId, policy := spec.childDelegation }))

/-- `_register_derived_inputs` of `issue_child_authority`: the parent's spec keeps the registry, and
the objects are associated with its project. `registered` is the outcome of the checks on the
uploads, with the new registry and the digests it adds. -/
def issueChildAuthority (access : Access) (a : AttemptId) (lease : LeaseBody)
    (registered : Except Err (Json × List String)) : Except Err State := do
  s.liveDelegatingParent access a lease env.now
  let row ← s.presentedAttempt a
  let parent ← orThrow (s.tasks.lookup row.taskId) (.lease "parent attempt is no longer live")
  let spec ← s.loadSpec parent.spec
  let (registry, digests) ← registered
  let project := (s.runs.lookup parent.runId).bind (·.projectId)
  require (∀ d ∈ digests, d ∈ s.objects)
    (.conflict "derived input object metadata does not match upload")
  return { s.putTaskSpec row.taskId { spec with derivedInputRegistry := some registry } with
    projectObjects := s.projectObjects ++ project.toList.flatMap fun p => digests.map (p, ·) }

/-! ## Cancellation and retry -/

/-- What the request hash of a command on a task or a run is taken of. -/
def commandHash (id : String) (body : Json) : RequestHash :=
  .body (.obj [("body", body), ("task_id", .str id)])

/-- `expected_version`, when it is given, is the task's next attempt. -/
def checkVersion (body : Json.Fields) (task : Task) : Except Err Unit :=
  require (∀ v ∈ presentField body "expected_version", v = .int (task.attempt + 1))
    (.conflict "stale task version")

/-- `cancel_task_canonical`; the answer is whether it was a replay. -/
def cancelTaskCanonical (body : Json) (key : Option String) : Except Err (State × Bool) := do
  let key ← requireIdempotencyKey key
  let fields ← orThrow body.asObj (.invalidRequest "request body must be a JSON object")
  let task ← s.getTask t
  if ← s.commandReplay .taskCancel t key (commandHash t body) env.now then
    return (s, true)
  else
    checkVersion fields task
    let cancelled ← s.cancelTask env.now nestedCallLimit t
    let recorded ← cancelled.commandRecord .taskCancel t key (commandHash t body) env.now
    return (recorded, false)

/-- The row updates of `retry_task`. -/
def retryTaskRows (task : Task) : Except Err State := do
  s.assertDelegatedRetryCapacity t env.now
  let requeued := (s.releaseReservations t task.leaseToken env.now).retryRow t (some env.now) env.now
  let reset ← requeued.resetExecutionAttempt t requeued.currentRuntimeEpoch env.now
  let refreshed ← ((reset.setRunStatus task.runId .queued env.now).appendEvent task.runId (some t)
    .retried env.now).refreshContinuationsForPredecessor t env.now
  let _ ← refreshed.getTask t
  return refreshed

/-- `retry_task`; the answer is whether it was a replay. A spec that retention has released is not
looked for. -/
def retryTask (access : Access) (t : TaskId) (body : Json) (key : Option String) :
    Except Err (State × Bool) := do
  let key ← requireIdempotencyKey key
  let fields ← orThrow body.asObj (.invalidRequest "request body must be a JSON object")
  let task ← s.getTask t
  if ← s.commandReplay .taskRetry t key (commandHash t body) env.now then
    return (s, true)
  else
    require (access.draining = false) (.conflict "remote drain blocks fresh task retries")
    require (task.unknown = false) (.conflict
      "provider/executor state must be reconciled by authorized checkpoint resume before retry")
    require task.status.terminal (.conflict "task is not retryable")
    checkVersion fields task
    let retried ← s.retryTaskRows env t task
    let recorded ← retried.commandRecord .taskRetry t key (commandHash t body) env.now
    return (recorded, false)

/-- The receipt of a command on a run, which a caller may leave out. -/
def recordRun (kind : CommandKind) (r : RunId) (key : Option String) (request : RequestHash)
    (now : Time) : Except Err State :=
  match key with
  | some key => s.commandRecord kind r key request now
  | none => .ok s

/-- The replay of a command on a run. -/
def replayRunCommand (kind : CommandKind) (r : RunId) (key : Option String) (request : RequestHash)
    (now : Time) : Except Err Bool :=
  match key with
  | some key => s.commandReplay kind r key request now
  | none => .ok false

/-- The service's `cancel_run`; the answer is whether it was a replay. -/
def cancelRunCommand (r : RunId) (key : Option String) : Except Err (State × Bool) := do
  let request := RequestHash.body (.obj [])
  if ← s.replayRunCommand .runCancel r key request env.now then
    return (s, true)
  else
    let cancelled ← s.cancelRun r env.now
    let recorded ← cancelled.recordRun .runCancel r key request env.now
    return (recorded, false)

/-- The service's `retry_run`; the answer is whether it was a replay. -/
def retryRunCommand (r : RunId) (selected : Option (List TaskId)) (key : Option String) :
    Except Err (State × Bool) := do
  let sorted := selected.map fun ids => Json.arr ((ids.insertionSort (· ≤ ·)).map Json.str)
  let request := RequestHash.body (.obj [("selected_task_ids", sorted.getD .null)])
  if ← s.replayRunCommand .runRetry r key request env.now then
    return (s, true)
  else
    let retried ← s.retryRun env r selected
    let recorded ← retried.recordRun .runRetry r key request env.now
    return (recorded, false)

end State

/-! ## Media import -/

/-- The registration of the host's own executor. -/
def mediaImportRegistration (env : Env) : ExecutorRegistration where
  executorId := mediaImportExecutor
  capabilities := [.obj [("capability_id", .str mediaImportCapability),
    ("definition_digest", .str (env.idDigest mediaImportCapability)),
    ("estimated_output_bytes", .int 0), ("estimated_scratch_bytes", .int 0),
    ("required_resource_keys", .arr []), ("status", .str "ready")]]

namespace State

/-- `_claim_media_import_task`: the attempt has no execution binding. -/
def claimMediaImportTask (env : Env) (s : State) (t : TaskId) : Except Err (State × Task) := do
  let epoch := s.currentRuntimeEpoch
  let registered ← s.upsertExecutor env (mediaImportRegistration env) (some epoch)
  let (claimed, task) ← registered.claimTask env t mediaImportExecutor env.newLease epoch false
  require (task.status = .running ∧ task.leaseToken = some env.newLease)
    (.conflict "runtime host could not claim media import task")
  let attempts ← orThrow (claimed.attempts.insertNew env.newAttempt
    { taskId := t, leaseId := env.newLease, fence := task.leaseFence,
      executorId := mediaImportExecutor, leaseExpiresAt := task.leaseExpiresAt.getD env.now,
      runtimeEpoch := epoch })
    (.integrity "attempts")
  return (({ claimed with attempts }).setAttempt t env.newAttempt, task)

/-- `_settle_media_import_catalog`: the host admits, claims and settles its own task in one
transaction. `settle` has the key and the outcomes of the settlement. -/
def settleMediaImport (env : Env) (s : State) (create : TaskCreation) (settle : SettleRequest) :
    Except Err State := do
  let (created, admitted) ← inTransaction (s.submitTask env
    { create with capability := mediaImportCapability
                  capabilityDigest := some (env.idDigest mediaImportCapability)
                  executionRequest := none } true none)
  let (claimed, task) ← created.claimMediaImportTask env admitted.task
  let body : Json.Fields := [("fence", .int task.leaseFence), ("lease_id", .str env.newLease),
    ("runtime_epoch", .int claimed.currentRuntimeEpoch)]
  let effect := create.expectedEffect.toList.map fun e => ("effect", e)
  let (settled, _) ← claimed.settleAttempt env { settle with
    attemptId := env.newAttempt, body := .obj (effect ++ body) }
  return settled

end State

end WorkspaceRuntime
