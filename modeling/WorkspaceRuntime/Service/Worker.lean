import WorkspaceRuntime.Service.Wire
import WorkspaceRuntime.Store.Claim
import WorkspaceRuntime.Store.Settlement

/-!
# The worker's commands

`registerExecutor`, `claimNext`, `heartbeatAttempt`, `settleAttempt` and `failAttempt`: how a worker
joins, takes a task, extends its lease and ends its attempt. Each runs in one transaction, so that an
exception leaves the state as it was.
-/

namespace WorkspaceRuntime

open Fallible

/-! ## Registration -/

/-- A registration request; `body` is what its request hash is taken of. -/
structure RegisterRequest where
  registration : ExecutorRegistration
  runtimeEpoch : Option Int
  body : Json
  key : Option String := none
  access : Access := {}

/-- `register_executor`; the answer is whether it was a replay. -/
def State.registerExecutor (env : Env) (s : State) (r : RegisterRequest) :
    Except Err (State × Bool) := do
  require (r.registration.executorId ≠ "") (.validation "executor_id is required")
  r.access.executorIdentity
  r.access.localClaim
  require (1 ≤ r.registration.maxConcurrency) (.validation "max_concurrency must be positive")
  require (∀ epoch ∈ r.runtimeEpoch, epoch = s.currentRuntimeEpoch)
    (.lease "executor belongs to a stale runtime epoch")
  if ← s.sessionReplay .executorRegister "executors" r.key (.body r.body) env.now then
    return (s, true)
  else
    let existing := (s.executors.lookup r.registration.executorId).isSome
    let epoch ← s.validateRuntimeEpoch r.runtimeEpoch (some r.registration.executorId) existing
    let registered ← s.upsertExecutor env r.registration (some epoch)
    let recorded ← registered.sessionRecord .executorRegister "executors" r.key (.body r.body)
      env.now
    return (recorded, false)

/-! ## Claiming the next task -/

/-- What `claim_next` answers. -/
inductive ClaimReply where
  | replayed
  /-- No queued task fits the request. -/
  | nothing
  /-- The selected task cannot start now. -/
  | waiting (task : TaskId) (reason : WaitingReason)
  | attempt (attempt : AttemptId) (task : TaskId) (lease : LeaseId) (fence : Nat) (deadline : Time)
  deriving DecidableEq, Repr

/-- The body of `claim_next`. -/
structure ClaimBody where
  executorId : ExecutorId
  capabilityIds : List CapabilityId
  runtimeEpoch : Int
  target : Option Json
  deriving DecidableEq, Repr

/-- The shape checks of `claim_next`. -/
def claimBody (body : Json) : Except Err ClaimBody := do
  let fields ← wireObject body ["executor_id", "capability_ids", "runtime_epoch"]
    ["executor_id", "capability_ids", "runtime_epoch", "target"]
  let executorId ← wireString fields "executor_id"
  let shape := Err.validation "capability_ids must be a list of unique non-empty strings"
  let items ← orThrow ((fields.get "capability_ids").bind Json.asArr) shape
  let capabilityIds ← items.mapM fun v => orThrow v.asStr shape
  require ((∀ id ∈ capabilityIds, id ≠ "") ∧ capabilityIds.Nodup) shape
  let runtimeEpoch ← wireInteger fields "runtime_epoch" true
  let target ← match fields.get "target" with
    | none | some .null => .ok none
    | some value => some <$> normalizeExecutionTarget (some value)
  return { executorId, capabilityIds, runtimeEpoch, target }

namespace State

/-- The queued tasks in insertion order. -/
def queuedTasks (s : State) : List (TaskId × Task) :=
  s.tasks.entries.filter fun e => e.2.status = .queued

/-- The selection loop of `claim_next`: the first queued task that fits, with its binding when it is
targeted. -/
def selectTask (s : State) (body : ClaimBody) :
    List (TaskId × Task) → Except Err (Option ((TaskId × Task) × Option BindingView))
  | [] => .ok none
  | item :: items =>
    if body.capabilityIds ≠ [] ∧ item.2.capability ∉ body.capabilityIds then
      s.selectTask body items
    else do
      let binding ← s.executionBinding item.1
      let request ← s.executionRequestFromRow item.2
      match request, binding with
      | none, _ => return some (item, none)
      | some _, none => s.selectTask body items
      | some _, some view =>
        if body.target = some view.row.selected then return some (item, some view)
        else s.selectTask body items

variable (env : Env) (s : State) (access : Access)

/-- The placement gates of `claim_next` on the selected task. -/
def placementGate (placement : Option Placement) (t : TaskId) (selected : Option BindingView) :
    Option WaitingReason :=
  if selected.isNone ∧ ¬access.qualified then none
  else match placement, selected with
    | some p, some view =>
      if ¬executionPlacementMatches view.row.selected p then some .executionBindingMismatch
      else if ¬s.qualificationMatches t p then some .executionQualificationMismatch
      else if access.activationMissing t then some .remoteActivationMissing
      else none
    | _, _ => some .executionBindingMissing

/-- The attempt row of a started task, and its binding. -/
def startAttempt (t : TaskId) (task : Task) (lease : LeaseId) (executor : ExecutorId) (epoch : Nat)
    (placement : Option Placement) : Except Err State := do
  let attempts ← orThrow (s.attempts.insertNew env.newAttempt
    { taskId := t, leaseId := lease, fence := task.leaseFence, executorId := executor,
      leaseExpiresAt := task.leaseExpiresAt.getD env.now, runtimeEpoch := epoch })
    (.integrity "attempts")
  let (bound, view) ← (({ s with attempts }).setAttempt t env.newAttempt).bindExecutionAttempt t
    env.newAttempt lease task.leaseFence executor epoch placement env.now
  return if view.isSome then
      bound.appendEvent task.runId (some t) (.executionBound env.newAttempt) env.now
    else bound

/-- `claim_next` on the selected task. -/
def claimSelected (body : ClaimBody) (epoch : Nat) (placement : Option Placement)
    (item : TaskId × Task) (selected : Option BindingView) : Except Err (State × ClaimReply) := do
  let t := item.1
  if item.2.unknown then
    let _ ← s.getTask t
    return (s, .waiting t .providerStateUnknown)
  else match s.placementGate access placement t selected with
    | some reason => do
      let next := s.setWaitingReason t (some reason) env.now
      let _ ← next.getTask t
      return (next, .waiting t reason)
    | none => do
      let (claimed, task) ← s.claimTask env t body.executorId env.newLease epoch false
      if task.status ≠ .running then
        return (claimed, .waiting t (task.waitingReason.getD .waitingForWorker))
      else
        let started ← claimed.startAttempt env t task env.newLease body.executorId epoch placement
        return (started, .attempt env.newAttempt t env.newLease task.leaseFence
          (task.leaseExpiresAt.getD env.now))

/-- The selection and claim of `claim_next`, once its leases are reaped. -/
def claimQueued (body : ClaimBody) (epoch : Nat) (placement : Option Placement) :
    Except Err (State × ClaimReply) := do
  match ← s.selectTask body s.queuedTasks with
  | none => return (s, .nothing)
  | some (item, selected) => s.claimSelected env access body epoch placement item selected

/-- `claim_next`. -/
def claimNext (value : Json) (key : Option String) : Except Err (State × ClaimReply) := do
  let body ← claimBody value
  access.executorIdentity
  access.localClaim
  let placement ← access.placement
  let epoch ← s.validateRuntimeEpoch (some body.runtimeEpoch) (some body.executorId) true
  if ← s.sessionReplay .taskClaim "claim" key (.body value) env.now then
    access.replay
    return (s, .replayed)
  else
    let reaped ← s.reapExpiredLeases env.now
    let (claimed, reply) ← reaped.claimQueued env access body epoch placement
    let recorded ← claimed.sessionRecord .taskClaim "claim" key (.body value) env.now
    return (recorded, reply)

/-! ## Settling, failing and extending an attempt -/

/-- `_validate_attempt_lease` on the row of an attempt. -/
def validateAttemptLease (row : Attempt) (lease : LeaseBody) (now : Time) : Except Err Unit := do
  let _ ← s.validateRuntimeEpoch (some lease.runtimeEpoch) (some row.executorId) true
  require (row.settled = false ∧ row.runtimeEpoch = s.currentRuntimeEpoch)
    (.lease "attempt lease is stale or already settled")
  require (row.leaseId = lease.leaseId ∧ (row.fence : Int) = lease.fence)
    (.lease "attempt lease is stale or already settled")
  require (now < row.leaseExpiresAt) (.lease "attempt lease has expired")

/-- The row of the presented attempt, or the lease error. -/
def presentedAttempt (a : AttemptId) : Except Err Attempt :=
  orThrow (s.attempts.lookup a) (.lease "attempt lease is stale or already settled")

/-- `_live_delegating_parent`, without a credential of its own. -/
def liveDelegatingParent (a : AttemptId) (lease : LeaseBody) (now : Time) : Except Err Unit := do
  let row ← s.presentedAttempt a
  s.validateAttemptLease row lease now
  let task ← orThrow (s.tasks.lookup row.taskId) (.lease "parent attempt is no longer live")
  require (task.status = .running ∧ task.attemptId = some a ∧ task.leaseToken = some row.leaseId ∧
      task.leaseFence = row.fence ∧ task.executorId = some row.executorId ∧
      task.runtimeEpoch = some row.runtimeEpoch)
    (.lease "parent attempt is no longer live")
  let spec ← s.loadSpec task.spec
  require (spec.delegatedParent = none)
    (.authorization "delegated children cannot delegate further")
  require (spec.delegationClosedAttemptId ≠ some a)
    (.authorization "parent child authority has ended")
  require (spec.childDelegation ≠ none)
    (.authorization "parent task has no child delegation policy")
  access.parentPolicy

/-- The parent of a delegated child is live. -/
def checkLineage (lineage : Option Lineage) (now : Time) : Except Err Unit :=
  match lineage with
  | none => .ok ()
  | some l => s.liveDelegatingParent access l.parentAttemptId
      { leaseId := l.parentLeaseId, fence := l.parentFence, runtimeEpoch := l.runtimeEpoch } now

end State

/-- A worker's command on its attempt: the path, the body and the key. -/
structure AttemptRequest where
  attemptId : AttemptId
  body : Json
  key : Option String
  access : Access := {}

/-- What the request hash of a command on an attempt is taken of. -/
def AttemptRequest.hash (r : AttemptRequest) : RequestHash :=
  .body (.obj [("attempt_id", .str r.attemptId), ("body", r.body)])

/-- A settlement request. `staged` is the outcome of `_stage_outputs`, the other outcomes those of
the effect's shape check, of its check and application, of the children's outputs, and of a verified
publication source. -/
structure SettleRequest extends AttemptRequest where
  staged : Except Err (List StagedOutput) := .ok []
  effectShape : Except Err Unit := .ok ()
  effectOutcome : Except Err Unit := .ok ()
  childOutputs : Except Err Unit := .ok ()
  publicationSource : Except Err Unit := .ok ()

/-- The body of `settle_attempt`. -/
structure SettleBody where
  lease : LeaseBody
  effect : Option Json
  result : Json.Fields
  deriving DecidableEq, Repr

/-- The shape checks of `settle_attempt`. -/
def settleBody (a : AttemptId) (body : Json) : Except Err SettleBody := do
  let fields ← wireObject body []
    ["attempt_id", "lease_id", "fence", "runtime_epoch", "outputs", "effect", "result"]
  require (∀ v ∈ presentField fields "attempt_id", v = .str a)
    (.conflict "attempt_id does not match the attempt path")
  let lease ← leaseBody fields
  require (∀ v ∈ fields.get "outputs", v.asArr.isSome) (.validation "outputs must be a list")
  require (∀ v ∈ fields.get "result", v.asObj.isSome) (.validation "result must be an object")
  let result := ((fields.get "result").bind Json.asObj).getD []
  require (result.get "outputs" = none)
    (.validation "result.outputs is reserved; send outputs at the settlement top level")
  return { lease, effect := presentField fields "effect", result }

namespace State

/-- The checks of `settle_attempt` on the attempt and its task, before anything is staged. -/
def checkSettlement (s : State) (r : SettleRequest) (body : SettleBody) (row : Attempt)
    (now : Time) : Except Err Unit := do
  s.validateAttemptLease row body.lease now
  let task ← orThrow (s.tasks.lookup row.taskId) (.lease "attempt belongs to a stale runtime epoch")
  require (∀ epoch ∈ task.runtimeEpoch, epoch = s.currentRuntimeEpoch)
    (.lease "attempt belongs to a stale runtime epoch")
  require (task.status = .running ∧ task.attemptId = some r.attemptId ∧
      task.leaseToken = some row.leaseId ∧ task.leaseFence = row.fence)
    (.lease "attempt lease is stale or already settled")
  require (body.effect.isSome → body.effect = task.expectedEffect)
    (.validation "settlement effect was not predeclared")
  require (task.expectedEffect.isSome → body.effect.isSome)
    (.validation "declared settlement effect is required")
  r.effectShape
  let spec ← s.loadSpec task.spec
  require (spec.delegationClosedAttemptId ≠ some r.attemptId)
    (.authorization "parent attempt child authority has ended")
  s.checkLineage r.access spec.delegatedParent now
  s.delegatedChildrenCompleted row.taskId r.attemptId
  r.publicationSource

/-- `settle_attempt`; the answer is whether it was a replay. -/
def settleAttempt (env : Env) (s : State) (r : SettleRequest) : Except Err (State × Bool) := do
  let key ← requireIdempotencyKey r.key
  let body ← settleBody r.attemptId r.body
  r.access.attemptIdentity
  let row ← s.presentedAttempt r.attemptId
  let _ ← s.validateRuntimeEpoch (some body.lease.runtimeEpoch) (some row.executorId) true
  if ← s.commandReplay .attemptSettle r.attemptId key r.hash env.now then
    return (s, true)
  else
    s.checkSettlement r body row env.now
    let staged ← r.staged
    let settled ← s.settleTask row.taskId row.leaseId body.lease.fence r.attemptId
      { effect := body.effect, result := body.result, staged, effectOutcome := r.effectOutcome,
        childOutputs := r.childOutputs } env.now
    let recorded ← settled.commandRecord .attemptSettle r.attemptId key r.hash env.now
    return (recorded, false)

end State

/-- The shape checks of `fail_attempt`: the lease and the failure to record. -/
def failBody (body : Json) : Except Err (LeaseBody × Option Json × Bool) := do
  let fields ← wireObject body ["lease_id", "fence", "runtime_epoch"]
    ["lease_id", "fence", "runtime_epoch", "error", "reason"]
  let lease ← leaseBody fields
  return (lease, (fields.get "error").filter Json.truthy, (fields.get "reason").isSome)

/-- The shape checks of `heartbeat_attempt`: the lease and its new length. The progress it may carry
is recorded as given. -/
def heartbeatBody (body : Json) : Except Err (LeaseBody × Int × Option Json) := do
  let fields ← wireObject body ["lease_id", "fence", "runtime_epoch"]
    ["lease_id", "fence", "runtime_epoch", "lease_seconds", "progress"]
  let lease ← leaseBody fields
  let seconds ← match fields.get "lease_seconds" with
    | none => .ok 30
    | some (.int n) => do
      require (0 < n) (.validation "lease_seconds must be a positive integer")
      pure n
    | some _ => .error (.validation "lease_seconds must be a positive integer")
  return (lease, seconds, presentField fields "progress")

namespace State

/-- `fail_attempt`; the answer is whether it was a replay. -/
def failAttempt (env : Env) (s : State) (r : AttemptRequest) : Except Err (State × Bool) := do
  let key ← requireIdempotencyKey r.key
  let (lease, error, reason) ← failBody r.body
  r.access.attemptIdentity
  let row ← s.presentedAttempt r.attemptId
  let _ ← s.validateRuntimeEpoch (some lease.runtimeEpoch) (some row.executorId) true
  if ← s.commandReplay .attemptFail r.attemptId key r.hash env.now then
    return (s, true)
  else
    s.validateAttemptLease row lease env.now
    require (reason = false) (.validation "reason is not supported; use error")
    let failure := error.getD (.obj [("code", .str "executor_failed")])
    let failed ← s.failTask row.taskId row.leaseId row.fence r.attemptId failure env.now
    let recorded ← failed.commandRecord .attemptFail r.attemptId key r.hash env.now
    return (recorded, false)

/-- `heartbeat_attempt`; the answer is whether it was a replay. `progressShape` is the outcome of
the checks on the progress fields. -/
def heartbeatAttempt (env : Env) (s : State) (r : AttemptRequest)
    (progressShape : Except Err Unit) : Except Err (State × Bool) := do
  let key ← requireIdempotencyKey r.key
  let (lease, seconds, progress) ← heartbeatBody r.body
  progressShape
  r.access.attemptIdentity
  let row ← s.presentedAttempt r.attemptId
  let _ ← s.validateRuntimeEpoch (some lease.runtimeEpoch) (some row.executorId) true
  if ← s.commandReplay .attemptHeartbeat r.attemptId key r.hash env.now then
    return (s, true)
  else
    s.validateAttemptLease row lease env.now
    let extended ← s.heartbeatTask row.taskId row.leaseId row.fence r.attemptId seconds env.now
    let run := ((s.tasks.lookup row.taskId).map (·.runId)).getD ""
    let reported := match progress with
      | some payload => extended.appendEvent run (some row.taskId) (.progress payload) env.now
      | none => extended
    let recorded ← reported.commandRecord .attemptHeartbeat r.attemptId key r.hash env.now
    return (recorded, false)

end State

end WorkspaceRuntime
