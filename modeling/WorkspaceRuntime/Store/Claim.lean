import WorkspaceRuntime.Store.Executor
import WorkspaceRuntime.Store.Lease

/-!
# Claiming one task

`claimTask` is `_claim_task`: it reaps expired leases, admits a continuation whose predecessors are
done, and passes the task through a chain of gates. The first gate that is closed becomes the task's
waiting reason; a task that passes them all is started under a new lease.
-/

namespace WorkspaceRuntime

open Fallible

/-- `_waiting_for_resource`. -/
def waitingForResource (key : ResourceKey) : WaitingReason :=
  let mapped := key.toList.map fun c => if c.isAlphanum then c else '_'
  let stripped := ((mapped.dropWhile (· = '_')).reverse.dropWhile (· = '_')).reverse
  .resource (if stripped = [] then "resource" else String.ofList (stripped.map Char.toLower))

namespace State

variable (s : State) (t : TaskId) (task : Task) (executor : ExecutorId) (spec : TaskSpec)

/-- Some unreleased reservation takes the key of the executor. -/
def occupied (key : ResourceKey) : Bool :=
  s.reservations.entries.any fun e =>
    e.2.executorId = executor && e.1.2 = key && e.2.releasedAt = none

/-- The number of tasks that run on the executor. -/
def activeTasks (executor : ExecutorId) : Nat :=
  (s.tasks.entries.filter fun e =>
    e.2.executorId = some executor && e.2.status = .running).length

/-- The first required key that the executor lacks or that is taken. -/
def resourceGate (x : Executor) (capability : CapabilityId) : Option WaitingReason :=
  ((s.requiredResourceKeys capability).find? fun key =>
    key ∉ x.resourceKeys || s.occupied executor key).map waitingForResource

/-- The gates from the descriptor's facts on. -/
def factsGate (executor : ExecutorId) (x : Executor) : Except Err (Option WaitingReason) := do
  let descriptor := (x.descriptor task.capability).getD []
  if ¬descriptorReady descriptor then
    return some .waitingForWorker
  else
    let matched ← executionFactsMatch (spec.requiredFacts.getD noFacts) (descriptorFacts descriptor)
    return if ¬matched then some .waitingForExecutorFacts
      else if x.maxConcurrency ≤ s.activeTasks executor then some .waitingForWorker
      else s.resourceGate executor x task.capability

/-- The chain of gates of `_claim_task`: the waiting reason, or none when the task may start. -/
def claimGate (env : Env) (s : State) (task : Task) (spec : TaskSpec) (executor : ExecutorId) :
    Except Err (Option WaitingReason) :=
  match s.executors.lookup executor with
  | none => .ok (some .waitingForWorker)
  | some x =>
    let capability := s.capabilities.lookup task.capability
    if ¬x.ready then .ok (some .waitingForWorker)
    else if capability = none ∧ task.capabilityDigest ≠ none then .ok (some .capabilityUnavailable)
    else if ∃ c ∈ capability, c.status ≠ .ready then .ok (some .capabilityUnavailable)
    else do
      let stored ← s.storagePreflight env task.capability spec.storageEstimate
      if ¬stored then return some .insufficientStorage
      else if ¬x.hasCapabilityId task.capability then return some .waitingForWorker
      else if ¬x.live env.now then return some .waitingForWorker
      else if ∃ d ∈ task.capabilityDigest, capability.map (·.definitionDigest) ≠ some d then
        return some .capabilityUnavailable
      else s.factsGate task spec executor x

/-- The capability whose specs are stamped with the toolchain that renders them. -/
def renderCapability : CapabilityId := "rendering.render"

/-- The new reservations of a claim. -/
def reserveAll (row : Reservation) (keys : List ResourceKey) : State :=
  keys.foldl (fun s key => s.reserve t key row) s

/-- A render spec is stamped with the toolchain of its executor. -/
def stampSpec (x : Executor) : State :=
  if task.capability = renderCapability then
    let stamped := { spec with runtimeReuseToolchain := some (executorToolchainDigest x) }
    (s.putTaskSpec t stamped).putRunSpec task.runId stamped
  else s

/-- The row updates of a granted claim. -/
def startClaim (executor : ExecutorId) (x : Executor) (lease : LeaseId) (epoch : Nat) (now : Time) :
    State :=
  let fence := task.leaseFence + 1
  let deadline := now + leaseDuration
  let reservation : Reservation :=
    { leaseToken := lease, createdAt := now, executorId := executor, fence,
      leaseExpiresAt := deadline, runtimeEpoch := epoch }
  let started := ((s.startRow t executor lease fence deadline epoch now).stampSpec t task spec
    x).setRunStatus task.runId .running now
  let seen := { started with executors := started.executors.modify executor fun x =>
    { x with runtimeEpoch := epoch, lastSeenAt := some now } }
  (seen.reserveAll t reservation (s.requiredResourceKeys task.capability)).appendEvent task.runId
    (some t) (.claimed executor (task.attempt + 1) fence) now

end State

/-- The task is marked as one whose external state is not known. -/
def Task.unknown (row : Task) : Bool := row.waitingReason = some .providerStateUnknown

namespace State

variable (env : Env) (s : State) (t : TaskId) (executor : ExecutorId) (lease : LeaseId)

/-- The dependency stage of `_claim_task`: a continuation that is not admitted yet is tried once
more. -/
def claimDependencies (now : Time) : Except Err State :=
  if s.continuationRows t ≠ [] ∧ s.admissions.lookup t = none then s.admitContinuation t now
  else .ok s

/-- The end of `_claim_task`: a task that passed the gates starts, another one waits. -/
def claimDecided (task : Task) (spec : TaskSpec) (executor : ExecutorId) (lease : LeaseId)
    (epoch : Nat) (now : Time) (gate : Option WaitingReason) : State :=
  match gate, s.executors.lookup executor with
  | none, some x => s.startClaim t task spec executor x lease epoch now
  | reason, _ => s.setWaitingReason t reason now

/-- The gates of `_claim_task`, and the start of a task that passes them. -/
def claimAdmitted (epoch : Nat) : Except Err (State × Task) := do
  let task ← orThrow (s.tasks.lookup t) (.notFound "task not found")
  let spec ← s.loadSpec task.spec
  let run ← orThrow (s.runs.lookup task.runId) (.keyError "project_id")
  let _ ← env.snapshotRefs spec run.projectId
  let gate ← s.claimGate env task spec executor
  let next := s.claimDecided t task spec executor lease epoch env.now gate
  let row ← next.getTask t
  return (next, row)

/-- `_claim_task` after the reaping: the claim of one exact task. -/
def claimReaped (epoch : Nat) (allowProviderRecovery : Bool) : Except Err (State × Task) := do
  let task ← orThrow (s.tasks.lookup t) (.notFound "task not found")
  require (task.status = .queued ∨
      (allowProviderRecovery ∧ task.unknown ∧ task.status = .cancelRequested))
    (.conflict "task is not claimable")
  if task.unknown ∧ ¬allowProviderRecovery then
    let row ← s.getTask t
    return (s, row)
  else
    let tried ← s.claimDependencies t env.now
    if tried.continuationRows t ≠ [] ∧ tried.admissions.lookup t = none then
      let row ← tried.getTask t
      return (tried, row)
    else
      tried.claimAdmitted env t executor lease epoch

/-- `_claim_task`. -/
def claimTask (supplied : Int) (allowProviderRecovery : Bool) : Except Err (State × Task) := do
  require (executor ≠ "" ∧ lease ≠ "") (.validation "executor_id and lease_token are required")
  let epoch ← s.validateRuntimeEpoch (some supplied) (some executor) true
  let reaped ← s.reapExpiredLeases env.now
  reaped.claimReaped env t executor lease epoch allowProviderRecovery

end State

end WorkspaceRuntime
