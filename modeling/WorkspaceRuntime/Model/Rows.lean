import WorkspaceRuntime.Model.State

/-!
# Row updates

The `UPDATE` and `INSERT` statements of the commands, each as a function on states under the name of
what it does. The commands are compositions of these and never change a table in another way.
-/

namespace WorkspaceRuntime

/-- What a command reads from outside the database: the clock, the disk, the object store, and the
new identifiers it draws. A command runs at one clock value. -/
structure Env where
  now : Time
  freeDisk : Int
  diskFloor : Int := 4 * 1024 * 1024 * 1024
  retentionDays : Nat := 30
  /-- `_validate_spec_snapshot_refs`: the snapshot objects a spec refers to, or its exception. -/
  snapshotRefs : TaskSpec → Option ProjectId → Except Err (List String) := fun _ _ => .ok []
  /-- The digest that a capability registered by its id alone gets. -/
  idDigest : CapabilityId → String := fun id => "sha256:" ++ id
  newTask : TaskId := ""
  newRun : RunId := ""
  newBinding : String := ""
  newAttempt : AttemptId := ""
  newLease : LeaseId := ""
  newCheckpoint : CheckpointId := ""
  newNonce : String := ""

/-- `LEASE_SECONDS`, in milliseconds. -/
def leaseDuration : Time := 30 * 1000

/-- `EXECUTOR_LIVENESS_SECONDS`, in milliseconds. -/
def executorLiveness : Time := 90 * 1000

/-- `IDEMPOTENCY_RESULT_WINDOW_SECONDS`, in milliseconds. -/
def resultWindow : Time := 24 * 60 * 60 * 1000

/-- `SESSION_IDEMPOTENCY_WINDOW_SECONDS`, in milliseconds. -/
def sessionResultWindow : Time := 60 * 60 * 1000

/-- A number of days, in milliseconds. -/
def days (n : Nat) : Time := n * (24 * 60 * 60 * 1000)

namespace State

variable (s : State)

/-! ## Events, specs and the ledger -/

/-- `_append_event`. -/
def appendEvent (runId : RunId) (taskId : Option TaskId) (kind : EventKind) (now : Time) : State :=
  { s with events := s.events ++ [{ runId, taskId, kind, createdAt := now }] }

/-- `_store_spec`. -/
def storeSpec (spec : TaskSpec) : State :=
  { s with specs := if spec ∈ s.specs then s.specs else s.specs ++ [spec] }

variable (t : TaskId)

/-- Point a task at a spec, which is stored. -/
def putTaskSpec (spec : TaskSpec) : State :=
  { s.storeSpec spec with tasks := s.tasks.modify t fun r => { r with spec := some spec } }

/-- Admit a continuation: its snapshot, and its spec with the inputs it resolved to. The caller has
checked that there is no snapshot yet. -/
def admitRow (admission : ContinuationAdmission) (spec : TaskSpec) : State :=
  { s.storeSpec spec with
    admissions := s.admissions.insertIgnore t admission
    tasks := s.tasks.modify t fun r =>
      if r.status = .queued then
        { r with spec := some spec, waitingReason := none, updatedAt := admission.admittedAt }
      else r }

/-! ## Task rows -/

/-- `_set_waiting_reason`: only a queued task waits. -/
def setWaitingReason (reason : Option WaitingReason) (now : Time) : State :=
  { s with tasks := s.tasks.modify t fun r =>
      if r.status = .queued then { r with waitingReason := reason, updatedAt := now } else r }

/-- An expired or restarted external attempt whose provider state is not known. -/
def markProviderUnknown (now : Time) : State :=
  { s with tasks := s.tasks.modify t fun r =>
      { r with waitingReason := some .providerStateUnknown, updatedAt := now } }

/-- Lease expiry: back to the queue. The attempt id stays. -/
def requeueExpired (now : Time) : State :=
  { s with tasks := s.tasks.modify t fun r =>
      { r with status := .queued, executorId := none, leaseToken := none, leaseExpiresAt := none,
               waitingReason := some .waitingForWorker, updatedAt := now } }

/-- Restart of a task whose external state is not known. -/
def recoverUnknown (status : Status) (now : Time) : State :=
  { s with tasks := s.tasks.modify t fun r =>
      { r with status := status, leaseExpiresAt := none,
               waitingReason := some .providerStateUnknown, updatedAt := now } }

/-- Restart of a running task: back to the queue. -/
def recoverQueued (now : Time) : State :=
  { s with tasks := s.tasks.modify t fun r =>
      if r.status = .running then
        { r with status := .queued, executorId := none, leaseToken := none, leaseExpiresAt := none,
                 attemptId := none, waitingReason := some .runtimeRecovery, updatedAt := now }
      else r }

/-- A cancel whose external stop is not confirmed. -/
def requestCancel (now : Time) : State :=
  { s with tasks := s.tasks.modify t fun r =>
      { r with status := .cancelRequested, waitingReason := some .providerStateUnknown,
               updatedAt := now } }

/-- A cancelled task. -/
def cancelRow (now : Time) : State :=
  { s with tasks := s.tasks.modify t fun r =>
      { r with status := .cancelled, leaseToken := none, executorId := none, attemptId := none,
               leaseExpiresAt := none, waitingReason := none, updatedAt := now } }

/-- A completed task. -/
def completeRow (result : Json) (now : Time) : State :=
  { s with tasks := s.tasks.modify t fun r =>
      { r with status := .completed, result := some result, leaseExpiresAt := none,
               waitingReason := none, updatedAt := now } }

/-- A failed task. -/
def failRow (result : Json) (now : Time) : State :=
  { s with tasks := s.tasks.modify t fun r =>
      { r with status := .failed, result := some result, leaseExpiresAt := none,
               waitingReason := none, updatedAt := now } }

/-- A terminal task back to the queue; `retry_task` also restarts its queue age. -/
def retryRow (createdAt : Option Time) (now : Time) : State :=
  { s with tasks := s.tasks.modify t fun r =>
      { r with status := .queued, leaseToken := none, executorId := none, leaseExpiresAt := none,
               waitingReason := none, result := none, attemptId := none,
               createdAt := createdAt.getD r.createdAt, updatedAt := now } }

/-- A claimed task. -/
def startRow (executor : ExecutorId) (lease : LeaseId) (fence : Nat) (deadline : Time) (epoch : Nat)
    (now : Time) : State :=
  { s with tasks := s.tasks.modify t fun r =>
      { r with status := .running, executorId := some executor, leaseToken := some lease,
               leaseFence := fence, leaseExpiresAt := some deadline, waitingReason := none,
               attempt := r.attempt + 1, runtimeEpoch := some epoch, updatedAt := now } }

/-- The attempt a claimed task runs under. -/
def setAttempt (a : AttemptId) : State :=
  { s with tasks := s.tasks.modify t fun r => { r with attemptId := some a } }

/-- A heartbeat's new deadline, on the task and on its reservations of this lease. -/
def extendLease (lease : LeaseId) (deadline now : Time) : State :=
  { s with
    tasks := s.tasks.modify t fun r => { r with leaseExpiresAt := some deadline, updatedAt := now }
    reservations := s.reservations.mapRows fun k r =>
      if k.1 = t ∧ r.leaseToken = lease ∧ r.releasedAt = none then
        { r with leaseExpiresAt := deadline }
      else r }

/-- A queued child of a task whose placement was replaced. -/
def fenceChildRow (now : Time) : State :=
  { s with tasks := s.tasks.modify t fun r =>
      { r with status := .cancelled, waitingReason := some .parentPlacementRecovered,
               leaseToken := none, executorId := none, leaseExpiresAt := none, updatedAt := now } }

/-- A task whose row is only touched. -/
def touchTask (now : Time) : State :=
  { s with tasks := s.tasks.modify t fun r => { r with updatedAt := now } }

/-! ## Runs -/

/-- A run's new status. -/
def setRunStatus (r : RunId) (status : Status) (now : Time) : State :=
  { s with runs := s.runs.modify r fun x => { x with status := status, updatedAt := now } }

/-- A running run back to the queue. -/
def requeueRun (r : RunId) (now : Time) : State :=
  { s with runs := s.runs.modify r fun x =>
      if x.status = .running then { x with status := .queued, updatedAt := now } else x }

/-- Point a run at a spec. -/
def putRunSpec (r : RunId) (spec : TaskSpec) : State :=
  { s with runs := s.runs.modify r fun x => { x with spec := some spec } }

/-! ## Attempts, reservations and bindings -/

/-- `UPDATE attempts SET settled=1`, of this attempt. -/
def settleAttemptRow (a : AttemptId) : State :=
  { s with attempts := s.attempts.modify a fun r => { r with settled := true } }

/-- `UPDATE attempts SET settled=1`, of this attempt if it belongs to the task. -/
def settleAttemptOf (a : AttemptId) : State :=
  { s with attempts := s.attempts.modify a fun r =>
      if r.taskId = t then { r with settled := true } else r }

/-- `_release_reservations`: those of one lease, or all of the task without a lease. -/
def releaseReservations (lease : Option LeaseId) (now : Time) : State :=
  { s with reservations := s.reservations.mapRows fun k r =>
      if k.1 = t ∧ r.releasedAt = none ∧ (lease = none ∨ lease = some r.leaseToken) then
        { r with releasedAt := some now }
      else r }

/-- Take a resource key for a lease. -/
def reserve (key : ResourceKey) (row : Reservation) : State :=
  { s with reservations := s.reservations.upsert (t, key) row }

/-- The `UPDATE` of `reset_execution_attempt`. -/
def resetBinding (selected : Option Json) (epoch : Nat) (now : Time) : State :=
  { s with bindings := s.bindings.modify t fun b =>
      if b.status = .prepared then b
      else { b with
        attemptId := none, leaseId := none, fence := 0, executorId := none
        sessionId := s.lifecycle.bootId, runtimeEpoch := epoch
        selected := selected.getD b.selected
        placement := if selected.isSome then none else b.placement
        status := .prepared, updatedAt := now } }

/-- `release_execution_attempt`: a claimed binding becomes `released` or `stale`. -/
def releaseBinding (status : BindingStatus) (now : Time) : State :=
  { s with bindings := s.bindings.modify t fun b =>
      if b.status = .claimed then { b with status := status, updatedAt := now } else b }

/-- The `UPDATE` of `bind_execution_attempt`. -/
def claimBinding (a : AttemptId) (lease : LeaseId) (fence : Nat) (executor : ExecutorId)
    (epoch : Nat) (placement : Placement) (now : Time) : State :=
  { s with bindings := s.bindings.modify t fun b =>
      if b.status = .prepared then
        { b with attemptId := some a, leaseId := some lease, fence := fence,
                 executorId := some executor, runtimeEpoch := epoch, placement := some placement,
                 status := .claimed, updatedAt := now }
      else b }

/-- A fenced child's prepared binding. -/
def fenceChildBinding (now : Time) : State :=
  { s with bindings := s.bindings.modify t fun b =>
      if b.status = .prepared then { b with status := .stale, updatedAt := now } else b }

/-- A finalised owner stop closes the stale binding. -/
def closeStaleBinding (now : Time) : State :=
  { s with bindings := s.bindings.modify t fun b =>
      if b.status = .stale then { b with status := .released, updatedAt := now } else b }

/-- A recovered placement: the binding starts again on the replacement target. -/
def replaceBinding (target : Json) (now : Time) : State :=
  { s with bindings := s.bindings.modify t fun b =>
      if b.status = .claimed then b
      else { b with
        attemptId := none, leaseId := none, fence := 0, executorId := none
        sessionId := s.lifecycle.bootId, runtimeEpoch := s.lifecycle.runtimeEpoch
        selected := target, placement := none, status := .prepared, updatedAt := now } }

/-- A prepared binding belongs to the boot that serves it. -/
def refreshPrepared (boot : String) (epoch : Nat) (now : Time) : State :=
  { s with bindings := s.bindings.mapRows fun _ b =>
      if b.status = .prepared then
        { b with sessionId := boot, runtimeEpoch := epoch, updatedAt := now }
      else b }

end State

end WorkspaceRuntime
