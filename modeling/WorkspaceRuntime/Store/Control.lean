import WorkspaceRuntime.Store.Lease

/-!
# Control of runs, retries and owner stops

Cancelling and retrying a run, the capacity check of a delegated retry, and the finalisation of the
cancellations that a stopped local host owned.
-/

namespace WorkspaceRuntime

open Fallible

namespace State

/-! ## Retry capacity -/

/-- The active children in `delegated_child_accounting`. -/
def activeChildren (s : State) (parent : TaskId) (attempt : AttemptId) : Nat :=
  ((s.delegatedChildren parent (some attempt)).filter fun c =>
    !c.2.status.terminal || c.2.waitingReason = some .providerStateUnknown).length

/-- `child_delegation.limits.max_active_children`, which defaults to 64. -/
def maxActiveChildren (policy : Option Json) : Except Err Int := do
  let policy ← orThrow (policy.bind Json.asObj) (.keyError "child_delegation")
  match ((policy.get "limits").bind (·.get? "max_active_children")) with
  | none => return 64
  | some (.int n) => return n
  | some _ => .error (.keyError "max_active_children")

/-- `assert_delegated_retry_capacity`. -/
def assertDelegatedRetryCapacity (s : State) (t : TaskId) (now : Time) : Except Err Unit := do
  let spec ← s.loadSpec ((s.tasks.lookup t).bind (·.spec))
  match spec.delegatedParent with
  | none => return ()
  | some lineage =>
    let parent ← orThrow (s.tasks.lookup lineage.parentTaskId)
      (.lease "delegated child parent authority has ended")
    let parentSpec ← s.loadSpec parent.spec
    require (parent.status = .running ∧ parent.attemptId = some lineage.parentAttemptId ∧
        parent.leaseToken = some lineage.parentLeaseId ∧ parent.leaseFence = lineage.parentFence ∧
        parent.runtimeEpoch = some s.currentRuntimeEpoch ∧
        parentSpec.delegationClosedAttemptId ≠ some lineage.parentAttemptId)
      (.lease "delegated child parent authority has ended")
    require (∃ deadline ∈ parent.leaseExpiresAt, now < deadline)
      (.lease "delegated child parent lease has expired")
    let limit ← maxActiveChildren parentSpec.childDelegation
    require ((s.activeChildren lineage.parentTaskId lineage.parentAttemptId : Int) < limit)
      (.validation "parent active child count limit exceeded")

/-! ## Runs -/

/-- The tasks of a run in creation order. -/
def runTasks (s : State) (r : RunId) : List (TaskId × Task) :=
  (s.tasks.entries.filter fun e => e.2.runId = r).insertionSort createdBefore

/-- The row updates of one cancelled task of a run, after the attempt has been reconciled. -/
def cancelRunTaskRows (s : State) (t : TaskId) (task : Task) (bound : Bool) (now : Time) : State :=
  let cancelled := (s.cancelRow t now).releaseReservations t task.leaseToken now
  (if bound then cancelled.releaseBinding t .released now else cancelled).appendEvent
    task.runId (some t) (.cancelled none) now

/-- One round of the loop of `cancel_run`; `child` is the row the query read. -/
def cancelRunTask (now : Time) (s : State) (child : TaskId × Task) : Except Err State := do
  let t := child.1
  let task := child.2
  if task.status.terminal then
    return s
  else
    let contained ← s.containDelegatedChildren t none now
    let binding ← contained.executionBinding t
    if unresolvedExternal binding then
      return contained.requestCancelTask t task now
    else
      let reconciled ← contained.reconcileRuntimeAttempt t task.attemptId now
      (reconciled.cancelRunTaskRows t task binding.isSome now)
        |>.refreshContinuationsForPredecessor t now

/-- `cancel_run`. -/
def cancelRun (s : State) (r : RunId) (now : Time) : Except Err State := do
  let run ← orThrow (s.runs.lookup r) (.notFound "run not found")
  require (run.status = .queued ∨ run.status = .running) (.conflict "run is not cancellable")
  let cancelled ← (s.runTasks r).foldlM (cancelRunTask now) s
  return (cancelled.setRunStatus r .cancelled now).appendEvent r none .runCancelled now

/-- One round of the loop of `retry_run`; `child` is the row the query read. -/
def retryRunTask (now : Time) (s : State) (child : TaskId × Task) : Except Err State := do
  let t := child.1
  let task := child.2
  s.assertDelegatedRetryCapacity t now
  let released := s.releaseReservations t task.leaseToken now
  let reset ← released.resetExecutionAttempt t released.currentRuntimeEpoch now
  ((reset.retryRow t none now).appendEvent task.runId (some t) .retried now)
    |>.refreshContinuationsForPredecessor t now

/-- `retry_run`. -/
def retryRun (env : Env) (s : State) (r : RunId) (selected : Option (List TaskId)) :
    Except Err State := do
  let run ← orThrow (s.runs.lookup r) (.notFound "run not found")
  require (∀ ids ∈ selected, ∀ id ∈ ids, id ≠ "")
    (.invalidRequest "selected_task_ids must be an array of non-empty strings")
  require (∀ ids ∈ selected, ids.Nodup)
    (.invalidRequest "selected_task_ids must not contain duplicates")
  require (run.status = .failed) (.conflict "run is not retryable")
  require (env.now - days env.retentionDays ≤ run.updatedAt)
    (.conflict "run retry is unavailable after the task spec retention window")
  let children := s.runTasks r
  let eligible := children.filter fun c =>
    c.2.status = .failed && selected.all fun ids => c.1 ∈ ids
  require (∀ c ∈ eligible, c.2.spec ≠ none)
    (.conflict "run retry is unavailable after the task spec retention window")
  require (∀ ids ∈ selected, ∀ id ∈ ids, ∃ c ∈ children, c.1 = id)
    (.notFound "run child task not found")
  require (eligible ≠ []) (.conflict "run has no eligible failed children")
  let retried ← eligible.foldlM (retryRunTask env.now) s
  return (retried.setRunStatus r .queued env.now).appendEvent r none .runRetried env.now

end State

/-! ## Owner stops -/

/-- One task of a captured set, with the rows as they were captured. -/
structure CapturedEntry where
  taskId : TaskId
  task : Task
  run : Run
  attemptId : AttemptId
  attempt : Attempt
  binding : BindingView
  reservations : List (ResourceKey × Reservation)
  deriving DecidableEq

/-- The captured cancellations of one executor. -/
structure Captured where
  sameRealm : Bool
  executorId : ExecutorId
  runtimeEpoch : Nat
  entries : List CapturedEntry
  deriving DecidableEq

/-- A task row without the columns that a capture leaves out. -/
def Task.captured (row : Task) : Task :=
  { row with status := .queued, waitingReason := none, leaseExpiresAt := none, updatedAt := 0 }

/-- A run row without the columns that a capture leaves out. -/
def Run.captured (row : Run) : Run := { row with status := .queued, updatedAt := 0 }

/-- An attempt row without the columns that a capture leaves out. -/
def Attempt.captured (row : Attempt) : Attempt := { row with settled := false, leaseExpiresAt := 0 }

/-- A binding without the columns that a capture leaves out. -/
def BindingView.captured (view : BindingView) : BindingView :=
  { view with row := { view.row with status := .prepared, updatedAt := 0 } }

/-- A reservation without the columns that a capture leaves out. -/
def Reservation.captured (row : Reservation) : Reservation :=
  { row with releasedAt := none, leaseExpiresAt := 0 }

namespace State

/-- `_owned_cancellation_rows`: the tasks with outstanding work of the executor. -/
def ownedCancellationRows (s : State) (executor : ExecutorId) : List TaskId :=
  (s.tasks.entries.filter fun e =>
      e.2.executorId = some executor && e.2.status.leased).map (·.1)
    ++ (s.attempts.entries.filter fun e =>
      e.2.executorId = executor && !e.2.settled).map (·.2.taskId)
    ++ (s.reservations.entries.filter fun e =>
      e.2.executorId = executor && e.2.releasedAt = none).map (·.1.1)
    ++ (s.bindings.entries.filter fun e =>
      e.2.executorId = some executor && (e.2.status = .claimed || e.2.status = .stale)).map (·.1)

/-- The unsettled attempts of a task. -/
def unsettledAttempts (s : State) (t : TaskId) : List AttemptId :=
  (s.attempts.entries.filter fun e => e.2.taskId = t && !e.2.settled).map (·.1)

/-- The reservations of a task, in key order. -/
def taskReservations (s : State) (t : TaskId) : List (ResourceKey × Reservation) :=
  ((s.reservations.entries.filter fun e => e.1.1 = t).map fun e => (e.1.2, e.2)).insertionSort
    fun a b => a.1 ≤ b.1

/-- One round of the loop of `_capture_owned_local_cancellations`. -/
def captureEntry (s : State) (executor : ExecutorId) (placement : Placement) (now : Time)
    (t : TaskId) : Except Err CapturedEntry := do
  let foreign := Err.conflict "owned relinquish has unaccounted or foreign active work"
  let epoch := s.currentRuntimeEpoch
  let task ← orThrow (s.tasks.lookup t) (.conflict "owned cancellation task disappeared")
  let found ← s.executionBinding t
  let a ← orThrow task.attemptId foreign
  let attempt ← orThrow (s.attempts.lookup a) foreign
  let view ← orThrow found foreign
  require (task.status = .cancelRequested ∧ task.waitingReason = some .providerStateUnknown ∧
      attempt.settled = false ∧ view.row.status = .stale ∧ task.executorId = some executor ∧
      task.runtimeEpoch = some epoch ∧ attempt.taskId = t ∧ attempt.executorId = executor ∧
      some attempt.leaseId = task.leaseToken ∧ attempt.fence = task.leaseFence ∧
      attempt.runtimeEpoch = epoch ∧ view.row.attemptId = some a ∧
      view.row.leaseId = some attempt.leaseId ∧ view.row.fence = attempt.fence ∧
      view.row.executorId = some executor ∧ view.row.runtimeEpoch = epoch ∧
      view.row.placement = some placement ∧ placement.verified = true) foreign
  require ((∃ d ∈ task.leaseExpiresAt, now < d) ∧ now < attempt.leaseExpiresAt)
    (.conflict "owned cancellation lease was not live at capture")
  let reservations := (s.taskReservations t).filter (·.2.releasedAt = none)
  require (∀ r ∈ reservations, r.2.executorId = executor ∧ r.2.leaseToken = attempt.leaseId ∧
      r.2.fence = attempt.fence ∧ r.2.runtimeEpoch = epoch)
    (.conflict "owned cancellation reservation identity differs")
  require ((s.unsettledAttempts t).length = 1)
    (.conflict "owned cancellation has another unsettled attempt")
  let run ← orThrow (s.runs.lookup task.runId) (.conflict "owned cancellation run disappeared")
  return { taskId := t, task, run, attemptId := a, attempt, binding := view, reservations }

/-- `_capture_owned_local_cancellations`. -/
def captureOwnedLocalCancellations (s : State) (executor : ExecutorId) (placement : Placement)
    (now : Time) : Except Err Captured := do
  let ids := (s.ownedCancellationRows executor).dedup.insertionSort (· ≤ ·)
  let entries ← ids.mapM (s.captureEntry executor placement now)
  return { sameRealm := true, executorId := executor, runtimeEpoch := s.currentRuntimeEpoch, entries }

/-- The stop with this proof has already finalised the entry. -/
def finalized (s : State) (entry : CapturedEntry) (proof : String) : Bool :=
  s.events.any fun e => e.taskId = some entry.taskId &&
    e.kind = .cancelled (entry.task.attemptId.map fun a => (a, proof))
      && entry.task.attemptId.isSome

/-- A restart that kept this very attempt is on record. -/
def restartEvidenced (s : State) (entry : CapturedEntry) (epoch : Nat) : Bool :=
  s.events.any fun e => e.taskId = some entry.taskId &&
    e.kind = .runtimeRecovered epoch entry.task.attemptId entry.task.leaseFence true

/-- One round of `_validate_owned_local_cancellations`; the answer is whether the entry was
finalised before. -/
def validateCaptured (s : State) (captured : Captured) (proof : String) (entry : CapturedEntry) :
    Except Err Bool := do
  let gone := Err.conflict "owned cancellation identity disappeared"
  let task ← orThrow (s.tasks.lookup entry.taskId) gone
  let attempt ← orThrow (s.attempts.lookup entry.attemptId) gone
  let found ← s.executionBinding entry.taskId
  let view ← orThrow found gone
  let run ← orThrow (s.runs.lookup entry.task.runId) gone
  let replay := s.finalized entry proof
  require (run.captured = entry.run.captured)
    (.conflict "owned cancellation run identity changed")
  let expected := if replay then
    { entry.task with executorId := none, attemptId := none, leaseToken := none } else entry.task
  require (task.captured = expected.captured ∧ attempt.captured = entry.attempt.captured ∧
      view.captured = entry.binding.captured ∧
      task.status = (if replay then .cancelled else .cancelRequested) ∧
      attempt.settled = replay ∧
      view.row.status = (if replay then .released else .stale))
    (.conflict "owned cancellation identity changed during cleanup")
  require (replay ∨ task.waitingReason = some .providerStateUnknown)
    (.conflict "owned cancellation request changed")
  require (replay ∨ task.leaseExpiresAt ≠ none ∨ s.restartEvidenced entry captured.runtimeEpoch)
    (.conflict "owned cancellation has no evidenced restart")
  require (s.unsettledAttempts entry.taskId =
      if replay then [] else entry.task.attemptId.toList)
    (.conflict "owned cancellation has another unsettled attempt")
  let reservations := s.taskReservations entry.taskId
  let current := reservations.filter fun r => some r.2.leaseToken = entry.task.leaseToken
  require ((∀ r ∈ reservations, r.2.releasedAt = none → some r.2.leaseToken = entry.task.leaseToken)
      ∧ current.map (fun r => (r.1, r.2.captured)) =
        entry.reservations.map (fun r => (r.1, r.2.captured))
      ∧ (∀ r ∈ current, r.2.releasedAt.isSome = replay))
    (.conflict "owned cancellation reservations changed")
  return replay

/-- `_validate_owned_local_cancellations`; the answer is whether the whole set was finalised
before. -/
def validateOwnedLocalCancellations (s : State) (captured : Captured) (proof : String) :
    Except Err Bool := do
  require (captured.sameRealm = true) (.conflict "owned cancellation realm differs")
  let ids := captured.entries.map (·.taskId)
  require (ids.Nodup ∧ ∀ t ∈ s.ownedCancellationRows captured.executorId, t ∈ ids)
    (.conflict "owned cancellation set has additional work")
  let phases ← captured.entries.mapM (s.validateCaptured captured proof)
  require (¬(true ∈ phases ∧ false ∈ phases))
    (.conflict "owned cancellation set was only partially finalized")
  return decide (true ∈ phases)

/-- One round of the loop of `_finalize_owned_local_cancellations`. -/
def finalizeEntry (proof : String) (now : Time) (s : State) (entry : CapturedEntry) :
    Except Err State := do
  let t := entry.taskId
  let settled := match entry.task.attemptId with
    | some a => s.settleAttemptRow a
    | none => s
  let released := settled.releaseReservations t entry.task.leaseToken now
  require (∃ b ∈ released.bindings.lookup t, b.bindingId = entry.binding.row.bindingId ∧
      b.attemptId = entry.task.attemptId ∧ b.attemptId ≠ none ∧ b.status = .stale)
    (.conflict "owned cancellation placement changed")
  (((released.closeStaleBinding t now).cancelRow t now).setRunStatus entry.task.runId .cancelled
      now |>.appendEvent entry.task.runId (some t)
        (.cancelled (entry.task.attemptId.map fun a => (a, proof))) now)
    |>.refreshContinuationsForPredecessor t now

/-- `_finalize_owned_local_cancellations`. -/
def finalizeOwnedLocalCancellations (s : State) (captured : Captured) (proof : String)
    (now : Time) : Except Err State := do
  if ← s.validateOwnedLocalCancellations captured proof then
    return s
  else
    captured.entries.foldlM (finalizeEntry proof now) s

end State

end WorkspaceRuntime
