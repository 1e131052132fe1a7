import WorkspaceRuntime.Store.Continuation

/-!
# Delegated children and cancellation

A running attempt may admit child tasks. When the attempt ends, its children are contained: its
delegation is closed and every child that still runs is cancelled, which contains the child's own
children in turn. `cancelTask` and `containWith` are therefore mutually recursive; the recursion is
on the number of nested calls the interpreter allows.
-/

namespace WorkspaceRuntime

open Fallible

/-- The interpreter's limit on nested cancellations. -/
def nestedCallLimit : Nat := 100

/-- The order `created_at, id`. -/
def createdBefore (a b : TaskId × Task) : Prop :=
  a.2.createdAt < b.2.createdAt ∨ (a.2.createdAt = b.2.createdAt ∧ a.1 ≤ b.1)

instance : DecidableRel createdBefore := fun _ _ => inferInstanceAs (Decidable (_ ∨ _))

namespace State

/-- The lineage of a task whose spec is stored. -/
def lineageOf (s : State) (row : Task) : Option Lineage :=
  (row.spec.filter (· ∈ s.specs)).bind (·.delegatedParent)

/-- The task was delegated by the parent, under this attempt if one is given. -/
def delegatedBy (s : State) (parent : TaskId) (attempt : Option AttemptId) (row : Task) : Bool :=
  match s.lineageOf row with
  | some lineage =>
    lineage.parentTaskId = parent && (attempt.isNone || attempt = some lineage.parentAttemptId)
      && (s.runs.lookup row.runId).isSome
  | none => false

/-- `delegated_children`. -/
def delegatedChildren (s : State) (parent : TaskId) (attempt : Option AttemptId) :
    List (TaskId × Task) :=
  (s.tasks.entries.filter fun e => s.delegatedBy parent attempt e.2).insertionSort createdBefore

/-- The first half of `contain_delegated_children`: the parent's delegation is closed. -/
def closeDelegation (s : State) (parent : TaskId) (attempt : Option AttemptId) : Except Err State :=
  match s.tasks.lookup parent with
  | none => .ok s
  | some row => do
    let spec ← s.loadSpec row.spec
    return if spec.childDelegation.isSome ∧ (attempt = none ∨ row.attemptId = attempt) then
        s.putTaskSpec parent
          { spec with delegationClosedAttemptId := attempt.orElse fun _ => row.attemptId }
      else s

/-- One round of the loop of `contain_delegated_children`; `child` is the row the query read. -/
def containChild (cancel : State → TaskId → Except Err State) (parent : TaskId) (now : Time)
    (s : State) (child : TaskId × Task) : Except Err State :=
  if child.2.status.terminal ∨ child.2.status = .cancelRequested then .ok s
  else do
    let cancelled ← cancel s child.1
    return cancelled.appendEvent child.2.runId (some child.1) (.parentContained parent) now

/-- `contain_delegated_children`, with the cancellation it calls. -/
def containWith (cancel : State → TaskId → Except Err State) (s : State) (parent : TaskId)
    (attempt : Option AttemptId) (now : Time) : Except Err State := do
  let closed ← s.closeDelegation parent attempt
  (closed.delegatedChildren parent attempt).foldlM (containChild cancel parent now) closed

/-- `_reconcile_runtime_attempt`, with the cancellation it calls. -/
def reconcileWith (cancel : State → TaskId → Except Err State) (s : State) (t : TaskId)
    (attempt : Option AttemptId) (now : Time) : Except Err State :=
  match attempt with
  | none => .ok s
  | some a => do
    let contained ← s.containWith cancel t (some a) now
    return contained.settleAttemptOf t a

/-- The attempt that `_reconcile_runtime_attempt` reports. -/
def reconciledAttempt (s : State) (t : TaskId) (attempt : Option AttemptId) : Option AttemptId :=
  attempt.filter fun a => ((s.attempts.lookup a).map (·.taskId)) = some t

/-- The end of a cancel whose external stop is not confirmed. -/
def requestCancelTask (s : State) (t : TaskId) (task : Task) (now : Time) : State :=
  ((s.requestCancel t now).releaseBinding t .stale now).appendEvent task.runId (some t)
    .cancelRequested now

/-- The row updates of a cancel, after the attempt has been reconciled. -/
def cancelTaskRows (s : State) (t : TaskId) (task : Task) (bound : Bool) (now : Time) : State :=
  let cancelled := ((s.cancelRow t now).setRunStatus task.runId .cancelled now).releaseReservations
    t task.leaseToken now
  (if bound then cancelled.releaseBinding t .released now else cancelled).appendEvent
    task.runId (some t) (.cancelled none) now

/-- `cancel_task`. -/
def cancelTask (now : Time) : Nat → State → TaskId → Except Err State
  | 0, _, _ => .error .recursion
  | depth + 1, s, t => do
    let task ← orThrow (s.tasks.lookup t) (.notFound "task not found")
    if task.status = .completed ∨ task.status = .cancelRequested ∨ task.status = .cancelled then
      let _ ← s.getTask t
      return s
    else
      let contained ← s.containWith (cancelTask now depth) t none now
      let binding ← contained.executionBinding t
      if unresolvedExternal binding then
        let requested := contained.requestCancelTask t task now
        let _ ← requested.getTask t
        return requested
      else
        let reconciled ← contained.reconcileWith (cancelTask now depth) t task.attemptId now
        let refreshed ← (reconciled.cancelTaskRows t task binding.isSome now)
          |>.refreshContinuationsForPredecessor t now
        let _ ← refreshed.getTask t
        return refreshed

/-- `contain_delegated_children`. -/
def containDelegatedChildren (s : State) (parent : TaskId) (attempt : Option AttemptId)
    (now : Time) : Except Err State :=
  s.containWith (cancelTask now nestedCallLimit) parent attempt now

/-- `_reconcile_runtime_attempt`. -/
def reconcileRuntimeAttempt (s : State) (t : TaskId) (attempt : Option AttemptId) (now : Time) :
    Except Err State :=
  s.reconcileWith (cancelTask now nestedCallLimit) t attempt now

/-- `_current_runtime_epoch`. -/
def currentRuntimeEpoch (s : State) : Nat := s.lifecycle.runtimeEpoch

/-- The parent attempt of a delegated child still holds its authority, as
`_contain_orphaned_delegations` sees it. -/
def delegationLive (s : State) (lineage : Lineage) (now : Time) : Except Err Bool :=
  match s.tasks.lookup lineage.parentTaskId with
  | none => .ok false
  | some parent => do
    let spec ← s.loadSpec parent.spec
    let run ← orThrow (s.runs.lookup parent.runId) (.keyError "run")
    return match s.attempts.lookup lineage.parentAttemptId with
    | none => false
    | some attempt =>
      parent.status = .running
        && parent.attemptId = some lineage.parentAttemptId
        && parent.leaseToken = some lineage.parentLeaseId
        && parent.leaseFence = lineage.parentFence
        && parent.runtimeEpoch = some s.currentRuntimeEpoch
        && s.currentRuntimeEpoch = lineage.runtimeEpoch
        && spec.delegationClosedAttemptId ≠ some lineage.parentAttemptId
        && run.projectId = lineage.projectId
        && parent.executorId = some lineage.executorId
        && !attempt.settled
        && attempt.leaseId = lineage.parentLeaseId
        && attempt.fence = lineage.parentFence
        && attempt.runtimeEpoch = lineage.runtimeEpoch
        && attempt.executorId = lineage.executorId
        && (lineage.policy.isNone || spec.childDelegation = lineage.policy)
        && parent.leaseExpiresAt.any (now < ·)

/-- One round of `_contain_orphaned_delegations`; `child` is the row the query read. -/
def containOrphan (now : Time) (s : State) (child : TaskId × Task) : Except Err State := do
  let spec ← s.loadSpec child.2.spec
  let lineage ← orThrow spec.delegatedParent (.keyError "delegated_parent")
  if ← s.delegationLive lineage now then
    return s
  else
    s.containDelegatedChildren lineage.parentTaskId (some lineage.parentAttemptId) now

/-- `_contain_orphaned_delegations`. -/
def containOrphanedDelegations (s : State) (now : Time) : Except Err State :=
  (s.tasks.entries.filter fun e => !e.2.status.terminal && (s.lineageOf e.2).isSome).foldlM
    (containOrphan now) s

end State

end WorkspaceRuntime
